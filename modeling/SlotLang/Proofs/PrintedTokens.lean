import SlotLang.Proofs.TiledText

/-!
# Printed tokens are scanned back

The text of a kind of token, as it is shown in messages, is also one of its written forms, as
long as there is one: the text of a negative integer is two tokens, and the end of a text is
only named.  So tokens may be printed with blanks between them, any blanks and as many as one
likes, and the lexer finds the same tokens again.

* `TokenKind.Printable` — the kinds that can stand in a text.
* `TokenKind.printAll` — the text of kinds in a row, with what separates them.
* `TokenKind.Printable.writtenAs` — the text of a kind is a written form of it.
* `Token.scan_printAll` — the lexer finds the kinds that were printed.
-/

namespace SlotLang

namespace TokenKind

/-- The kinds of token that a source can hold, by what the lexer takes for them. -/
def Printable : TokenKind → Prop
  | word text => text ≠ "" ∧ ∀ c ∈ text.toList, Text.isLetter c = true ∨ c = '_'
  | string text => '"' ∉ text.toList
  | integer value => 0 ≤ value.toInt
  | eof => False
  | _ => True

instance : DecidablePred Printable
  | word text =>
      -- Not by search: there is also an instance that goes through all characters there are.
      haveI : Decidable (∀ c ∈ text.toList, Text.isLetter c = true ∨ c = '_') :=
        List.decidableBAll _ _
      inferInstanceAs (Decidable (_ ∧ _))
  | string _ => inferInstanceAs (Decidable (_ ∉ _))
  | integer value => inferInstanceAs (Decidable (0 ≤ value.toInt))
  | eof => .isFalse id
  | plus => .isTrue trivial
  | minus => .isTrue trivial
  | star => .isTrue trivial
  | slash => .isTrue trivial
  | semicolon => .isTrue trivial
  | equals => .isTrue trivial

/-- The texts of the kinds in a row, with a separator after each but the last. -/
def printAll (separator : Nat → String) : List TokenKind → String
  | [] => ""
  | [kind] => kind.text
  | kind :: next :: rest =>
      kind.text ++ separator 0 ++ printAll (fun i => separator (i + 1)) (next :: rest)

/-- The digits of an integer that is not negative stand for it. -/
theorem writtenAs_integer {value : Int32} (hvalue : 0 ≤ value.toInt) :
    (integer value).WrittenAs (Text.Decimal.ofInt32 value).toList := by
  rw [Text.Decimal.ofInt32, String.toList_ofList]
  cases hint : value.toInt with
  | ofNat n =>
      refine .integer Nat.toDigits_ne_nil ?_ ?_
      · intro c hc
        exact Nat.isDigit_of_mem_toDigits (by decide) (by decide) hc
      · rw [Text.Decimal.value, Text.Decimal.write, Nat.ofDigitChars_ten_toDigits, hint]
        rfl
  | negSucc n =>
      rw [hint] at hvalue
      exact absurd hvalue (by simp)

/-- The text of a kind is one of its written forms. -/
theorem Printable.writtenAs {kind : TokenKind} (hprintable : kind.Printable) :
    kind.WrittenAs kind.text.toList := by
  cases kind with
  | word text =>
      obtain ⟨hne, hletters⟩ := hprintable
      have hwritten : WrittenAs (.word (String.ofList text.toList)) text.toList := by
        refine .word (fun hnil => hne (String.toList_eq_nil_iff.mp hnil)) fun c hc => ?_
        simpa [Text.isWordCharacter] using hletters c hc
      rwa [String.ofList_toList] at hwritten
  | string text =>
      have hwritten : WrittenAs (.string (String.ofList text.toList))
          ('"' :: text.toList ++ ['"']) := .string hprintable
      rw [String.ofList_toList] at hwritten
      simpa [TokenKind.text] using hwritten
  | integer value => exact writtenAs_integer hprintable
  | eof => exact hprintable.elim
  | _ => exact .operator rfl

end TokenKind

/-- A text that separates tokens: blanks, at least one. -/
def Text.Separates (text : String) : Prop :=
  text ≠ "" ∧ ∀ c ∈ text.toList, isBlank c = true

theorem tiles_of_blanks {offset : Nat} {blanks : List Char}
    (hblanks : ∀ c ∈ blanks, Text.isBlank c = true) : Tiles offset blanks [] := by
  induction blanks generalizing offset with
  | nil => exact .done offset
  | cons c rest ih =>
      obtain ⟨hblank, hrest⟩ := List.forall_mem_cons.mp hblanks
      exact .blank hblank (ih hrest)

/-- A written form and blanks behind it are the one token. -/
theorem TokenKind.WrittenAs.tiles {kind : TokenKind} {text blanks : List Char}
    (hwritten : kind.WrittenAs text) (hblanks : ∀ c ∈ blanks, Text.isBlank c = true)
    (offset : Nat) :
    Tiles offset (text ++ blanks) [⟨kind, ⟨offset, offset + Text.byteLength text⟩⟩] := by
  refine .token hwritten (hwritten.endsBefore_iff_apart.mpr fun c _ d hd => ?_)
    (tiles_of_blanks hblanks)
  have hblank : Text.isBlank d = true := hblanks d (List.mem_of_mem_head? hd)
  exact ⟨fun _ => Text.isWordCharacter_eq_false_of_isBlank hblank,
    fun _ => Text.isDigit_eq_false_of_isBlank hblank⟩

/-- The lexer finds printed kinds at every offset. -/
theorem exists_scanFrom_printAll {kinds : List TokenKind} {separator : Nat → String}
    (hkinds : ∀ kind ∈ kinds, kind.Printable)
    (hseparator : ∀ i, i + 1 < kinds.length → Text.Separates (separator i)) (offset : Nat) :
    ∃ tokens, scanFrom offset (TokenKind.printAll separator kinds).toList = .ok tokens ∧
      tokens.map Token.kind = kinds ++ [.eof] := by
  induction kinds generalizing separator offset with
  | nil => exact ⟨_, (Tiles.done offset).scanFrom_eq, rfl⟩
  | cons kind rest ih =>
      obtain ⟨hkind, hrest⟩ := List.forall_mem_cons.mp hkinds
      have hwritten := hkind.writtenAs
      cases rest with
      | nil =>
          have htiles := hwritten.tiles (List.forall_mem_nil _) offset
          rw [List.append_nil] at htiles
          exact ⟨_, htiles.scanFrom_eq, rfl⟩
      | cons next rest =>
          obtain ⟨hne, hblanks⟩ := hseparator 0 (by simp)
          have htiles := hwritten.tiles hblanks offset
          -- The separator keeps the first kind apart from whatever comes next.
          have hlast : (separator 0).toList ≠ [] :=
            fun hnil => hne (String.toList_eq_nil_iff.mp hnil)
          have hapart : Apart (kind.text.toList ++ (separator 0).toList)
              (TokenKind.printAll (fun i => separator (i + 1)) (next :: rest)).toList := by
            refine .of_blank ?_ (hblanks _ (List.getLast_mem hlast))
            rw [List.getLast?_append_of_ne_nil _ hlast, List.getLast?_eq_some_getLast hlast]
          obtain ⟨tokens, hscan, htokens⟩ := ih hrest
            (fun i hi => hseparator (i + 1) (by simpa using hi))
            (offset + Text.byteLength (kind.text.toList ++ (separator 0).toList))
          have htext : TokenKind.printAll separator (kind :: next :: rest) =
              kind.text ++ separator 0 ++
                TokenKind.printAll (fun i => separator (i + 1)) (next :: rest) := rfl
          rw [htext, String.toList_append, String.toList_append, htiles.scanFrom_append hapart,
            hscan]
          exact ⟨_, rfl, congrArg (kind :: ·) htokens⟩

/-- The lexer undoes printing.  Kinds of token are printed in a row with blanks between them,
which may be other blanks at each place; the lexer finds these kinds, in this order, and
nothing else before the end of the text. -/
theorem Token.scan_printAll {kinds : List TokenKind} {separator : Nat → String}
    (hkinds : ∀ kind ∈ kinds, kind.Printable)
    (hseparator : ∀ i, i + 1 < kinds.length → Text.Separates (separator i)) :
    ∃ tokens, Token.scan (TokenKind.printAll separator kinds) = .ok tokens ∧
      tokens.map Token.kind = kinds ++ [.eof] :=
  exists_scanFrom_printAll hkinds hseparator 0

/-- Words of letters outside of ASCII and of a keyword, a string with a line break and
operators in it, an empty one, and the largest integer. -/
def TokenKind.assorted : List TokenKind :=
  [.word "größe_", .word "end", .equals, .string "a;\n 1+", .integer 2147483647, .integer 0,
    .minus, .string ""]

/-- A wide blank of three bytes at first, and a line break and a tab from then on. -/
def Text.mixedBlanks (i : Nat) : String :=
  if i = 0 then "　" else "\n\t"

theorem Token.assorted_scan_printAll :
    (∀ kind ∈ TokenKind.assorted, kind.Printable) ∧ (∀ i, Text.Separates (Text.mixedBlanks i)) ∧
      ∃ tokens, Token.scan (TokenKind.printAll Text.mixedBlanks TokenKind.assorted) = .ok tokens ∧
        tokens.map Token.kind = TokenKind.assorted ++ [.eof] := by
  have hkinds : ∀ kind ∈ TokenKind.assorted, kind.Printable := by decide +kernel
  have hseparator : ∀ i, Text.Separates (Text.mixedBlanks i) := by
    intro i
    unfold Text.mixedBlanks Text.Separates
    split
    · exact ⟨by decide, List.all_eq_true.mp (by decide +kernel)⟩
    · exact ⟨by decide, List.all_eq_true.mp (by decide +kernel)⟩
  exact ⟨hkinds, hseparator, Token.scan_printAll hkinds fun i _ => hseparator i⟩

end SlotLang

import SlotLang.CodeModule.Listing
import SlotLang.Proofs.IntegerText
import SlotLang.Proofs.QuotedText

/-!
# Listings are faithful

The listing of a module shows all there is to know about it, but for where its name ends and
the name of its procedure begins.  No line breaks inside, whatever the constants are, so the
lines of the text are those of the slots, the constants and the instructions.  The third
character of a line tells which of these it belongs to, and the rest of the line shows the
one thing it is about and nothing else in the same way.

* `Value.listed_inj`, `Instruction.text_inj` — constants and instructions do not look alike.
* `Listing.sections_inj` — the three parts of a listing can be told apart.
* `splitOn_newline` — the lines of a text.
* `CodeModule.listing_faithful` — what a listing shows.
-/

namespace SlotLang

/-! ## Numbers -/

theorem Text.Decimal.newline_notMem_toDigits (n : Nat) : '\n' ∉ Nat.toDigits 10 n := by
  intro hmem
  have hblank := (Numeral.unsigned (digits_toDigits n)).not_blank _ hmem
  exact absurd hblank (by decide)

/-! ## Constants -/

namespace Value

theorem toList_listed_int (n : Int32) :
    (int n).listed.toList = Text.Decimal.write n.toInt := by
  rw [listed, Text.Decimal.ofInt32, String.toList_ofList]

theorem toList_listed_string (text : String) :
    (string text).listed.toList = Text.quote text.toList := by
  rw [listed, Text.quoted, String.toList_ofList]

/-- What is shown of an integer does not begin with a quote. -/
theorem listed_int_ne_string (n : Int32) (text : String) :
    (int n).listed ≠ (string text).listed := by
  intro heq
  have hlists := congrArg String.toList heq
  rw [toList_listed_int, toList_listed_string] at hlists
  have hnumeral := Text.Decimal.numeral_write n.toInt
  rw [hlists] at hnumeral
  generalize n.toInt = value at hnumeral
  cases hnumeral with
  | unsigned hdigits => exact absurd (hdigits.2 '"' List.mem_cons_self).1 (by decide)

/-- Constants that are shown in the same way are the same. -/
theorem listed_inj {first second : Value} (heq : first.listed = second.listed) :
    first = second := by
  cases first with
  | int n =>
      cases second with
      | int k =>
          have hlists := congrArg (fun text => Text.Decimal.read text.toList) heq
          simp only [toList_listed_int,
            Text.Decimal.read_eq_some_iff.mpr (Text.Decimal.numeral_write _)] at hlists
          rw [Int32.toInt_inj.mp (Option.some.inj hlists)]
      | string text => exact absurd heq (listed_int_ne_string n text)
  | string text =>
      cases second with
      | int n => exact absurd heq.symm (listed_int_ne_string n text)
      | string other =>
          have hlists := congrArg String.toList heq
          rw [toList_listed_string, toList_listed_string] at hlists
          rw [String.toList_inj.mp (Text.quote_inj hlists)]

theorem newline_notMem_listed (value : Value) : '\n' ∉ value.listed.toList := by
  cases value with
  | int n =>
      rw [toList_listed_int]
      intro hmem
      exact absurd ((Text.Decimal.numeral_write n.toInt).not_blank _ hmem) (by decide)
  | string text =>
      rw [toList_listed_string]
      exact Text.newline_notMem_quote text.toList

end Value

/-! ## Instructions -/

namespace Instruction

/-- The text of an instruction in front of its operand. -/
def mnemonic : Instruction → String
  | constant _ => "const #"
  | loadLocal _ => "load $"
  | storeLocal _ => "store $"
  | addInt => "add"
  | intToString => "int_to_string"
  | callHost .writeLine => "call write_line"
  | callHost .readLine => "call read_line"
  | callHost .parseInt => "call parse_int"
  | jump _ => "jump @"
  | branchIfLess _ => "branch_lt @"
  | ret => "ret"

/-- The instruction with a mnemonic and an operand. -/
def ofMnemonic (operand : UInt32) : String → Instruction
  | "const #" => constant operand
  | "load $" => loadLocal operand
  | "store $" => storeLocal operand
  | "add" => addInt
  | "int_to_string" => intToString
  | "call write_line" => callHost .writeLine
  | "call read_line" => callHost .readLine
  | "call parse_int" => callHost .parseInt
  | "jump @" => jump operand
  | "branch_lt @" => branchIfLess operand
  | _ => ret

/-- The number that an instruction has for its operand. -/
def operand? : Instruction → Option UInt32
  | constant index => some index
  | loadLocal slot => some slot
  | storeLocal slot => some slot
  | jump target => some target
  | branchIfLess target => some target
  | _ => none

/-- The digits of an operand, if there is one. -/
def operandDigits (instruction : Instruction) : List Char :=
  match instruction.operand? with
  | some n => Nat.toDigits 10 n.toNat
  | none => []

theorem toList_text (instruction : Instruction) :
    instruction.text.toList = instruction.mnemonic.toList ++ instruction.operandDigits := by
  cases instruction with
  | callHost function => cases function <;> rfl
  | addInt => rfl
  | intToString => rfl
  | ret => rfl
  | _ => simp only [text, mnemonic, operandDigits, operand?, Text.Decimal.ofNat,
      String.toList_append, String.toList_ofList]

/-- An instruction is its mnemonic and its operand. -/
theorem ofMnemonic_mnemonic (instruction : Instruction) :
    ofMnemonic (instruction.operand?.getD 0) instruction.mnemonic = instruction := by
  cases instruction with
  | callHost function => cases function <;> rfl
  | _ => rfl

/-- A mnemonic has no digits and is on one line. -/
theorem mnemonic_characters (instruction : Instruction) :
    ∀ c ∈ instruction.mnemonic.toList, (!c.isDigit) = true ∧ c ≠ '\n' := by
  have hall : (["const #", "load $", "store $", "add", "int_to_string", "call write_line",
      "call read_line", "call parse_int", "jump @", "branch_lt @", "ret"].all fun text =>
        text.toList.all fun c => !c.isDigit && c != '\n') = true := by decide +kernel
  simp only [List.all_eq_true, Bool.and_eq_true, bne_iff_ne] at hall
  refine hall _ ?_
  cases instruction with
  | callHost function => cases function <;> simp [mnemonic]
  | _ => simp [mnemonic]

theorem isDigit_operandDigits (instruction : Instruction) :
    ∀ c ∈ instruction.operandDigits, c.isDigit = true := by
  unfold operandDigits
  split
  · exact fun c hc => Nat.isDigit_of_mem_toDigits (by decide) (by decide) hc
  · exact List.forall_mem_nil _

theorem operandDigits_inj {first second : Instruction}
    (heq : first.operandDigits = second.operandDigits) : first.operand? = second.operand? := by
  unfold operandDigits at heq
  split at heq
  next n hfirst =>
      split at heq
      next k hsecond =>
          rw [hfirst, hsecond, UInt32.toNat_inj.mp (Text.toDigits_inj (by decide) (by decide) heq)]
      next => exact absurd heq Nat.toDigits_ne_nil
  next hfirst =>
      split at heq
      next => exact absurd heq.symm Nat.toDigits_ne_nil
      next hsecond => rw [hfirst, hsecond]

/-- Instructions that are shown in the same way are the same. -/
theorem text_inj {first second : Instruction} (heq : first.text = second.text) :
    first = second := by
  have hlists := congrArg String.toList heq
  rw [toList_text, toList_text] at hlists
  have hstop : ∀ instruction : Instruction, ∀ c ∈ instruction.operandDigits.head?,
      (!c.isDigit) = false := by
    intro instruction c hc
    rw [instruction.isDigit_operandDigits c (List.mem_of_mem_head? hc)]
    rfl
  obtain ⟨hmnemonic, hdigits⟩ := run_append_inj (fun c hc => (first.mnemonic_characters c hc).1)
    (fun c hc => (second.mnemonic_characters c hc).1) (hstop first) (hstop second) hlists
  rw [← first.ofMnemonic_mnemonic, ← second.ofMnemonic_mnemonic,
    String.toList_inj.mp hmnemonic, operandDigits_inj hdigits]

theorem newline_notMem_text (instruction : Instruction) : '\n' ∉ instruction.text.toList := by
  rw [toList_text, List.mem_append]
  rintro (hmem | hmem)
  · exact (instruction.mnemonic_characters _ hmem).2 rfl
  · exact absurd (instruction.isDigit_operandDigits _ hmem) (by decide)

end Instruction

/-! ## Lines -/

theorem ValueType.text_inj {first second : ValueType} (heq : first.text = second.text) :
    first = second := by
  cases first <;> cases second <;> simp_all [text]

namespace Listing

/-- The third character of a line, which tells what the line is about. -/
def mark (line : String) : Option Char :=
  line.toList[2]?

/-- The number of an instruction has blanks and digits only, and it is not empty. -/
theorem alignRight_toDigits (index : Nat) :
    ∃ first rest, alignRight (Nat.toDigits 10 index) = first :: rest ∧
      ∀ c ∈ first :: rest, c = ' ' ∨ c.isDigit = true := by
  have hall : ∀ c ∈ alignRight (Nat.toDigits 10 index), c = ' ' ∨ c.isDigit = true := by
    intro c hc
    rcases List.mem_append.mp hc with hc | hc
    · exact .inl (List.eq_of_mem_replicate hc)
    · exact .inr (Nat.isDigit_of_mem_toDigits (by decide) (by decide) hc)
  cases hfront : alignRight (Nat.toDigits 10 index) with
  | nil => exact absurd (List.append_eq_nil_iff.mp hfront).2 Nat.toDigits_ne_nil
  | cons first rest => exact ⟨first, rest, rfl, hfront ▸ hall⟩

theorem mark_localLine (type : ValueType) (index : Nat) :
    mark (localLine type index) = some 'l' := by
  simp [mark, localLine]

theorem mark_constantLine (constant : Value) (index : Nat) :
    mark (constantLine constant index) = some 'c' := by
  simp [mark, constantLine]

theorem mark_instructionLine (instruction : Instruction) (index : Nat) :
    mark (instructionLine instruction index) ≠ some 'l' ∧
      mark (instructionLine instruction index) ≠ some 'c' := by
  obtain ⟨first, rest, hnumber, hall⟩ := alignRight_toDigits index
  have hmark : mark (instructionLine instruction index) = some first := by
    simp [mark, instructionLine, hnumber]
  rw [hmark, ne_eq, ne_eq, Option.some.injEq, Option.some.injEq]
  rcases hall first List.mem_cons_self with rfl | hdigit
  · exact ⟨by decide, by decide⟩
  · constructor
    · rintro rfl
      exact absurd hdigit (by decide)
    · rintro rfl
      exact absurd hdigit (by decide)

theorem newline_notMem_localLine (type : ValueType) (index : Nat) :
    '\n' ∉ (localLine type index).toList := by
  have htext : '\n' ∉ type.text.toList := by cases type <;> decide
  simp [localLine, Text.Decimal.ofNat, Text.Decimal.newline_notMem_toDigits, htext]

theorem newline_notMem_constantLine (constant : Value) (index : Nat) :
    '\n' ∉ (constantLine constant index).toList := by
  simp [constantLine, Text.Decimal.ofNat, Text.Decimal.newline_notMem_toDigits,
    constant.newline_notMem_listed]

theorem newline_notMem_instructionLine (instruction : Instruction) (index : Nat) :
    '\n' ∉ (instructionLine instruction index).toList := by
  obtain ⟨first, rest, hnumber, hall⟩ := alignRight_toDigits index
  have hfront : '\n' ∉ first :: rest := fun hmem => absurd (hall _ hmem) (by decide)
  simp only [instructionLine, hnumber, String.toList_append, String.toList_ofList,
    List.mem_append, hfront, instruction.newline_notMem_text, or_false]
  decide

/-- The lines of the slots, the constants and the instructions, in this order. -/
structure Sections (locals constants code : List String) : Prop where
  locals : ∀ line ∈ locals, mark line = some 'l'
  constants : ∀ line ∈ constants, mark line = some 'c'
  code : ∀ line ∈ code, mark line ≠ some 'l' ∧ mark line ≠ some 'c'

namespace Sections

variable {locals constants code : List String} (hsections : Sections locals constants code)

include hsections

theorem filter_locals :
    (locals ++ constants ++ code).filter (fun line => mark line == some 'l') = locals := by
  have hconstants : constants.filter (fun line => mark line == some 'l') = [] :=
    List.filter_eq_nil_iff.mpr fun line hline => by simp [hsections.constants line hline]
  have hcode : code.filter (fun line => mark line == some 'l') = [] :=
    List.filter_eq_nil_iff.mpr fun line hline => by simp [(hsections.code line hline).1]
  rw [List.filter_append, List.filter_append, hconstants, hcode, List.append_nil, List.append_nil]
  exact List.filter_eq_self.mpr fun line hline => by simp [hsections.locals line hline]

theorem filter_constants :
    (locals ++ constants ++ code).filter (fun line => mark line == some 'c') = constants := by
  have hlocals : locals.filter (fun line => mark line == some 'c') = [] :=
    List.filter_eq_nil_iff.mpr fun line hline => by simp [hsections.locals line hline]
  have hcode : code.filter (fun line => mark line == some 'c') = [] :=
    List.filter_eq_nil_iff.mpr fun line hline => by simp [(hsections.code line hline).2]
  rw [List.filter_append, List.filter_append, hlocals, hcode, List.append_nil, List.nil_append]
  exact List.filter_eq_self.mpr fun line hline => by simp [hsections.constants line hline]

end Sections

/-- The three parts of a listing can be told apart. -/
theorem sections_inj {locals locals' constants constants' code code' : List String}
    (hsections : Sections locals constants code) (hsections' : Sections locals' constants' code')
    (heq : locals ++ constants ++ code = locals' ++ constants' ++ code') :
    locals = locals' ∧ constants = constants' ∧ code = code' := by
  have hlocals : locals = locals' := by
    rw [← hsections.filter_locals, heq, hsections'.filter_locals]
  have hconstants : constants = constants' := by
    rw [← hsections.filter_constants, heq, hsections'.filter_constants]
  subst hlocals hconstants
  exact ⟨rfl, rfl, List.append_cancel_left heq⟩

/-- The numbered lines of a list show its items, if a line shows its item. -/
theorem numbered_inj {α : Type} {line : α → Nat → String}
    (hline : ∀ a b index, line a index = line b index → a = b) {first second : List α}
    {start : Nat}
    (heq : (first.zipIdx start).map (fun item => line item.1 item.2) =
      (second.zipIdx start).map (fun item => line item.1 item.2)) : first = second := by
  induction first generalizing second start with
  | nil =>
      cases second with
      | nil => rfl
      | cons b others => cases heq
  | cons a rest ih =>
      cases second with
      | nil => cases heq
      | cons b others =>
          simp only [List.zipIdx_cons, List.map_cons, List.cons.injEq] at heq
          rw [hline a b start heq.1, ih heq.2]

end Listing

/-- A text of whole lines is cut into these lines, and nothing is left behind the last. -/
theorem splitOn_newline {lines : List String} (hlines : ∀ line ∈ lines, '\n' ∉ line.toList) :
    (String.join (lines.map (· ++ "\n"))).toList.splitOn '\n' =
      lines.map String.toList ++ [[]] := by
  induction lines with
  | nil => rfl
  | cons line rest ih =>
      obtain ⟨hline, hrest⟩ := List.forall_mem_cons.mp hlines
      have hnewline : "\n".toList = ['\n'] := rfl
      rw [List.map_cons, String.join_cons, String.toList_append, String.toList_append, hnewline,
        List.append_assoc, List.singleton_append,
        List.splitOn_append_cons_self_of_not_mem hline, ih hrest]
      rfl

namespace CodeModule

theorem listing_eq (m : CodeModule) :
    m.listing = Listing.heading m.name m.entry ++ "\n" ++
      String.join (m.bodyLines.map (· ++ "\n")) := by
  rw [listing, listingLines, List.map_cons, String.join_cons]

theorem sections_bodyLines (m : CodeModule) :
    Listing.Sections (m.locals.toList.zipIdx.map fun item => Listing.localLine item.1 item.2)
      (m.constants.toList.zipIdx.map fun item => Listing.constantLine item.1 item.2)
      (m.code.toList.zipIdx.map fun item => Listing.instructionLine item.1 item.2) where
  locals := List.forall_mem_map.mpr fun item _ => Listing.mark_localLine item.1 item.2
  constants := List.forall_mem_map.mpr fun item _ => Listing.mark_constantLine item.1 item.2
  code := List.forall_mem_map.mpr fun item _ => Listing.mark_instructionLine item.1 item.2

theorem newline_notMem_bodyLines (m : CodeModule) :
    ∀ line ∈ m.bodyLines, '\n' ∉ line.toList := by
  refine List.forall_mem_append.mpr ⟨List.forall_mem_append.mpr ⟨?_, ?_⟩, ?_⟩
  · exact List.forall_mem_map.mpr fun item _ => Listing.newline_notMem_localLine item.1 item.2
  · exact List.forall_mem_map.mpr fun item _ => Listing.newline_notMem_constantLine item.1 item.2
  · exact List.forall_mem_map.mpr fun item _ =>
      Listing.newline_notMem_instructionLine item.1 item.2

/-- The lines of a listing show the slots, the constants and the instructions. -/
theorem bodyLines_inj {a b : CodeModule} (heq : a.bodyLines = b.bodyLines) :
    a.locals = b.locals ∧ a.constants = b.constants ∧ a.code = b.code := by
  obtain ⟨hlocals, hconstants, hcode⟩ :=
    Listing.sections_inj a.sections_bodyLines b.sections_bodyLines heq
  refine ⟨Array.toList_inj.mp (Listing.numbered_inj ?_ hlocals),
    Array.toList_inj.mp (Listing.numbered_inj ?_ hconstants),
    Array.toList_inj.mp (Listing.numbered_inj ?_ hcode)⟩
  · exact fun _ _ _ hline => ValueType.text_inj ((String.append_right_inj _).mp hline)
  · exact fun _ _ _ hline => Value.listed_inj ((String.append_right_inj _).mp hline)
  · exact fun _ _ _ hline => Instruction.text_inj ((String.append_right_inj _).mp hline)

/-- The listing of a module is faithful.  Modules of the same name and entry that have the
same listing are the same, and the listing has one line for the heading, each slot, each
constant and each instruction, whatever characters the constants have: cut at its newlines
it is these lines, and nothing is left behind the last of them. -/
theorem listing_faithful :
    (∀ a b : CodeModule, a.name = b.name → a.entry = b.entry → a.listing = b.listing →
      a.locals = b.locals ∧ a.constants = b.constants ∧ a.code = b.code) ∧
    ∀ m : CodeModule, '\n' ∉ m.name.toList → '\n' ∉ m.entry.toList →
      m.listing.toList.splitOn '\n' = m.listingLines.map String.toList ++ [[]] ∧
        m.listingLines.length = 1 + m.locals.size + m.constants.size + m.code.size := by
  refine ⟨fun a b hname hentry heq => ?_, fun m hname hentry => ⟨?_, ?_⟩⟩
  · -- The names may have newlines, so the heading is taken off before the lines are cut.
    rw [listing_eq, listing_eq, hname, hentry, String.append_right_inj] at heq
    have hlines := congrArg (fun text => text.toList.splitOn '\n') heq
    simp only [splitOn_newline a.newline_notMem_bodyLines,
      splitOn_newline b.newline_notMem_bodyLines] at hlines
    have hbody := List.append_cancel_right hlines
    exact bodyLines_inj ((List.map_inj_right fun _ _ => String.toList_injective).mp hbody)
  · refine splitOn_newline (List.forall_mem_cons.mpr ⟨?_, m.newline_notMem_bodyLines⟩)
    simp [Listing.heading, hname, hentry]
  · simp only [listingLines, bodyLines, List.length_cons, List.length_append, List.length_map,
      List.length_zipIdx, Array.length_toList]
    omega

/-- Constants that look alike: a number and its text, a newline and its escape, a character
that is not printable and its escape. -/
def lookalikes : CodeModule where
  name := "look"
  entry := "main"
  locals := #[.int, .string]
  constants := #[.int (-1), .string "-1", .string "\n", .string "\\n", .string "\u0085",
    .string "\\u\x7b85\x7d"]
  code := #[.constant 1, .storeLocal 1, .jump 10, .ret]

/-- The module with its constants in the opposite order. -/
def mirrored (m : CodeModule) : CodeModule :=
  { m with constants := m.constants.toList.reverse.toArray }

/-- The listing tells the two modules apart, and no constant breaks a line of it. -/
theorem lookalikes_listing_faithful :
    lookalikes.mirrored.listing ≠ lookalikes.listing ∧
    lookalikes.listing.toList.splitOn '\n' = lookalikes.listingLines.map String.toList ++ [[]] ∧
    lookalikes.listingLines.length = 1 + 2 + 6 + 4 := by
  obtain ⟨hshows, hlines⟩ := listing_faithful
  have hother : lookalikes.mirrored.listing ≠ lookalikes.listing := by
    intro heq
    exact absurd (hshows lookalikes.mirrored lookalikes rfl rfl heq).2.1 (by decide)
  exact ⟨hother, hlines lookalikes (by decide) (by decide)⟩

end CodeModule

end SlotLang

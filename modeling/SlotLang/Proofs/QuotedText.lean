import SlotLang.Proofs.TiledText
import SlotLang.Text.Quoted

/-!
# Quoted text can be read back

A text between quotes stands on one line, and no two texts look alike there.  A character
is shown in one of three ways: as it is, by a backslash and a letter, or by a backslash and
its code point between braces.  Where a shown character ends can be seen from the front, so
it can be told from whatever comes after it, and so can the quote at the end of the text.

* `run_append_inj` — a run of a class of characters ends where the class does.
* `Text.toDigits_inj` — the digits of a number determine it, in hexadecimal too.
* `Text.Shown` — the ways to show a character.
* `Text.Shown.append_inj` — a shown character can be told from what follows it.
* `Text.quote_inj`, `Text.newline_notMem_quote` — quoted texts.
-/

namespace SlotLang

/-- Two runs of a class of characters, each in front of something that is not of the class,
are the same if the texts are. -/
theorem run_append_inj {p : Char → Bool} {run run' rest rest' : List Char}
    (hrun : ∀ c ∈ run, p c = true) (hrun' : ∀ c ∈ run', p c = true)
    (hrest : ∀ c ∈ rest.head?, p c = false) (hrest' : ∀ c ∈ rest'.head?, p c = false)
    (heq : run ++ rest = run' ++ rest') : run = run' ∧ rest = rest' := by
  obtain ⟨htake, hdrop⟩ := takeWhile_run hrun hrest
  obtain ⟨htake', hdrop'⟩ := takeWhile_run hrun' hrest'
  rw [heq] at htake hdrop
  exact ⟨htake.symm.trans htake', hdrop.symm.trans hdrop'⟩

namespace Text

/-! ## Digits -/

theorem digitChar_inj {n k : Nat} (hn : n < 16) (hk : k < 16)
    (heq : Nat.digitChar n = Nat.digitChar k) : n = k := by
  have hall : ∀ i j : Fin 16, Nat.digitChar i = Nat.digitChar j → i = j := by decide
  exact Fin.mk.inj (hall ⟨n, hn⟩ ⟨k, hk⟩ heq)

/-- The digits of a number determine it, in every base that has a character for each. -/
theorem toDigits_inj {base n k : Nat} (hbase : 1 < base) (hbase' : base ≤ 16)
    (heq : Nat.toDigits base n = Nat.toDigits base k) : n = k := by
  induction n using Nat.strongRecOn generalizing k with
  | ind n ih =>
      -- Both numbers have one digit, or both have more.
      have hone : ∀ i, (Nat.toDigits base i).length ≤ 1 ↔ i < base := by
        intro i
        rw [Nat.length_toDigits_le_iff hbase Nat.one_pos, Nat.pow_one]
      have hsame : n < base ↔ k < base := by rw [← hone, ← hone, heq]
      by_cases hn : n < base
      · have hk := hsame.mp hn
        rw [Nat.toDigits_of_lt_base hn, Nat.toDigits_of_lt_base hk] at heq
        exact digitChar_inj (by omega) (by omega) (List.singleton_inj.mp heq)
      · have hk := mt hsame.mpr hn
        rw [Nat.toDigits_of_base_le hbase (Nat.not_lt.mp hn),
          Nat.toDigits_of_base_le hbase (Nat.not_lt.mp hk)] at heq
        obtain ⟨hfront, hlast⟩ := List.append_inj' heq rfl
        have hdiv : n / base = k / base :=
          ih (n / base) (Nat.div_lt_self (by omega) hbase) hfront
        have hlt := Nat.mod_lt n (show 0 < base by omega)
        have hlt' := Nat.mod_lt k (show 0 < base by omega)
        have hmod : n % base = k % base :=
          digitChar_inj (by omega) (by omega) (List.singleton_inj.mp hlast)
        rw [← Nat.div_add_mod n base, ← Nat.div_add_mod k base, hdiv, hmod]

theorem exists_digitChar_of_mem {base n : Nat} (hbase : 1 < base) {c : Char}
    (hc : c ∈ Nat.toDigits base n) : ∃ d, c = Nat.digitChar d := by
  induction n using Nat.strongRecOn with
  | ind n ih =>
      rw [Nat.toDigits_eq_if hbase] at hc
      split at hc
      next => exact ⟨n, List.mem_singleton.mp hc⟩
      next hn =>
          rcases List.mem_append.mp hc with hc | hc
          · exact ih (n / base) (Nat.div_lt_self (by omega) hbase) hc
          · exact ⟨n % base, List.mem_singleton.mp hc⟩

/-! ## Shown characters -/

/-- The characters with short escapes, each with the letter that stands for it. -/
def shortEscapes : List (Char × Char) :=
  [('\x00', '0'), ('\t', 't'), ('\r', 'r'), ('\n', 'n'), ('"', '"'), ('\\', '\\')]

/-- The ways to show a character inside quotes. -/
inductive Shown : Char → List Char → Prop
  | plain {c : Char} (hquote : c ≠ '"') (hslash : c ≠ '\\') (hline : c ≠ '\n') : Shown c [c]
  | short {c letter : Char} (hshort : (c, letter) ∈ shortEscapes) : Shown c ['\\', letter]
  | codePoint (c : Char) : Shown c (escapeCodePoint c)

theorem shown_escape (c : Char) : Shown c (escape c) := by
  unfold escape
  split
  · exact .short (by decide)
  · exact .short (by decide)
  · exact .short (by decide)
  · exact .short (by decide)
  · exact .short (by decide)
  · exact .short (by decide)
  next hzero htab hreturn hline hquote hslash =>
      split
      · exact .plain hquote hslash hline
      · exact .codePoint c

/-- A shown character does not begin with a quote. -/
theorem Shown.head?_ne {c : Char} {text : List Char} (hshown : Shown c text) :
    ∃ first rest, text = first :: rest ∧ first ≠ '"' := by
  cases hshown with
  | plain hquote => exact ⟨_, _, rfl, hquote⟩
  | short => exact ⟨_, _, rfl, by decide⟩
  | codePoint => exact ⟨_, _, rfl, by decide⟩

theorem digits_escapeCodePoint_inj {c d : Char} {rest rest' : List Char}
    (heq : Nat.toDigits 16 c.toNat ++ '\x7d' :: rest =
      Nat.toDigits 16 d.toNat ++ '\x7d' :: rest') : c = d ∧ rest = rest' := by
  have hdigits : ∀ n, ∀ e ∈ Nat.toDigits 16 n, (e != '\x7d') = true := by
    intro n e he
    obtain ⟨digit, rfl⟩ := exists_digitChar_of_mem (by decide) he
    exact bne_iff_ne.mpr (Nat.digitChar_ne _ (by decide))
  have hstop : ∀ after : List Char, ∀ e ∈ ('\x7d' :: after).head?, (e != '\x7d') = false := by
    simp
  obtain ⟨hcode, hafter⟩ := run_append_inj (hdigits _) (hdigits _) (hstop _) (hstop _) heq
  exact ⟨Char.toNat_inj.mp (toDigits_inj (by decide) (by decide) hcode), (List.cons.inj hafter).2⟩

/-- A shown character can be told from what follows it. -/
theorem Shown.append_inj {c d : Char} {shown shown' rest rest' : List Char}
    (hshown : Shown c shown) (hshown' : Shown d shown') (heq : shown ++ rest = shown' ++ rest') :
    c = d ∧ rest = rest' := by
  have hletters : ∀ a ∈ shortEscapes, ∀ b ∈ shortEscapes, a.2 = b.2 → a.1 = b.1 := by decide
  have hcodePoint : ∀ a ∈ shortEscapes, a.2 ≠ 'u' := by decide
  cases hshown with
  | plain hquote hslash hline =>
      cases hshown' with
      | plain => exact List.cons.inj heq
      | short => exact absurd (List.cons.inj heq).1 hslash
      | codePoint => exact absurd (List.cons.inj heq).1 hslash
  | short hshort =>
      cases hshown' with
      | plain hquote hslash hline => exact absurd (List.cons.inj heq).1.symm hslash
      | short hshort' =>
          obtain ⟨hletter, hrest⟩ := List.cons.inj (List.cons.inj heq).2
          exact ⟨hletters _ hshort _ hshort' hletter, hrest⟩
      | codePoint =>
          exact absurd (List.cons.inj (List.cons.inj heq).2).1 (hcodePoint _ hshort)
  | codePoint =>
      cases hshown' with
      | plain hquote hslash hline => exact absurd (List.cons.inj heq).1.symm hslash
      | short hshort =>
          exact absurd (List.cons.inj (List.cons.inj heq).2).1.symm (hcodePoint _ hshort)
      | codePoint =>
          simp only [escapeCodePoint, List.cons_append, List.nil_append, List.append_assoc,
            List.cons.injEq, true_and] at heq
          exact digits_escapeCodePoint_inj heq

theorem Shown.newline_notMem {c : Char} {text : List Char} (hshown : Shown c text) :
    '\n' ∉ text := by
  cases hshown with
  | plain hquote hslash hline => simpa using hline.symm
  | short hshort =>
      have hletters : ∀ a ∈ shortEscapes, '\n' ∉ ['\\', a.2] := by decide
      exact hletters _ hshort
  | codePoint =>
      intro hmem
      simp only [escapeCodePoint, List.mem_append, List.mem_cons, List.not_mem_nil,
        or_false] at hmem
      rcases hmem with (hmem | hmem) | hmem
      · exact absurd hmem (by decide)
      · obtain ⟨digit, hdigit⟩ := exists_digitChar_of_mem (by decide) hmem
        exact Nat.digitChar_ne '\n' (by decide) hdigit.symm
      · exact absurd hmem (by decide)

/-! ## Quoted texts -/

/-- The characters of a text can be read off one by one, up to the quote at its end. -/
theorem flatMap_escape_inj {text text' rest rest' : List Char}
    (heq : text.flatMap escape ++ '"' :: rest = text'.flatMap escape ++ '"' :: rest') :
    text = text' ∧ rest = rest' := by
  induction text generalizing text' with
  | nil =>
      cases text' with
      | nil => exact ⟨rfl, (List.cons.inj heq).2⟩
      | cons d others =>
          obtain ⟨first, after, hfirst, hne⟩ := (shown_escape d).head?_ne
          rw [List.flatMap_cons, hfirst] at heq
          exact absurd (List.cons.inj heq).1.symm hne
  | cons c others ih =>
      cases text' with
      | nil =>
          obtain ⟨first, after, hfirst, hne⟩ := (shown_escape c).head?_ne
          rw [List.flatMap_cons, hfirst] at heq
          exact absurd (List.cons.inj heq).1 hne
      | cons d others' =>
          rw [List.flatMap_cons, List.flatMap_cons, List.append_assoc, List.append_assoc] at heq
          obtain ⟨rfl, hothers⟩ := (shown_escape c).append_inj (shown_escape d) heq
          obtain ⟨rfl, hrest⟩ := ih hothers
          exact ⟨rfl, hrest⟩

theorem quote_inj {text text' : List Char} (heq : quote text = quote text') : text = text' :=
  (flatMap_escape_inj (List.cons.inj heq).2).1

theorem newline_notMem_quote (text : List Char) : '\n' ∉ quote text := by
  intro hmem
  simp only [quote, List.mem_cons, List.mem_append, List.mem_flatMap, List.not_mem_nil,
    or_false] at hmem
  rcases hmem with hmem | ⟨c, -, hmem⟩ | hmem
  · exact absurd hmem (by decide)
  · exact (shown_escape c).newline_notMem hmem
  · exact absurd hmem (by decide)

end Text
end SlotLang

import Mathlib.Data.Nat.Digits.Defs
import SlotLang.Proofs.MachineSteps
import SlotLang.Proofs.TiledText

/-!
# Integers as text

The machine turns integers into text and text into integers.  Text that spells an integer
has blanks at its ends, in any number and of any kind, then at most one sign, then digits,
of which the first ones may be zeros.  Nothing else is taken for an integer, and no value
outside of 32 bits is.  What the machine writes for an integer is one of the texts that
spell it, so it is read back, with any blanks around it.

* `Text.Trimmed` — the part of a text between the blanks at its ends.
* `Text.Decimal.Numeral` — the texts of an integer, with or without a sign.
* `Text.Decimal.read_eq_some_iff` — these are the texts that are read.
* `Text.SpellsInteger` — the texts that spell an integer.
* `parseInteger_eq_some_iff` — those that spell one of 32 bits.
* `Instruction.parseInt_exact` — what the machine does with a text.
-/

namespace SlotLang

namespace Text

/-! ## Blanks at the ends -/

/-- The part of a text that is left when all blanks at its two ends are taken away. -/
structure Trimmed (text core : List Char) : Prop where
  surrounded : ∃ before after, text = before ++ (core ++ after) ∧
    (∀ c ∈ before, isBlank c = true) ∧ ∀ c ∈ after, isBlank c = true
  first : ∀ c ∈ core.head?, isBlank c = false
  last : ∀ c ∈ core.getLast?, isBlank c = false

theorem Trimmed.trim_eq {text core : List Char} (htrimmed : Trimmed text core) :
    trim text = core := by
  obtain ⟨⟨before, after, rfl, hbefore, hafter⟩, hfirst, hlast⟩ := htrimmed
  cases core with
  | nil =>
      have hblank : (before ++ ([] ++ after)).dropWhile isBlank = [] := by
        refine List.dropWhile_eq_nil_iff.mpr fun c hc => ?_
        rcases List.mem_append.mp hc with hc | hc
        · exact hbefore c hc
        · exact hafter c hc
      rw [trim, hblank]
      rfl
  | cons c rest =>
      have hhead : ∀ d ∈ (c :: rest ++ after).head?, isBlank d = false := hfirst
      have hfront := (takeWhile_run hbefore hhead).2
      have hback : ∀ d ∈ (c :: rest).reverse.head?, isBlank d = false := by
        rw [List.head?_reverse]
        exact hlast
      have hend := (takeWhile_run (fun d hd => hafter d (List.mem_reverse.mp hd)) hback).2
      rw [trim, hfront, List.reverse_append, hend, List.reverse_reverse]

theorem trimmed_trim (text : List Char) : Trimmed text (trim text) := by
  have hfront := List.takeWhile_append_dropWhile (p := isBlank) (l := text)
  have hback := List.takeWhile_append_dropWhile (p := isBlank)
    (l := (text.dropWhile isBlank).reverse)
  have hmiddle : text.dropWhile isBlank =
      trim text ++ ((text.dropWhile isBlank).reverse.takeWhile isBlank).reverse := by
    rw [trim, ← List.reverse_append, hback, List.reverse_reverse]
  refine ⟨⟨_, _, by rw [← hmiddle, hfront], ?_, ?_⟩, ?_, ?_⟩
  · exact fun c hc => List.mem_takeWhile_imp hc
  · exact fun c hc => List.mem_takeWhile_imp (List.mem_reverse.mp hc)
  · intro c hc
    have hhead : (text.dropWhile isBlank).head? = some c := by
      rw [hmiddle, List.head?_append, hc]
      rfl
    exact eq_false_of_head?_dropWhile hhead
  · intro c hc
    rw [trim, List.getLast?_reverse] at hc
    exact eq_false_of_head?_dropWhile hc

namespace Decimal

/-! ## Numerals -/

/-- The number that digits stand for: the last digit counts once, and every other one ten
times as much as the one after it. -/
def positional (digits : List Char) : Nat :=
  Nat.ofDigits 10 (digits.reverse.map fun c => c.toNat - '0'.toNat)

/-- A nonempty run of the digits from zero to nine. -/
def Digits (text : List Char) : Prop :=
  text ≠ [] ∧ ∀ c ∈ text, '0' ≤ c ∧ c ≤ '9'

/-- The texts of an integer: digits, with a sign in front of them or without one. -/
inductive Numeral : List Char → Int → Prop
  | unsigned {digits : List Char} (hdigits : Digits digits) : Numeral digits (positional digits)
  | plus {digits : List Char} (hdigits : Digits digits) :
      Numeral ('+' :: digits) (positional digits)
  | minus {digits : List Char} (hdigits : Digits digits) :
      Numeral ('-' :: digits) (-(positional digits : Int))

theorem isDigitRun_iff {text : List Char} : isDigitRun text = true ↔ Digits text := by
  simp [isDigitRun, Digits, Char.isDigit, Char.le_def]

theorem value_eq_positional (digits : List Char) : value digits = positional digits := by
  induction digits with
  | nil => rfl
  | cons c rest ih =>
      have hvalue : value (c :: rest) =
          10 ^ rest.length * (c.toNat - '0'.toNat) + value rest := by
        rw [value, Nat.ofDigitChars_cons, Nat.ofDigitChars_eq_ofDigitChars_zero, Nat.mul_zero,
          Nat.zero_add, value]
      rw [hvalue, ih, positional, positional, List.reverse_cons, List.map_append,
        Nat.ofDigits_append, List.map_singleton, Nat.ofDigits_singleton, List.length_map,
        List.length_reverse, Nat.add_comm]

theorem Digits.read_eq {digits : List Char} (hdigits : Digits digits) :
    read digits = some (positional digits : Int) := by
  have hrun := isDigitRun_iff.mpr hdigits
  unfold read
  split
  · exact absurd hrun (by simp [isDigitRun])
  · exact absurd hrun (by simp [isDigitRun])
  · rw [if_pos hrun, value_eq_positional]

/-- The texts that are read are those of integers. -/
theorem read_eq_some_iff {text : List Char} {n : Int} : read text = some n ↔ Numeral text n := by
  constructor
  · intro hread
    unfold read at hread
    simp only [value_eq_positional] at hread
    split at hread
    · obtain ⟨hrun, hn⟩ := Option.ite_none_right_eq_some.mp hread
      cases hn
      exact .plus (isDigitRun_iff.mp hrun)
    · obtain ⟨hrun, hn⟩ := Option.ite_none_right_eq_some.mp hread
      cases hn
      exact .minus (isDigitRun_iff.mp hrun)
    · obtain ⟨hrun, hn⟩ := Option.ite_none_right_eq_some.mp hread
      cases hn
      exact .unsigned (isDigitRun_iff.mp hrun)
  · intro hnumeral
    cases hnumeral with
    | unsigned hdigits => exact hdigits.read_eq
    | plus hdigits =>
        rw [read, if_pos (isDigitRun_iff.mpr hdigits), value_eq_positional]
    | minus hdigits =>
        rw [read, if_pos (isDigitRun_iff.mpr hdigits), value_eq_positional]

theorem digits_toDigits (n : Nat) : Digits (Nat.toDigits 10 n) := by
  refine isDigitRun_iff.mp ?_
  simp only [isDigitRun, Bool.and_eq_true, List.all_eq_true]
  exact ⟨by simp, fun c hc => Nat.isDigit_of_mem_toDigits (by decide) (by decide) hc⟩

/-- What is written for an integer is a text of it. -/
theorem numeral_write (n : Int) : Numeral (write n) n := by
  have hvalue : ∀ k, positional (Nat.toDigits 10 k) = k := by
    intro k
    rw [← value_eq_positional, value, Nat.ofDigitChars_ten_toDigits]
  cases n with
  | ofNat k =>
      have hnumeral := Numeral.unsigned (digits_toDigits k)
      rwa [hvalue] at hnumeral
  | negSucc k =>
      have hnumeral := Numeral.minus (digits_toDigits (k + 1))
      rwa [hvalue] at hnumeral

theorem Numeral.not_blank {text : List Char} {n : Int} (hnumeral : Numeral text n) :
    ∀ c ∈ text, isBlank c = false := by
  have hdigits : ∀ {digits : List Char}, Digits digits → ∀ c ∈ digits, isBlank c = false := by
    intro digits hdigits c hc
    have hall := (Bool.and_eq_true_iff.mp (isDigitRun_iff.mpr hdigits)).2
    exact isBlank_eq_false_of_asciiSymbols
      (asciiSymbols_of_isDigit (List.all_eq_true.mp hall c hc))
  cases hnumeral with
  | unsigned hrun => exact hdigits hrun
  | plus hrun => exact List.forall_mem_cons.mpr ⟨by decide, hdigits hrun⟩
  | minus hrun => exact List.forall_mem_cons.mpr ⟨by decide, hdigits hrun⟩

/-- A numeral is all that is left of it and blanks around it. -/
theorem Numeral.trimmed {text : List Char} {n : Int} (hnumeral : Numeral text n)
    {before after : List Char} (hbefore : ∀ c ∈ before, isBlank c = true)
    (hafter : ∀ c ∈ after, isBlank c = true) : Trimmed (before ++ (text ++ after)) text where
  surrounded := ⟨before, after, rfl, hbefore, hafter⟩
  first c hc := hnumeral.not_blank c (List.mem_of_mem_head? hc)
  last c hc := hnumeral.not_blank c (List.mem_of_mem_getLast? hc)

end Decimal

/-- A text spells an integer: it is a numeral once the blanks at its ends are gone. -/
def SpellsInteger (text : String) (n : Int) : Prop :=
  ∃ core, Trimmed text.toList core ∧ Decimal.Numeral core n

theorem spellsInteger_iff {text : String} {n : Int} :
    SpellsInteger text n ↔ Decimal.read (trim text.toList) = some n := by
  constructor
  · rintro ⟨core, htrimmed, hnumeral⟩
    rw [htrimmed.trim_eq]
    exact Decimal.read_eq_some_iff.mpr hnumeral
  · intro hread
    exact ⟨_, trimmed_trim text.toList, Decimal.read_eq_some_iff.mp hread⟩

end Text

/-! ## The machine -/

theorem parseInteger_eq_some_iff {text : String} {n : Int32} :
    parseInteger text = some n ↔ Text.SpellsInteger text n.toInt := by
  rw [Text.spellsInteger_iff, parseInteger, Option.bind_eq_some_iff]
  constructor
  · rintro ⟨value, hread, hvalue⟩
    rw [hread, Text.Decimal.toInt32?_eq_some hvalue]
  · exact fun hread => ⟨n.toInt, hread, Text.Decimal.toInt32?_toInt n⟩

/-- The values of 32 bits are those between two bounds. -/
theorem exists_toInt_eq_iff {value : Int} :
    (∃ n : Int32, n.toInt = value) ↔ -2147483648 ≤ value ∧ value ≤ 2147483647 := by
  constructor
  · rintro ⟨n, rfl⟩
    exact ⟨n.le_toInt, Int.le_of_lt_add_one n.toInt_lt⟩
  · rintro ⟨hleast, hgreatest⟩
    exact ⟨Int32.ofInt value, Int32.toInt_ofInt_of_le hleast (Int.lt_add_one_of_le hgreatest)⟩

namespace Instruction

/-- The instruction puts a value in place of the one on top of the stack, wherever it
stands and whatever else there is. -/
def Replaces (instruction : Instruction) (value result : Value) : Prop :=
  ∀ (m : CodeModule) (position : Nat) (stack : List Value) (locals : Array Value),
    m.execute instruction ⟨position, value :: stack, locals⟩ =
      .ok (.next ⟨position + 1, result :: stack, locals⟩)

/-- The instruction fails on the value on top of the stack. -/
def Rejects (instruction : Instruction) (value : Value) (error : RuntimeError) : Prop :=
  ∀ (m : CodeModule) (position : Nat) (stack : List Value) (locals : Array Value),
    m.execute instruction ⟨position, value :: stack, locals⟩ = .error error

theorem replaces_intToString (n : Int32) :
    intToString.Replaces (.int n) (.string (Text.Decimal.ofInt32 n)) :=
  fun _ _ _ _ => rfl

theorem replaces_parseInt {text : String} {n : Int32}
    (hspells : Text.SpellsInteger text n.toInt) :
    (callHost .parseInt).Replaces (.string text) (.int n) := by
  intro m position stack locals
  rw [CodeModule.execute_parseInt, parseInteger_eq_some_iff.mpr hspells]

theorem rejects_parseInt {text : String}
    (hspells : ∀ n : Int32, ¬ Text.SpellsInteger text n.toInt) :
    (callHost .parseInt).Rejects (.string text) (.invalidInteger text) := by
  intro m position stack locals
  have hnone : parseInteger text = none :=
    Option.eq_none_iff_forall_ne_some.mpr fun n hn => hspells n (parseInteger_eq_some_iff.mp hn)
  rw [CodeModule.execute_parseInt, hnone]

/-- An instruction that fails on a value does not replace it. -/
theorem Rejects.not_replaces {instruction : Instruction} {value result : Value}
    {error : RuntimeError} (hrejects : instruction.Rejects value error) :
    ¬ instruction.Replaces value result := by
  intro hreplaces
  have hfails := hrejects ⟨"", "", #[], #[], #[]⟩ 0 [] #[]
  rw [hreplaces] at hfails
  cases hfails

/-- Reading an integer is exact, and it undoes writing one.  The text that the machine
writes for an integer is read back to it, with any blanks around it.  A text is read if and
only if it spells an integer of 32 bits, and then as this integer; on every other text the
machine fails, and the error has the text as it was, with its blanks. -/
theorem parseInt_exact :
    (∀ (n : Int32) (before after : String), (∀ c ∈ before.toList, Text.isBlank c = true) →
      (∀ c ∈ after.toList, Text.isBlank c = true) →
      ∃ text, intToString.Replaces (.int n) (.string text) ∧
        (callHost .parseInt).Replaces (.string (before ++ text ++ after)) (.int n)) ∧
    ∀ text : String,
      ((∃ result, (callHost .parseInt).Replaces (.string text) result) ↔
        ∃ value, Text.SpellsInteger text value ∧ -2147483648 ≤ value ∧ value ≤ 2147483647) ∧
      (∀ value, Text.SpellsInteger text value → -2147483648 ≤ value → value ≤ 2147483647 →
        ∃ n : Int32, n.toInt = value ∧ (callHost .parseInt).Replaces (.string text) (.int n)) ∧
      ((¬ ∃ value, Text.SpellsInteger text value ∧ -2147483648 ≤ value ∧ value ≤ 2147483647) →
        (callHost .parseInt).Rejects (.string text) (.invalidInteger text)) := by
  refine ⟨fun n before after hbefore hafter => ?_, fun text => ?_⟩
  · refine ⟨Text.Decimal.ofInt32 n, replaces_intToString n, replaces_parseInt ?_⟩
    have hnumeral := Text.Decimal.numeral_write n.toInt
    refine ⟨Text.Decimal.write n.toInt, ?_, hnumeral⟩
    rw [String.toList_append, String.toList_append, Text.Decimal.ofInt32, String.toList_ofList,
      List.append_assoc]
    exact hnumeral.trimmed hbefore hafter
  · have hread : ∀ value, Text.SpellsInteger text value → -2147483648 ≤ value →
        value ≤ 2147483647 →
        ∃ n : Int32, n.toInt = value ∧ (callHost .parseInt).Replaces (.string text) (.int n) := by
      intro value hspells hleast hgreatest
      obtain ⟨n, rfl⟩ := exists_toInt_eq_iff.mpr ⟨hleast, hgreatest⟩
      exact ⟨n, rfl, replaces_parseInt hspells⟩
    have hrejected : (¬ ∃ value, Text.SpellsInteger text value ∧ -2147483648 ≤ value ∧
        value ≤ 2147483647) →
        (callHost .parseInt).Rejects (.string text) (.invalidInteger text) := by
      intro hnone
      refine rejects_parseInt fun n hspells => hnone ⟨n.toInt, hspells, ?_⟩
      exact exists_toInt_eq_iff.mp ⟨n, rfl⟩
    refine ⟨⟨fun ⟨result, hreplaces⟩ => ?_, ?_⟩, hread, hrejected⟩
    · by_contra hnone
      exact (hrejected hnone).not_replaces hreplaces
    · rintro ⟨value, hspells, hleast, hgreatest⟩
      obtain ⟨n, -, hreplaces⟩ := hread value hspells hleast hgreatest
      exact ⟨_, hreplaces⟩

/-- The least integer between a wide blank and a line break, the greatest one with a sign and
zeros in front, and the first one that is too large. -/
theorem bounds_parseInt_exact :
    (∃ text, intToString.Replaces (.int (-2147483648)) (.string text) ∧
      (callHost .parseInt).Replaces (.string ("\t　" ++ text ++ "\r\n")) (.int (-2147483648))) ∧
    (∃ n : Int32, n.toInt = 2147483647 ∧
      (callHost .parseInt).Replaces (.string " +0002147483647") (.int n)) ∧
    (callHost .parseInt).Rejects (.string "+2147483648 ") (.invalidInteger "+2147483648 ") := by
  obtain ⟨hwritten, hread⟩ := parseInt_exact
  have hgreatest : Text.SpellsInteger " +0002147483647" 2147483647 :=
    Text.spellsInteger_iff.mpr (by decide +kernel)
  refine ⟨hwritten _ _ _ ?_ ?_, (hread _).2.1 _ hgreatest (by decide) (by decide),
    (hread _).2.2 ?_⟩
  · exact List.all_eq_true.mp (by decide +kernel)
  · exact List.all_eq_true.mp (by decide +kernel)
  · rintro ⟨value, hspells, -, hle⟩
    have hvalue : Text.Decimal.read (Text.trim "+2147483648 ".toList) = some 2147483648 := by
      decide +kernel
    rw [Text.spellsInteger_iff, hvalue] at hspells
    cases hspells
    exact absurd hle (by decide)

end Instruction

end SlotLang

/-!
# Sets of code points

A character class is given by the inclusive ranges of its code points.  This
module fixes that representation and its membership test; the classes
themselves live in modules of their own.

* `CodePointSet` — the ranges, in ascending order.
* `CodePointSet.contains` — membership of a character.
* `CodePointSet.ascending` — the ranges are nonempty, apart and sorted.
* `CodePointSet.separate` — no range of one set meets a range of another.
-/

namespace SlotLang
namespace Text

/-- A set of code points, as inclusive ranges `(first, last)`. -/
structure CodePointSet where
  /-- The ranges of the set. -/
  ranges : List (Nat × Nat)

namespace CodePointSet

/-- Whether the code point of `c` lies in one of the ranges. -/
def contains (set : CodePointSet) (c : Char) : Bool :=
  set.ranges.any fun range => decide (range.1 ≤ c.toNat) && decide (c.toNat ≤ range.2)

/-- Ranges in ascending order, none of them empty and no two touching.  This
is the normal form in which every class of this library is written. -/
def ascending : List (Nat × Nat) → Bool
  | [] => true
  | [(first, last)] => decide (first ≤ last)
  | (first, last) :: (next, after) :: rest =>
      decide (first ≤ last) && decide (last + 1 < next) && ascending ((next, after) :: rest)

/-- Whether every range of one set lies apart from every range of the other. -/
def separate (a b : CodePointSet) : Bool :=
  a.ranges.all fun r => b.ranges.all fun s => decide (r.2 < s.1) || decide (s.2 < r.1)

/-- Membership says that some range of the set covers the code point. -/
theorem contains_iff (set : CodePointSet) (c : Char) :
    set.contains c = true ↔
      ∃ range ∈ set.ranges, range.1 ≤ c.toNat ∧ c.toNat ≤ range.2 := by
  simp [contains]

/-- Separate sets have no character in common. -/
theorem contains_eq_false_of_separate {a b : CodePointSet} (hseparate : a.separate b = true)
    {c : Char} (hmem : a.contains c = true) : b.contains c = false := by
  rw [Bool.eq_false_iff]
  intro hboth
  obtain ⟨r, hr, hlow, hhigh⟩ := (contains_iff a c).mp hmem
  obtain ⟨s, hs, hlow', hhigh'⟩ := (contains_iff b c).mp hboth
  have happart : r.2 < s.1 ∨ s.2 < r.1 := by
    have hall := List.all_eq_true.mp (List.all_eq_true.mp hseparate r hr) s hs
    simpa using hall
  omega

end CodePointSet

end Text
end SlotLang

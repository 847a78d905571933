import SlotLang.Text.Blank
import SlotLang.Text.Letter

/-!
# The classes are apart

The lexer asks for blanks first, then for word characters, then for a quote, a
digit or an operator.  The order of these questions does not matter, because no
character belongs to two of the classes.
-/

namespace SlotLang
namespace Text

/-- The code points of ASCII below the first letter. -/
def asciiSymbols : CodePointSet where
  ranges := [(0x21, 0x40)]

/-- No blank is a letter. -/
theorem isLetter_eq_false_of_isBlank {c : Char} (hblank : isBlank c = true) :
    isLetter c = false := by
  have hseparate : blanks.separate letters = true := by decide +kernel
  exact CodePointSet.contains_eq_false_of_separate hseparate hblank

/-- No blank is a word character. -/
theorem isWordCharacter_eq_false_of_isBlank {c : Char} (hblank : isBlank c = true) :
    isWordCharacter c = false := by
  have hunderscore : c ≠ '_' := by
    intro hc
    rw [hc] at hblank
    exact absurd hblank (by decide)
  simp [isWordCharacter, isLetter_eq_false_of_isBlank hblank, hunderscore]

/-- Quotes, digits and operators are not blanks. -/
theorem isBlank_eq_false_of_asciiSymbols {c : Char} (hsymbol : asciiSymbols.contains c = true) :
    isBlank c = false := by
  have hseparate : asciiSymbols.separate blanks = true := by decide +kernel
  exact CodePointSet.contains_eq_false_of_separate hseparate hsymbol

/-- Quotes, digits and operators are not letters. -/
theorem isLetter_eq_false_of_asciiSymbols {c : Char}
    (hsymbol : asciiSymbols.contains c = true) : isLetter c = false := by
  have hseparate : asciiSymbols.separate letters = true := by decide +kernel
  exact CodePointSet.contains_eq_false_of_separate hseparate hsymbol

end Text
end SlotLang

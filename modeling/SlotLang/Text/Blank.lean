import SlotLang.Text.CodePoint

/-!
# Blanks

The characters with the Unicode property `White_Space`.  Blanks separate
tokens in program text, and they are trimmed from a line before an integer is
read from it.

* `isBlank` — the class.
* `trim` — a text without the blanks at its two ends.
-/

namespace SlotLang
namespace Text

/-- The ranges of the Unicode property `White_Space`. -/
def blanks : CodePointSet where
  ranges :=
    [(0x09, 0x0D), (0x20, 0x20), (0x85, 0x85), (0xA0, 0xA0), (0x1680, 0x1680),
     (0x2000, 0x200A), (0x2028, 0x2029), (0x202F, 0x202F), (0x205F, 0x205F), (0x3000, 0x3000)]

/-- Whether a character is a blank. -/
def isBlank (c : Char) : Bool :=
  blanks.contains c

/-- The text without its leading and trailing blanks. -/
def trim (text : List Char) : List Char :=
  ((text.dropWhile isBlank).reverse.dropWhile isBlank).reverse

example : CodePointSet.ascending blanks.ranges = true := by decide

end Text
end SlotLang

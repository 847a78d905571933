/-!
# Decimal text of integers

Integers are written with ASCII digits, a minus sign if negative, and no
leading zeros.  Reading is more liberal: one sign of either kind may stand in
front, and leading zeros are allowed.

* `Decimal.write` — the text of an integer.
* `Decimal.value` — the number that a run of digits denotes.
* `Decimal.read` — the integer a text denotes, if it is one.
* `Decimal.toInt32?` — the 32-bit integer of that value, if there is one.
-/

namespace SlotLang
namespace Text
namespace Decimal

/-- The largest value of a 32-bit integer. -/
def greatest : Int := 2147483647

/-- The smallest value of a 32-bit integer. -/
def least : Int := -2147483648

/-- The decimal text of an integer. -/
def write : Int → List Char
  | .ofNat n => Nat.toDigits 10 n
  | .negSucc n => '-' :: Nat.toDigits 10 (n + 1)

/-- The number denoted by a run of decimal digits. -/
def value (digits : List Char) : Nat :=
  Nat.ofDigitChars 10 digits 0

/-- Whether a text is a nonempty run of ASCII digits. -/
def isDigitRun (text : List Char) : Bool :=
  !text.isEmpty && text.all Char.isDigit

/-- The integer denoted by a text: an optional sign, then one digit or more. -/
def read : List Char → Option Int
  | '+' :: digits => if isDigitRun digits then some (value digits) else none
  | '-' :: digits => if isDigitRun digits then some (-(value digits : Int)) else none
  | digits => if isDigitRun digits then some (value digits) else none

/-- The 32-bit integer with the given value, if the value is in range. -/
def toInt32? (n : Int) : Option Int32 :=
  if least ≤ n ∧ n ≤ greatest then some (Int32.ofInt n) else none

/-- The decimal text of a natural number. -/
def ofNat (n : Nat) : String :=
  String.ofList (Nat.toDigits 10 n)

/-- The decimal text of a 32-bit integer. -/
def ofInt32 (n : Int32) : String :=
  String.ofList (write n.toInt)

end Decimal
end Text
end SlotLang

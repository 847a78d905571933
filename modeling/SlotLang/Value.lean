import SlotLang.Text.Decimal

/-!
# Values and their types

The language has two types of value: 32-bit integers and strings.  A slot has
one of them for good.  The only conversion is from an integer to its decimal
text, and it takes place when a line is written.
-/

namespace SlotLang

/-- The types of value. -/
inductive ValueType where
  | int
  | string
deriving DecidableEq, Repr

namespace ValueType

/-- The name of a type. -/
def text : ValueType → String
  | int => "int"
  | string => "string"

/-- Whether a value of the one type may stand where the other is expected. -/
def fits (delivered expected : ValueType) : Bool :=
  delivered == expected || (delivered == int && expected == string)

end ValueType

/-- Values: what constants are, and what slots and the stack hold. -/
inductive Value where
  | int (n : Int32)
  | string (text : String)
deriving DecidableEq, Repr

namespace Value

/-- The type of a value. -/
def type : Value → ValueType
  | int _ => .int
  | string _ => .string

/-- What a slot of a type holds before anything is stored in it. -/
def zero : ValueType → Value
  | .int => int 0
  | .string => string ""

end Value

end SlotLang

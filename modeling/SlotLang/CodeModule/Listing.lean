import SlotLang.CodeModule.Basic
import SlotLang.Text.Quoted

/-!
# Listings

A module as text for a reader: a heading, then one line for each slot, each
constant and each instruction.  String constants are quoted, so they never
break a line.
-/

namespace SlotLang

/-- A constant as shown in a listing. -/
def Value.listed : Value → String
  | .int n => Text.Decimal.ofInt32 n
  | .string text => Text.quoted text

namespace Listing

/-- The text with blanks in front, up to a width of four. -/
def alignRight (text : List Char) : List Char :=
  List.replicate (4 - text.length) ' ' ++ text

/-- The heading. -/
def heading (name entry : String) : String :=
  "module " ++ name ++ " (entry " ++ entry ++ ")"

/-- The line of a slot. -/
def localLine (type : ValueType) (index : Nat) : String :=
  "  local $" ++ Text.Decimal.ofNat index ++ ": " ++ type.text

/-- The line of a constant. -/
def constantLine (constant : Value) (index : Nat) : String :=
  "  const #" ++ Text.Decimal.ofNat index ++ " = " ++ constant.listed

/-- The line of an instruction. -/
def instructionLine (instruction : Instruction) (index : Nat) : String :=
  "  " ++ String.ofList (alignRight (Nat.toDigits 10 index)) ++ ": " ++ instruction.text

end Listing

namespace CodeModule

/-- The lines of the listing behind its heading. -/
def bodyLines (m : CodeModule) : List String :=
  m.locals.toList.zipIdx.map (fun item => Listing.localLine item.1 item.2)
    ++ m.constants.toList.zipIdx.map (fun item => Listing.constantLine item.1 item.2)
    ++ m.code.toList.zipIdx.map (fun item => Listing.instructionLine item.1 item.2)

/-- The lines of the listing. -/
def listingLines (m : CodeModule) : List String :=
  Listing.heading m.name m.entry :: m.bodyLines

/-- The listing: its lines, each followed by a newline. -/
def listing (m : CodeModule) : String :=
  String.join (m.listingLines.map (· ++ "\n"))

end CodeModule

end SlotLang

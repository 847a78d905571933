import SlotLang.Diagnostic
import SlotLang.Text.Decimal

/-!
# Errors of stored modules

The ways in which a string of bytes fails to be a stored module.
-/

namespace SlotLang

/-- The places in a stored module where a byte selects a case. -/
inductive TagKind where
  | valueType
  | constant
  | opcode
  | hostFunction
deriving DecidableEq, Repr

/-- The name of a selecting byte. -/
def TagKind.text : TagKind → String
  | valueType => "type"
  | constant => "constant"
  | opcode => "opcode"
  | hostFunction => "host function"

/-- Why bytes are no stored module. -/
inductive DecodeError where
  /-- The first four bytes are not the mark of a module. -/
  | badMagic
  /-- The version is not one that is known. -/
  | unsupportedVersion (version : UInt8)
  /-- The bytes end inside a module. -/
  | truncated
  /-- A selecting byte selects nothing. -/
  | unknownTag (kind : TagKind) (tag : UInt8)
  /-- The bytes of a string are not UTF-8. -/
  | invalidUtf8
  /-- Bytes are left after the module. -/
  | trailingBytes (count : Nat)
deriving DecidableEq, Repr

/-- The error as shown to the user. -/
def DecodeError.diagnostic : DecodeError → Diagnostic
  | badMagic => .plain "spek::decode::bad_magic" "not a Spek module (bad magic number)"
  | unsupportedVersion version =>
      .plain "spek::decode::version"
        ("unsupported module version " ++ Text.Decimal.ofNat version.toNat)
  | truncated => .plain "spek::decode::truncated" "module is truncated"
  | unknownTag kind tag =>
      .plain "spek::decode::unknown_tag"
        ("unknown " ++ kind.text ++ " tag " ++ Text.Decimal.ofNat tag.toNat)
  | invalidUtf8 => .plain "spek::decode::utf8" "string in module is not valid UTF-8"
  | trailingBytes count =>
      .plain "spek::decode::trailing"
        (Text.Decimal.ofNat count ++ " trailing bytes after the code section")

end SlotLang

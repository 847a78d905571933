import SlotLang.CodeModule.Basic
import SlotLang.CodeModule.Error
import SlotLang.Text.Utf8

/-!
# Stored modules

The byte form of a module.  After a mark of four bytes and a version come the
name, the entry, the slot types, the constants and the code.  Numbers are four
bytes, least significant first; strings and lists have their length in front.

* `CodeModule.encode` — the bytes of a module.
* `CodeModule.decode` — the module with given bytes.

A decoding step takes a value off the front of the bytes and returns the bytes
after it.
-/

namespace SlotLang
namespace Format

/-- The mark at the front of every stored module. -/
def magic : List UInt8 := [0x53, 0x50, 0x45, 0x4B]

/-- The version of the format. -/
def version : UInt8 := 1

/-! ## Writing -/

/-- The four bytes of a number, least significant first. -/
def encodeWord (n : UInt32) : List UInt8 :=
  [UInt8.ofNat n.toNat, UInt8.ofNat (n.toNat / 256), UInt8.ofNat (n.toNat / 65536),
    UInt8.ofNat (n.toNat / 16777216)]

/-- The length of a list as a number. -/
def encodeLength (length : Nat) : List UInt8 :=
  encodeWord (UInt32.ofNat length)

/-- A string: its length in bytes, then its bytes. -/
def encodeString (text : String) : List UInt8 :=
  encodeLength (Text.utf8Bytes text).length ++ Text.utf8Bytes text

/-- A list: its length, then its items. -/
def encodeList {α : Type} (item : α → List UInt8) (items : List α) : List UInt8 :=
  encodeLength items.length ++ items.flatMap item

/-- The byte of a type. -/
def encodeType : ValueType → List UInt8
  | .int => [0]
  | .string => [1]

/-- A constant: a byte for its type, then its value. -/
def encodeConstant : Value → List UInt8
  | .int n => 0 :: encodeWord n.toUInt32
  | .string text => 1 :: encodeString text

/-- The byte of a host function. -/
def encodeHostFunction : HostFunction → List UInt8
  | .writeLine => [0]
  | .readLine => [1]
  | .parseInt => [2]

/-- The operand of an instruction. -/
def encodeOperand : Instruction → List UInt8
  | .constant index => encodeWord index
  | .loadLocal slot => encodeWord slot
  | .storeLocal slot => encodeWord slot
  | .addInt => []
  | .intToString => []
  | .callHost function => encodeHostFunction function
  | .jump target => encodeWord target
  | .branchIfLess target => encodeWord target
  | .ret => []

/-- An instruction: its operation code, then its operand. -/
def encodeInstruction (instruction : Instruction) : List UInt8 :=
  instruction.opcode :: encodeOperand instruction

/-! ## Reading -/

/-- A step that takes a value off the front of the bytes. -/
abbrev Decoder (α : Type) : Type :=
  List UInt8 → Except DecodeError (α × List UInt8)

/-- One byte. -/
def decodeByte : Decoder UInt8
  | byte :: rest => .ok (byte, rest)
  | [] => .error .truncated

/-- A number of four bytes, least significant first. -/
def decodeWord : Decoder UInt32
  | b₀ :: b₁ :: b₂ :: b₃ :: rest =>
      .ok (UInt32.ofNat
        (b₀.toNat + 256 * b₁.toNat + 65536 * b₂.toNat + 16777216 * b₃.toNat), rest)
  | _ => .error .truncated

/-- A number is read back from its bytes. -/
@[simp] theorem decodeWord_encodeWord (n : UInt32) (rest : List UInt8) :
    decodeWord (encodeWord n ++ rest) = .ok (n, rest) := by
  have hn := n.toNat_lt
  simp only [encodeWord, List.cons_append, List.nil_append, decodeWord]
  congr 2
  apply UInt32.toNat_inj.mp
  simp
  omega

/-- A given number of bytes. -/
def decodeBytes (count : Nat) : Decoder (List UInt8) := fun bytes =>
  if bytes.length < count then
    .error .truncated
  else
    .ok (bytes.take count, bytes.drop count)

/-- A string. -/
def decodeString : Decoder String := fun bytes => do
  let (length, afterLength) ← decodeWord bytes
  let (raw, rest) ← decodeBytes length.toNat afterLength
  match Text.ofUtf8? raw with
  | some text => return (text, rest)
  | none => throw .invalidUtf8

/-- A given number of items. -/
def decodeItems {α : Type} (item : Decoder α) : Nat → Decoder (List α)
  | 0, bytes => .ok ([], bytes)
  | count + 1, bytes => do
      let (first, afterFirst) ← item bytes
      let (others, rest) ← decodeItems item count afterFirst
      return (first :: others, rest)

/-- A list. -/
def decodeList {α : Type} (item : Decoder α) : Decoder (List α) := fun bytes => do
  let (length, rest) ← decodeWord bytes
  decodeItems item length.toNat rest

/-- A type. -/
def decodeType : Decoder ValueType := fun bytes => do
  let (tag, rest) ← decodeByte bytes
  match tag with
  | 0 => return (.int, rest)
  | 1 => return (.string, rest)
  | tag => throw (.unknownTag .valueType tag)

/-- A constant. -/
def decodeConstant : Decoder Value := fun bytes => do
  let (tag, afterTag) ← decodeByte bytes
  match tag with
  | 0 => do
      let (n, rest) ← decodeWord afterTag
      return (.int n.toInt32, rest)
  | 1 => do
      let (text, rest) ← decodeString afterTag
      return (.string text, rest)
  | tag => throw (.unknownTag .constant tag)

/-- A host function. -/
def decodeHostFunction : Decoder HostFunction := fun bytes => do
  let (tag, rest) ← decodeByte bytes
  match tag with
  | 0 => return (.writeLine, rest)
  | 1 => return (.readLine, rest)
  | 2 => return (.parseInt, rest)
  | tag => throw (.unknownTag .hostFunction tag)

/-- An instruction whose operand is a number. -/
def decodeWithWord (build : UInt32 → Instruction) : Decoder Instruction := fun bytes => do
  let (operand, rest) ← decodeWord bytes
  return (build operand, rest)

/-- The rest of an instruction, after its operation code. -/
def decodeOperand (opcode : UInt8) : Decoder Instruction := fun bytes =>
  match opcode with
  | 0 => decodeWithWord .constant bytes
  | 1 => decodeWithWord .loadLocal bytes
  | 2 => decodeWithWord .storeLocal bytes
  | 3 => .ok (.addInt, bytes)
  | 4 => .ok (.intToString, bytes)
  | 5 => do
      let (function, rest) ← decodeHostFunction bytes
      return (.callHost function, rest)
  | 6 => decodeWithWord .jump bytes
  | 7 => decodeWithWord .branchIfLess bytes
  | 8 => .ok (.ret, bytes)
  | tag => .error (.unknownTag .opcode tag)

/-- An instruction. -/
def decodeInstruction : Decoder Instruction := fun bytes => do
  let (opcode, rest) ← decodeByte bytes
  decodeOperand opcode rest

/-- The mark and the version. -/
def decodeHeader : Decoder Unit := fun bytes => do
  let (mark, afterMark) ← decodeBytes magic.length bytes
  if mark ≠ magic then
    throw .badMagic
  let (found, rest) ← decodeByte afterMark
  if found ≠ version then
    throw (.unsupportedVersion found)
  return ((), rest)

/-- A module at the front of the bytes. -/
def decodeFields : Decoder CodeModule := fun bytes => do
  let (_, afterHeader) ← decodeHeader bytes
  let (name, afterName) ← decodeString afterHeader
  let (entry, afterEntry) ← decodeString afterName
  let (locals, afterLocals) ← decodeList decodeType afterEntry
  let (constants, afterConstants) ← decodeList decodeConstant afterLocals
  let (code, rest) ← decodeList decodeInstruction afterConstants
  return ({ name, entry, locals := locals.toArray, constants := constants.toArray,
            code := code.toArray }, rest)

end Format

namespace CodeModule

/-- The bytes of a module. -/
def encode (m : CodeModule) : List UInt8 :=
  Format.magic ++ [Format.version]
    ++ Format.encodeString m.name
    ++ Format.encodeString m.entry
    ++ Format.encodeList Format.encodeType m.locals.toList
    ++ Format.encodeList Format.encodeConstant m.constants.toList
    ++ Format.encodeList Format.encodeInstruction m.code.toList

/-- The module with the given bytes, all of them. -/
def decode (bytes : List UInt8) : Except DecodeError CodeModule := do
  let (m, rest) ← Format.decodeFields bytes
  if rest.isEmpty then
    return m
  else
    throw (.trailingBytes rest.length)

end CodeModule

end SlotLang

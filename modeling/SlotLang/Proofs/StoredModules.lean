import SlotLang.CodeModule.Format
import SlotLang.Proofs.Results

/-!
# Stored modules have one form

Each step of decoding is described by one equivalence.  It succeeds with a value
if and only if the bytes begin with the stored form of that value and the lengths
inside the value are numbers of 32 bits.  One direction says that what was stored
is read back, with any bytes after it; the other says that a value has no second
form, whoever wrote the bytes.

* `Format.Reads` — the equivalence, for a decoder and an encoder.
* `Format.Reads.list` — lists, from their items.
* `CodeModule.Storable` — the lengths of a module are numbers of 32 bits.
* `CodeModule.decode_eq_ok_iff` — whole modules.
-/

namespace SlotLang

namespace Format

/-- A decoder takes a value off the front of the bytes if and only if the bytes
begin with the stored form of the value and the lengths inside it fit. -/
def Reads {α : Type} (decode : Decoder α) (encode : α → List UInt8) (fits : α → Prop) : Prop :=
  ∀ bytes a rest, decode bytes = .ok (a, rest) ↔ fits a ∧ bytes = encode a ++ rest

/-! ## Bytes, numbers and strings -/

theorem decodeByte_eq_ok {bytes rest : List UInt8} {byte : UInt8} :
    decodeByte bytes = .ok (byte, rest) ↔ bytes = byte :: rest := by
  cases bytes with
  | nil => simp [decodeByte]
  | cons first others => simp [decodeByte]

/-- Four bytes are the form of the number that they are read as. -/
theorem encodeWord_ofNat (b₀ b₁ b₂ b₃ : UInt8) :
    encodeWord (UInt32.ofNat
      (b₀.toNat + 256 * b₁.toNat + 65536 * b₂.toNat + 16777216 * b₃.toNat)) =
        [b₀, b₁, b₂, b₃] := by
  have h₀ := b₀.toNat_lt
  have h₁ := b₁.toNat_lt
  have h₂ := b₂.toNat_lt
  have h₃ := b₃.toNat_lt
  have hsum : b₀.toNat + 256 * b₁.toNat + 65536 * b₂.toNat + 16777216 * b₃.toNat <
      UInt32.size := by
    simp only [UInt32.size]
    omega
  simp only [encodeWord, UInt32.toNat_ofNat_of_lt' hsum, List.cons.injEq, and_true]
  refine ⟨?_, ?_, ?_, ?_⟩
  all_goals
    apply UInt8.toNat_inj.mp
    simp only [UInt8.toNat_ofNat']
    omega

theorem decodeWord_eq_ok {bytes rest : List UInt8} {n : UInt32} :
    decodeWord bytes = .ok (n, rest) ↔ bytes = encodeWord n ++ rest := by
  constructor
  · intro hword
    unfold decodeWord at hword
    split at hword
    next b₀ b₁ b₂ b₃ others =>
        cases hword
        rw [encodeWord_ofNat]
        rfl
    next => cases hword
  · rintro rfl
    exact decodeWord_encodeWord n rest

/-- The form of a length that is a number of 32 bits is the form of that number. -/
theorem encodeLength_toNat (n : UInt32) : encodeLength n.toNat = encodeWord n := by
  rw [encodeLength, UInt32.ofNat_toNat]

theorem decodeBytes_eq_ok {count : Nat} {bytes raw rest : List UInt8} :
    decodeBytes count bytes = .ok (raw, rest) ↔ raw.length = count ∧ bytes = raw ++ rest := by
  unfold decodeBytes
  constructor
  · intro htake
    split at htake
    next => cases htake
    next hlength =>
        cases htake
        refine ⟨?_, (List.take_append_drop count bytes).symm⟩
        rw [List.length_take]
        omega
  · rintro ⟨rfl, rfl⟩
    simp

theorem reads_string :
    Reads decodeString encodeString fun text => (Text.utf8Bytes text).length < UInt32.size := by
  intro bytes text rest
  simp only [decodeString, bind_eq_ok, Prod.exists, decodeWord_eq_ok, decodeBytes_eq_ok]
  constructor
  · rintro ⟨length, _, rfl, raw, _, ⟨hlength, rfl⟩, htext⟩
    split at htext
    next found hfound =>
        cases htext
        have hbytes := Text.utf8Bytes_of_ofUtf8? hfound
        refine ⟨?_, ?_⟩
        · rw [hbytes, hlength]
          exact length.toNat_lt
        · rw [encodeString, hbytes, hlength, encodeLength_toNat, List.append_assoc]
    next => cases htext
  · rintro ⟨hlength, rfl⟩
    refine ⟨UInt32.ofNat (Text.utf8Bytes text).length, Text.utf8Bytes text ++ rest, ?_,
      Text.utf8Bytes text, rest, ⟨?_, rfl⟩, ?_⟩
    · rw [encodeString, encodeLength, List.append_assoc]
    · exact (UInt32.toNat_ofNat_of_lt' hlength).symm
    · simp only [Text.ofUtf8?_utf8Bytes]
      rfl

/-! ## Lists -/

section

variable {α : Type} {item : Decoder α} {encode : α → List UInt8} {fits : α → Prop}

theorem Reads.items (hitem : Reads item encode fits) {count : Nat} {bytes rest : List UInt8}
    {items : List α} :
    decodeItems item count bytes = .ok (items, rest) ↔
      items.length = count ∧ (∀ a ∈ items, fits a) ∧ bytes = items.flatMap encode ++ rest := by
  induction count generalizing bytes rest items with
  | zero =>
      simp only [decodeItems, Except.ok.injEq, Prod.mk.injEq, List.length_eq_zero_iff]
      constructor
      · rintro ⟨rfl, rfl⟩
        simp
      · rintro ⟨rfl, -, rfl⟩
        simp
  | succ count ih =>
      simp only [decodeItems, bind_eq_ok, Prod.exists, hitem _ _ _, ih]
      constructor
      · rintro ⟨first, _, ⟨hfirst, rfl⟩, others, _, ⟨hcount, hothers, rfl⟩, hitems⟩
        cases hitems
        exact ⟨by simp [hcount], List.forall_mem_cons.mpr ⟨hfirst, hothers⟩, by simp⟩
      · rintro ⟨hcount, hall, rfl⟩
        obtain ⟨first, others, rfl⟩ := List.exists_cons_of_length_eq_add_one hcount
        obtain ⟨hfirst, hothers⟩ := List.forall_mem_cons.mp hall
        refine ⟨first, others.flatMap encode ++ rest, ⟨hfirst, ?_⟩, others, rest,
          ⟨?_, hothers, rfl⟩, rfl⟩
        · rw [List.flatMap_cons, List.append_assoc]
        · simpa using hcount

/-- A list is read back from its items, if there are not too many of them. -/
theorem Reads.list (hitem : Reads item encode fits) :
    Reads (decodeList item) (encodeList encode) fun items =>
      items.length < UInt32.size ∧ ∀ a ∈ items, fits a := by
  intro bytes items rest
  simp only [decodeList, bind_eq_ok, Prod.exists, decodeWord_eq_ok, hitem.items]
  constructor
  · rintro ⟨length, _, rfl, hlength, hitems, rfl⟩
    refine ⟨⟨?_, hitems⟩, ?_⟩
    · rw [hlength]
      exact length.toNat_lt
    · rw [encodeList, hlength, encodeLength_toNat, List.append_assoc]
  · rintro ⟨⟨hlength, hitems⟩, rfl⟩
    refine ⟨UInt32.ofNat items.length, items.flatMap encode ++ rest, ?_, ?_, hitems, rfl⟩
    · rw [encodeList, encodeLength, List.append_assoc]
    · exact (UInt32.toNat_ofNat_of_lt' hlength).symm

end

/-! ## Types, constants and instructions -/

theorem reads_type : Reads decodeType encodeType fun _ => True := by
  intro bytes type rest
  simp only [decodeType, bind_eq_ok, Prod.exists, decodeByte_eq_ok, true_and]
  constructor
  · rintro ⟨tag, _, rfl, htype⟩
    split at htype
    all_goals cases htype
    all_goals rfl
  · rintro rfl
    cases type <;> exact ⟨_, rest, rfl, rfl⟩

theorem reads_hostFunction : Reads decodeHostFunction encodeHostFunction fun _ => True := by
  intro bytes function rest
  simp only [decodeHostFunction, bind_eq_ok, Prod.exists, decodeByte_eq_ok, true_and]
  constructor
  · rintro ⟨tag, _, rfl, hfunction⟩
    split at hfunction
    all_goals cases hfunction
    all_goals rfl
  · rintro rfl
    cases function <;> exact ⟨_, rest, rfl, rfl⟩

/-- The lengths inside a constant are numbers of 32 bits. -/
def FitsConstant : Value → Prop
  | .int _ => True
  | .string text => (Text.utf8Bytes text).length < UInt32.size

theorem reads_constant : Reads decodeConstant encodeConstant FitsConstant := by
  intro bytes value rest
  simp only [decodeConstant, bind_eq_ok, Prod.exists, decodeByte_eq_ok]
  constructor
  · rintro ⟨tag, _, rfl, hvalue⟩
    split at hvalue
    · obtain ⟨⟨n, _⟩, hn, hvalue⟩ := bind_eq_ok.mp hvalue
      cases hvalue
      rw [decodeWord_eq_ok.mp hn]
      exact ⟨trivial, by simp [encodeConstant]⟩
    · obtain ⟨⟨text, _⟩, htext, hvalue⟩ := bind_eq_ok.mp hvalue
      cases hvalue
      obtain ⟨hfits, rfl⟩ := (reads_string _ _ _).mp htext
      exact ⟨hfits, rfl⟩
    · cases hvalue
  · rintro ⟨hfits, rfl⟩
    cases value with
    | int n =>
        refine ⟨0, encodeWord n.toUInt32 ++ rest, rfl, ?_⟩
        refine bind_eq_ok.mpr ⟨_, decodeWord_encodeWord _ _, ?_⟩
        simp [pure, Except.pure]
    | string text =>
        refine ⟨1, encodeString text ++ rest, rfl, ?_⟩
        exact bind_eq_ok.mpr ⟨_, (reads_string _ _ _).mpr ⟨hfits, rfl⟩, rfl⟩

theorem decodeWithWord_eq_ok {build : UInt32 → Instruction} {bytes rest : List UInt8}
    {instruction : Instruction} :
    decodeWithWord build bytes = .ok (instruction, rest) ↔
      ∃ operand, instruction = build operand ∧ bytes = encodeWord operand ++ rest := by
  simp only [decodeWithWord, bind_eq_ok, Prod.exists, decodeWord_eq_ok]
  constructor
  · rintro ⟨operand, _, rfl, hinstruction⟩
    cases hinstruction
    exact ⟨operand, rfl, rfl⟩
  · rintro ⟨operand, rfl, rfl⟩
    exact ⟨operand, rest, rfl, rfl⟩

/-- What follows an operation code is the operand of an instruction with that code. -/
theorem decodeOperand_eq_ok {opcode : UInt8} {bytes rest : List UInt8}
    {instruction : Instruction} :
    decodeOperand opcode bytes = .ok (instruction, rest) ↔
      instruction.opcode = opcode ∧ bytes = encodeOperand instruction ++ rest := by
  constructor
  · intro hoperand
    unfold decodeOperand at hoperand
    split at hoperand
    · obtain ⟨operand, rfl, rfl⟩ := decodeWithWord_eq_ok.mp hoperand
      exact ⟨rfl, rfl⟩
    · obtain ⟨operand, rfl, rfl⟩ := decodeWithWord_eq_ok.mp hoperand
      exact ⟨rfl, rfl⟩
    · obtain ⟨operand, rfl, rfl⟩ := decodeWithWord_eq_ok.mp hoperand
      exact ⟨rfl, rfl⟩
    · cases hoperand
      exact ⟨rfl, rfl⟩
    · cases hoperand
      exact ⟨rfl, rfl⟩
    · obtain ⟨⟨function, _⟩, hfunction, hoperand⟩ := bind_eq_ok.mp hoperand
      cases hoperand
      exact ⟨rfl, ((reads_hostFunction _ _ _).mp hfunction).2⟩
    · obtain ⟨operand, rfl, rfl⟩ := decodeWithWord_eq_ok.mp hoperand
      exact ⟨rfl, rfl⟩
    · obtain ⟨operand, rfl, rfl⟩ := decodeWithWord_eq_ok.mp hoperand
      exact ⟨rfl, rfl⟩
    · cases hoperand
      exact ⟨rfl, rfl⟩
    · cases hoperand
  · rintro ⟨rfl, rfl⟩
    cases instruction with
    | constant index => exact decodeWithWord_eq_ok.mpr ⟨index, rfl, rfl⟩
    | loadLocal slot => exact decodeWithWord_eq_ok.mpr ⟨slot, rfl, rfl⟩
    | storeLocal slot => exact decodeWithWord_eq_ok.mpr ⟨slot, rfl, rfl⟩
    | addInt => rfl
    | intToString => rfl
    | callHost function =>
        exact bind_eq_ok.mpr ⟨_, (reads_hostFunction _ _ _).mpr ⟨trivial, rfl⟩, rfl⟩
    | jump target => exact decodeWithWord_eq_ok.mpr ⟨target, rfl, rfl⟩
    | branchIfLess target => exact decodeWithWord_eq_ok.mpr ⟨target, rfl, rfl⟩
    | ret => rfl

theorem reads_instruction : Reads decodeInstruction encodeInstruction fun _ => True := by
  intro bytes instruction rest
  simp only [decodeInstruction, bind_eq_ok, Prod.exists, decodeByte_eq_ok, decodeOperand_eq_ok,
    true_and]
  constructor
  · rintro ⟨_, _, rfl, rfl, rfl⟩
    rfl
  · rintro rfl
    exact ⟨_, _, rfl, rfl, rfl⟩

/-! ## Headers -/

theorem reads_header : Reads decodeHeader (fun _ => magic ++ [version]) fun _ => True := by
  intro bytes _ rest
  simp only [decodeHeader, bind_eq_ok, Prod.exists, decodeBytes_eq_ok, true_and]
  constructor
  · rintro ⟨mark, _, ⟨-, rfl⟩, hheader⟩
    split at hheader
    next => cases hheader
    next hmagic =>
        obtain ⟨⟨found, _⟩, hfound, hversion⟩ := bind_eq_ok.mp hheader
        split at hversion
        next => cases hversion
        next hsame =>
            have hmark : mark = magic := Decidable.not_not.mp hmagic
            have hknown : found = version := Decidable.not_not.mp hsame
            cases hversion
            rw [decodeByte_eq_ok.mp hfound, hmark, hknown]
            rfl
  · rintro rfl
    exact ⟨magic, version :: rest, ⟨rfl, rfl⟩, rfl⟩

end Format

/-! ## Whole modules -/

namespace CodeModule

/-- The lengths of the lists and of the strings in a module are numbers of 32 bits. -/
structure Storable (m : CodeModule) : Prop where
  name : (Text.utf8Bytes m.name).length < UInt32.size
  entry : (Text.utf8Bytes m.entry).length < UInt32.size
  locals : m.locals.size < UInt32.size
  constants : m.constants.size < UInt32.size
  strings : ∀ text, Value.string text ∈ m.constants →
    (Text.utf8Bytes text).length < UInt32.size
  code : m.code.size < UInt32.size

theorem Storable.fitsConstant {m : CodeModule} (hstorable : m.Storable) :
    ∀ value ∈ m.constants.toList, Format.FitsConstant value := by
  intro value hvalue
  cases value with
  | int n => trivial
  | string text => exact hstorable.strings text (Array.mem_toList_iff.mp hvalue)

/-- A module stands at the front of the bytes. -/
theorem reads_fields : Format.Reads Format.decodeFields encode Storable := by
  intro bytes m rest
  simp only [Format.decodeFields, bind_eq_ok, Prod.exists, Format.reads_header _ _ _,
    Format.reads_string _ _ _, Format.reads_type.list _ _ _, Format.reads_constant.list _ _ _,
    Format.reads_instruction.list _ _ _]
  constructor
  · rintro ⟨_, _, ⟨-, rfl⟩, name, _, ⟨hname, rfl⟩, entry, _, ⟨hentry, rfl⟩, locals, _,
      ⟨⟨hlocals, -⟩, rfl⟩, constants, _, ⟨⟨hconstants, hstrings⟩, rfl⟩, code, _,
      ⟨⟨hcode, -⟩, rfl⟩, hm⟩
    cases hm
    refine ⟨⟨hname, hentry, ?_, ?_, ?_, ?_⟩, ?_⟩
    · simpa using hlocals
    · simpa using hconstants
    · intro text htext
      exact hstrings _ (by simpa using htext)
    · simpa using hcode
    · simp [encode]
  · rintro ⟨hstorable, rfl⟩
    refine ⟨(), _, ⟨trivial, ?_⟩, m.name, _, ⟨hstorable.name, rfl⟩, m.entry, _,
      ⟨hstorable.entry, rfl⟩, m.locals.toList, _, ⟨⟨hstorable.locals, fun _ _ => trivial⟩, rfl⟩,
      m.constants.toList, _, ⟨⟨hstorable.constants, hstorable.fitsConstant⟩, rfl⟩,
      m.code.toList, rest, ⟨⟨hstorable.code, fun _ _ => trivial⟩, rfl⟩, ?_⟩
    · simp [encode]
    · simp [pure, Except.pure]

/-- Bytes are read as a module if and only if they are the form of the module and its
lengths fit. -/
theorem decode_eq_ok_iff {bytes : List UInt8} {m : CodeModule} :
    decode bytes = .ok m ↔ m.Storable ∧ bytes = m.encode := by
  simp only [decode, bind_eq_ok, Prod.exists, reads_fields _ _ _]
  constructor
  · rintro ⟨found, rest, ⟨hstorable, rfl⟩, hrest⟩
    split at hrest
    next hempty =>
        cases hrest
        rw [List.isEmpty_iff.mp hempty, List.append_nil]
        exact ⟨hstorable, rfl⟩
    next => cases hrest
  · rintro ⟨hstorable, rfl⟩
    exact ⟨m, [], ⟨hstorable, (List.append_nil _).symm⟩, rfl⟩

/-- A module whose lengths are numbers of 32 bits is read back from its stored form:
every name, every type, every constant and every operand. -/
theorem decode_encode {m : CodeModule} (hstorable : m.Storable) : decode m.encode = .ok m :=
  decode_eq_ok_iff.mpr ⟨hstorable, rfl⟩

/-- The least integer, strings of characters of one to four bytes, and operands out of
range. -/
def extremes : CodeModule where
  name := "é"
  entry := ""
  locals := #[.string, .int]
  constants := #[.int (-2147483648), .string "a∀😀\n", .int (-1), .string ""]
  code := #[.constant 4294967295, .callHost .parseInt, .jump 4294967295, .branchIfLess 256,
    .addInt, .ret]

theorem extremes_decode_encode :
    extremes.Storable ∧ decode extremes.encode = .ok extremes := by
  have hstorable : extremes.Storable := by
    refine ⟨by decide, by decide, by decide, by decide, ?_, by decide⟩
    intro text htext
    have hcases : text = "a∀😀\n" ∨ text = "" := by simpa [extremes] using htext
    rcases hcases with rfl | rfl
    · decide
    · decide
  exact ⟨hstorable, decode_encode hstorable⟩

/-- The stored form of a module is the only one.  Whatever wrote the bytes, if they are
read as a module then they are its stored form, and so no other bytes are read as the
same module. -/
theorem encode_of_decode {bytes : List UInt8} {m : CodeModule} (hdecode : decode bytes = .ok m) :
    m.encode = bytes ∧ ∀ other, decode other = .ok m → other = bytes := by
  obtain ⟨-, rfl⟩ := decode_eq_ok_iff.mp hdecode
  refine ⟨rfl, ?_⟩
  intro other hother
  obtain ⟨-, hform⟩ := decode_eq_ok_iff.mp hother
  exact hform

/-- Bytes from elsewhere: no name, an entry of two bytes, the constants -2 and the empty
string, and a branch out of the code. -/
def foreignBytes : List UInt8 :=
  [0x53, 0x50, 0x45, 0x4B, 1, 0, 0, 0, 0, 2, 0, 0, 0, 0xC3, 0xA9, 1, 0, 0, 0, 1, 2, 0, 0, 0,
    0, 0xFE, 0xFF, 0xFF, 0xFF, 1, 0, 0, 0, 0, 2, 0, 0, 0, 7, 0xFF, 0xFF, 0xFF, 0xFF, 8]

/-- The module with those bytes. -/
def foreign : CodeModule where
  name := ""
  entry := "é"
  locals := #[.string]
  constants := #[.int (-2), .string ""]
  code := #[.branchIfLess 4294967295, .ret]

theorem foreign_encode_of_decode :
    decode foreignBytes = .ok foreign ∧ foreign.encode = foreignBytes ∧
      ∀ other, decode other = .ok foreign → other = foreignBytes := by
  have hdecode : decode foreignBytes = .ok foreign := rfl
  exact ⟨hdecode, encode_of_decode hdecode⟩

end CodeModule

end SlotLang

import SlotLang.Proofs.StoredModules

/-!
# Stored modules end by themselves

A decoding step takes bytes off the front and looks at no others.  Bytes that are added
at the end are therefore left over, and an error stays what it was, unless the step failed
because there were no more bytes.  This is stated for one step and carried over to steps
in a row, so that it holds of every section of a stored module and of the whole.

* `DecodeError.Lasting` — the errors that no further bytes can mend.
* `Format.Grows` — how a result changes when bytes are added.
* `Format.Steady` — a decoder whose results change in no other way.
* `CodeModule.decode_append` — what that says about the bytes of modules.
-/

namespace SlotLang

/-- The bytes that were read are wrong, whatever comes after them. -/
def DecodeError.Lasting : DecodeError → Prop
  | badMagic => True
  | unsupportedVersion _ => True
  | truncated => False
  | unknownTag _ _ => True
  | invalidUtf8 => True
  | trailingBytes _ => False

namespace Format

/-- How the result of a decoding step changes when bytes are added at the end.  Only a
step that ran out of bytes may end in another way. -/
inductive Grows {α : Type} (more : List UInt8) :
    Except DecodeError (α × List UInt8) → Except DecodeError (α × List UInt8) → Prop
  | ok (a : α) (rest : List UInt8) : Grows more (.ok (a, rest)) (.ok (a, rest ++ more))
  | error {error : DecodeError} (hlasting : error.Lasting) :
      Grows more (.error error) (.error error)
  | truncated (other : Except DecodeError (α × List UInt8)) : Grows more (.error .truncated) other

/-- Whatever bytes are added to whatever bytes, the result of the decoder grows. -/
def Steady {α : Type} (decode : Decoder α) : Prop :=
  ∀ bytes more, Grows more (decode bytes) (decode (bytes ++ more))

/-- The results of two steps in a row grow if those of both do. -/
theorem Grows.bind {α β : Type} {more : List UInt8}
    {first longer : Except DecodeError (α × List UInt8)}
    {next : α × List UInt8 → Except DecodeError (β × List UInt8)} (hfirst : Grows more first longer)
    (hnext : ∀ a rest, Grows more (next (a, rest)) (next (a, rest ++ more))) :
    Grows more (first >>= next) (longer >>= next) := by
  cases hfirst with
  | ok a rest => exact hnext a rest
  | error hlasting => exact .error hlasting
  | truncated => exact .truncated _

/-! ## Bytes, numbers and strings -/

theorem steady_byte : Steady decodeByte := by
  intro bytes more
  cases bytes with
  | nil => exact .truncated _
  | cons byte rest => exact .ok byte rest

theorem steady_word : Steady decodeWord := by
  intro bytes more
  match bytes with
  | [] => exact .truncated _
  | [_] => exact .truncated _
  | [_, _] => exact .truncated _
  | [_, _, _] => exact .truncated _
  | _ :: _ :: _ :: _ :: rest => exact .ok _ rest

theorem steady_bytes (count : Nat) : Steady (decodeBytes count) := by
  intro bytes more
  unfold decodeBytes
  by_cases hlength : bytes.length < count
  · rw [if_pos hlength]
    exact .truncated _
  · have hlonger : ¬ (bytes ++ more).length < count := by
      rw [List.length_append]
      omega
    rw [if_neg hlength, if_neg hlonger, List.take_append_of_le_length (by omega),
      List.drop_append_of_le_length (by omega)]
    exact .ok _ _

theorem steady_string : Steady decodeString := by
  intro bytes more
  refine (steady_word bytes more).bind fun length rest => ?_
  refine (steady_bytes length.toNat rest more).bind fun raw rest => ?_
  dsimp only
  cases Text.ofUtf8? raw with
  | some text => exact .ok text rest
  | none => exact .error trivial

/-! ## Lists -/

section

variable {α : Type} {item : Decoder α}

theorem Steady.items (hitem : Steady item) (count : Nat) : Steady (decodeItems item count) := by
  induction count with
  | zero => exact fun bytes more => .ok [] bytes
  | succ count ih =>
      intro bytes more
      refine (hitem bytes more).bind fun first rest => ?_
      exact (ih rest more).bind fun others rest => .ok (first :: others) rest

theorem Steady.list (hitem : Steady item) : Steady (decodeList item) := fun bytes more =>
  (steady_word bytes more).bind fun length rest => hitem.items length.toNat rest more

end

/-! ## Types, constants and instructions -/

theorem steady_type : Steady decodeType := by
  intro bytes more
  refine (steady_byte bytes more).bind fun tag rest => ?_
  dsimp only
  split
  · exact .ok _ rest
  · exact .ok _ rest
  · exact .error trivial

theorem steady_hostFunction : Steady decodeHostFunction := by
  intro bytes more
  refine (steady_byte bytes more).bind fun tag rest => ?_
  dsimp only
  split
  · exact .ok _ rest
  · exact .ok _ rest
  · exact .ok _ rest
  · exact .error trivial

theorem steady_constant : Steady decodeConstant := by
  intro bytes more
  refine (steady_byte bytes more).bind fun tag rest => ?_
  dsimp only
  split
  · exact (steady_word rest more).bind fun n rest => .ok _ rest
  · exact (steady_string rest more).bind fun text rest => .ok _ rest
  · exact .error trivial

theorem steady_withWord (build : UInt32 → Instruction) : Steady (decodeWithWord build) :=
  fun bytes more => (steady_word bytes more).bind fun operand rest => .ok (build operand) rest

theorem steady_operand (opcode : UInt8) : Steady (decodeOperand opcode) := by
  intro bytes more
  unfold decodeOperand
  split
  · exact steady_withWord _ bytes more
  · exact steady_withWord _ bytes more
  · exact steady_withWord _ bytes more
  · exact .ok _ bytes
  · exact .ok _ bytes
  · exact (steady_hostFunction bytes more).bind fun function rest => .ok _ rest
  · exact steady_withWord _ bytes more
  · exact steady_withWord _ bytes more
  · exact .ok _ bytes
  · exact .error trivial

theorem steady_instruction : Steady decodeInstruction := fun bytes more =>
  (steady_byte bytes more).bind fun opcode rest => steady_operand opcode rest more

/-! ## Whole modules -/

theorem steady_header : Steady decodeHeader := by
  intro bytes more
  refine (steady_bytes magic.length bytes more).bind fun mark rest => ?_
  dsimp only
  split
  · exact .error trivial
  · refine (steady_byte rest more).bind fun found rest => ?_
    dsimp only
    split
    · exact .error trivial
    · exact .ok () rest

theorem steady_fields : Steady decodeFields := fun bytes more =>
  (steady_header bytes more).bind fun _ rest =>
    (steady_string rest more).bind fun _ rest =>
      (steady_string rest more).bind fun _ rest =>
        (steady_type.list rest more).bind fun _ rest =>
          (steady_constant.list rest more).bind fun _ rest =>
            (steady_instruction.list rest more).bind fun _ rest => .ok _ rest

end Format

namespace CodeModule

theorem decode_of_fields {bytes rest : List UInt8} {m : CodeModule}
    (hfields : Format.decodeFields bytes = .ok (m, rest)) :
    decode bytes = if rest.isEmpty then .ok m else .error (.trailingBytes rest.length) := by
  rw [decode, hfields]
  rfl

theorem decode_of_fields_error {bytes : List UInt8} {error : DecodeError}
    (hfields : Format.decodeFields bytes = .error error) : decode bytes = .error error := by
  rw [decode, hfields]
  rfl

/-- The four ways in which bytes are read, and how each goes on when more bytes are added. -/
theorem decode_append_cases (bytes : List UInt8) {more : List UInt8} (hmore : more ≠ []) :
    (∃ m, decode bytes = .ok m ∧ decode (bytes ++ more) = .error (.trailingBytes more.length)) ∨
      (∃ n, decode bytes = .error (.trailingBytes n) ∧
        decode (bytes ++ more) = .error (.trailingBytes (n + more.length))) ∨
      (∃ error : DecodeError, error.Lasting ∧ decode bytes = .error error ∧
        decode (bytes ++ more) = .error error) ∨
      decode bytes = .error .truncated := by
  have hgrows := Format.steady_fields bytes more
  generalize hfields : Format.decodeFields bytes = result at hgrows
  generalize hlonger : Format.decodeFields (bytes ++ more) = longer at hgrows
  cases hgrows with
  | ok m rest =>
      have hleft : (rest ++ more).isEmpty = false := by simp [hmore]
      rw [decode_of_fields hfields, decode_of_fields hlonger, hleft, List.length_append]
      cases rest with
      | nil => exact .inl ⟨m, rfl, by simp⟩
      | cons byte rest => exact .inr (.inl ⟨_, rfl, rfl⟩)
  | error hlasting =>
      exact .inr (.inr (.inl ⟨_, hlasting, decode_of_fields_error hfields,
        decode_of_fields_error hlonger⟩))
  | truncated => exact .inr (.inr (.inr (decode_of_fields_error hfields)))

/-- The bytes of a module without the last ones are cut short, wherever the cut is. -/
theorem decode_eq_truncated {front more : List UInt8} (hmore : more ≠ []) {m : CodeModule}
    (hdecode : decode (front ++ more) = .ok m) : decode front = .error .truncated := by
  rcases decode_append_cases front hmore with
    ⟨_, -, hlonger⟩ | ⟨_, -, hlonger⟩ | ⟨_, -, -, hlonger⟩ | htruncated
  · cases hdecode.symm.trans hlonger
  · cases hdecode.symm.trans hlonger
  · cases hdecode.symm.trans hlonger
  · exact htruncated

/-- Stored modules end by themselves.  Bytes after a module are counted as left over, and
more of them are counted as well; no module is cut short without being noticed; and bytes
that are wrong stay wrong in the same way. -/
theorem decode_append (bytes : List UInt8) {more : List UInt8} (hmore : more ≠ []) :
    (∀ m, decode bytes = .ok m →
      decode (bytes ++ more) = .error (.trailingBytes more.length) ∧
      ∀ front, front <+: bytes → front ≠ bytes → decode front = .error .truncated) ∧
    (∀ n, decode bytes = .error (.trailingBytes n) →
      decode (bytes ++ more) = .error (.trailingBytes (n + more.length))) ∧
    ∀ error : DecodeError, error.Lasting → decode bytes = .error error →
      decode (bytes ++ more) = .error error := by
  have hfront : ∀ m, decode bytes = .ok m → ∀ front, front <+: bytes → front ≠ bytes →
      decode front = .error .truncated := by
    rintro m hm front ⟨cut, rfl⟩ hne
    exact decode_eq_truncated (by simpa using hne) hm
  rcases decode_append_cases bytes hmore with
    ⟨m, hm, hlonger⟩ | ⟨n, hn, hlonger⟩ | ⟨error, hlasting, herror, hlonger⟩ | htruncated
  · exact ⟨fun m hm => ⟨hlonger, hfront m hm⟩, by rw [hm]; nofun, by rw [hm]; nofun⟩
  · rw [hn]
    refine ⟨nofun, fun n heq => ?_, fun error hlasting heq => ?_⟩
    · cases heq
      exact hlonger
    · cases heq
      exact hlasting.elim
  · rw [herror]
    refine ⟨nofun, fun n heq => ?_, fun error _ heq => ?_⟩
    · cases heq
      exact hlasting.elim
    · cases heq
      exact hlonger
  · rw [htruncated]
    refine ⟨nofun, nofun, fun error hlasting heq => ?_⟩
    cases heq
    exact hlasting.elim

/-- A header and a name that ends inside a character of two bytes. -/
def brokenNameBytes : List UInt8 := [0x53, 0x50, 0x45, 0x4B, 1, 1, 0, 0, 0, 0xC3]

/-- Bytes after a module, a cut inside the name of its entry, and a name that stays wrong
when the missing byte follows it. -/
theorem foreign_decode_append :
    decode foreignBytes = .ok foreign ∧
      decode (foreignBytes ++ [8, 0]) = .error (.trailingBytes 2) ∧
      decode (foreignBytes.take 14) = .error .truncated ∧
      decode (foreignBytes ++ [8, 0] ++ [1]) = .error (.trailingBytes 3) ∧
      decode brokenNameBytes = .error .invalidUtf8 ∧
      decode (brokenNameBytes ++ [0xA9]) = .error .invalidUtf8 := by
  have hmodule : decode foreignBytes = .ok foreign := rfl
  have hbroken : decode brokenNameBytes = .error .invalidUtf8 := rfl
  obtain ⟨htrailing, hcut⟩ := (decode_append foreignBytes (List.cons_ne_nil 8 [0])).1 _ hmodule
  refine ⟨hmodule, htrailing, ?_, ?_, hbroken, ?_⟩
  · exact hcut _ (List.take_prefix 14 foreignBytes) (by decide)
  · exact (decode_append _ (List.cons_ne_nil 1 [])).2.1 _ htrailing
  · exact (decode_append _ (List.cons_ne_nil 0xA9 [])).2.2 _ trivial hbroken

end CodeModule

end SlotLang

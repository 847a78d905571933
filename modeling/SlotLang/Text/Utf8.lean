/-!
# Text as bytes

Strings are stored as their UTF-8 bytes, and places in program text are
counted in such bytes.

* `byteLength` — how many bytes a run of characters takes.
* `utf8Bytes` — the bytes of a string.
* `ofUtf8?` — the string with the given bytes, if they are valid.
-/

namespace SlotLang
namespace Text

/-- The number of UTF-8 bytes of a run of characters. -/
def byteLength : List Char → Nat
  | [] => 0
  | c :: rest => c.utf8Size + byteLength rest

/-- The UTF-8 bytes of a string. -/
def utf8Bytes (text : String) : List UInt8 :=
  text.toUTF8.data.toList

/-- The string whose UTF-8 bytes are given, if they are well formed. -/
def ofUtf8? (bytes : List UInt8) : Option String :=
  String.fromUTF8? ⟨bytes.toArray⟩

@[simp] theorem byteLength_nil : byteLength [] = 0 := rfl

@[simp] theorem byteLength_cons (c : Char) (rest : List Char) :
    byteLength (c :: rest) = c.utf8Size + byteLength rest := rfl

@[simp] theorem byteLength_append (first second : List Char) :
    byteLength (first ++ second) = byteLength first + byteLength second := by
  induction first with
  | nil => simp
  | cons c rest ih => simp [ih, Nat.add_assoc]

theorem byteLength_pos {text : List Char} (hne : text ≠ []) : 0 < byteLength text := by
  cases text with
  | nil => exact absurd rfl hne
  | cons c rest =>
      have hsize := c.utf8Size_pos
      rw [byteLength_cons]
      omega

/-- A string is read back from its bytes. -/
@[simp] theorem ofUtf8?_utf8Bytes (text : String) : ofUtf8? (utf8Bytes text) = some text := by
  simp only [ofUtf8?, utf8Bytes, String.fromUTF8?]
  exact dif_pos text.isValidUTF8

/-- The bytes of a string that was read are the bytes it was read from. -/
theorem utf8Bytes_of_ofUtf8? {bytes : List UInt8} {text : String}
    (htext : ofUtf8? bytes = some text) : utf8Bytes text = bytes := by
  unfold ofUtf8? String.fromUTF8? at htext
  split at htext
  next hvalid =>
      cases htext
      rfl
  next => cases htext

end Text
end SlotLang

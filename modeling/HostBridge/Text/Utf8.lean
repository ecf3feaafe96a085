/-!
# Text as bytes

Text travels as UTF-8. `encode` gives the bytes of a text and `decode?` reads
them back, refusing every sequence of bytes that is not the encoding of some
text: truncated or overlong forms, surrogates, and code points above U+10FFFF.

* `decode?_eq_some_iff`: reading accepts exactly what writing produces.
-/

namespace HostBridge

/-- A sequence of bytes. -/
abbrev Bytes := List UInt8

namespace Utf8

/-- The UTF-8 bytes of `text`. -/
def encode (text : String) : Bytes := text.toByteArray.data.toList

/-- The text whose UTF-8 bytes these are. -/
def decode? (bytes : Bytes) : Option String := String.fromUTF8? ⟨bytes.toArray⟩

theorem decode?_eq_some_iff {bytes : Bytes} {text : String} :
    decode? bytes = some text ↔ bytes = encode text := by
  unfold decode? encode String.fromUTF8?
  constructor
  · intro h
    split at h
    · obtain rfl := Option.some.inj h
      simp [String.fromUTF8]
    · exact absurd h (by simp)
  · rintro rfl
    have hvalid : (ByteArray.mk text.toByteArray.data.toList.toArray).IsValidUTF8 := by
      simpa using text.isValidUTF8
    rw [dif_pos hvalid]
    simp [String.fromUTF8]

@[simp] theorem decode?_encode (text : String) : decode? (encode text) = some text :=
  decode?_eq_some_iff.2 rfl

end Utf8

end HostBridge

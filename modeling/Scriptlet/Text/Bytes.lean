import Scriptlet.Text.Offset
/-!
# Texts as bytes

The UTF-8 form of a text, and the text of which some bytes are the form.
-/

namespace Scriptlet.Text

def bytes (text : String) : List UInt8 := text.toList.flatMap String.utf8EncodeChar

def ofBytes? (bytes : List UInt8) : Option String := String.fromUTF8? ⟨bytes.toArray⟩

@[simp] theorem bytes_empty : bytes "" = [] := rfl

@[simp] theorem bytes_append (s t : String) : bytes (s ++ t) = bytes s ++ bytes t := by
  simp [bytes]

theorem ofBytes?_bytes (text : String) : ofBytes? (bytes text) = some text := by
  have hform : (⟨(bytes text).toArray⟩ : ByteArray) = text.toByteArray := by
    rw [← String.utf8Encode_toList, List.utf8Encode, ByteArray.ext_iff, List.data_toByteArray]
    rfl
  rw [ofBytes?, hform, String.fromUTF8?, dif_pos text.isValidUTF8]
  rfl

end Scriptlet.Text

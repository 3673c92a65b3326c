/-!
# Bytes

Raw data is a list of bytes. Text goes over into bytes by its UTF-8 form.
-/

namespace RaftReplica

/-- Raw bytes. -/
abbrev Bytes := List UInt8

namespace Bytes

/-- The UTF-8 form of a text. -/
def ofText (s : String) : Bytes := s.toUTF8.toList

/-- The text with this UTF-8 form, if the bytes are valid. -/
def text? (bytes : Bytes) : Option String := String.fromUTF8? ⟨bytes.toArray⟩

end Bytes

end RaftReplica

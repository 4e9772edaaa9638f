/-!
Byte strings, the payload of chunks, parts and bodies.
-/
namespace Exchange

/-- A byte string. -/
abbrev Octets := List UInt8

namespace Octets

/-- The UTF-8 bytes of a text. -/
def ofText (s : String) : Octets := s.toUTF8.toList

/-- The text whose UTF-8 bytes these are, if there is one. -/
def text? (bytes : Octets) : Option String := String.fromUTF8? (ByteArray.mk bytes.toArray)

end Octets

end Exchange

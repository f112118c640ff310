/-! Text as UTF-8. -/

namespace Proximity.Utf8

/-- The text that a byte string encodes. Surrogates are refused, and so are encodings that are
longer than need be. -/
def read? (bytes : List UInt8) : Option String := String.fromUTF8? ⟨bytes.toArray⟩

def write (text : List Char) : List UInt8 := text.flatMap String.utf8EncodeChar

def size (text : List Char) : Nat := (write text).length

end Proximity.Utf8

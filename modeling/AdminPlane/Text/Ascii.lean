namespace AdminPlane.Text

/-- The bytes of a text that holds ASCII characters alone. -/
def ascii (s : String) : List UInt8 := s.toList.map Char.toUInt8

namespace Ascii

def lineFeed : UInt8 := 0x0A
def quote : UInt8 := 0x22
def plus : UInt8 := 0x2B
def comma : UInt8 := 0x2C
def minus : UInt8 := 0x2D
def point : UInt8 := 0x2E
def zero : UInt8 := 0x30
def colon : UInt8 := 0x3A
def openBracket : UInt8 := 0x5B
def backslash : UInt8 := 0x5C
def closeBracket : UInt8 := 0x5D
def lowerU : UInt8 := 0x75
def openBrace : UInt8 := 0x7B
def closeBrace : UInt8 := 0x7D

def isDigit (b : UInt8) : Bool := 0x30 ≤ b && b ≤ 0x39

end Ascii

end AdminPlane.Text

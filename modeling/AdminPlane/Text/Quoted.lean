import AdminPlane.Text.Hex
import AdminPlane.Text.Printable

namespace AdminPlane.Text.Quoted

/-- Double quote, backslash and the four named controls take a backslash; any other character
that does not print is written by its number. -/
def escape (c : Char) : List Char :=
  if c = '"' then ['\\', '"']
  else if c = '\\' then ['\\', '\\']
  else if c = '\n' then ['\\', 'n']
  else if c = '\r' then ['\\', 'r']
  else if c = '\t' then ['\\', 't']
  else if c.toNat = 0 then ['\\', '0']
  else if isPrintable c then [c]
  else ['\\', 'u', '\x7b'] ++ Hex.ofNat 1 c.toNat ++ ['\x7d']

def encode (s : List Char) : List Char := '"' :: s.flatMap escape ++ ['"']

end Quoted

/-- The text in double quotes, on one line, with nothing invisible in it. -/
def quoted (s : String) : String := String.ofList (Quoted.encode s.toList)

end AdminPlane.Text

import AdminPlane.Text.Blank
import AdminPlane.Text.Hex
import AdminPlane.Decimal.Numeral

namespace AdminPlane.Channel

def keySize : Nat := 32

/-- The key that a node and its operators share. -/
structure Key where
  bytes : Vector UInt8 32
deriving DecidableEq

inductive KeyError where
  | length (actual : Nat)
  | encoding
deriving DecidableEq, Repr

def KeyError.message : KeyError → String
  | length actual =>
    "invalid key length: expected " ++ Decimal.natural keySize ++ " bytes, got " ++
      Decimal.natural actual
  | encoding => "invalid key encoding: expected hex"

/-- At most one `0x` is removed. -/
def withoutMark (s : List Char) : List Char :=
  match s with
  | '0' :: 'x' :: rest => rest
  | _ => s

namespace Key

def ofBytes (bytes : List UInt8) : Except KeyError Key :=
  if h : bytes.length = 32 then .ok ⟨⟨bytes.toArray, by simpa using h⟩⟩
  else .error (.length bytes.length)

/-- Blanks around the text are ignored, then one mark, then there are digits alone. -/
def parse (s : String) : Except KeyError Key :=
  match Text.Hex.decode? (withoutMark (Text.trim s.toList)) with
  | none => .error .encoding
  | some bytes => ofBytes bytes

def hex (k : Key) : String := String.ofList (Text.Hex.encode k.bytes.toList)

/-- The bytes are never shown. -/
def debug (_ : Key) : String := "AdminKey([REDACTED])"

end Key

end AdminPlane.Channel

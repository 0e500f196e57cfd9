import AdminPlane.Decimal.Numeral
import AdminPlane.Text.Hex

namespace AdminPlane

/-- A local address that can be listened on. -/
structure Endpoint where
  host : String
  port : Nat
deriving DecidableEq, Repr

/-- Why an address cannot be listened on. -/
inductive BindError where
  | notSocketAddress
  | invalidPort
  | unavailable
deriving DecidableEq, Repr

def BindError.message : BindError → String
  | notSocketAddress => "invalid socket address"
  | invalidPort => "invalid port value"
  | unavailable => "address not available"

namespace Endpoint

/-- The text before the last colon and the text behind it. -/
def splitPort (s : List Char) : Option (List Char × List Char) :=
  match s.reverse.span (· ≠ ':') with
  | (_, []) => none
  | (port, _ :: host) => some (host.reverse, port.reverse)

/-- A number in base sixteen behind `0x`, in base eight behind another zero, or in base ten. -/
def number? (s : List Char) : Option Nat :=
  let digits (base : Nat) (ds : List Char) : Option Nat := do
    let values ← ds.mapM fun c => (Text.Hex.value? c).filter (· < base)
    if values = [] then none else some (values.foldl (fun n d => base * n + d) 0)
  match s with
  | '0' :: 'x' :: ds => digits 16 ds
  | '0' :: 'X' :: ds => digits 16 ds
  | '0' :: _ => digits 8 s
  | _ => digits 10 s

/-- The number of an address of four bytes. Its parts but the last stand for a byte each, and the
last one for all bytes that are left. -/
def address? (host : String) : Option Nat := do
  let parts ← ((host.splitOn ".").map String.toList).mapM number?
  let last ← parts.getLast?
  let leading := parts.dropLast
  let room := 1 <<< (8 * (4 - leading.length))
  if 3 < leading.length ∨ leading.any (255 < ·) ∨ room ≤ last then none
  else some (room * leading.foldl (fun n byte => 256 * n + byte) 0 + last)

/-- The addresses of the loopback interface, and the ones that stand for every interface. -/
def isLocal (host : String) : Bool :=
  match address? host with
  | some n => n = 0 || n >>> 24 = 127
  | none => ["localhost", "[::1]", "[::]", "::1", "::"].contains (host.map Char.toLower)

/-- A host and a port, on a host whose only interface is the loopback interface. -/
def resolve (address : String) : Except BindError Endpoint :=
  match splitPort address.toList with
  | none => .error .notSocketAddress
  | some (host, port) =>
    match Decimal.unsigned? UInt16.size port with
    | none => .error .invalidPort
    | some port =>
      let host := String.ofList host
      if isLocal host then .ok ⟨host, port⟩ else .error .unavailable

end Endpoint

end AdminPlane

namespace AdminPlane.Decimal

def isDigit (c : Char) : Bool := '0' ≤ c && c ≤ '9'

def value (c : Char) : Nat := c.toNat - 48

/-- No sign, no leading zeros. -/
def natural (n : Nat) : String := String.ofList (Nat.toDigits 10 n)

/-- A minus sign for negative numbers, no sign for the others. -/
def integer (n : Int) : String :=
  if n < 0 then "-" ++ natural n.natAbs else natural n.toNat

/-- The number that digits in base ten denote, most significant first. -/
def ofDigits (digits : List Char) : Nat := digits.foldl (fun n c => 10 * n + value c) 0

/-- One or more digits and nothing else; leading zeros are allowed. -/
def natural? (s : List Char) : Option Nat :=
  if s ≠ [] ∧ s.all isDigit then some (ofDigits s) else none

/-- A plus sign may stand before an unsigned number. -/
def unsigned? (bound : Nat) (s : List Char) : Option Nat :=
  let digits := match s with
    | '+' :: rest => rest
    | _ => s
  (natural? digits).filter (· < bound)

/-- The range of signed numbers of 64 bits. -/
def fits64 (n : Int) : Bool := -0x8000000000000000 ≤ n && n ≤ 0x7FFFFFFFFFFFFFFF

/-- Either sign may stand before a signed number of 64 bits. -/
def signed64? (s : List Char) : Option Int :=
  let n : Option Int := match s with
    | '-' :: rest => (natural? rest).map fun n => -(n : Int)
    | '+' :: rest => (natural? rest).map Int.ofNat
    | _ => (natural? s).map Int.ofNat
  n.filter fits64

/-- The text behind a sign, and whether the sign is a minus. -/
def sign : List Char → Bool × List Char
  | '-' :: rest => (true, rest)
  | '+' :: rest => (false, rest)
  | s => (false, s)

/-- Digits with at most one point among them, one digit at least, and an exponent behind them or
none. -/
def isDecimal (s : List Char) : Bool :=
  let unsigned := (sign s).2
  let whole := unsigned.takeWhile isDigit
  let rest := unsigned.dropWhile isDigit
  let places := match rest with
    | '.' :: tail => tail.takeWhile isDigit
    | _ => []
  let power := match rest with
    | '.' :: tail => tail.dropWhile isDigit
    | _ => rest
  let isPower := match power with
    | [] => true
    | c :: tail => (c = 'e' || c = 'E') && (natural? (sign tail).2).isSome
  (whole ≠ [] || places ≠ []) && isPower

/-- Ten to a power. -/
def tenTo (e : Nat) : Nat := Nat.pow 10 e

end AdminPlane.Decimal

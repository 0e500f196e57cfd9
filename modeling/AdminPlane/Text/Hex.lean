namespace AdminPlane.Text.Hex

/-- Both letter cases are digits; no other character is. -/
def value? (c : Char) : Option Nat :=
  if '0' ≤ c ∧ c ≤ '9' then some (c.toNat - 48)
  else if 'a' ≤ c ∧ c ≤ 'f' then some (c.toNat - 87)
  else if 'A' ≤ c ∧ c ≤ 'F' then some (c.toNat - 55)
  else none

def isDigit (c : Char) : Bool := (value? c).isSome

/-- Lower case. -/
def digit (n : Nat) : Char := Char.ofNat (if n < 10 then 48 + n else 87 + n)

/-- Pairs of digits, high half first; an odd digit or any other character spoils the whole text. -/
def decode? : List Char → Option (List UInt8)
  | [] => some []
  | [_] => none
  | a :: b :: rest => do
    let high ← value? a
    let low ← value? b
    let bytes ← decode? rest
    return UInt8.ofNat (16 * high + low) :: bytes

def encode (bytes : List UInt8) : List Char :=
  bytes.flatMap fun b => [digit (b.toNat / 16), digit (b.toNat % 16)]

/-- At least `width` digits, lower case. -/
def ofNat (width n : Nat) : List Char :=
  let digits := Nat.toDigits 16 n
  List.replicate (width - digits.length) '0' ++ digits

/-- The character whose number the first `width` digits are, and the text behind them. -/
def codePoint? (width : Nat) (s : List Char) : Option (Char × List Char) :=
  let digits := s.take width
  let n := digits.foldl (fun n c => 16 * n + (value? c).getD 0) 0
  if digits.length = width ∧ digits.all isDigit ∧ n.isValidChar then
    some (Char.ofNat n, s.drop width)
  else none

theorem value?_digit : ∀ n < 16, value? (digit n) = some n := by decide

theorem decode?_encode (bytes : List UInt8) : decode? (encode bytes) = some bytes := by
  induction bytes with
  | nil => rfl
  | cons b rest ih =>
    have hb : b.toNat < 256 := b.toNat_lt
    have high := value?_digit (b.toNat / 16) (by omega)
    have low := value?_digit (b.toNat % 16) (by omega)
    simp only [encode, List.flatMap_cons, List.cons_append, List.nil_append, decode?] at ih ⊢
    rw [high, low, ih]
    have hn : 16 * (b.toNat / 16) + b.toNat % 16 = b.toNat := by omega
    show some (UInt8.ofNat (16 * (b.toNat / 16) + b.toNat % 16) :: rest) = some (b :: rest)
    rw [hn, UInt8.ofNat_toNat]

theorem length_encode (bytes : List UInt8) : (encode bytes).length = 2 * bytes.length := by
  induction bytes with
  | nil => rfl
  | cons b rest ih => simp [encode] at ih ⊢; omega

end AdminPlane.Text.Hex

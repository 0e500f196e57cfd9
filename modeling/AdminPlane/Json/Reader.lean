import AdminPlane.Json.Fault
import AdminPlane.Text.Utf8

namespace AdminPlane.Json

open Text Text.Ascii

/-- Reads a value off the front of what is left of a document. -/
abbrev Reader (α : Type) := StateT (List UInt8) (Except Fault) α

/-- Reported where reading stopped. -/
def fail (cause : Cause) : Reader α := fun s => .error ⟨cause, s.length⟩

/-- Reported `count` bytes before reading stopped. -/
def failBefore (count : Nat) (cause : Cause) : Reader α := fun s =>
  .error ⟨cause, s.length + count⟩

/-- Reported behind the next byte. -/
def failNext (cause : Cause) : Reader α := fun s => .error ⟨cause, s.length - 1⟩

def isSpace (b : UInt8) : Bool := b = 0x20 || b = 0x0A || b = 0x09 || b = 0x0D

def skipSpaces : Reader Unit := fun s => .ok ((), s.dropWhile isSpace)

/-- The next byte, which stays. -/
def peek : Reader (Option UInt8) := fun s => .ok (s.head?, s)

/-- The next byte behind any spaces, which stays. -/
def peekToken : Reader (Option UInt8) := do
  skipSpaces
  peek

def advance : Reader Unit := fun s => .ok ((), s.tail)

/-- Each byte of a literal in turn. -/
def literalRest : List UInt8 → Reader Unit
  | [] => pure ()
  | b :: rest => do
    match ← peek with
    | none => fail .eofInValue
    | some c =>
      advance
      if c = b then literalRest rest else fail .expectedIdent

/-- The literal `word`, whose first byte has been seen. -/
def word (w : String) : Reader Unit := do
  advance
  literalRest (ascii (String.ofList (w.toList.drop 1)))

namespace Number

def digits : Reader (List UInt8) := fun s => .ok (s.takeWhile isDigit, s.dropWhile isDigit)

/-- Digits are taken while the number fits in 64 bits; the others are given back. -/
def accumulate (n : Nat) : List UInt8 → Nat × List UInt8
  | [] => (n, [])
  | d :: rest =>
    let next := 10 * n + (d.toNat - 48)
    if next < UInt64.size then accumulate next rest else (n, d :: rest)

/-- Divides by the greatest power of ten that has a binary fraction, as long as the exponent asks
for more than that; two divisions bring any significand to zero. -/
def shrink : Nat → Decimal.Binary64 → Nat → Decimal.Binary64
  | 0, x, _ => x
  | fuel + 1, x, e =>
    let step := min e 308
    match Decimal.Binary64.ofNat (Decimal.tenTo step) with
    | none => x
    | some p =>
      let y := (x.div p).getD x
      if e ≤ 308 ∨ y.significand = 0 then y else shrink fuel y (e - 308)

/-- A significand below `2 ^ 64` times a power of ten, rounded after each step. -/
def scale (significand : Nat) (exponent : Int) : Option Decimal.Binary64 :=
  match Decimal.Binary64.ofNat significand with
  | none => none
  | some x =>
    if significand = 0 then some x
    else if exponent < 0 then some (shrink 4 x exponent.natAbs)
    else if 308 < exponent then none
    else (Decimal.Binary64.ofNat (Decimal.tenTo exponent.toNat)).bind x.mul

def rounded (minus : Bool) (significand : Nat) (exponent : Int) : Reader Number :=
  match scale significand exponent with
  | none => fail .numberOutOfRange
  | some x => pure (.fraction minus x)

/-- The value of an exponent and what follows the digit at which it leaves 31 bits. -/
def exponentDigits (n : Nat) : List UInt8 → Nat × Option (List UInt8)
  | [] => (n, none)
  | d :: rest =>
    let next := 10 * n + (d.toNat - 48)
    if next < 0x80000000 then exponentDigits next rest else (n, some rest)

/-- The exponent behind its letter. -/
def exponent (minus : Bool) (significand : Nat) (start : Int) : Reader Number := do
  advance
  let sign ← peek
  if sign = some Ascii.plus ∨ sign = some Ascii.minus then advance
  let down := sign = some Ascii.minus
  match ← peek with
  | none => fail .eofInValue
  | some d =>
    if isDigit d then
      let ds ← digits
      match exponentDigits 0 ds with
      | (n, none) => rounded minus significand (if down then start - n else start + n)
      | (_, some rest) =>
        if significand ≠ 0 ∧ ¬ down then
          failBefore rest.length .numberOutOfRange
        else pure (.fraction minus .zero)
    else
      advance
      fail .invalidNumber

def isExponent (b : Option UInt8) : Bool := b = some 0x65 || b = some 0x45

/-- The digits behind the point. -/
def decimals (minus : Bool) (significand dropped : Nat) : Reader Number := do
  advance
  let ds ← digits
  if ds = [] then
    if (← peek) = none then fail .eofInValue else failNext .invalidNumber
  else
    let (n, unused) := accumulate significand ds
    let e : Int := (dropped : Int) - (ds.length - unused.length : Nat)
    if isExponent (← peek) then exponent minus n e else rounded minus n e

def whole (minus : Bool) (n : Nat) : Number :=
  if ¬ minus then .natural n
  else if n = 0 ∨ 0x8000000000000000 < n then .fraction true ((Decimal.Binary64.ofNat n).getD .zero)
  else .negative (-(n : Int))

/-- A zero stands alone. -/
def integerDigits : Reader (List UInt8) := fun s =>
  if s.head? = some zero then .ok ([zero], s.tail)
  else .ok (s.takeWhile isDigit, s.dropWhile isDigit)

/-- A number behind its sign. -/
def body (minus : Bool) : Reader Number := do
  match ← peek with
  | none => fail .eofInValue
  | some d =>
    if isDigit d then
      let ds ← integerDigits
      let next ← peek
      if d = Ascii.zero ∧ next.any isDigit then failNext .invalidNumber
      else
        let (n, unused) := accumulate 0 ds
        if next = some Ascii.point then decimals minus n unused.length
        else if isExponent next then exponent minus n unused.length
        else if unused = [] then pure (whole minus n)
        else rounded minus n unused.length
    else
      advance
      fail .invalidNumber

/-- A number whose first byte has been seen. -/
def read : Reader Number := do
  if (← peek) = some minus then
    advance
    body true
  else body false

end Number

namespace Text

/-- The byte that a one-letter escape denotes. -/
def shortEscape? (b : UInt8) : Option UInt8 :=
  if b = Ascii.quote then some Ascii.quote
  else if b = Ascii.backslash then some Ascii.backslash
  else if b = 0x2F then some 0x2F
  else if b = 0x62 then some 0x08
  else if b = 0x66 then some 0x0C
  else if b = 0x6E then some 0x0A
  else if b = 0x72 then some 0x0D
  else if b = 0x74 then some 0x09
  else none

/-- Four hex digits; fewer bytes than four are all passed over. -/
def hex4 : Reader Nat := fun s =>
  if s.length < 4 then .error ⟨.eofInString, 0⟩
  else
    match (s.take 4).mapM fun b => Hex.value? (Char.ofNat b.toNat) with
    | none => .error ⟨.invalidEscape, s.length - 4⟩
    | some ds => .ok (ds.foldl (fun n d => 16 * n + d) 0, s.drop 4)

/-- One byte that must be `b`; any other byte is passed over. -/
def continueWith (b : UInt8) : Reader Unit := do
  match ← peek with
  | none => fail .eofInString
  | some c =>
    advance
    if c = b then pure () else fail .endOfHexEscape

/-- The code point of an escape behind its `u`; surrogates have to come in pairs. -/
def unicodeEscape : Reader (List UInt8) := do
  let n ← hex4
  if 0xDC00 ≤ n ∧ n ≤ 0xDFFF then fail .loneSurrogate
  else if n < 0xD800 ∨ 0xDBFF < n then pure (String.utf8EncodeChar (Char.ofNat n))
  else
    continueWith Ascii.backslash
    continueWith Ascii.lowerU
    let m ← hex4
    if m < 0xDC00 ∨ 0xDFFF < m then fail .loneSurrogate
    else
      pure (String.utf8EncodeChar (Char.ofNat (0x10000 + 0x400 * (n - 0xD800) + (m - 0xDC00))))

/-- The bytes that an escape denotes, behind its backslash. -/
def escape : Reader (List UInt8) := do
  match ← peek with
  | none => fail .eofInString
  | some b =>
    advance
    if b = Ascii.lowerU then unicodeEscape
    else
      match shortEscape? b with
      | some c => pure [c]
      | none => fail .invalidEscape

/-- The bytes of a string up to its closing quote; `fuel` bounds the number of steps. -/
def bytes : (fuel : Nat) → List UInt8 → Reader (List UInt8)
  | 0, _ => fail .eofInString
  | fuel + 1, seen => do
    match ← peek with
    | none => fail .eofInString
    | some b =>
      advance
      if b = Ascii.quote then pure seen.reverse
      else if b = Ascii.backslash then
        let denoted ← escape
        bytes fuel (denoted.reverse ++ seen)
      else if b < 0x20 then fail .controlCharacter
      else bytes fuel (b :: seen)

/-- A string whose opening quote has been seen. A text that is not well-formed is refused as many
bytes before the end of the string as the text has from its first broken start on. -/
def read : Reader String := do
  advance
  let start ← get
  let found ← bytes (start.length + 1) []
  match Utf8.decode? found with
  | some s => pure s
  | none => failBefore (found.length - Utf8.wellFormedLength found) .invalidCodePoint

end Text

/-- Another kind of value than the one expected; a scalar is read first. -/
def refuse (expected : String) (b : UInt8) : Reader α :=
  if b = 0x6E then do
    word "null"
    fail (.wrongType .null expected)
  else if b = 0x74 then do
    word "true"
    fail (.wrongType (.bool true) expected)
  else if b = 0x66 then do
    word "false"
    fail (.wrongType (.bool false) expected)
  else if b = Ascii.quote then do
    let s ← Text.read
    fail (.wrongType (.string s) expected)
  else if b = openBracket then fail (.wrongType .sequence expected)
  else if b = openBrace then fail (.wrongType .map expected)
  else if b = minus ∨ isDigit b then do
    let n ← Number.read
    fail (.wrongType (.number n) expected)
  else failNext .expectedValue

/-- A value whose first byte is taken by `read`, if it takes it at all. -/
def value (expected : String) (read : UInt8 → Option (Reader α)) : Reader α := do
  match ← peekToken with
  | none => failNext .eofInValue
  | some b => (read b).getD (refuse expected b)

namespace Reader

def string : Reader String :=
  value "a string" fun b => if b = Ascii.quote then some Text.read else none

def boolean : Reader Bool :=
  value "a boolean" fun b =>
    if b = 0x74 then some (do word "true"; pure true)
    else if b = 0x66 then some (do word "false"; pure false)
    else none

/-- An integer that `narrow` accepts. -/
def integer (expected : String) (narrow : Int → Option α) : Reader α :=
  value expected fun b =>
    if b = Ascii.minus ∨ isDigit b then some do
      let n ← Number.read
      let accept (i : Int) : Reader α :=
        match narrow i with
        | some x => pure x
        | none => fail (.wrongValue (.number n) expected)
      match n with
      | .natural k => accept k
      | .negative k => accept k
      | .fraction _ _ => fail (.wrongType (.number n) expected)
    else none

def int64 : Reader Int64 :=
  integer "i64" fun i => if Decimal.fits64 i then some (Int64.ofInt i) else none

def uint32 : Reader UInt32 :=
  integer "u32" fun i => if 0 ≤ i ∧ i < UInt32.size then some (UInt32.ofNat i.toNat) else none

def uint64 : Reader UInt64 :=
  integer "usize" fun i => if 0 ≤ i ∧ i < UInt64.size then some (UInt64.ofNat i.toNat) else none

/-- `null`, or a value. -/
def nullable (read : Reader α) : Reader (Option α) := do
  if (← peekToken) = some 0x6E then
    word "null"
    pure none
  else some <$> read

end Reader

end AdminPlane.Json

import AdminPlane.Json.Reader

namespace AdminPlane.Json.Skip

open Text.Ascii

/-- A bracket that waits for its end. -/
inductive Open where
  | list
  | object
deriving DecidableEq, Repr

def Open.close : Open → UInt8
  | list => closeBracket
  | object => closeBrace

/-- No value is formed, so only the digits of an escape are looked at. -/
def escape : Reader Unit := do
  match ← peek with
  | none => fail .eofInString
  | some b =>
    advance
    if b = lowerU then discard Text.hex4
    else if (Text.shortEscape? b).isSome then pure ()
    else fail .invalidEscape

/-- A string behind its opening quote; `fuel` bounds the number of steps. -/
def stringRest : (fuel : Nat) → Reader Unit
  | 0 => fail .eofInString
  | fuel + 1 => do
    match ← peek with
    | none => fail .eofInString
    | some b =>
      if b < 0x20 then fail .controlCharacter
      else
        advance
        if b = quote then pure ()
        else if b = backslash then
          escape
          stringRest fuel
        else stringRest fuel

def string : Reader Unit := do
  advance
  fun s => stringRest (s.length + 1) s

/-- A missing digit counts as read. -/
def requireDigit : Reader Unit := do
  let d ← peek
  advance
  if d.any isDigit then pure () else fail .invalidNumber

def exponent : Reader Unit := do
  advance
  let sign ← peek
  if sign = some plus ∨ sign = some minus then advance
  requireDigit
  discard Number.digits

def decimals : Reader Unit := do
  advance
  let ds ← Number.digits
  if ds = [] then failNext .invalidNumber
  else if Number.isExponent (← peek) then exponent

/-- Numbers have a form but no range. -/
def number : Reader Unit := do
  if (← peek) = some minus then advance
  let first ← peek
  requireDigit
  if first = some zero then
    if (← peek).any isDigit then failNext .invalidNumber
  else discard Number.digits
  let next ← peek
  if next = some point then decimals
  else if Number.isExponent next then exponent

/-- A value that is no bracket. -/
def scalar (b : UInt8) : Reader Unit :=
  if b = 0x6E then word "null"
  else if b = 0x74 then word "true"
  else if b = 0x66 then word "false"
  else if b = quote then string
  else if b = minus ∨ isDigit b then number
  else failNext .expectedValue

/-- The name of a member and its colon. -/
def name : Reader Unit := do
  match ← peekToken with
  | none => failNext .eofInObject
  | some b =>
    if b ≠ quote then failNext .keyNotString
    else
      string
      match ← peekToken with
      | none => failNext .eofInObject
      | some c => if c = colon then advance else failNext .expectedColon

mutual

/-- A value inside the brackets `within`, and all that closes them; `fuel` bounds the number of
steps. -/
def value (within : List Open) : (fuel : Nat) → Reader Unit
  | 0 => failNext .eofInValue
  | fuel + 1 => do
    match ← peekToken with
    | none => failNext .eofInValue
    | some b =>
      if b = openBracket then
        advance
        rest (.list :: within) false fuel
      else if b = openBrace then
        advance
        rest (.object :: within) false fuel
      else
        scalar b
        rest within true fuel

/-- What follows an opening bracket, or a value if `behindValue`. -/
def rest (within : List Open) (behindValue : Bool) : (fuel : Nat) → Reader Unit
  | 0 => failNext .eofInValue
  | fuel + 1 => do
    match within with
    | [] => pure ()
    | innermost :: outer =>
      match ← peekToken with
      | none => failNext (if innermost = .list then .eofInList else .eofInObject)
      | some b =>
        if b = innermost.close then
          advance
          rest outer true fuel
        else if behindValue ∧ b ≠ comma then
          failNext (if innermost = .list then .expectedListEnd else .expectedObjectEnd)
        else
          if behindValue then advance
          if innermost = .object then name
          value within fuel

end

/-- Passes over one value of any depth. -/
def any : Reader Unit := fun s => value [] (2 * s.length + 2) s

end AdminPlane.Json.Skip

import AdminPlane.Json.Skip

namespace AdminPlane.Json

open Text.Ascii

/-- Whether another item follows; the end of the list stays. -/
def nextItem (isFirst : Bool) : Reader Bool := do
  match ← peekToken with
  | none => failNext .eofInList
  | some b =>
    if b = closeBracket then pure false
    else if isFirst then pure true
    else if b = comma then
      advance
      match ← peekToken with
      | none => failNext .eofInValue
      | some c => if c = closeBracket then failNext .trailingComma else pure true
    else failNext .expectedListEnd

/-- Whether another member follows; the end of the object stays. -/
def nextMember (isFirst : Bool) : Reader Bool := do
  match ← peekToken with
  | none => failNext .eofInObject
  | some b =>
    if b = closeBrace then pure false
    else if isFirst then if b = quote then pure true else failNext .keyNotString
    else if b = comma then
      advance
      match ← peekToken with
      | none => failNext .eofInValue
      | some c =>
        if c = quote then pure true
        else if c = closeBrace then failNext .trailingComma
        else failNext .keyNotString
    else failNext .expectedObjectEnd

def nameEnd : Reader Unit := do
  match ← peekToken with
  | none => failNext .eofInObject
  | some b => if b = colon then advance else failNext .expectedColon

/-- The bracket that ends a list with all its items read. -/
def listEnd : Reader Unit := do
  match ← peekToken with
  | none => failNext .eofInList
  | some b =>
    if b = closeBracket then advance
    else if b = comma then
      advance
      if (← peekToken) = some closeBracket then failNext .trailingComma
      else failNext .trailingCharacters
    else failNext .trailingCharacters

namespace List

/-- The items that follow; `fuel` bounds their number. -/
def items (item : Reader α) : (fuel : Nat) → (isFirst : Bool) → Reader (List α)
  | 0, _ => failNext .eofInList
  | fuel + 1, isFirst => do
    if ← nextItem isFirst then
      let x ← item
      let rest ← items item fuel false
      pure (x :: rest)
    else pure []

/-- A list of any length. -/
def read (item : Reader α) : Reader (List α) :=
  value "a sequence" fun b =>
    if b = openBracket then some do
      advance
      let xs ← fun s => items item (s.length + 1) true s
      listEnd
      pure xs
    else none

end List

/-- One field of a record that is read into a draft `σ`. -/
structure Member (σ : Type) where
  name : String
  /-- Whether the draft has the field. -/
  given : σ → Bool
  read : σ → Reader σ
  /-- Whether a list may end before the field. -/
  optional : Bool

namespace Member

/-- A bracket that would end the object is passed over before the report. -/
def failDuplicate (name : String) : Reader α := do
  if (← peekToken) = some closeBrace then advance
  fail (.duplicateField name)

/-- The members of an object; unknown ones are passed over; `fuel` bounds their number. -/
def members (fields : List (Member σ)) : (fuel : Nat) → (isFirst : Bool) → σ → Reader σ
  | 0, _, _ => failNext .eofInObject
  | fuel + 1, isFirst, draft => do
    if ← nextMember isFirst then
      let name ← Text.read
      match fields.find? (·.name = name) with
      | some field =>
        if field.given draft then failDuplicate name
        else
          nameEnd
          let draft ← field.read draft
          members fields fuel false draft
      | none =>
        nameEnd
        Skip.any
        members fields fuel false draft
    else pure draft

/-- The fields in order, from a list that may end early; `count` fields have been read. -/
def inOrder (expected : String) : List (Member σ) → (count : Nat) → σ → Reader σ
  | [], _, draft => pure draft
  | field :: rest, count, draft => do
    if ← nextItem (count = 0) then
      let draft ← field.read draft
      inOrder expected rest (count + 1) draft
    else
      match (field :: rest).findIdx? (! ·.optional) with
      | none => pure draft
      | some missing =>
        advance
        fail (.wrongLength (count + missing) expected)

/-- "with 1 element", "with 3 elements". -/
def elements (n : Nat) : String :=
  Decimal.natural n ++ (if n = 1 then " element" else " elements")

/-- A record, from an object or from a list of its fields in order. `finish` completes the draft
or names a field that it lacks. -/
def readRecord (name : String) (fields : List (Member σ)) (start : σ)
    (finish : σ → Except String α) : Reader α :=
  let complete (draft : σ) : Reader α :=
    match finish draft with
    | .ok x => pure x
    | .error missing => fail (.missingField missing)
  value ("struct " ++ name) fun b =>
    if b = openBracket then some do
      advance
      let draft ← inOrder ("struct " ++ name ++ " with " ++ elements fields.length) fields 0 start
      listEnd
      complete draft
    else if b = openBrace then some do
      advance
      let draft ← fun s => members fields (s.length + 1) true start s
      advance
      complete draft
    else none

end Member

namespace Variant

def choose (variants : List (String × α)) (name : String) : Reader α :=
  match variants.find? (·.1 = name) with
  | some (_, x) => pure x
  | none => fail (.unknownVariant name (variants.map (·.1)))

/-- The name of the member that an object begins with. -/
def key : Reader String := do
  match ← peekToken with
  | none => failNext .eofInObject
  | some b =>
    if b = quote then Text.read
    else if b = closeBrace then failNext .expectedValue
    else failNext .keyNotString

/-- One of several names: a string, or an object with the name as its key and `null` as its
value. -/
def read (variants : List (String × α)) : Reader α := do
  match ← peekToken with
  | none => failNext .eofInValue
  | some b =>
    if b = quote then
      choose variants (← Text.read)
    else if b = openBrace then
      advance
      let x ← choose variants (← key)
      nameEnd
      value "unit" fun c => if c = 0x6E then some (word "null") else none
      match ← peekToken with
      | none => fail .eofInObject
      | some c =>
        if c = closeBrace then
          advance
          pure x
        else fail .expectedValue
    else failNext .expectedValue

end Variant

/-- A whole document holds one value and nothing else. -/
def document (read : Reader α) : Reader α := do
  let x ← read
  match ← peekToken with
  | none => pure x
  | some _ => failNext .trailingCharacters

def decode (read : Reader α) (bytes : List UInt8) : Except Error α :=
  match document read bytes with
  | .ok (x, _) => .ok x
  | .error fault => .error (fault.locate bytes)

end AdminPlane.Json

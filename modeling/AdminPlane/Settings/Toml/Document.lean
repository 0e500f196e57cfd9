import AdminPlane.Settings.Toml.Node
import AdminPlane.Settings.Toml.Scalar

namespace AdminPlane.Settings.Toml

/-- How deep arrays and inline tables may lie in each other, and how many parts a key may have. -/
def depthLimit : Nat := 79

def isKeyChar (c : Char) : Bool := c.isAlphanum || c = '-' || c = '_'

/-- One part of a key, bare or in quotes. -/
def keyPart (s : List Char) : Option (Taken String) :=
  match s with
  | '"' :: rest => (quoted rest).map fun (cs, rest) => (String.ofList cs, rest)
  | '\'' :: rest => (literal rest).map fun (cs, rest) => (String.ofList cs, rest)
  | _ =>
    let name := s.takeWhile isKeyChar
    if name = [] then none else some (String.ofList name, s.dropWhile isKeyChar)

/-- Parts with points between them. Blanks may stand around each part. -/
def keyParts (s : List Char) : Option (Taken (List String)) :=
  match keyPart (skipBlanks s) with
  | none => none
  | some (name, rest) =>
    match skipBlanks rest with
    | '.' :: tail =>
      if tail.length < s.length then
        (keyParts tail).map fun (names, last) => (name :: names, last)
      else none
    | last => some ([name], last)
termination_by s.length

def key (s : List Char) : Option (Taken (List String)) :=
  (keyParts s).filter fun (names, _) => names.length ≤ depthLimit

/-- The end of a line, behind blanks and a comment; the end of the text will do. -/
def lineEnd (s : List Char) : Option (List Char) :=
  let s := skipBlanks s
  let rest := if s.head? = some '#' then s.dropWhile isPlain else s
  if rest = [] then some [] else newline? rest

/-- Blanks, comments and line ends between the items of an array. -/
def skipVoid (s : List Char) : Option (List Char) :=
  match skipBlanks s with
  | '#' :: rest =>
    match newline? (rest.dropWhile isPlain) with
    | none => none
    | some tail => if tail.length < s.length then skipVoid tail else none
  | rest =>
    match newline? rest with
    | none => some rest
    | some tail => if tail.length < s.length then skipVoid tail else none
termination_by s.length

/-- The items of an array up to its end. A comma may stand behind the last one. -/
def items (read : List Char → Option (Taken Tree)) (s : List Char) : Option (Taken (List Tree)) :=
  match skipVoid s with
  | none => none
  | some (']' :: rest) => some ([], rest)
  | some s' =>
    match read s' with
    | none => none
    | some (item, rest) =>
      match skipVoid rest with
      | some (',' :: tail) =>
        if tail.length < s.length then
          (items read tail).map fun (rest, last) => (item :: rest, last)
        else none
      | some (']' :: tail) => some ([item], tail)
      | _ => none
termination_by s.length

/-- A key and its value. -/
def pair (read : List Char → Option (Taken Tree)) (s : List Char) :
    Option (Taken (List String × Tree)) := do
  let (name, rest) ← key s
  let (value, rest) ← read (skipBlanks (← behind? "=" rest))
  return ((name, value), rest)

/-- The pairs of an inline table up to its end. It has one pair at least, and no comma behind the
last one. -/
def pairs (read : List Char → Option (Taken Tree)) (members : Members) (s : List Char) :
    Option (Taken Members) :=
  match pair read s with
  | none => none
  | some ((name, value), rest) =>
    match Node.assign members name value, skipBlanks rest with
    | some members, '}' :: tail => some (members, tail)
    | some members, ',' :: tail =>
      if tail.length < s.length then pairs read members tail else none
    | _, _ => none
termination_by s.length

def inlineTable (read : List Char → Option (Taken Tree)) (s : List Char) : Option (Taken Tree) :=
  match skipBlanks s with
  | '}' :: rest => some (.table [], rest)
  | _ => (pairs read [] s).map fun (members, rest) => (.table (Node.treeMembers members), rest)

/-- A value, with at most `depth` arrays and inline tables around any part of it. -/
def value (depth : Nat) (s : List Char) : Option (Taken Tree) :=
  match s with
  | [] => none
  | c :: rest =>
    if c = '"' ∨ c = '\'' then (text s).map fun (t, rest) => (.text t, rest)
    else if c = '[' then
      match depth with
      | 0 => none
      | depth + 1 => (items (value depth) rest).map fun (items, rest) => (.list items, rest)
    else if c = '\x7b' then
      match depth with
      | 0 => none
      | depth + 1 => inlineTable (value depth) rest
    else if c = 't' then (behind? "true" s).map fun rest => (.truth true, rest)
    else if c = 'f' then (behind? "false" s).map fun rest => (.truth false, rest)
    else number s

/-- The tables read so far, and the way to the one that the last header opened. -/
structure Draft where
  root : Members := []
  path : List String := []

namespace Draft

def header (d : Draft) (name : List String) (act : String → Members → Option Members) :
    Option Draft := do
  let last ← name.getLast?
  return ⟨← Node.within (act last) d.root name.dropLast, name⟩

/-- Adds a pair to the open table. -/
def add (d : Draft) (name : List String) (value : Tree) : Option Draft := do
  return { d with root := ← Node.within (fun members => Node.assign members name value) d.root d.path }

/-- One header or one pair, with the end of its line. -/
def line (d : Draft) (s : List Char) : Option (Draft × List Char) :=
  match s with
  | '[' :: '[' :: rest => do
    let (name, rest) ← key rest
    return (← d.header name Node.openElement, ← lineEnd (← behind? "]]" rest))
  | '[' :: rest => do
    let (name, rest) ← key rest
    return (← d.header name Node.openTable, ← lineEnd (← behind? "]" rest))
  | _ => do
    let ((name, v), rest) ← pair (value depthLimit) s
    return (← d.add name v, ← lineEnd rest)

def lines (d : Draft) (s : List Char) : Option Draft :=
  match skipBlanks s with
  | [] => some d
  | c :: rest =>
    if c = '#' ∨ c = '\n' ∨ c = '\r' then
      match lineEnd (c :: rest) with
      | none => none
      | some tail => if tail.length < s.length then lines d tail else none
    else
      match d.line (c :: rest) with
      | none => none
      | some (d, tail) => if tail.length < s.length then lines d tail else none
termination_by s.length

end Draft

/-- The tree that a document denotes; a byte order mark before it does not count. -/
def read (s : String) : Option Tree :=
  let chars :=
    match s.toList with
    | '\uFEFF' :: rest => rest
    | s => s
  (({} : Draft).lines chars).map fun d => .table (Node.treeMembers d.root)

end AdminPlane.Settings.Toml

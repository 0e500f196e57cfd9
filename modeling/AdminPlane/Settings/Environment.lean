import AdminPlane.Settings.Toml.Scalar
import AdminPlane.Text.Blank
import AdminPlane.Text.Utf8

namespace AdminPlane.Settings.Environment

open Toml (Taken)

/-- Variables whose name begins with this give settings; the case of its letters does not count. -/
def mark : String := "FCR_"

/-- Where the value of a variable belongs, blanks around its name aside: behind the mark, the first
underscore parts a section from its setting, and the others stand for hyphens. -/
def path? (name : String) : Option (List String) :=
  let chars := Text.trim name.toList
  let rest := chars.drop mark.length
  if (chars.take mark.length).map Char.toLower ≠ mark.toList.map Char.toLower then none
  else
    let hyphened (s : List Char) := s.map fun c => if c = '_' then '-' else c
    let dotted :=
      match rest.span (· ≠ '_') with
      | (part, []) => part
      | (part, _ :: setting) => part ++ '.' :: hyphened setting
    let path := (((Text.trim dotted).map Char.toLower).splitOn '.').map String.ofList
    if path.any (· = "") then none else some path

def skipBlanks (s : List Char) : List Char := s.dropWhile Text.isAsciiBlank

/-- A character that ends a bare word. -/
def isSeparator (c : Char) : Bool :=
  c = ',' || c = '\x7b' || c = '\x7d' || c = '[' || c = ']'

def isNameChar (c : Char) : Bool := c.isAlphanum || c = '_' || c = '-'

/-- A bare word is a number if it reads as one. Leading zeros are allowed, and a number beyond 64
bits is a text. -/
def bare (word : List Char) : Tree :=
  if word.contains '.' && Decimal.isDecimal word then .fraction
  else
    match Decimal.unsigned? UInt64.size word, Decimal.signed64? word with
    | some n, _ => .integer n
    | none, some n => .integer n
    | none, none => .text (String.ofList word)

/-- The rest of a text in double quotes, the opening one read. What stands before its first escape
is kept for as many bytes as it has characters. -/
def quoted (s : List Char) : Option (Taken String) := do
  let (cs, rest) ← Toml.quoted s
  let plain := s.takeWhile fun c => c ≠ '"' ∧ c ≠ '\\'
  if (s.drop plain.length).head? = some '\\' then
    let (kept, _) ← Text.Utf8.cut? plain.length plain
    return (String.ofList (kept ++ cs.drop plain.length), rest)
  else return (String.ofList cs, rest)

/-- The name of a member, bare or in double quotes. -/
def name (s : List Char) : Option (Taken String) :=
  match s with
  | '"' :: rest => quoted rest
  | _ =>
    let chars := s.takeWhile isNameChar
    if chars = [] then none else some (String.ofList chars, s.dropWhile isNameChar)

/-- The rest of a list. A comma may stand behind its last item. -/
def items (read : List Char → Option (Taken Tree)) (s : List Char) : Option (Taken (List Tree)) :=
  match s with
  | ']' :: rest => some ([], rest)
  | s =>
    match read s with
    | some (item, ']' :: tail) => some ([item], tail)
    | some (item, ',' :: tail) =>
      if tail.length < s.length then
        (items read tail).map fun (rest, last) => (item :: rest, last)
      else none
    | _ => none
termination_by s.length

/-- The rest of a table. The later of two values of one name counts. -/
def members (read : List Char → Option (Taken Tree)) (given : List (String × Tree))
    (s : List Char) : Option (Taken (List (String × Tree))) :=
  match s with
  | '\x7d' :: rest => some (given, rest)
  | s =>
    let pair := do
      let (name, rest) ← name (skipBlanks s)
      let (value, rest) ← read (← Toml.behind? "=" (skipBlanks rest))
      return (Tree.put given name value, rest)
    match pair with
    | some (given, '\x7d' :: tail) => some (given, tail)
    | some (given, ',' :: tail) => if tail.length < s.length then members read given tail else none
    | _ => none
termination_by s.length

/-- A value with blanks around it. Lists and tables lie at most `depth` deep in it. -/
def value (depth : Nat) (s : List Char) : Option (Taken Tree) :=
  let found : Option (Taken Tree) :=
    match skipBlanks s with
    | '\x7b' :: rest =>
      match depth with
      | 0 => none
      | depth + 1 => (members (value depth) [] rest).map fun (given, rest) => (.table given, rest)
    | '[' :: rest =>
      match depth with
      | 0 => none
      | depth + 1 => (items (value depth) rest).map fun (items, rest) => (.list items, rest)
    | '"' :: rest => (quoted rest).map fun (text, rest) => (.text text, rest)
    | '\'' :: c :: '\'' :: rest => some (.text (String.ofList [c]), rest)
    | '\'' :: _ => none
    | s =>
      if let some rest := Toml.behind? "true" s then some (.truth true, rest)
      else if let some rest := Toml.behind? "false" s then some (.truth false, rest)
      else
        let word := s.takeWhile fun c => ¬ isSeparator c
        some (bare (Text.trim word), s.dropWhile fun c => ¬ isSeparator c)
  found.map fun (t, rest) => (t, skipBlanks rest)

/-- The text as a whole, unless it reads as a value to its end. -/
def read (s : String) : Tree :=
  match value s.length s.toList with
  | some (t, []) => t
  | _ => .text s

/-- The settings of all variables in their order; the later one wins. -/
def tree (environ : List (String × String)) : Tree :=
  environ.foldl
    (fun earlier (name, value) =>
      match path? name with
      | none => earlier
      | some path => earlier.merge (.atPath path (read value)))
    (.table [])

end AdminPlane.Settings.Environment

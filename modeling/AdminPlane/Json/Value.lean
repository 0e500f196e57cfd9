import AdminPlane.Decimal.Numeral
import AdminPlane.Text.Ascii
import AdminPlane.Text.Hex
import AdminPlane.Text.Utf8

namespace AdminPlane

open Text Text.Ascii

/-- A document whose numbers are integers; members keep their order. -/
inductive Json where
  | null
  | bool (b : Bool)
  | integer (n : Int)
  | string (s : String)
  | array (items : List Json)
  | object (members : List (String × Json))

namespace Json

/-- Quote, backslash and controls are escaped; all else stands for itself. -/
def escape (c : Char) : List UInt8 :=
  if c = '"' then [backslash, quote]
  else if c = '\\' then [backslash, backslash]
  else if c = '\x08' then ascii "\\b"
  else if c = '\t' then ascii "\\t"
  else if c = '\n' then ascii "\\n"
  else if c = '\x0c' then ascii "\\f"
  else if c = '\r' then ascii "\\r"
  else if c.toNat < 0x20 then ascii "\\u" ++ (Hex.ofNat 4 c.toNat).map Char.toUInt8
  else String.utf8EncodeChar c

def quote (s : String) : List UInt8 :=
  Ascii.quote :: s.toList.flatMap escape ++ [Ascii.quote]

def literal (b : Bool) : List UInt8 := ascii (if b then "true" else "false")

mutual

/-- Nothing between the tokens. -/
def compact : Json → List UInt8
  | null => ascii "null"
  | bool b => literal b
  | integer n => ascii (Decimal.integer n)
  | string s => quote s
  | array items => openBracket :: compactItems items ++ [closeBracket]
  | object members => openBrace :: compactMembers members ++ [closeBrace]

def compactItems : List Json → List UInt8
  | [] => []
  | [item] => item.compact
  | item :: rest => item.compact ++ comma :: compactItems rest

def compactMembers : List (String × Json) → List UInt8
  | [] => []
  | [(name, value)] => quote name ++ colon :: value.compact
  | (name, value) :: rest => quote name ++ colon :: value.compact ++ comma :: compactMembers rest

end

/-- A new line, indented by two spaces a level. -/
def newLine (depth : Nat) : List UInt8 := lineFeed :: List.replicate (2 * depth) 0x20

mutual

/-- One item or member a line. An empty array or object stays on one line. -/
def pretty (depth : Nat) : Json → List UInt8
  | array [] => ascii "[]"
  | array items => openBracket :: prettyItems (depth + 1) items ++ newLine depth ++ [closeBracket]
  | object [] => [openBrace, closeBrace]
  | object members =>
    openBrace :: prettyMembers (depth + 1) members ++ newLine depth ++ [closeBrace]
  | null => ascii "null"
  | bool b => literal b
  | integer n => ascii (Decimal.integer n)
  | string s => quote s

def prettyItems (depth : Nat) : List Json → List UInt8
  | [] => []
  | [item] => newLine depth ++ item.pretty depth
  | item :: rest => newLine depth ++ item.pretty depth ++ comma :: prettyItems depth rest

def prettyMembers (depth : Nat) : List (String × Json) → List UInt8
  | [] => []
  | [(name, value)] => newLine depth ++ quote name ++ ascii ": " ++ value.pretty depth
  | (name, value) :: rest =>
    newLine depth ++ quote name ++ ascii ": " ++ value.pretty depth ++
      comma :: prettyMembers depth rest

end

end Json

end AdminPlane

import AdminPlane.Decimal.Numeral
import AdminPlane.Settings.Tree
import AdminPlane.Text.Hex

namespace AdminPlane.Settings.Toml

/-- What is read, and the text behind it. -/
abbrev Taken (α : Type) := α × List Char

def isBlank (c : Char) : Bool := c = ' ' || c = '\t'

/-- A character that may stand in a comment or between quotes. -/
def isPlain (c : Char) : Bool := c = '\t' || (0x20 ≤ c.toNat && c.toNat ≠ 0x7F)

def skipBlanks (s : List Char) : List Char := s.dropWhile isBlank

/-- The text behind the end of a line, if there is one here. -/
def newline? : List Char → Option (List Char)
  | '\n' :: rest => some rest
  | '\r' :: '\n' :: rest => some rest
  | _ => none

/-- The text behind `word`, if the text begins with it. -/
def behind? (word : String) (s : List Char) : Option (List Char) :=
  if word.toList.isPrefixOf s then some (s.drop word.toList.length) else none

/-- What stands behind a backslash. -/
def escape : List Char → Option (Taken Char)
  | 'b' :: rest => some ('\x08', rest)
  | 't' :: rest => some ('\t', rest)
  | 'n' :: rest => some ('\n', rest)
  | 'f' :: rest => some ('\x0c', rest)
  | 'r' :: rest => some ('\r', rest)
  | '"' :: rest => some ('"', rest)
  | '\\' :: rest => some ('\\', rest)
  | 'u' :: rest => Text.Hex.codePoint? 4 rest
  | 'U' :: rest => Text.Hex.codePoint? 8 rest
  | _ => none

/-- The rest of a text in double quotes, the opening one read. -/
def quoted (s : List Char) : Option (Taken (List Char)) :=
  match s with
  | [] => none
  | c :: rest =>
    if c = '"' then some ([], rest)
    else if c = '\\' then
      match escape rest with
      | none => none
      | some (x, tail) =>
        if tail.length ≤ rest.length then (quoted tail).map fun (cs, last) => (x :: cs, last)
        else none
    else if isPlain c then (quoted rest).map fun (cs, last) => (c :: cs, last)
    else none
termination_by s.length
decreasing_by all_goals simp <;> omega

/-- The rest of a text in single quotes, in which nothing is escaped. -/
def literal : List Char → Option (Taken (List Char))
  | [] => none
  | c :: rest =>
    if c = '\'' then some ([], rest)
    else if isPlain c then (literal rest).map fun (cs, last) => (c :: cs, last)
    else none

def skipLines : List Char → List Char
  | [] => []
  | '\r' :: '\n' :: rest => skipLines rest
  | c :: rest => if isBlank c ∨ c = '\n' then skipLines rest else c :: rest

/-- Behind a backslash that ends a line, the blanks and line ends up to the next word are left
out. -/
def continuation? (s : List Char) : Option (List Char) :=
  (newline? (skipBlanks s)).map skipLines

/-- The rest of a text in triple quotes. One or two quotes in a row are part of it. -/
def multiline (quote : Char) (s : List Char) : Option (Taken (List Char)) :=
  let emit (c : Char) (r : Option (Taken (List Char))) := r.map fun (cs, last) => (c :: cs, last)
  match s with
  | [] => none
  | c :: rest =>
    if c = quote then
      let run := (s.takeWhile (· = quote)).length
      if run < 3 then emit c (multiline quote rest)
      else
        let own := min (run - 3) 2
        some (List.replicate own quote, s.drop (own + 3))
    else if c = '\\' ∧ quote = '"' then
      match continuation? rest with
      | some tail => if tail.length ≤ rest.length then multiline quote tail else none
      | none =>
        match escape rest with
        | none => none
        | some (x, tail) =>
          if tail.length ≤ rest.length then emit x (multiline quote tail) else none
    else if isPlain c then emit c (multiline quote rest)
    else
      match newline? s with
      | none => none
      | some tail => if tail.length ≤ rest.length then emit '\n' (multiline quote tail) else none
termination_by s.length
decreasing_by all_goals simp <;> omega

/-- The line end right behind three quotes is left out. -/
def afterOpening (s : List Char) : List Char := (newline? s).getD s

/-- A text in any kind of quotes. -/
def text (s : List Char) : Option (Taken String) :=
  let chars :=
    match s with
    | '"' :: '"' :: '"' :: rest => multiline '"' (afterOpening rest)
    | '\'' :: '\'' :: '\'' :: rest => multiline '\'' (afterOpening rest)
    | '"' :: rest => quoted rest
    | '\'' :: rest => literal rest
    | _ => none
  chars.map fun (cs, rest) => (String.ofList cs, rest)

/-- Digits, with an underscore between two of them here and there. -/
def moreDigits (isDigit : Char → Bool) : List Char → Option (Taken (List Char))
  | [] => some ([], [])
  | '_' :: c :: rest =>
    if isDigit c then (moreDigits isDigit rest).map fun (ds, last) => (c :: ds, last) else none
  | c :: rest =>
    if isDigit c then (moreDigits isDigit rest).map fun (ds, last) => (c :: ds, last)
    else if c = '_' then none
    else some ([], c :: rest)

/-- One digit at least. -/
def digits (isDigit : Char → Bool) (s : List Char) : Option (Taken (List Char)) :=
  match s with
  | c :: rest =>
    if isDigit c then (moreDigits isDigit rest).map fun (ds, last) => (c :: ds, last) else none
  | [] => none

/-- Decimal digits; the only number that begins with a zero is zero. -/
def whole (s : List Char) : Option (Taken (List Char)) :=
  match s with
  | '0' :: rest => some (['0'], rest)
  | _ => digits Decimal.isDigit s

/-- The number that digits denote, in a base up to sixteen. -/
def ofDigits (base : Nat) (ds : List Char) : Nat :=
  ds.foldl (fun n c => base * n + (Text.Hex.value? c).getD 0) 0

/-- Digits behind a mark that names their base; they have no sign. -/
def marked (base : Nat) (s : List Char) : Option (Taken Int) := do
  let isDigit (c : Char) := ((Text.Hex.value? c).map fun n => decide (n < base)).getD false
  let (ds, rest) ← digits isDigit s
  let n : Int := ofDigits base ds
  if Decimal.fits64 n then return (n, rest) else failure

def integer (s : List Char) : Option (Taken Int) :=
  match s with
  | '0' :: 'x' :: rest => marked 16 rest
  | '0' :: 'o' :: rest => marked 8 rest
  | '0' :: 'b' :: rest => marked 2 rest
  | _ => do
    let (negative, rest) := Decimal.sign s
    let (ds, rest) ← whole rest
    let size : Int := Decimal.ofDigits ds
    let n := if negative then -size else size
    if Decimal.fits64 n then return (n, rest) else failure

/-- Whether `n * 10 ^ e` rounds to infinity: the greatest double is 2^971 (2^53 - 1). -/
def overflows (n : Nat) (e : Int) : Bool :=
  let limit := 1 <<< 1024 - 1 <<< 970
  let size : Int := (Decimal.natural n).length + e
  if n = 0 ∨ size < 300 then false
  else if 320 < size then true
  else if 0 ≤ e then limit ≤ n * Decimal.tenTo e.toNat
  else limit * Decimal.tenTo (-e).toNat ≤ n

/-- The text behind an exponent, and its value; no exponent is the exponent zero. -/
def exponent (s : List Char) : Option (Taken (Option Int)) :=
  match s with
  | c :: rest =>
    if c = 'e' ∨ c = 'E' then do
      let (negative, rest) := Decimal.sign rest
      let (ds, rest) ← digits Decimal.isDigit rest
      let n : Int := Decimal.ofDigits ds
      return (some (if negative then -n else n), rest)
    else some (none, s)
  | [] => some (none, [])

/-- A number with a point or an exponent, or one of the named ones; not one beyond the greatest
double. -/
def fraction (s : List Char) : Option (Taken Unit) :=
  let (negative, unsigned) := Decimal.sign s
  match (behind? "inf" unsigned).or (behind? "nan" unsigned) with
  | some rest => some ((), rest)
  | none => do
    let (ds, rest) ← whole unsigned
    let (places, rest) ←
      match rest with
      | '.' :: rest => (digits Decimal.isDigit rest).map fun (ds, rest) => (some ds, rest)
      | _ => some (none, rest)
    let (power, rest) ← exponent rest
    if places = none ∧ power = none then failure
    let behindPoint := places.getD []
    let n := Decimal.ofDigits (ds ++ behindPoint)
    let e := power.getD 0 - behindPoint.length
    if ¬ negative ∧ overflows n e then failure
    return ((), rest)

/-- A number of exactly `width` digits within two bounds. -/
def field (width low high : Nat) (s : List Char) : Option (Taken Nat) := do
  let n ← Decimal.natural? (s.take width)
  if (s.take width).length = width ∧ low ≤ n ∧ n ≤ high then return (n, s.drop width) else failure

def daysOf (year month : Nat) : Nat :=
  if month = 2 then
    if year % 4 = 0 ∧ (year % 100 ≠ 0 ∨ year % 400 = 0) then 29 else 28
  else if [4, 6, 9, 11].contains month then 30
  else 31

def date (s : List Char) : Option (Taken Unit) := do
  let (year, s) ← field 4 0 9999 s
  let (month, s) ← field 2 1 12 (← behind? "-" s)
  let (_, s) ← field 2 1 (daysOf year month) (← behind? "-" s)
  return ((), s)

def time (s : List Char) : Option (Taken Unit) := do
  let (_, s) ← field 2 0 23 s
  let (_, s) ← field 2 0 59 (← behind? ":" s)
  let (_, s) ← field 2 0 60 (← behind? ":" s)
  match s with
  | '.' :: rest =>
    if (rest.takeWhile Decimal.isDigit) = [] then failure
    else return ((), rest.dropWhile Decimal.isDigit)
  | _ => return ((), s)

def offset (s : List Char) : Option (Taken Unit) :=
  match s with
  | c :: rest =>
    if c = 'Z' ∨ c = 'z' then some ((), rest)
    else if c = '+' ∨ c = '-' then do
      let (_, s) ← field 2 0 23 rest
      let (_, s) ← field 2 0 59 (← behind? ":" s)
      return ((), s)
    else none
  | [] => none

/-- A date, a time of day, or both with or without an offset. -/
def moment (s : List Char) : Option (Taken Unit) :=
  match date s with
  | none => time s
  | some (_, rest) =>
    let timed :=
      match rest with
      | c :: tail => if c = 'T' ∨ c = 't' ∨ c = ' ' then time tail else none
      | [] => none
    match timed with
    | none => some ((), rest)
    | some (_, rest) => some ((offset rest).getD ((), rest))

/-- A date counts as a table in which no setting stands. -/
def number (s : List Char) : Option (Taken Tree) :=
  match moment s, fraction s with
  | some (_, rest), _ => some (.table [], rest)
  | none, some (_, rest) => some (.fraction, rest)
  | none, none => (integer s).map fun (n, rest) => (.integer n, rest)

end AdminPlane.Settings.Toml

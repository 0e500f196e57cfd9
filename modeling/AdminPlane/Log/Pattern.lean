import AdminPlane.Text.Alphanumeric
import AdminPlane.Text.Blank
import AdminPlane.Text.Hex

namespace AdminPlane.Log.Pattern

/-- How a part of a pattern is read: by bytes or by characters, with regard to case or without, and
with blanks and comments between its signs or not. -/
structure Mode where
  bytewise : Bool
  anyCase : Bool
  spaced : Bool
deriving DecidableEq, Repr

/-- How deep the parts of a pattern may lie in each other. -/
def depthLimit : Nat := 250

/-- The text behind blanks and comments. A comment ends with its line. -/
def skipVoid : (inComment : Bool) → List Char → List Char
  | _, [] => []
  | true, c :: s => skipVoid (c ≠ '\n') s
  | false, c :: s =>
    if Text.isBlank c then skipVoid false s
    else if c = '#' then skipVoid true s
    else c :: s

namespace Mode

/-- Letters are not matched in any case among all characters. -/
def admitsLetters (mode : Mode) : Bool := mode.bytewise || !mode.anyCase

/-- The text that a sign is looked for in. -/
def behindVoid (mode : Mode) (s : List Char) : List Char :=
  if mode.spaced then skipVoid false s else s

/-- The next sign, the end of a comment not being looked for. -/
def peek (mode : Mode) (s : List Char) : Option Char :=
  if mode.spaced then
    let next := s.dropWhile Text.isBlank
    let next := if next.head? = some '#' then next.tail.dropWhile Text.isBlank else next
    next.head?.or s.head?
  else s.head?

end Mode

/-- What a backslash and the characters behind it stand for. -/
inductive Escape where
  | character (c : Char)
  /-- A number of two digits. -/
  | byte (c : Char)
  /-- A class that has a name, or what is outside of it. -/
  | named (outside : Bool)
  | textEdge
  | wordEdge
deriving DecidableEq, Repr

/-- Further `count` digits of a number in base sixteen. -/
def hexDigits? (mode : Mode) : (count : Nat) → (n : Nat) → List Char → Option (Nat × List Char)
  | 0, n, s => some (n, s)
  | count + 1, n, s =>
    match mode.behindVoid s with
    | [] => none
    | c :: rest => do hexDigits? mode count (16 * n + (← Text.Hex.value? c)) rest

/-- The character whose number `width` digits are. -/
def codePoint? (mode : Mode) (width : Nat) (s : List Char) : Option (Char × List Char) := do
  let (n, rest) ← hexDigits? mode width 0 s
  if n.isValidChar then return (Char.ofNat n, rest) else failure

/-- A sign of the ASCII range stands for itself behind a backslash; of the letters and digits, only
those listed here mean anything. -/
def escape? (mode : Mode) : List Char → Option (Escape × List Char)
  | [] => none
  | c :: rest =>
    match c with
    | 'x' => (codePoint? mode 2 rest).map fun (c, s) => (.byte c, s)
    | 'u' => (codePoint? mode 4 rest).map fun (c, s) => (.character c, s)
    | 'U' => (codePoint? mode 8 rest).map fun (c, s) => (.character c, s)
    | 'd' | 's' | 'w' => some (.named false, rest)
    | 'D' | 'S' | 'W' => some (.named true, rest)
    | 'A' | 'z' => some (.textEdge, rest)
    | 'b' | 'B' | '<' | '>' => some (.wordEdge, rest)
    | 'a' => some (.character '\x07', rest)
    | 'f' => some (.character '\x0c', rest)
    | 't' => some (.character '\t', rest)
    | 'n' => some (.character '\n', rest)
    | 'r' => some (.character '\r', rest)
    | 'v' => some (.character '\x0b', rest)
    | _ => if c.toNat < 0x80 ∧ ¬ c.isAlphanum then some (.character c, rest) else none

/-- A set of characters that is open: whether only hyphens have been read of it, how many members
stand behind its last operator, how deep they are, and how deep what stands before it is. -/
structure Bracket where
  isFresh : Bool
  members : Nat
  deepest : Nat
  left : Option Nat
deriving DecidableEq, Repr

namespace Bracket

def start : Bracket := ⟨true, 0, 0, none⟩

def add (b : Bracket) (depth : Nat) : Bracket :=
  { b with isFresh := false, members := b.members + 1, deepest := max b.deepest depth }

/-- Several members lie one step deeper than a single one, and so do the sides of an operator. -/
def depth (b : Bracket) : Nat :=
  let right := if b.members ≤ 1 then b.deepest else b.deepest + 1
  match b.left with
  | none => right
  | some left => max left right + 1

def operate (b : Bracket) : Bracket := ⟨false, 0, 0, some b.depth⟩

def classNames : List String :=
  ["alnum", "alpha", "ascii", "blank", "cntrl", "digit", "graph", "lower", "print", "punct",
    "space", "upper", "word", "xdigit"]

/-- A class such as `[:alpha:]`, its opening bracket read: whether it is what is outside of the
class, and the text behind it. -/
def class? : List Char → Option (Bool × List Char)
  | ':' :: s =>
    let outside := s.head? = some '^'
    let s := if outside then s.tail else s
    match s.dropWhile (· ≠ ':') with
    | ':' :: ']' :: rest =>
      if classNames.contains (String.ofList (s.takeWhile (· ≠ ':'))) then some (outside, rest)
      else none
    | _ => none
  | _ => none

/-- The bytes of a set are those of ASCII characters. -/
def admits (mode : Mode) (c : Char) : Bool :=
  mode.admitsLetters && (!mode.bytewise || c.toNat < 0x80)

/-- A character, or a class that is known for bytes alone. -/
def single? (mode : Mode) : List Char → Option (Option Char × List Char)
  | [] => none
  | '\\' :: s =>
    match escape? mode s with
    | some (.character c, rest) => if admits mode c then some (some c, rest) else none
    | some (.byte c, rest) => if admits mode c then some (some c, rest) else none
    | some (.named false, rest) => if mode.bytewise then some (none, rest) else none
    | _ => none
  | c :: rest => if admits mode c then some (some c, rest) else none

/-- The text behind a character, a class, or a range whose ends are in order. -/
def member? (mode : Mode) (s : List Char) : Option (List Char) := do
  let (first, rest) ← single? mode s
  match mode.behindVoid rest with
  | '-' :: behind =>
    let next := mode.peek behind
    if next = some ']' ∨ next = some '-' then return '-' :: behind
    else
      let (last, rest) ← single? mode (mode.behindVoid behind)
      if (← first) ≤ (← last) then return rest else failure
  | rest => return rest

/-- The text behind the opening of a set. Only characters have an outside; what is outside of an
inner set has letters in it. -/
def open? (mode : Mode) (isInner : Bool) (s : List Char) : Option (List Char) :=
  match mode.behindVoid s with
  | '^' :: rest => if mode.bytewise ∨ (isInner ∧ ¬ mode.admitsLetters) then none else some rest
  | s => some s

/-- The next sign `c` of the innermost set. Hyphens first, or a closing bracket first, are members
of it. -/
def step? (mode : Mode) (b : Bracket) (outer : List Bracket) (c : Char) (rest : List Char) :
    Option (List Bracket × List Char) :=
  if b.isFresh ∧ (c = '-' ∨ (c = ']' ∧ b.members = 0)) then
    if mode.admitsLetters then some ({ b.add 0 with isFresh := c = '-' } :: outer, rest) else none
  else if c = ']' then
    match outer with
    | [] => none
    | around :: outer => some (around.add (b.depth + 1) :: outer, rest)
  else if c = '[' then
    match class? rest with
    | some (outside, rest) =>
      if mode.admitsLetters ∧ ¬ (outside ∧ mode.bytewise) then some (b.add 0 :: outer, rest)
      else none
    | none =>
      (open? mode true rest).map fun rest => (start :: { b with isFresh := false } :: outer, rest)
  else if (c = '&' ∨ c = '-' ∨ c = '~') ∧ rest.head? = some c then
    some (b.operate :: outer, rest.tail)
  else (member? mode (c :: rest)).map fun rest => (b.add 0 :: outer, rest)

/-- Reads until one set is left, and gives the depth of what is in it. -/
def read? (mode : Mode) (within : List Bracket) (s : List Char) : Option (Nat × List Char) :=
  match within with
  | [] => none
  | [outermost] => some (outermost.deepest, s)
  | b :: outer =>
    match mode.behindVoid s with
    | [] => none
    | c :: rest =>
      match step? mode b outer c rest with
      | none => none
      | some (within, tail) => if tail.length < s.length then read? mode within tail else none
termination_by s.length

/-- A set, its opening bracket read: its depth, and the text behind it. -/
def set? (mode : Mode) (s : List Char) : Option (Nat × List Char) := do
  read? mode [start, start] (← open? mode false s)

end Bracket

/-- The mode that flags set, and the text behind them. No flag is given twice, a minus sign turns
off those behind it, and flags that stand alone are not empty. -/
def flags? (mode : Mode) (given : List Char) (off : Bool) : List Char → Option (Mode × List Char)
  | [] => none
  | c :: rest =>
    if c = ')' ∨ c = ':' then
      if given.head? = some '-' ∨ (c = ')' ∧ given = []) then none else some (mode, c :: rest)
    else if given.contains c then none
    else
      match c with
      | '-' => flags? mode (c :: given) true rest
      | 'u' => flags? { mode with bytewise := off } (c :: given) off rest
      | 'i' => flags? { mode with anyCase := !off } (c :: given) off rest
      | 'x' => flags? { mode with spaced := !off } (c :: given) off rest
      | 'm' | 's' | 'R' | 'U' => flags? mode (c :: given) off rest
      | _ => none

/-- A letter or an underscore begins the name of a group; numbers, points and brackets may follow. -/
def isName : List Char → Bool
  | [] => false
  | c :: rest =>
    (c = '_' || Text.isAlphabetic c) &&
      rest.all fun c => ['_', '.', '[', ']'].contains c || Text.isAlphanumeric c

/-- A group that is open: how many parts its last branch has, how deep they are, how deep the last
part is if it can be repeated, and how deep the branches before are. -/
structure Group where
  parts : Nat
  deepest : Nat
  repeatable : Option Nat
  branches : Option Nat
deriving DecidableEq, Repr

namespace Group

def start : Group := ⟨0, 0, none, none⟩

def add (g : Group) (depth : Nat) : Group :=
  { g with parts := g.parts + 1, deepest := max g.deepest depth, repeatable := some depth }

/-- A part that matches nothing by itself. -/
def addFlags (g : Group) : Group := { g with parts := g.parts + 1, repeatable := none }

/-- Several parts lie one step deeper than a single one. -/
def branch (g : Group) : Nat := if g.parts ≤ 1 then g.deepest else g.deepest + 1

def divide (g : Group) : Group := ⟨0, 0, none, some (max (g.branches.getD 0) g.branch)⟩

/-- Several branches lie one step deeper than a single one. -/
def depth (g : Group) : Nat :=
  match g.branches with
  | none => g.branch
  | some others => max others g.branch + 1

/-- The last part stands one step deeper under its repetition. -/
def repeat? (g : Group) : Option Group :=
  g.repeatable.map fun depth =>
    { g with deepest := max g.deepest (depth + 1), repeatable := some (depth + 1) }

end Group

/-- What has been read of a pattern: the innermost group, those around it with the modes that they
go on in, and the names of groups. -/
structure Progress where
  mode : Mode
  group : Group
  outer : List (Mode × Group)
  names : List (List Char)
deriving DecidableEq, Repr

namespace Progress

def start : Progress := ⟨⟨false, false, false⟩, .start, [], []⟩

def add (p : Progress) (depth : Nat) : Progress := { p with group := p.group.add depth }

/-- Behind an opening parenthesis. -/
def open? (p : Progress) (s : List Char) : Option (Progress × List Char) :=
  let inside (mode : Mode) (names : List (List Char)) : Progress :=
    ⟨mode, .start, (p.mode, p.group) :: p.outer, names⟩
  let called (s : List Char) : Option (Progress × List Char) :=
    let name := s.takeWhile (· ≠ '>')
    if isName name ∧ ¬ p.names.contains name ∧ name.length < s.length then
      some (inside p.mode (name :: p.names), s.drop (name.length + 1))
    else none
  match p.mode.behindVoid s with
  | '?' :: 'P' :: '<' :: rest => called rest
  | '?' :: '<' :: rest => called rest
  | '?' :: rest =>
    match flags? p.mode [] false rest with
    | some (mode, ':' :: rest) => some (inside mode p.names, rest)
    | some (mode, _ :: rest) => some ({ p with mode, group := p.group.addFlags }, rest)
    | _ => none
  | s => some (inside p.mode p.names, s)

def close? (p : Progress) : Option Progress :=
  match p.outer with
  | [] => none
  | (mode, group) :: outer => some ⟨mode, group.add (p.group.depth + 1), outer, p.names⟩

/-- What a backslash begins. Classes by name and the edges of words are known for bytes alone, and a
byte beyond the ASCII range is no character. -/
def escaped? (p : Progress) (s : List Char) : Option (Progress × List Char) := do
  let (escape, rest) ← escape? p.mode s
  let allowed := match escape with
    | .character _ => p.mode.admitsLetters
    | .byte c => Bracket.admits p.mode c
    | .textEdge => true
    | .wordEdge => p.mode.bytewise
    | .named outside => p.mode.bytewise && !outside
  if allowed then return (p.add 0, rest) else failure

/-- The next sign `c` and what belongs to it. A brace would count repetitions, but no count is ever
complete in a filter. -/
def step? (p : Progress) (c : Char) (rest : List Char) : Option (Progress × List Char) :=
  match c with
  | '(' => p.open? rest
  | ')' => p.close?.map (·, rest)
  | '|' => some ({ p with group := p.group.divide }, rest)
  | '*' | '+' | '?' =>
    p.group.repeat?.map fun group =>
      ({ p with group }, if rest.head? = some '?' then rest.tail else rest)
  | '{' => none
  | '[' => (Bracket.set? p.mode rest).map fun (depth, rest) => (p.add depth, rest)
  | '.' => if p.mode.bytewise then none else some (p.add 0, rest)
  | '^' | '$' => some (p.add 0, rest)
  | '\\' => p.escaped? rest
  | _ => if p.mode.admitsLetters then some (p.add 0, rest) else none

/-- Whether the rest of a pattern closes every group. -/
def completes (p : Progress) (s : List Char) : Bool :=
  match p.mode.behindVoid s with
  | [] => p.outer.isEmpty && p.group.depth ≤ depthLimit
  | c :: rest =>
    match p.step? c rest with
    | none => false
    | some (p, tail) => if tail.length < s.length then p.completes tail else false
termination_by s.length

end Progress

/-- Whether a text can be matched against: groups and sets are closed, what is repeated exists, and
only classes with known members are named. -/
def isWellFormed (s : List Char) : Bool := Progress.start.completes s

end AdminPlane.Log.Pattern

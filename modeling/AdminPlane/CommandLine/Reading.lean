import AdminPlane.CommandLine.Grammar

namespace AdminPlane.CommandLine

/-- A word of a command line by its form. -/
inductive Word where
  /-- Two hyphens alone: what follows is positional. -/
  | endOfOptions
  | long (name : String) (value : Option String)
  | letters (cs : List Char)
  | plain
deriving DecidableEq, Repr

namespace Word

/-- An equals sign ends the name of an option. -/
def ofLong (body : List Char) : Word :=
  match body.span (· ≠ '=') with
  | (name, []) => .long (String.ofList name) none
  | (name, _ :: value) => .long (String.ofList name) (some (String.ofList value))

/-- A single hyphen is a plain word. -/
def ofString (word : String) : Word :=
  match word.toList with
  | ['-', '-'] => .endOfOptions
  | '-' :: '-' :: body => ofLong body
  | ['-'] => .plain
  | '-' :: cs => .letters cs
  | _ => .plain

end Word

/-- The slot that the last words were about. -/
inductive Pending where
  | none
  /-- An option whose value has not come yet. -/
  | awaiting (slot : Slot)
  /-- A value that has not been read yet. -/
  | held (slot : Slot) (word : String)
deriving DecidableEq, Repr

/-- What the words of one level say so far. -/
structure Reading where
  given : List (Slot × Argument) := []
  pending : Pending := .none
  trailing : Bool := false
  vacant : List Slot
deriving DecidableEq, Repr

/-- What the command line says on one level. -/
structure Entry where
  level : Level
  given : List (Slot × Argument)
deriving DecidableEq, Repr

namespace Reading

def ofLevel (l : Level) : Reading := { vacant := l.positionals }

def isAwaiting (r : Reading) : Bool :=
  match r.pending with
  | .awaiting _ => true
  | _ => false

def give (r : Reading) (slot : Slot) (argument : Argument) : Reading :=
  { r with given := r.given ++ [(slot, argument)] }

/-- A slot takes one value. -/
def accept (r : Reading) (slot : Slot) (word : String) : Except Stop Reading :=
  if (r.given.lookup slot).isSome then .error .argumentConflict
  else (slot.read word).map (r.give slot)

/-- Reads the value that was held back. -/
def settle (r : Reading) : Except Stop Reading :=
  match r.pending with
  | .none => .ok r
  | .awaiting _ => .error .invalidValue
  | .held slot word => { r with pending := .none }.accept slot word

/-- Counts how often the verbosity option stands there, up to 255. -/
def raise (r : Reading) : Reading :=
  match r.given.lookup .verbosity with
  | some (.count n) =>
    { r with given := r.given.map fun (s, a) =>
        if s = .verbosity then (s, .count (min 255 (n + 1))) else (s, a) }
  | _ => r.give .verbosity (.count 1)

/-- An option that takes no value. Only the verbosity may be repeated. -/
def set (r : Reading) (slot : Slot) : Except Stop Reading := do
  let r ← r.settle
  if slot = .verbosity then return r.raise
  else if (r.given.lookup slot).isSome then throw .argumentConflict
  else return r.give slot .flag

/-- Help is given on every level and the version on the highest. -/
def request? (l : Level) (name : String) : Option Stop :=
  if name = "help" then some .displayHelp
  else if name = "version" ∧ l = .program then some .displayVersion
  else none

def letterRequest? (l : Level) (c : Char) : Option Stop :=
  if c = 'h' then some .displayHelp
  else if c = 'V' ∧ l = .program then some .displayVersion
  else none

def takeLetter (l : Level) (r : Reading) (c : Char) : Except Stop Reading := do
  match letterRequest? l c, l.letterOption? c with
  | some stop, _ =>
    let _ ← r.settle
    throw stop
  | none, some slot => r.set slot
  | none, none => throw .unknownArgument

def takeLong (l : Level) (r : Reading) (name : String) (value : Option String) :
    Except Stop Reading := do
  match request? l name, l.option? name, value with
  | none, none, _ => throw .unknownArgument
  | some _, _, some _ => throw .tooManyValues
  | some stop, _, none =>
    let _ ← r.settle
    throw stop
  | none, some slot, some word =>
    if slot.takesValue then (← r.settle).accept slot word else throw .tooManyValues
  | none, some slot, none =>
    if slot.takesValue then return { ← r.settle with pending := .awaiting slot } else r.set slot

def isCommand (l : Level) (word : String) : Bool :=
  (l.child? word).isSome || (l.needsChild && word = "help")

/-- A word where no positional argument is left. -/
def surplus (l : Level) (r : Reading) (word : String) : Stop :=
  if l.needsChild ∧ ¬ (r.trailing ∧ isCommand l word) then .invalidSubcommand else .unknownArgument

def takePlain (l : Level) (r : Reading) (word : String) : Except Stop Reading :=
  match r.vacant with
  | [] => .error (surplus l r word)
  | slot :: more => do return { ← r.settle with pending := .held slot word, vacant := more }

/-- One word that is no command. -/
def take (l : Level) (r : Reading) (word : String) : Except Stop Reading :=
  if r.trailing then takePlain l r word
  else
    match Word.ofString word, r.pending with
    | .endOfOptions, _ => .ok { r with trailing := true }
    | .long name value, _ => takeLong l r name value
    | .letters cs, _ => cs.foldlM (takeLetter l) r
    | .plain, .awaiting slot => .ok { r with pending := .held slot word }
    | .plain, _ => takePlain l r word

/-- The end of a level. The environment counts where the command line is silent. -/
def close (l : Level) (r : Reading) (environment : Option String) (hasChild : Bool) :
    Except Stop Entry := do
  let r ← r.settle
  if l.needsChild ∧ ¬ hasChild then
    let silent := r.given = [] ∧ ¬ (l.environmentSlot?.isSome ∧ environment.isSome)
    throw (if silent then .displayHelpOnMissing else .missingSubcommand)
  if l.required.all fun slot => (r.given.lookup slot).isSome then return ⟨l, r.given⟩
  else throw .missingRequiredArgument

end Reading

/-- The commands behind `help` have to lead somewhere. -/
def helpOn (l : Level) : List String → Stop
  | [] => .displayHelp
  | word :: rest =>
    match l.child? word with
    | some child => helpOn child rest
    | none => if l.needsChild ∧ word = "help" ∧ rest = [] then .displayHelp else .invalidSubcommand

/-- The levels from the outermost on. A command's own words come first: its faults win. -/
def read (environment : Option String) (l : Level) (r : Reading) :
    List String → Except Stop (List Entry)
  | [] => do return [← r.close l environment false]
  | word :: rest =>
    if r.trailing ∨ r.isAwaiting then do read environment l (← r.take l word) rest
    else if l.needsChild ∧ word = "help" then .error (helpOn l rest)
    else
      match l.child? word with
      | some child => do
        let below ← read environment child (.ofLevel child) rest
        return (← r.close l environment true) :: below
      | none => do read environment l (← r.take l word) rest

end AdminPlane.CommandLine

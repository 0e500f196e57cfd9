import AdminPlane.CommandLine.Basic
import AdminPlane.Log.Pattern
import AdminPlane.Text.Blank
import AdminPlane.Text.Utf8

namespace AdminPlane.Log

/-- How much an event matters. -/
inductive Severity where
  | error
  | warn
  | info
  | debug
  | trace
deriving DecidableEq, Repr

def Severity.rank : Severity → Nat
  | error => 1
  | warn => 2
  | info => 3
  | debug => 4
  | trace => 5

def Severity.all : List Severity := [error, warn, info, debug, trace]

/-- The greatest rank that is shown; zero shows nothing. -/
structure Threshold where
  rank : Nat
deriving DecidableEq, Repr

namespace Threshold

def everything : Threshold := ⟨5⟩

def names : List (String × Threshold) :=
  [("off", ⟨0⟩), ("error", ⟨1⟩), ("warn", ⟨2⟩), ("info", ⟨3⟩), ("debug", ⟨4⟩), ("trace", ⟨5⟩)]

/-- A rank, or a name in any case. -/
def read? (s : List Char) : Option Threshold :=
  match (Decimal.unsigned? UInt64.size s).filter (· ≤ 5) with
  | some n => some ⟨n⟩
  | none => names.lookup (String.ofList (s.map Char.toLower))

end Threshold

/-- What is reported: where from, and which fields it carries. -/
structure Event where
  target : String
  fields : List String
  severity : Severity
deriving DecidableEq, Repr

/-- A set of events: those whose target begins with a text, and those that carry a field. -/
structure Selector where
  target : Option String
  field : Option String
deriving DecidableEq, Repr

namespace Selector

def selects (x : Selector) (e : Event) : Bool :=
  x.target.all (fun t => t.toList.isPrefixOf e.target.toList) &&
    x.field.all fun name => e.fields.contains name

/-- A longer target is narrower, and of two alike the selector with a field; then the later name. -/
def isNarrower (x y : Selector) : Bool :=
  let length (z : Selector) := (z.target.map fun t => t.utf8ByteSize + 1).getD 0
  if length x ≠ length y then length y < length x
  else
    match x.field, y.field with
    | some a, some b => b < a
    | some _, none => true
    | none, _ => false

end Selector

/-- What a part of a filter asks for. A part that is about spans, or about the value of a field,
shows no event that stands outside of spans. -/
inductive Directive where
  | events (selector : Selector) (threshold : Threshold)
  | spans
deriving DecidableEq, Repr

namespace Directive

/-- Why a part of a filter is not read: it has another form, or a cut falls inside a character. -/
inductive Fault where
  | malformed
  | insideCharacter
deriving DecidableEq, Repr

/-- A word that names a threshold is about every event, and another one is a target. -/
def ofWord (s : List Char) : Directive :=
  match Threshold.read? s with
  | some threshold => .events ⟨none, none⟩ threshold
  | none => .events ⟨some (String.ofList s), none⟩ .everything

/-- The characters of `s` behind its first `start` bytes. -/
def suffix (s : List Char) (start : Nat) : Except Fault (List Char) :=
  match Text.Utf8.cut? start s with
  | some (_, rest) => .ok rest
  | none => .error .insideCharacter

/-- The characters of `s` from one byte up to another. -/
def slice (s : List Char) (start stop : Nat) : Except Fault (List Char) := do
  match Text.Utf8.cut? (stop - start) (← suffix s start) with
  | some (part, _) => .ok part
  | none => .error .insideCharacter

/-- A text that names a number of any size, infinity, or no number. -/
def isNumber (s : List Char) : Bool :=
  let unsigned := String.ofList ((Decimal.sign s).2.map Char.toLower)
  Decimal.isDecimal s || ["inf", "infinity", "nan"].contains unsigned

/-- The name of a field, and whether a value stands behind an equals sign. Any other equals sign
ends the value, which is a number or a pattern. -/
def field (s : List Char) : Except Fault (String × Bool) :=
  let name := String.ofList (s.takeWhile (· ≠ '='))
  match s.dropWhile (· ≠ '=') with
  | [] => if s = [] then .error .malformed else .ok (name, false)
  | _ :: rest =>
    let value := rest.takeWhile (· ≠ '=')
    if isNumber value ∨ Pattern.isWellFormed value then .ok (name, true) else .error .malformed

/-- The threshold behind an equals sign at byte `start` of `s`; nothing there stands for
everything, and so does the end of the part. -/
def ending (s : List Char) (start : Nat) : List Char → Except Fault Threshold
  | [] => .ok .everything
  | '=' :: _ => do
    let text ← suffix s (start + 1)
    if text = [] then .ok .everything
    else
      match Threshold.read? text with
      | some threshold => .ok threshold
      | none => .error .malformed
  | _ => .error .malformed

/-- What stands behind an opening bracket at byte `start` of `s`: the name of a span, and a field in
braces or none. -/
def bracket (s : List Char) (target : Option String) (start : Nat) (rest : List Char) :
    Except Fault Directive :=
  let name := rest.takeWhile fun c => c ≠ ']' ∧ c ≠ '\x7b'
  let stop := start + Text.Utf8.size name
  match rest.dropWhile fun c => c ≠ ']' ∧ c ≠ '\x7b' with
  | ']' :: rest => do
    discard (slice s start stop)
    discard (ending s (stop + 1) rest)
    return .spans
  | _ :: rest => do
    let span ← slice s start stop
    let inner := rest.takeWhile (· ≠ '\x7d')
    let close := stop + 1 + Text.Utf8.size inner
    match rest.dropWhile (· ≠ '\x7d') with
    | [] => .error .malformed
    | _ :: rest =>
      let (name, hasValue) ← field (← slice s (stop + 1) close)
      match rest with
      | ']' :: rest =>
        let threshold ← ending s (close + 2) rest
        return if span = [] ∧ ¬ hasValue then .events ⟨target, some name⟩ threshold else .spans
      | _ => .error .malformed
  | [] => .error .malformed

def maySeparate (c : Char) : Bool := c = '-' || c = ':' || c = '_'

/-- Blanks around a part are left out where its signs are looked for, but each piece is cut from the
whole text at the places found without them. -/
def read (s : List Char) : Except Fault Directive :=
  match Text.trim s with
  | [] => .error .malformed
  | c :: rest =>
    if c = '[' then bracket s none 1 rest
    else if ¬ (maySeparate c ∨ Text.isAlphanumeric c) then .error .malformed
    else
      let word := (c :: rest).takeWhile fun c => c ≠ '=' ∧ c ≠ '['
      let stop := Text.Utf8.size word
      match (c :: rest).dropWhile fun c => c ≠ '=' ∧ c ≠ '[' with
      | [] => .ok (ofWord s)
      | '[' :: rest => do bracket s (some (String.ofList (← slice s 0 stop))) (stop + 1) rest
      | rest => do
        let target := String.ofList (← slice s 0 stop)
        return .events ⟨some target, none⟩ (← ending s stop rest)

end Directive

/-- The thresholds of selectors; the same selector is not there twice. -/
structure Filter where
  thresholds : List (Selector × Threshold)
deriving DecidableEq, Repr

namespace Filter

def empty : Filter := ⟨[]⟩

/-- A selector that is given again is replaced. -/
def add (f : Filter) : Directive → Filter
  | .events selector threshold =>
    ⟨(selector, threshold) :: f.thresholds.filter fun (x, _) => x ≠ selector⟩
  | .spans => f

def ofDirectives (ds : List Directive) : Filter := ds.foldl add empty

def pieces (s : String) : List (List Char) := (s.splitOn ",").map String.toList

/-- Every part that is not empty has to be a directive; the first that is none decides. -/
def read (s : String) : Except Directive.Fault Filter := do
  return ofDirectives (← ((pieces s).filter (· ≠ [])).mapM Directive.read)

/-- A filter for every event. -/
def ofThreshold (threshold : Threshold) : Filter := ⟨[(⟨none, none⟩, threshold)]⟩

/-- By how often the verbosity option was given. -/
def ofVerbosity (n : Nat) : Filter := ofThreshold ⟨min (n + 3) 5⟩

/-- The variable that a filter is said in. -/
def variableName : String := "RUST_LOG"

/-- The exit code of a run that has no filter. -/
def failureExitCode : Nat := 101

/-- Silence shows errors alone. Otherwise the base is what `said` says, if it can be read, and
the parts of the option that can be read are added to it. There is no filter if a cut falls inside
a character. -/
def ofOptions (o : CommandLine.LogOptions) (said : Option String) : Option Filter :=
  if o.quiet then some (ofThreshold ⟨1⟩)
  else do
    let base ←
      match said.map read with
      | some (.ok f) => some f
      | some (.error .insideCharacter) => none
      | _ => some (ofVerbosity o.verbosity)
    (pieces (o.filter.getD "")).foldlM
      (fun f piece =>
        match Directive.read piece with
        | .ok d => some (f.add d)
        | .error .malformed => some f
        | .error .insideCharacter => none)
      base

/-- The narrowest selector of an event decides. -/
def threshold? (f : Filter) (e : Event) : Option Threshold :=
  ((f.thresholds.filter fun (x, _) => x.selects e).foldl
    (fun best candidate =>
      match best with
      | none => some candidate
      | some b => if candidate.1.isNarrower b.1 then some candidate else best)
    none).map (·.2)

def shows (f : Filter) (e : Event) : Bool :=
  (f.threshold? e).any (e.severity.rank ≤ ·.rank)

end Filter

end AdminPlane.Log

import AdminPlane.Settings.Tree

namespace AdminPlane.Settings.Toml

/-- What a table owes its place to: a header of its own, a longer header, or a dotted key. -/
inductive Origin where
  | header
  | implied
  | dotted
deriving DecidableEq, Repr

/-- A document while it is read. -/
inductive Node where
  | leaf (value : Tree)
  | table (origin : Origin) (members : List (String × Node))
  /-- One table for each of equal headers; the last one is still open. -/
  | tables (earlier : List (List (String × Node))) (last : List (String × Node))

abbrev Members := List (String × Node)

namespace Node

/-- Gives a value to a key, which is new. A dotted key makes its own tables, and it adds no member
to a table that a header opened or implied. -/
def assign (members : Members) : List String → Tree → Option Members
  | [], _ => none
  | [name], value =>
    if (members.lookup name).isSome then none else some (members ++ [(name, .leaf value)])
  | name :: next :: path, value =>
    let isLast := path.isEmpty
    match members.lookup name with
    | none => do
      return members ++ [(name, .table .dotted (← assign [] (next :: path) value))]
    | some (.table .dotted inner) => do
      return Tree.put members name (.table .dotted (← assign inner (next :: path) value))
    | some (.table .implied inner) =>
      if isLast then none
      else do return Tree.put members name (.table .implied (← assign inner (next :: path) value))
    | some (.tables earlier last) =>
      if isLast then none
      else do return Tree.put members name (.tables earlier (← assign last (next :: path) value))
    | some (.table .header _) => none
    | some (.leaf _) => none

/-- Acts on the table that a header leads to; tables that are missing on the way are implied. -/
def within (act : Members → Option Members) (members : Members) : List String → Option Members
  | [] => act members
  | name :: path =>
    match members.lookup name with
    | none => do return members ++ [(name, .table .implied (← within act [] path))]
    | some (.table origin inner) => do
      return Tree.put members name (.table origin (← within act inner path))
    | some (.tables earlier last) => do
      return Tree.put members name (.tables earlier (← within act last path))
    | some (.leaf _) => none

/-- A table has one header. -/
def openTable (name : String) (members : Members) : Option Members :=
  match members.lookup name with
  | none => some (members ++ [(name, .table .header [])])
  | some (.table .implied inner) => some (Tree.put members name (.table .header inner))
  | some _ => none

/-- A further table under the same name. -/
def openElement (name : String) (members : Members) : Option Members :=
  match members.lookup name with
  | none => some (members ++ [(name, .tables [] [])])
  | some (.tables earlier last) =>
    some (Tree.put members name (.tables (earlier ++ [last]) []))
  | some _ => none

mutual

def tree : Node → Tree
  | leaf value => value
  | table _ members => .table (treeMembers members)
  | tables earlier last => .list (treeElements earlier ++ [.table (treeMembers last)])

def treeMembers : Members → List (String × Tree)
  | [] => []
  | (name, node) :: rest => (name, tree node) :: treeMembers rest

def treeElements : List Members → List Tree
  | [] => []
  | members :: rest => .table (treeMembers members) :: treeElements rest

end

end Node

end AdminPlane.Settings.Toml

namespace AdminPlane.Settings

/-- Settings before their types are checked. The members of a table have different names. -/
inductive Tree where
  | text (s : String)
  | integer (n : Int)
  /-- No setting takes a fraction, so its value is not kept. -/
  | fraction
  | truth (b : Bool)
  | list (items : List Tree)
  | table (members : List (String × Tree))
deriving Repr

namespace Tree

/-- Replaces what a name stands for, or adds the name. -/
def put (members : List (String × α)) (name : String) (value : α) : List (String × α) :=
  match members with
  | [] => [(name, value)]
  | (n, v) :: rest => if n = name then (n, value) :: rest else (n, v) :: put rest name value

mutual

/-- The later layer wins. Two tables are joined member by member. -/
def merge (earlier : Tree) : Tree → Tree
  | table later =>
    match earlier with
    | table members => table (mergeMembers members later)
    | _ => table later
  | later => later

def mergeMembers (members : List (String × Tree)) : List (String × Tree) → List (String × Tree)
  | [] => members
  | (name, value) :: rest =>
    let joined :=
      match members.lookup name with
      | some earlier => merge earlier value
      | none => value
    mergeMembers (put members name joined) rest

end

/-- A table in a table and so on, with a value at the end of the path. -/
def atPath (path : List String) (value : Tree) : Tree :=
  path.foldr (fun name inner => table [(name, inner)]) value

/-- What a member of a table stands for. -/
def member? (t : Tree) (name : String) : Option Tree :=
  match t with
  | table members => members.lookup name
  | _ => none

end Tree

end AdminPlane.Settings

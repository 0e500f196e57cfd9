namespace AdminPlane

/-- A request as it reaches a server. The target is the path with any query. -/
structure Request where
  method : String
  target : String
  body : List UInt8
deriving DecidableEq, Repr

structure Response where
  status : Nat
  contentType : Option String
  body : List UInt8
deriving DecidableEq, Repr

def Request.path (r : Request) : String :=
  String.ofList (r.target.toList.takeWhile (· ≠ '?'))

def Response.empty (status : Nat) : Response := ⟨status, none, []⟩

def Response.isSuccess (r : Response) : Bool := 200 ≤ r.status && r.status < 300

end AdminPlane

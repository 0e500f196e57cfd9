namespace AdminPlane.Address

/-- A backslash counts as a slash. -/
def isSlash (c : Char) : Bool := c = '/' || c = '\\'

def endsHost (c : Char) : Bool := isSlash c || c = '?' || c = '#'

def endsPath (c : Char) : Bool := c = '?' || c = '#'

/-- Tabs and line ends are passed over wherever they stand. -/
def isSkipped (c : Char) : Bool := c = '\t' || c = '\n' || c = '\r'

/-- Spaces and controls do not count at the end of an address. -/
def isMargin (c : Char) : Bool := c ≤ ' '

/-- What is read of an address behind its scheme and the slashes, however many there are. -/
def behindScheme (url : List Char) : List Char :=
  let read := (url.reverse.dropWhile isMargin).reverse.filter fun c => ¬ isSkipped c
  ((read.dropWhile (· ≠ ':')).drop 1).dropWhile isSlash

/-- The host with its port, if it has one. What is before an at sign names a user. -/
def host (url : List Char) : List Char :=
  let authority := (behindScheme url).takeWhile fun c => ¬ endsHost c
  (authority.reverse.takeWhile (· ≠ '@')).reverse

def behindHost (url : List Char) : List Char :=
  (behindScheme url).dropWhile fun c => ¬ endsHost c

/-- Of how many dots a segment consists, if of dots alone. A dot may be written as an escape. -/
def dots? : List Char → Option Nat
  | [] => some 0
  | '.' :: s => (dots? s).map (· + 1)
  | '%' :: '2' :: 'e' :: s => (dots? s).map (· + 1)
  | '%' :: '2' :: 'E' :: s => (dots? s).map (· + 1)
  | _ => none

/-- Goes along the segments of a path from what is there already, last segment first. One dot stays
at its place and two dots go back; at the end a place has an empty segment. -/
def resolve (walked : List (List Char)) : List (List Char) → List (List Char)
  | [] => walked
  | s :: rest =>
    let place := if rest = [] then [[]] else []
    match dots? s with
    | some 1 => resolve (place ++ walked) rest
    | some 2 => resolve (place ++ walked.tail) rest
    | _ => resolve (s :: walked) rest

/-- The segments of the path of an address. -/
def segments (url : List Char) : List (List Char) :=
  let path := (behindHost url).takeWhile fun c => ¬ endsPath c
  (resolve [] ((path.drop 1).splitOnP isSlash)).reverse

/-- A query with its mark. A fragment is not sent. -/
def query (url : List Char) : List Char :=
  ((behindHost url).dropWhile fun c => ¬ endsPath c).takeWhile (· ≠ '#')

/-- What is asked for at the host. Characters that have to be escaped are left as they are. -/
def target (url : List Char) : List Char :=
  (segments url).flatMap ('/' :: ·) ++ query url

end AdminPlane.Address

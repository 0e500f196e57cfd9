import AdminPlane.Decimal.Numeral
import AdminPlane.Server.Http
import AdminPlane.Text.Ascii
import AdminPlane.Text.Blank
import AdminPlane.Text.Utf8

namespace AdminPlane.Wire

open Text (ascii)

/-- A message as it is sent: a first line, headers, and a body whose length a header states. -/
structure Message where
  first : String
  headers : List (String × String)
  body : List UInt8
deriving DecidableEq, Repr

def lineEnd : List UInt8 := [0x0D, 0x0A]

/-- What is before the first empty line, and what is behind it. -/
def splitHead : List UInt8 → Option (List UInt8 × List UInt8)
  | [] => none
  | b :: rest =>
    if (b :: rest).take 4 = lineEnd ++ lineEnd then some ([], rest.drop 3)
    else (splitHead rest).map fun (head, body) => (b :: head, body)

def lengthName : String := "content-length"

namespace Message

def encode (m : Message) : List UInt8 :=
  let line (s : String) := Text.Utf8.encode s ++ lineEnd
  let length := (lengthName, Decimal.natural m.body.length)
  line m.first ++ (m.headers ++ [length]).flatMap (fun (name, value) => line (name ++ ": " ++ value)) ++
    lineEnd ++ m.body

/-- The case of a header's name does not count. -/
def header? (headers : List (String × String)) (name : String) : Option String :=
  headers.lookup name

def readHeader (line : String) : String × String :=
  let (name, value) := line.toList.span (· ≠ ':')
  (String.ofList (name.map Char.toLower), String.ofList (Text.trim (value.drop 1)))

/-- Nothing until the whole message is there. -/
def decode? (bytes : List UInt8) : Option Message := do
  let (head, rest) ← splitHead bytes
  let lines := (Text.Utf8.lossy head).splitOn "\r\n"
  let headers := (lines.drop 1).map readHeader
  let length := ((header? headers lengthName).bind (Decimal.natural? ·.toList)).getD 0
  if rest.length < length then none
  else return ⟨lines.headD "", headers, rest.take length⟩

end Message

def reason : Nat → String
  | 200 => "OK"
  | 400 => "Bad Request"
  | 404 => "Not Found"
  | 405 => "Method Not Allowed"
  | 413 => "Payload Too Large"
  | _ => ""

def ofRequest (host : String) (r : Request) : Message :=
  ⟨r.method ++ " " ++ r.target ++ " HTTP/1.1", [("host", host), ("connection", "close")], r.body⟩

def request? (m : Message) : Option Request :=
  match m.first.splitOn " " with
  | [method, target, _] => some ⟨method, target, m.body⟩
  | _ => none

def ofResponse (r : Response) : Message :=
  let type := r.contentType.elim [] fun t => [("content-type", t)]
  ⟨"HTTP/1.1 " ++ Decimal.natural r.status ++ " " ++ reason r.status,
    type ++ [("connection", "close")], r.body⟩

def response? (m : Message) : Option Response :=
  match m.first.splitOn " " with
  | _ :: status :: _ =>
    (Decimal.natural? status.toList).map fun status =>
      ⟨status, Message.header? m.headers "content-type", m.body⟩
  | _ => none

end AdminPlane.Wire

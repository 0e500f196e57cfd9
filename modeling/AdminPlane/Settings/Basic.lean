import AdminPlane.CommandLine.Basic
import AdminPlane.Settings.Environment
import AdminPlane.Settings.Toml.Document
import AdminPlane.Text.Utf8

namespace AdminPlane

/-- The settings of a node. -/
structure Settings where
  admin : ServerConfig
deriving DecidableEq, Repr

namespace Settings

/-- What stands at the path of a settings file. -/
inductive Source where
  | absent
  | unreadable
  | contents (bytes : List UInt8)
deriving DecidableEq, Repr

/-- Why there are no settings. The path leads to the value that is wrong. -/
inductive Fault where
  | unreadable
  | wrongType (path : List String)
  | outOfRange (path : List String)
deriving DecidableEq, Repr

def Fault.path : Fault → List String
  | unreadable => []
  | wrongType path => path
  | outOfRange path => path

/-- Said of every fault. -/
def Fault.message : String := "Failed to load configuration"

def default : Settings := ⟨⟨ServerConfig.defaultAddr, "", ServerConfig.defaultMaxBodySize⟩⟩

/-- The names of the settings in the section, in the order in which a list gives them. -/
def addrName : String := "addr"
def keyName : String := "key"
def maxBodySizeName : String := "max-body-size"
def sectionName : String := "admin"

/-- The layer below all others. -/
def tree (s : Settings) : Tree :=
  .table [(sectionName, .table
    [(addrName, .text s.admin.addr), (keyName, .text s.admin.key),
     (maxBodySizeName, .integer s.admin.maxBodySize)])]

def text (path : List String) (default : String) : Option Tree → Except Fault String
  | none => .ok default
  | some (.text s) => .ok s
  | some _ => .error (.wrongType path)

def size (path : List String) (default : Nat) : Option Tree → Except Fault Nat
  | none => .ok default
  | some (.integer n) => if n < 0 then .error (.outOfRange path) else .ok n.toNat
  | some _ => .error (.wrongType path)

/-- A table gives settings by name and a list gives them in order; one that is missing has its
default. -/
def ofSection (d : ServerConfig) : Tree → Except Fault ServerConfig
  | .table members => do
    return {
      addr := ← text [sectionName, addrName] d.addr (members.lookup addrName)
      key := ← text [sectionName, keyName] d.key (members.lookup keyName)
      maxBodySize := ←
        size [sectionName, maxBodySizeName] d.maxBodySize (members.lookup maxBodySizeName) }
  | .list items => do
    return {
      addr := ← text [sectionName, "0"] d.addr items[0]?
      key := ← text [sectionName, "1"] d.key items[1]?
      maxBodySize := ← size [sectionName, "2"] d.maxBodySize items[2]? }
  | _ => .error (.wrongType [sectionName])

/-- Checks the types of what the layers come to. -/
def ofTree (t : Tree) : Except Fault Settings :=
  match t.member? sectionName with
  | none => .ok default
  | some s => (ofSection default.admin s).map fun admin => ⟨admin⟩

/-- The layer of the file, if there is one. -/
def fileTree : Source → Except Fault (Option Tree)
  | .absent => .ok none
  | .unreadable => .error .unreadable
  | .contents bytes =>
    match (Text.Utf8.decode? bytes).bind Toml.read with
    | none => .error .unreadable
    | some t => .ok (some t)

/-- The file stands above the environment and the environment above the defaults. -/
def load (environ : List (String × String)) (file : Source) : Except Fault Settings := do
  let below := default.tree.merge (Environment.tree environ)
  match ← fileTree file with
  | none => ofTree below
  | some t => ofTree (below.merge t)

/-- What was found on the command line replaces what was loaded. Where nothing is known of the
sources, all counts as found there. -/
def apply (s : Settings) (args : ServerConfig) (sources : Option CommandLine.Sources) : Settings :=
  let explicit (source : CommandLine.Sources → CommandLine.ValueSource) : Bool :=
    sources.all fun found => source found = .commandLine
  { admin := {
      addr := if explicit (·.addr) then args.addr else s.admin.addr
      key := if explicit (·.key) then args.key else s.admin.key
      maxBodySize := if explicit (·.maxBodySize) then args.maxBodySize else s.admin.maxBodySize } }

/-- A key from the environment does not replace the one that was loaded. -/
def override (s : Settings) (o : CommandLine.NodeOptions) : Settings :=
  s.apply o.admin (some o.sources)

/-- The key is never shown. -/
def debug (s : Settings) : String :=
  "NodeConfig \x7b admin: AdminArgs \x7b addr: " ++ Text.quoted s.admin.addr ++
    ", key: \"[REDACTED]\", max_body_size: " ++ Decimal.natural s.admin.maxBodySize ++
    " \x7d \x7d"

end Settings

end AdminPlane

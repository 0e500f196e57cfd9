import AdminPlane.CommandLine.Operator
import AdminPlane.Node.Basic
import AdminPlane.Settings.Basic

namespace AdminPlane.CommandLine

/-- Why a node does not run. -/
inductive NodeFailure where
  | settings (fault : Settings.Fault)
  | start (error : StartError)
deriving DecidableEq, Repr

/-- The outermost message first, then the messages of what caused it. -/
def NodeFailure.chain : NodeFailure → List String
  | settings _ => [Settings.Fault.message]
  | start e => "failed to start admin server" :: e.chain

/-- A node that runs with the settings that its options come to. -/
def NodeOptions.launch (o : NodeOptions) (environ : List (String × String))
    (file : Settings.Source) (bind : String → Except BindError Endpoint) :
    Except NodeFailure Node := do
  let settings ← (Settings.load environ file).mapError .settings
  ((Node.ofConfig (settings.override o).admin).start bind).mapError .start

/-- What `--version` prints. -/
def version : String := "fcr-node-commands 0.1.0"

end AdminPlane.CommandLine

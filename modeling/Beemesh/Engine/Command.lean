import Beemesh.Lib.Document
import Beemesh.Lib.Text
import Beemesh.Node.Runtime

/-!
# Commands of the container tools

The engines drive `podman` and `docker` by their command lines. A tool is a parameter: it runs a
command on its state and gives back what the command printed. So are the libraries that read and
write documents. What the engines make of them is modelled here and in the modules of the engines.

## Main definitions

* `RuntimeError`: the errors of an engine
* `Serde`: the document libraries
* `Arg`, `Output`, `Cli`, `Cli.execute`: a command, its result and the tool that runs it
* `displayed`: a result with the text of its error
* `RuntimeEngine.Lists`: an engine lists a workload
-/

namespace Beemesh

/-- `RuntimeError`: those that engines return. -/
inductive RuntimeError
  | invalidManifest (message : String)
  | deploymentFailed (message : String)
  | workloadNotFound (message : String)
  | ioError (message : String)
  | commandFailed (stderr : String)

/-- The text of an error. -/
def RuntimeError.display : RuntimeError → String
  | invalidManifest message => "Invalid manifest format: " ++ message
  | deploymentFailed message => "Deployment failed: " ++ message
  | workloadNotFound message => "Workload not found: " ++ message
  | ioError message => "IO error: " ++ message
  | commandFailed stderr => "Command execution failed: " ++ stderr

/-- `serde_yaml` and `serde_json`. -/
structure Serde where
  fromYaml : String → Except String Yaml
  toYaml : Yaml → Except String String
  fromJson : String → Except String Json

/-- A word of a command line: a text, or the path of a temporary file with the content it has. -/
inductive Arg
  | text (s : String)
  | file (content : Bytes)
  deriving DecidableEq

/-- Words of a command line. -/
def words (args : List String) : List Arg := args.map .text

/-- `std::process::Output`. -/
structure Output where
  success : Bool
  stdout : Bytes
  stderr : Bytes

/-- A tool over states `T`: a command either does not start, or ends with an output. -/
def Cli (T : Type) := T → List Arg → Except String Output × T

variable {T : Type}

/-- A command that is run to its end: what it printed, or its error. -/
def Cli.execute (cli : Cli T) (t : T) (args : List Arg) : Except RuntimeError String × T :=
  match cli t args with
  | (.error e, t) => (.error (.ioError e), t)
  | (.ok output, t) =>
    if output.success then (.ok (Text.fromUtf8Lossy output.stdout), t)
    else (.error (.commandFailed (Text.fromUtf8Lossy output.stderr)), t)

/-- What a function of an engine returns, with the text of its error. -/
def displayed {α : Type} (r : Except RuntimeError α × T) : Except String α × T :=
  (r.1.mapError RuntimeError.display, r.2)

theorem displayed_eq_ok_iff {α : Type} {r : Except RuntimeError α × T} {a : α} {t : T} :
    displayed r = (.ok a, t) ↔ r = (.ok a, t) := by
  obtain ⟨result, state⟩ := r
  cases result with
  | error err => simp [displayed, Except.mapError]
  | ok b => simp [displayed, Except.mapError]

/-- A text that was found, put into the metadata of a workload under its key. -/
def note (key : String) (found : Option String) (metadata : Table String String) :
    Table String String :=
  match found with
  | some value => metadata.insert key value
  | none => metadata

/-- The engine lists a workload of the manifest under an id. -/
def RuntimeEngine.Lists {H : Type} (engine : RuntimeEngine H) (host : H) (manifestId id : String) :
    Prop :=
  ∃ workloads, engine.listWorkloads host = .ok workloads ∧
    ∃ w ∈ workloads, w.manifestId = manifestId ∧ w.id = id

end Beemesh

import Allotment.Config.Basic
import Allotment.Text.Natural

/-!
# Configurations from variables

Each field has a variable. Variables that are absent leave their field alone; they are asked for in
the order of the fields, and the first that cannot be read ends the reading.
-/

namespace Allotment.Config

/-- What all variables of the configuration begin with. -/
def variableStem : String := "FLEET_ALLOCATOR_"

inductive Variable
  | threadName
  | threadStackSize
  | shutdownTimeoutMs
  | snapshotTimeoutMs
  | auditCapacity
  | strictRelease
deriving DecidableEq

namespace Variable

def all : List Variable :=
  [threadName, threadStackSize, shutdownTimeoutMs, snapshotTimeoutMs, auditCapacity, strictRelease]

def name : Variable → String
  | threadName => variableStem ++ "THREAD_NAME"
  | threadStackSize => variableStem ++ "THREAD_STACK_SIZE"
  | shutdownTimeoutMs => variableStem ++ "SHUTDOWN_TIMEOUT_MS"
  | snapshotTimeoutMs => variableStem ++ "SNAPSHOT_TIMEOUT_MS"
  | auditCapacity => variableStem ++ "AUDIT_CAPACITY"
  | strictRelease => variableStem ++ "STRICT_RELEASE"

end Variable

inductive ValueFault
  | natural (f : Text.NaturalFault)
  | notBool
deriving DecidableEq

def ValueFault.message : ValueFault → String
  | natural f => f.message
  | notBool => "provided string was not `true` or `false`"

inductive VariableFault
  | unreadable (v : Variable) (text : String) (cause : ValueFault)
  | invalid (f : ConfigFault)
deriving DecidableEq

namespace VariableFault

def context : VariableFault → String
  | unreadable v text _ => v.name ++ ": invalid value `" ++ text ++ "`"
  | invalid _ => "scheduler configuration from environment"

def cause : VariableFault → String
  | unreadable _ _ c => c.message
  | invalid f => f.error.message

def chain (f : VariableFault) : List String := [f.context, f.cause]

end VariableFault

def readBool : String → Except ValueFault Bool
  | "true" => .ok true
  | "false" => .ok false
  | _ => .error .notBool

def readWord (s : String) : Except ValueFault UInt64 := (Text.readWord s).mapError .natural

/-- The setting that the text of a variable stands for. -/
def Variable.read (v : Variable) (s : String) : Except ValueFault Setting :=
  match v with
  | threadName => .ok (.threadName s)
  | threadStackSize => (readWord s).map .threadStackSize
  | shutdownTimeoutMs => (readWord s).map .shutdownTimeoutMs
  | snapshotTimeoutMs => (readWord s).map .snapshotTimeoutMs
  | auditCapacity => (readWord s).map .auditCapacity
  | strictRelease => (readBool s).map .strictRelease

/-- Goes through variables; the result has those asked for on the way. -/
def readVariables (lookup : String → Option String) :
    List Variable → Config → List Variable × Except VariableFault Config
  | [], c => ([], .ok c)
  | v :: vs, c =>
    match (lookup v.name).map fun s => (s, v.read s) with
    | some (s, .error f) => ([v], .error (.unreadable v s f))
    | some (_, .ok x) =>
      let (asked, result) := readVariables lookup vs (c.set x)
      (v :: asked, result)
    | none =>
      let (asked, result) := readVariables lookup vs c
      (v :: asked, result)

/-- The configuration that variables give, and the names asked for. -/
def ofLookup (lookup : String → Option String) : List String × Except VariableFault Config :=
  let (asked, result) := readVariables lookup Variable.all {}
  (asked.map Variable.name, result.bind fun c => (c.validate).mapError .invalid)

end Allotment.Config

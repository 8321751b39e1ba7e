import Allotment.Config.Basic
import Allotment.Json.Printer
import Allotment.Json.Reader

/-!
# Configurations in JSON
-/

namespace Allotment.Config

def toJson (c : Config) : Json :=
  .object
    [("thread_name", .text c.threadName),
      ("thread_stack_size", .nat c.threadStackSize.toNat),
      ("shutdown_timeout_ms", .nat c.shutdownTimeoutMs.toNat),
      ("snapshot_timeout_ms", .nat c.snapshotTimeoutMs.toNat),
      ("audit_capacity", .nat c.auditCapacity.toNat),
      ("strict_release", .bool c.strictRelease)]

def text (c : Config) : String := c.toJson.compact

/-- A field with a value to fall back on: none if it is there and cannot be read. -/
def orDefault? {α : Type} (read : Json → Option α) (fallback : α) : Option Json → Option α
  | none => some fallback
  | some j => read j

/-- A configuration that has not been validated. -/
def ofJson? (j : Json) : Option Config := do
  match ← j.leadingFields? fieldNames with
  | [name, stack, shutdown, snapshot, audit, strict] =>
    let d : Config := {}
    return {
      threadName := ← orDefault? Json.asText? d.threadName name
      threadStackSize := ← orDefault? Json.asWord? d.threadStackSize stack
      shutdownTimeoutMs := ← orDefault? Json.asWord? d.shutdownTimeoutMs shutdown
      snapshotTimeoutMs := ← orDefault? Json.asWord? d.snapshotTimeoutMs snapshot
      auditCapacity := ← orDefault? Json.asWord? d.auditCapacity audit
      strictRelease := ← orDefault? Json.asBool? d.strictRelease strict }
  | _ => none

/-- The valid configuration that a text stands for. -/
def ofText (s : String) : Except ConfigFault Config :=
  match (Json.parse? s).bind ofJson? with
  | none => .error .unreadable
  | some c => c.validate

end Allotment.Config

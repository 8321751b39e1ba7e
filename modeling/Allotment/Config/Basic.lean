import Allotment.Error
import Allotment.Text.Blank

/-!
# Configurations
-/

namespace Allotment

structure Config where
  threadName : String := "allocator"
  threadStackSize : UInt64 := 2097152
  shutdownTimeoutMs : UInt64 := 2000
  snapshotTimeoutMs : UInt64 := 1000
  /-- How many events the log that comes with a scheduler keeps; without any there is no log. -/
  auditCapacity : UInt64 := 0
  /-- Whether freeing what is not held calls for a warning. -/
  strictRelease : Bool := true
deriving DecidableEq

inductive ConfigFault
  | unreadable
  | emptyThreadName
  | smallStack
  | noShutdownTimeout
  | noSnapshotTimeout
deriving DecidableEq

namespace ConfigFault

def reason : ConfigFault → String
  | unreadable => "parse error"
  | emptyThreadName => "thread_name must not be empty"
  | smallStack => "thread_stack_size must be at least 64 KiB"
  | noShutdownTimeout => "shutdown_timeout_ms must be greater than 0"
  | noSnapshotTimeout => "snapshot_timeout_ms must be greater than 0"

def error (f : ConfigFault) : SchedulerError := .invalidConfig f.reason

end ConfigFault

namespace Config

def fault? (c : Config) : Option ConfigFault :=
  if Text.allBlank c.threadName then some .emptyThreadName
  else if c.threadStackSize < 65536 then some .smallStack
  else if c.shutdownTimeoutMs = 0 then some .noShutdownTimeout
  else if c.snapshotTimeoutMs = 0 then some .noSnapshotTimeout
  else none

def validate (c : Config) : Except ConfigFault Config :=
  match c.fault? with
  | none => .ok c
  | some f => .error f

def hasLog (c : Config) : Bool := 0 < c.auditCapacity

/-! ### Setters -/

inductive Setting
  | threadName (name : String)
  | threadStackSize (bytes : UInt64)
  | shutdownTimeoutMs (ms : UInt64)
  | snapshotTimeoutMs (ms : UInt64)
  | auditCapacity (capacity : UInt64)
  | strictRelease (strict : Bool)
deriving DecidableEq

def set (c : Config) : Setting → Config
  | .threadName v => { c with threadName := v }
  | .threadStackSize v => { c with threadStackSize := v }
  | .shutdownTimeoutMs v => { c with shutdownTimeoutMs := v }
  | .snapshotTimeoutMs v => { c with snapshotTimeoutMs := v }
  | .auditCapacity v => { c with auditCapacity := v }
  | .strictRelease v => { c with strictRelease := v }

def fieldNames : List String :=
  ["thread_name", "thread_stack_size", "shutdown_timeout_ms", "snapshot_timeout_ms",
    "audit_capacity", "strict_release"]

end Config

end Allotment

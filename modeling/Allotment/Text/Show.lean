import Allotment.Command
import Allotment.Text.Layout
import Allotment.Text.Quoted

/-!
# How identities and commands are shown
-/

namespace Allotment

open Text

def ResourceId.layout (r : ResourceId) : Layout := .wrap "ResourceId" (.text (quoted r.name))

def ClientId.layout (c : ClientId) : Layout := .wrap "ClientId" (.text (quoted c.name))

def ResourceSet.layout (s : ResourceSet) : Layout := .set (s.toList.map ResourceId.layout)

/-- The kind of the command, with its client and its resources where it has any. -/
def Command.layout (c : Command) : Layout :=
  .record c.kind
    (c.clientId?.toList.map (fun i => ("client", i.layout)) ++
      c.resources?.toList.map (fun rs => ("resources", rs.layout)))

def Priority.layout : Priority → Layout
  | low => .text "Low"
  | normal => .text "Normal"
  | high => .text "High"
  | critical => .text "Critical"

def Queued.layout (q : Queued) : Layout :=
  .record "QueuedCommand"
    [("priority", q.priority.layout), ("seq", .text (toString q.seq)),
      ("command", q.command.layout)]

def Text.layoutOfNames (names : List String) : Layout :=
  .list (names.map fun n => .text (quoted n))

def Text.layoutOfHandle (queued : Nat) (terminated : Bool) : Layout :=
  .record "SchedulerHandle"
    [("queued", .text (toString queued)), ("terminated", .text (toString terminated))]

end Allotment

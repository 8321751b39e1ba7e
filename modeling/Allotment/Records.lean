import Allotment.Config.Json
import Allotment.Snapshot

/-!
# Records in JSON

Every record has one written form, and reading what was written gives the record back.
-/

namespace Allotment

namespace ResourceId

def toJson (r : ResourceId) : Json := .text r.name

def ofJson? (j : Json) : Option ResourceId := j.asText?.map ResourceId.mk

end ResourceId

namespace ClientId

def toJson (c : ClientId) : Json := .text c.name

def ofJson? (j : Json) : Option ClientId := j.asText?.map ClientId.mk

end ClientId

namespace ResourceSet

def toJson (s : ResourceSet) : Json := .arr (s.toList.map ResourceId.toJson)

/-- The members in any order, repeated ones too. -/
def ofJson? (j : Json) : Option ResourceSet := (j.asList? ResourceId.ofJson?).map ofList

end ResourceSet

namespace Priority

def toJson (p : Priority) : Json := .text p.name

/-- A name, or an object with the name as its only key and nothing under it. -/
def ofJson? : Json → Option Priority
  | .str (some s) => ofName? s
  | .obj [(some s, .null)] => ofName? s
  | _ => none

end Priority

namespace PendingRequest

def toJson (p : PendingRequest) : Json :=
  .object [("client", p.client.toJson), ("resources", p.resources.toJson)]

def ofJson? (j : Json) : Option PendingRequest := do
  match ← j.fields? ["client", "resources"] with
  | [some client, some resources] =>
    return { client := ← ClientId.ofJson? client, resources := ← ResourceSet.ofJson? resources }
  | _ => none

end PendingRequest

namespace Table

def toJson (t : Table) : Json := .object (t.entries.map fun x => (x.1.name, x.2.toJson))

def entryOfMember? : Option String × Json → Option (ResourceId × ClientId)
  | (some name, j) => (ClientId.ofJson? j).map fun c => (⟨name⟩, c)
  | (none, _) => none

/-- An object from resources to holders; the last of two members for one resource counts. -/
def ofJson? : Json → Option Table
  | .obj members => (members.mapM entryOfMember?).map ofList
  | _ => none

end Table

namespace Snapshot

def toJson (s : Snapshot) : Json :=
  .object
    [("holders", s.holders.toJson),
      ("deferred", .arr (s.deferred.map PendingRequest.toJson)),
      ("pending_preparations", .arr (s.pendingPreparations.map PendingRequest.toJson))]

def ofJson? (j : Json) : Option Snapshot := do
  match ← j.fields? ["holders", "deferred", "pending_preparations"] with
  | [some holders, some deferred, some pending] =>
    return {
      holders := ← Table.ofJson? holders
      deferred := ← deferred.asList? PendingRequest.ofJson?
      pendingPreparations := ← pending.asList? PendingRequest.ofJson? }
  | _ => none

end Snapshot

namespace Stats

def toJson (s : Stats) : Json :=
  .object
    [("commands_processed", .nat s.commandsProcessed.toNat),
      ("grants", .nat s.grants.toNat),
      ("deferrals", .nat s.deferrals.toNat),
      ("refusals", .nat s.refusals.toNat),
      ("frees", .nat s.frees.toNat),
      ("queued_commands", .nat s.queuedCommands.toNat),
      ("terminated", .bool s.terminated)]

def fieldNames : List String :=
  ["commands_processed", "grants", "deferrals", "refusals", "frees", "queued_commands",
    "terminated"]

def ofJson? (j : Json) : Option Stats := do
  match ← j.fields? fieldNames with
  | [some processed, some grants, some deferrals, some refusals, some frees, some queued,
      some terminated] =>
    return {
      commandsProcessed := ← processed.asWord?
      grants := ← grants.asWord?
      deferrals := ← deferrals.asWord?
      refusals := ← refusals.asWord?
      frees := ← frees.asWord?
      queuedCommands := ← queued.asWord?
      terminated := ← terminated.asBool? }
  | _ => none

end Stats

namespace AuditEvent

def detailToJson : Option String → Json
  | none => .null
  | some s => .text s

def toJson (e : AuditEvent) : Json :=
  .object
    [("event_id", .text e.eventId),
      ("client", e.client.toJson),
      ("action", .text e.action),
      ("resources", e.resources.toJson),
      ("created_at_ms", .nat e.createdAt.toNat),
      ("detail", detailToJson e.detail)]

def fieldNames : List String :=
  ["event_id", "client", "action", "resources", "created_at_ms", "detail"]

/-- A detail that is not there is none. -/
def detailOf? : Option Json → Option (Option String)
  | none => some none
  | some j => j.asOption? Json.asText?

def ofJson? (j : Json) : Option AuditEvent := do
  match ← j.fields? fieldNames with
  | [some id, some client, some action, some resources, some time, detail] =>
    return {
      eventId := ← id.asText?
      client := ← ClientId.ofJson? client
      action := ← action.asText?
      resources := ← ResourceSet.ofJson? resources
      createdAt := BitVec.ofNat 128 (← time.asNat? 340282366920938463463374607431768211456)
      detail := ← detailOf? detail }
  | _ => none

end AuditEvent

def Json.rewritten? {α : Type} (read : Json → Option α) (write : α → Json) (s : String) :
    Option String :=
  ((parse? s).bind read).map fun v => (write v).compact

end Allotment

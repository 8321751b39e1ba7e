import Allotment.Proofs.Parsing
import Allotment.Records

/-!
# Written records are read back

Each kind of record is read back from the value it is written as. Since every value is read back
from its compact text, the text of a record determines the record, and rewriting a text a second
time changes nothing.
-/

namespace Allotment

namespace Json

/-- What reading and writing owe each other: a written value is read back, two values have two
texts, and a text that has been rewritten is rewritten to itself. -/
structure RoundTrips {α : Type} (read : Json → Option α) (write : α → Json) : Prop where
  back (x : α) : (parse? (write x).compact).bind read = some x
  apart (x y : α) : (write x).compact = (write y).compact → x = y
  settled (s t : String) : rewritten? read write s = some t → rewritten? read write t = some t

theorem roundTrips_of_back {α : Type} {read : Json → Option α} {write : α → Json}
    (back : ∀ x, read (write x) = some x) : RoundTrips read write := by
  have text_back (x : α) : (parse? (write x).compact).bind read = some x := by
    rw [parse?_compact, Option.bind_some, back]
  refine ⟨text_back, fun x y same => ?_, fun s t rewritten => ?_⟩
  · have reread := text_back x
    rw [same, text_back] at reread
    exact (Option.some.inj reread).symm
  · obtain ⟨x, -, rfl⟩ := Option.map_eq_some_iff.mp rewritten
    rw [rewritten?, text_back]
    rfl

theorem asList?_map {α : Type} {read : Json → Option α} {write : α → Json}
    (back : ∀ x, read (write x) = some x) (xs : List α) :
    (arr (xs.map write)).asList? read = some xs := mapM_map back xs

end Json

/-! ### Names, sets and tables -/

theorem ResourceId.ofJson?_toJson (r : ResourceId) : ofJson? r.toJson = some r := rfl

theorem ClientId.ofJson?_toJson (c : ClientId) : ofJson? c.toJson = some c := rfl

theorem Priority.ofJson?_toJson (p : Priority) : ofJson? p.toJson = some p := ofName?_name p

namespace ResourceSet

theorem ofList_toList (s : ResourceSet) : ofList s.toList = s := by
  ext r
  rw [mem_ofList, mem_toList]

theorem ofJson?_toJson (s : ResourceSet) : ofJson? s.toJson = some s := by
  rw [ofJson?, toJson, Json.asList?_map ResourceId.ofJson?_toJson, Option.map_some, ofList_toList]

end ResourceSet

namespace Table

theorem ofList_entries (t : Table) : ofList t.entries = t := by
  ext r c
  rw [holder_ofList t.keys_nodup, holder_eq_some_iff]

theorem ofJson?_toJson (t : Table) : ofJson? t.toJson = some t := by
  have back (x : ResourceId × ClientId) : entryOfMember? (some x.1.name, x.2.toJson) = some x := rfl
  rw [toJson, Json.object, List.map_map]
  show ((t.entries.map fun x => (some x.1.name, x.2.toJson)).mapM entryOfMember?).map ofList = _
  rw [Json.mapM_map back, Option.map_some, ofList_entries]

end Table

/-! ### Records -/

namespace PendingRequest

theorem ofJson?_toJson (p : PendingRequest) : ofJson? p.toJson = some p := by
  have fields : p.toJson.fields? ["client", "resources"] =
      some [some p.client.toJson, some p.resources.toJson] := Json.fields?_object (by simp) _
  simp only [ofJson?, fields, Option.bind_eq_bind, Option.bind_some, ClientId.ofJson?_toJson,
    ResourceSet.ofJson?_toJson]
  rfl

end PendingRequest

namespace Snapshot

theorem ofJson?_toJson (s : Snapshot) : ofJson? s.toJson = some s := by
  have fields : s.toJson.fields? ["holders", "deferred", "pending_preparations"] =
      some [some s.holders.toJson, some (.arr (s.deferred.map PendingRequest.toJson)),
        some (.arr (s.pendingPreparations.map PendingRequest.toJson))] :=
    Json.fields?_object (by simp) _
  simp only [ofJson?, fields, Option.bind_eq_bind, Option.bind_some, Table.ofJson?_toJson,
    Json.asList?_map PendingRequest.ofJson?_toJson]
  rfl

end Snapshot

namespace Stats

theorem ofJson?_toJson (s : Stats) : ofJson? s.toJson = some s := by
  have fields : s.toJson.fields? fieldNames =
      some [some (.nat s.commandsProcessed.toNat), some (.nat s.grants.toNat),
        some (.nat s.deferrals.toNat), some (.nat s.refusals.toNat), some (.nat s.frees.toNat),
        some (.nat s.queuedCommands.toNat), some (.bool s.terminated)] :=
    Json.fields?_object (by simp) _
  simp only [ofJson?, fields, Option.bind_eq_bind, Option.bind_some, Json.asWord?_nat]
  rfl

end Stats

namespace AuditEvent

theorem detailOf?_detailToJson (detail : Option String) :
    detailOf? (some (detailToJson detail)) = some detail := by
  cases detail <;> rfl

/-- A time of 128 bits is below the bound of times. -/
theorem asNat?_time (time : BitVec 128) :
    (Json.nat time.toNat).asNat? 340282366920938463463374607431768211456 = some time.toNat :=
  if_pos time.isLt

theorem ofJson?_toJson (e : AuditEvent) : ofJson? e.toJson = some e := by
  have fields : e.toJson.fields? fieldNames =
      some [some (.text e.eventId), some e.client.toJson, some (.text e.action),
        some e.resources.toJson, some (.nat e.createdAt.toNat), some (detailToJson e.detail)] :=
    Json.fields?_object (by simp) _
  simp only [ofJson?, fields, Option.bind_eq_bind, Option.bind_some, Json.text, Json.asText?,
    ClientId.ofJson?_toJson, ResourceSet.ofJson?_toJson, asNat?_time, BitVec.ofNat_toNat,
    BitVec.setWidth_eq, detailOf?_detailToJson]
  rfl

end AuditEvent

/-- Snapshots, statistics, audit events and pending requests survive being written: whatever is in
them, they are read back from their texts, which determine them and are their own rewriting. -/
theorem views_round_trip :
    Json.RoundTrips Snapshot.ofJson? Snapshot.toJson ∧
      Json.RoundTrips Stats.ofJson? Stats.toJson ∧
      Json.RoundTrips AuditEvent.ofJson? AuditEvent.toJson ∧
      Json.RoundTrips PendingRequest.ofJson? PendingRequest.toJson :=
  ⟨Json.roundTrips_of_back Snapshot.ofJson?_toJson, Json.roundTrips_of_back Stats.ofJson?_toJson,
    Json.roundTrips_of_back AuditEvent.ofJson?_toJson,
    Json.roundTrips_of_back PendingRequest.ofJson?_toJson⟩

end Allotment

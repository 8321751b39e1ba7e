import Mathlib.Data.List.Induction
import Allotment.Audit

/-!
# Sinks in memory

A log shows the latest of the events that were recorded (`AuditLog.events_recordAll`). Sinks that
share a log show the same, whichever of them records, and a clone shares the log of the sink that it
was made from (`SharedLog.On.clone`).
-/

namespace Allotment

/-! ### Logs -/

namespace AuditLog

/-- The last `n` of some events, or all if there are fewer. -/
def latest (n : Nat) (es : List AuditEvent) : List AuditEvent := es.drop (es.length - n)

theorem latest_all {n : Nat} {es : List AuditEvent} (few : es.length ≤ n) : latest n es = es := by
  rw [latest, Nat.sub_eq_zero_of_le few, List.drop_zero]

/-- Only the latest events count for what the latest are once there is another. -/
theorem latest_concat {n : Nat} (something : n ≠ 0) (es : List AuditEvent) (e : AuditEvent) :
    (if n ≤ (latest n es).length then (latest n es).tail else latest n es) ++ [e] =
      latest n (es ++ [e]) := by
  have room : (es ++ [e]).length = es.length + 1 := by simp
  have shown : (latest n es).length = es.length - (es.length - n) := List.length_drop
  by_cases full : n ≤ es.length
  · have next : es.length - n + 1 = es.length + 1 - n := by omega
    rw [if_pos (by omega), latest, latest, List.tail_drop, next, room,
      List.drop_append_of_le_length (by omega)]
  · rw [if_neg (by omega), latest_all (by omega), latest_all (by omega)]

def recordAll (l : AuditLog) (es : List AuditEvent) : AuditLog := es.foldl record l

theorem recordAll_append (l : AuditLog) (es fs : List AuditEvent) :
    l.recordAll (es ++ fs) = (l.recordAll es).recordAll fs := List.foldl_append

theorem events_record (l : AuditLog) (e : AuditEvent) : (l.record e).events =
    if l.capacity = 0 then l.events
    else (if l.capacity ≤ l.events.length then l.events.tail else l.events) ++ [e] := by
  unfold record
  split <;> rfl

theorem capacity_record (l : AuditLog) (e : AuditEvent) : (l.record e).capacity = l.capacity := by
  unfold record
  split <;> rfl

theorem capacity_recordAll (l : AuditLog) (es : List AuditEvent) :
    (l.recordAll es).capacity = l.capacity := by
  induction es generalizing l with
  | nil => rfl
  | cons e es ih => exact (ih (l.record e)).trans (capacity_record l e)

/-- A log shows the latest of what it had and of what was recorded. -/
theorem events_recordAll (l : AuditLog) (es : List AuditEvent) :
    (l.recordAll es).events = latest l.capacity (l.events ++ es) := by
  induction es using List.reverseRecOn with
  | nil => rw [List.append_nil, latest_all l.within]; rfl
  | append_singleton es e ih =>
    rw [recordAll_append, ← List.append_assoc]
    show (record (l.recordAll es) e).events = _
    rw [events_record, capacity_recordAll, ih]
    by_cases nothing : l.capacity = 0
    · rw [if_pos nothing, nothing]
      simp [latest]
    · rw [if_neg nothing, latest_concat nothing]

end AuditLog

/-! ### Sinks that share a log -/

namespace SharedLog

open AuditLog (latest)

variable {l : SharedLog} {log : AuditLog} {i : Nat}

theorem places_recordAt (l : SharedLog) (i : Nat) (e : AuditEvent) :
    (l.recordAt i e).places = l.places := by
  unfold recordAt
  split <;> rfl

theorem own_recordAt (l : SharedLog) (i : Nat) (e : AuditEvent) :
    (l.recordAt i e).own = l.own := by
  unfold recordAt
  split <;> rfl

/-- What a sink records stands in the log of every sink at its place, and nowhere else. -/
theorem log?_recordAt (l : SharedLog) (i : Nat) (e : AuditEvent) (j : Nat) :
    (l.recordAt i e).log? j =
      if l.places[j]? = l.places[i]? then (l.log? j).map (·.record e) else l.log? j := by
  unfold recordAt
  split
  · rename_i p target
    rw [target]
    cases place : l.places[j]? with
    | none => simp [log?, place]
    | some q =>
      by_cases same : q = p
      · simp [log?, place, same]
      · simp [log?, place, same, Ne.symm same]
  · rename_i target
    rw [target]
    split
    · rename_i nowhere
      simp [log?, nowhere]
    · rfl

def recordAll (l : SharedLog) (es : List AuditEvent) : SharedLog := es.foldl record l

theorem recordAll_append (l : SharedLog) (es fs : List AuditEvent) :
    l.recordAll (es ++ fs) = (l.recordAll es).recordAll fs := List.foldl_append

theorem places_recordAll (l : SharedLog) (es : List AuditEvent) :
    (l.recordAll es).places = l.places := by
  induction es generalizing l with
  | nil => rfl
  | cons e es ih => exact (ih (l.record e)).trans (places_recordAt l l.own e)

theorem size_recordAll (l : SharedLog) (es : List AuditEvent) : (l.recordAll es).size = l.size :=
  congrArg List.length (places_recordAll l es)

theorem own_recordAll (l : SharedLog) (es : List AuditEvent) : (l.recordAll es).own = l.own := by
  induction es generalizing l with
  | nil => rfl
  | cons e es ih => exact (ih (l.record e)).trans (own_recordAt l l.own e)

theorem log?_recordAll (l : SharedLog) (es : List AuditEvent) (j : Nat) :
    (l.recordAll es).log? j =
      if l.places[j]? = l.places[l.own]? then (l.log? j).map (·.recordAll es) else l.log? j := by
  induction es generalizing l with
  | nil =>
    rw [show (fun log : AuditLog => log.recordAll []) = id from rfl, Option.map_id, id, ite_self]
    rfl
  | cons e es ih =>
    show ((l.record e).recordAll es).log? j = _
    rw [ih, record, places_recordAt, own_recordAt, log?_recordAt]
    split
    · rw [Option.map_map]
      rfl
    · rfl

/-- From `l` to `m` the sink that is worked with has got these events: each sink at its place shows
the latest of what it had and of these, the others show what they did. -/
def Shows (l m : SharedLog) (es : List AuditEvent) : Prop :=
  ∀ i log, l.log? i = some log →
    m.events? i = some (if l.places[i]? = l.places[l.own]?
      then latest log.capacity (log.events ++ es) else log.events)

theorem shows_recordAll (l : SharedLog) (es : List AuditEvent) : l.Shows (l.recordAll es) es := by
  intro i log found
  rw [events?, log?_recordAll, found]
  split
  · exact congrArg some (AuditLog.events_recordAll log es)
  · rfl

/-! ### Clones -/

/-- Every sink works on this log. -/
structure On (l : SharedLog) (log : AuditLog) : Prop where
  together : ∀ p ∈ l.places, l.places[l.own]? = some p
  log : l.log? l.own = some log

theorem On.place (h : l.On log) (hi : i < l.size) : l.places[i]? = l.places[l.own]? := by
  rw [h.together _ (List.getElem_mem hi)]
  exact List.getElem?_eq_getElem hi

theorem On.log? (h : l.On log) (hi : i < l.size) : l.log? i = some log := by
  rw [← h.log, SharedLog.log?, SharedLog.log?, h.place hi]

theorem on_new (n : Nat) : (new n).On (.empty n) := ⟨by simp [new], rfl⟩

theorem On.attach (h : l.On log) (i : Fin l.size) : (l.attach i).On log where
  together p hp := (h.place i.isLt).trans (h.together p hp)
  log := h.log? i.isLt

theorem On.recordAll (h : l.On log) (es : List AuditEvent) :
    (l.recordAll es).On (log.recordAll es) where
  together := by
    rw [places_recordAll, own_recordAll]
    exact h.together
  log := by
    rw [own_recordAll, log?_recordAll, if_pos rfl, h.log]
    rfl

theorem clone_cases (l : SharedLog) (i : Nat) :
    (∃ p, l.places[i]? = some p ∧ (l.clone i).1 = some l.size ∧
        (l.clone i).2.places = l.places ++ [p] ∧ (l.clone i).2.logs = l.logs ∧
        (l.clone i).2.own = l.own) ∨
      l.size ≤ i ∧ l.clone i = (none, l) := by
  unfold clone
  split <;> rename_i place
  · exact .inl ⟨_, place, rfl, rfl, rfl, rfl⟩
  · exact .inr ⟨List.getElem?_eq_none_iff.mp place, rfl⟩

theorem On.clone (h : l.On log) (i : Nat) : (l.clone i).2.On log := by
  obtain ⟨p, place, -, places, logs, own⟩ | ⟨-, same⟩ := l.clone_cases i
  · have kept : (l.clone i).2.places[(l.clone i).2.own]? = l.places[l.own]? := by
      rw [places, own, List.getElem?_append_left l.present]
    refine ⟨fun q hq => kept.trans ?_, ?_⟩
    · rw [places] at hq
      rcases List.mem_append.mp hq with old | new
      · exact h.together q old
      · cases List.mem_singleton.mp new
        exact h.together p (List.mem_of_getElem? place)
    · rw [SharedLog.log?, kept, logs]
      exact h.log
  · rw [same]
    exact h

theorem size_clone_le (l : SharedLog) (i : Nat) : l.size ≤ (l.clone i).2.size := by
  obtain ⟨p, -, -, places, -⟩ | ⟨-, same⟩ := l.clone_cases i
  · simp [size, places]
  · exact same ▸ Nat.le_refl _

/-- Wherever there is a sink to clone, the clone gets the next number. -/
theorem clone_lt (hi : i < l.size) : ∃ j, (l.clone i).1 = some j ∧ j < (l.clone i).2.size := by
  obtain ⟨p, -, number, places, -⟩ | ⟨missing, -⟩ := l.clone_cases i
  · exact ⟨l.size, number, by simp [size, places]⟩
  · exact absurd hi (Nat.not_lt.mpr missing)

/-- If there is a sink `i` to clone, the clone gets a number, and the sink of that number shows
these events when the sinks have become `m`. -/
def CloneShows (l : SharedLog) (i : Nat) (m : SharedLog) (es : List AuditEvent) : Prop :=
  i < l.size → ∃ j, (l.clone i).1 = some j ∧ m.events? j = some es

theorem cloneShows_of_le {m : SharedLog} {es : List AuditEvent}
    (shows : ∀ j < m.size, m.events? j = some es) (kept : (l.clone i).2.size ≤ m.size) :
    l.CloneShows i m es := by
  intro hi
  obtain ⟨j, number, there⟩ := clone_lt hi
  exact ⟨j, number, shows j (Nat.lt_of_lt_of_le there kept)⟩

/-- Clones the sinks of these numbers, one after the other. -/
def cloneAll (l : SharedLog) (clones : List Nat) : SharedLog :=
  clones.foldl (fun l i => (l.clone i).2) l

theorem cloneAll_append (l : SharedLog) (is js : List Nat) :
    l.cloneAll (is ++ js) = (l.cloneAll is).cloneAll js := List.foldl_append

theorem On.cloneAll (h : l.On log) (clones : List Nat) : (l.cloneAll clones).On log := by
  induction clones generalizing l with
  | nil => exact h
  | cons i clones ih => exact ih (h.clone i)

theorem size_cloneAll_le (l : SharedLog) (clones : List Nat) :
    l.size ≤ (l.cloneAll clones).size := by
  induction clones generalizing l with
  | nil => exact Nat.le_refl _
  | cons i clones ih => exact Nat.le_trans (size_clone_le l i) (ih (l.clone i).2)

end SharedLog

end Allotment

import Allotment.Block
import Allotment.Proofs.Moves

/-!
# Blocks as units

A request brings in the blocks that it touches, but not those that are touched only by what is
brought in. So two clients can come to hold parts of one block. `units_undivided_iff` says for which
lists of blocks this never happens: those for which a second expansion adds nothing.
-/

namespace Allotment

/-- What the one table shows as held, the other shows so too. -/
def Table.Within (u t : Table) : Prop := ∀ r c, u.holder r = some c → t.holder r = some c

namespace Block

variable {blocks : List Block} {rs ps : ResourceSet} {r : ResourceId}

/-- No two clients hold members of the block. -/
def Undivided (b : Block) (t : Table) : Prop :=
  ∀ x ∈ b.members, ∀ y ∈ b.members, ∀ c d, t.holder x = some c → t.holder y = some d → c = d

theorem Undivided.shrink {b : Block} {t u : Table} (h : b.Undivided t) (within : u.Within t) :
    b.Undivided u := by
  intro x hx y hy c d hc hd
  exact h x hx y hy c d (within x c hc) (within y d hd)

theorem mem_expand_of_mem (h : r ∈ rs) : r ∈ expand blocks rs := mem_expand.mpr (.inl h)

theorem mem_expand_of_block {b : Block} {x : ResourceId} (hb : b ∈ blocks) (hx : x ∈ b.members)
    (touched : x ∈ rs) (hr : r ∈ b.members) : r ∈ expand blocks rs :=
  mem_expand.mpr (.inr ⟨b, hb, ResourceSet.meets_iff.mpr ⟨x, hx, touched⟩, hr⟩)

theorem expand_mono (sub : ∀ r ∈ ps, r ∈ rs) (h : r ∈ expand blocks ps) : r ∈ expand blocks rs := by
  obtain own | ⟨b, hb, touched, hr⟩ := mem_expand.mp h
  · exact mem_expand_of_mem (sub r own)
  · obtain ⟨x, hx, inside⟩ := ResourceSet.meets_iff.mp touched
    exact mem_expand_of_block hb hx (sub x inside) hr

/-- If a second expansion adds nothing, a block that meets an expanded set lies in it. -/
theorem mem_of_meets (closed : expand blocks (expand blocks rs) = expand blocks rs) {b : Block}
    (hb : b ∈ blocks) {x y : ResourceId} (hx : x ∈ b.members) (hy : y ∈ b.members)
    (inside : x ∈ expand blocks rs) : y ∈ expand blocks rs := by
  rw [← closed]
  exact mem_expand_of_block hb hx inside hy

/-- A second expansion adds only what shares a block with a resource that shares another block with
one that was asked for. -/
theorem closed_of_transitive
    (transitive : ∀ b ∈ blocks, ∀ k ∈ blocks, ∀ x ∈ b.members, ∀ y ∈ b.members, y ∈ k.members →
      ∀ z ∈ k.members, x ∈ expand blocks (.ofList [z])) (rs : ResourceSet) :
    expand blocks (expand blocks rs) = expand blocks rs := by
  apply ResourceSet.ext
  intro x
  refine ⟨fun h => ?_, mem_expand_of_mem⟩
  obtain own | ⟨b, hb, touched, hx⟩ := mem_expand.mp h
  · exact own
  · obtain ⟨y, hy, inside⟩ := ResourceSet.meets_iff.mp touched
    obtain own | ⟨k, hk, touched, hyk⟩ := mem_expand.mp inside
    · exact mem_expand_of_block hb hy own hx
    · obtain ⟨z, hz, asked⟩ := ResourceSet.meets_iff.mp touched
      apply expand_mono _ (transitive b hb k hk x hx y hy hyk z hz)
      intro a ha
      obtain rfl : a = z := by simpa using ha
      exact asked

end Block

/-- The expander is the one for these blocks. -/
def World.Unites {σ : Type} (W : World σ) (blocks : List Block) : Prop :=
  ∀ rs w, (W.expand rs w).1 = some (Block.expand blocks rs)

namespace Allocator

variable {σ : Type} {W : World σ} {s t : Allocator σ} {blocks : List Block}

/-! ### What operations do to the table -/

theorem table_record (W : World σ) (k : Decision) (c : ClientId) (rs : ResourceSet)
    (detail : Option String) (s : Allocator σ) : (s.record W k c rs detail).table = s.table := by
  obtain ⟨es, phase, -, -, same⟩ := books_record W k c rs detail s
  exact congrArg Books.table same

theorem table_noteAll (es : List Event) (s : Allocator σ) : (s.noteAll es).table = s.table :=
  congrArg Books.table (journal_noteAll es s)

theorem table_refuseGrant (W : World σ) (g : Grant) (s : Allocator σ) :
    (s.refuseGrant W g).table = (s.table.free g.client g.expanded).2 := by
  let freed := s.table.heldOf g.client g.expanded
  let stripped :=
    ((s.count .addRefusal).take g.client g.expanded .refused).2.cancelOrphaned g.client
  have kept : stripped.table = (s.table.free g.client g.expanded).2 := table_noteAll _ _
  have told := (writes_announceFreed W g.client freed stripped).table
  unfold refuseGrant
  dsimp only
  split
  · exact (table_record ..).trans (told.trans kept)
  · exact ((writes_followUp _ _).table.trans (table_record ..)).trans (told.trans kept)

theorem within_deliver {g : Grant} : (s.deliver W g).table.Within s.table := by
  have called : (s.call W g).2.table = s.table := rfl
  have refused (u : Allocator σ) : (u.refuseGrant W g).table.Within u.table := by
    intro r c h
    rw [table_refuseGrant, Table.holder_free] at h
    split at h
    · cases h
    · exact h
  unfold deliver
  rcases answer : s.call W g with ⟨reply, u⟩
  rw [answer] at called
  rw [← show u.table = s.table from called]
  cases reply with
  | accept =>
    intro r c h
    exact table_record W .grant g.client g.requested none (u.count .addGrant) ▸ h
  | refuse => exact refused u
  | breakOff => exact refused u

/-- Only a lock adds to the table. -/
theorem Move.held (move : Move W s t) :
    t.table.Within s.table ∨ ∃ (g : Grant) (u : Allocator σ),
      s.tryAllocate W g.client g.requested = (some (g.expanded, g.claimed), u) ∧
        t.table = u.table := by
  have same (kept : t.table = s.table) : t.table.Within s.table := fun r c h => kept ▸ h
  cases move with
  | lock g u _ obtained => exact .inr ⟨g, u, obtained, rfl⟩
  | free q rest c rs =>
    left
    intro r d h
    have stripped := congrArg Books.table (books_strip c rs .asked (s.accept q rest))
    have left : (s.books.strip c rs .asked).table.holder r = some d := stripped ▸ h
    exact Books.held_of_strip left
  | deliver before g after u _ _ ready =>
    left
    intro r d h
    obtain ⟨-, es, -, books⟩ := isReady_true ready
    have kept : u.table = s.table := congrArg Books.table books
    rw [← kept]
    exact within_deliver (s := { u with pending := before ++ after }) r d h
  | submit x => exact .inl (same (writes_submit x s).table)
  | poll number task o => exact .inl (same (writes_poll number task o s).table)
  | shift w => exact .inl (same rfl)
  | serve q rest => exact .inl (same rfl)
  | release q rest c rs => exact .inl (same (writes_announce W c rs (s.accept q rest)).table)
  | tell c freed =>
    have told := table_record W .free c freed none (s.count .addFree)
    exact .inl (same ((writes_followUp _ _).table.trans told))
  | defer r u _ failed =>
    exact .inl (same ((table_record ..).trans (tryAllocate_none failed).quietly.table))
  | wait before g after _ _ _ unready => exact .inl (same (isReady_false unready).table)
  | retry => exact .inl (same (table_retryDeferred s))
  | withdraw c =>
    obtain ⟨es, phase, -, -, books⟩ := books_withdraw W c s
    exact .inl (same (congrArg Books.table books))
  | report seq => exact .inl (same rfl)
  | stop => exact .inl (same rfl)

/-- What is locked is what the expander makes of a request. -/
theorem expanded_of_unites (unites : W.Unites blocks) {c : ClientId}
    {rs expanded claimed : ResourceSet}
    (obtained : s.tryAllocate W c rs = (some (expanded, claimed), t)) :
    expanded = Block.expand blocks rs := by
  obtain ⟨none, -⟩ | ⟨found, _, answer, -, -, locked⟩ := tryAllocate_expanded obtained
  · cases none
  · have same : found = Block.expand blocks rs :=
      Option.some.inj (answer.symm.trans (unites rs s.setting.world))
    obtain ⟨done, -⟩ | ⟨locked, -, done⟩ := locked
    · cases done
      exact same
    · cases locked <;> cases done
      exact same

theorem Move.undivided (move : Move W s t) (unites : W.Unites blocks)
    (closed : ∀ rs, Block.expand blocks (Block.expand blocks rs) = Block.expand blocks rs)
    (h : ∀ b ∈ blocks, b.Undivided s.table) : ∀ b ∈ blocks, b.Undivided t.table := by
  intro b hb
  obtain within | ⟨g, u, obtained, table⟩ := move.held
  · exact (h b hb).shrink within
  · rw [table]
    have expanded : g.expanded = Block.expand blocks g.requested :=
      expanded_of_unites unites obtained
    obtain ⟨v, locked, -, rfl, -, claimed, holders⟩ := tryAllocate_some obtained
    by_cases touched : ∃ x ∈ b.members, x ∈ g.claimed
    · -- The whole block was asked for, so all of it is with the client of the grant now.
      obtain ⟨x, hx, new⟩ := touched
      have inside : x ∈ Block.expand blocks g.requested := expanded ▸ ((claimed x).mp new).1
      have owner (y : ResourceId) (hy : y ∈ b.members) : locked.holder y = some g.client := by
        have asked : y ∈ g.expanded :=
          expanded ▸ Block.mem_of_meets (closed g.requested) hb hx hy inside
        rw [holders]
        split
        · rfl
        · rename_i old
          exact Classical.not_not.mp fun other => old ((claimed y).mpr ⟨asked, other⟩)
      intro y hy z hz c d hc hd
      have hc : locked.holder y = some c := hc
      have hd : locked.holder z = some d := hd
      rw [owner y hy] at hc
      rw [owner z hz] at hd
      cases hc
      cases hd
      rfl
    · have kept (y : ResourceId) (hy : y ∈ b.members) : locked.holder y = s.table.holder y := by
        rw [holders, if_neg fun new => touched ⟨y, hy, new⟩]
      intro y hy z hz c d hc hd
      exact h b hb y hy z hz c d ((kept y hy).symm.trans hc) ((kept z hz).symm.trans hd)

theorem run_undivided (unites : W.Unites blocks)
    (closed : ∀ rs, Block.expand blocks (Block.expand blocks rs) = Block.expand blocks rs)
    (advisors : List Advisor) (sink : AuditSink) (w : σ) (hs : List (Happening σ)) :
    ∀ b ∈ blocks, b.Undivided ((initial advisors sink w).run W hs).table := by
  have moves := run_moves W (initial advisors sink w) hs
  refine moves_invariant (P := fun s : Allocator σ => ∀ b ∈ blocks, b.Undivided s.table)
    (fun move h => move.undivided unites closed h) moves ?_
  intro b _ x _ y _ c d hc
  cases hc

end Allocator

/-! ### Blocks taken apart -/

/-- What waits, in the order in which it will be served: it came in without priority. -/
structure Queue.Lined (q : Queue) (l : List Queued) : Prop where
  opened : q.closed = false
  waiting : q.waiting.Perm l
  order : l.Pairwise Queued.before
  level : ∀ x ∈ l, x.priority = .normal ∧ x.seq < q.nextSeq

namespace Queue.Lined

variable {q : Queue} {x : Queued} {l : List Queued}

theorem enter (h : q.Lined l) (c : Command) :
    (q.enter c .normal).Lined (l ++ [⟨c, .normal, q.nextSeq⟩]) where
  opened := h.opened
  waiting := (waiting_enter q c .normal).trans
    ((h.waiting.cons _).trans (List.perm_append_singleton _ l).symm)
  order := by
    refine List.pairwise_append.mpr ⟨h.order, List.pairwise_singleton _ _, fun x hx y hy => ?_⟩
    obtain rfl := List.mem_singleton.mp hy
    exact .inr (h.level x hx)
  level x hx := by
    have next : (q.enter c .normal).nextSeq = q.nextSeq + 1 := rfl
    obtain old | new := List.mem_append.mp hx
    · obtain ⟨normal, earlier⟩ := h.level x old
      exact ⟨normal, by omega⟩
    · obtain rfl := List.mem_singleton.mp new
      exact ⟨rfl, Nat.lt_succ_self _⟩

theorem take (h : q.Lined (x :: l)) : ∃ rest, q.take? = some (x, rest) ∧ rest.Lined l := by
  obtain ⟨after, order⟩ := List.pairwise_cons.mp h.order
  rcases taken : q.take? with _ | ⟨y, rest⟩
  · obtain closed | nothing := Queue.take?_eq_none_iff.mp taken
    · rw [h.opened] at closed
      cases closed
    · have perm := h.waiting
      rw [nothing] at perm
      cases perm.nil_eq
  · obtain ⟨perm, nextSeq, -, opened⟩ := waiting_of_take? taken
    have both := perm.symm.trans h.waiting
    have same : y = x := by
      obtain rfl | later := List.mem_cons.mp (both.subset List.mem_cons_self)
      · rfl
      · have ahead := after y later
        obtain rfl | waits := List.mem_cons.mp (both.symm.subset List.mem_cons_self)
        · rfl
        · exact absurd ahead (first_of_take? taken x waits)
    subst same
    refine ⟨rest, rfl, opened, both.cons_inv, order, fun z hz => ?_⟩
    rw [nextSeq]
    exact h.level z (List.mem_cons_of_mem _ hz)

end Queue.Lined

/-- Everybody agrees to everything, and blocks are expanded. -/
def World.uniting (blocks : List Block) : World Nat :=
  { World.steady .yes with expand := fun rs n => (some (Block.expand blocks rs), n) }

namespace Allocator

variable {blocks : List Block} {s t : Allocator Nat} {q : Queued} {l : List Queued}
  {gs : List Grant} {held : ResourceId → Option ClientId}

/-- Nobody is asked for advice or told of decisions. The table, the tentative grants and the
commands in line are these. -/
structure Plain (s : Allocator Nat) (held : ResourceId → Option ClientId) (gs : List Grant)
    (l : List Queued) : Prop where
  running : s.phase = .running
  alone : s.advisors = []
  unwatched : s.sink = .nowhere
  holders : ∀ r, s.table.holder r = held r
  pending : s.pending = gs
  line : s.setting.queue.Lined l

theorem Plain.submit (h : s.Plain held gs l) (c : Command) :
    (s.submit ⟨c, .normal⟩).Plain held gs (l ++ [⟨c, .normal, s.setting.queue.nextSeq⟩]) := by
  have entered := h.line.enter c
  have put : (s.setting.submit ⟨c, .normal⟩).queue = s.setting.queue.enter c .normal := by
    unfold Setting.submit
    rw [h.line.opened]
    rfl
  exact ⟨h.running, h.alone, h.unwatched, h.holders, h.pending, put ▸ entered⟩

theorem Plain.step (h : s.Plain held gs (q :: l)) (W : World Nat) :
    ∃ t : Allocator Nat, s.step W = t.process W q ∧ t.Plain held gs l := by
  obtain ⟨rest, taken, line⟩ := h.line.take
  refine ⟨s.accept q rest, ?_, h.running, h.alone, h.unwatched, h.holders, h.pending, line⟩
  unfold Allocator.step
  rw [if_pos (isRunning_iff.mpr h.running), taken]

theorem Plain.note (h : s.Plain held gs l) (e : Event) : (s.note e).Plain held gs l :=
  ⟨h.running, h.alone, h.unwatched, h.holders, h.pending, h.line⟩

theorem Plain.count (h : s.Plain held gs l) (f : Counters → Counters) :
    (s.count f).Plain held gs l :=
  ⟨h.running, h.alone, h.unwatched, h.holders, h.pending, h.line⟩

/-- Nobody is there to say no. -/
theorem Plain.question (h : s.Plain held gs l) (W : World Nat) (hook : Hook) (c : ClientId)
    (rs : ResourceSet) : s.question W hook c rs = (true, s.note (.consulted hook c rs true)) := by
  obtain ⟨table, deferred, pending, advisors, counters, phase, sink, setting⟩ := s
  obtain rfl : advisors = [] := h.alone
  rfl

theorem Plain.announce (h : s.Plain held gs l) (W : World Nat) (c : ClientId) (rs : ResourceSet) :
    s.announce W c rs = s.note (.consulted .released c rs true) := by
  obtain ⟨table, deferred, pending, advisors, counters, phase, sink, setting⟩ := s
  obtain rfl : advisors = [] := h.alone
  rfl

theorem Plain.isReady (h : s.Plain held gs l) (W : World Nat) (g : Grant) :
    ∃ t, s.isReady W [] g = (true, t) ∧ t.Plain held gs l := by
  unfold Allocator.isReady
  rw [List.any_nil, if_neg Bool.false_ne_true, h.question]
  split
  · exact ⟨s, rfl, h⟩
  · exact ⟨_, rfl, h.note _⟩

theorem Plain.record (h : s.Plain held gs l) (W : World Nat) (k : Decision) (c : ClientId)
    (rs : ResourceSet) (detail : Option String) : (s.record W k c rs detail).Plain held gs l := by
  obtain ⟨table, deferred, pending, advisors, counters, phase, sink, setting⟩ := s
  obtain rfl : sink = .nowhere := h.unwatched
  exact ⟨h.running, h.alone, rfl, h.holders, h.pending, h.line⟩

theorem Plain.deliver (h : s.Plain held gs l) (blocks : List Block) (g : Grant) :
    (s.deliver (.uniting blocks) g).Plain held gs l := by
  have called : (s.call (.uniting blocks) g).2.Plain held gs l :=
    ⟨h.running, h.alone, h.unwatched, h.holders, h.pending, h.line⟩
  have accepted : (s.call (.uniting blocks) g).1 = .accept := rfl
  unfold Allocator.deliver
  rcases answer : s.call (.uniting blocks) g with ⟨reply, t⟩
  rw [answer] at called accepted
  obtain rfl : reply = .accept := accepted
  exact (called.count .addGrant).record _ _ _ _ _

theorem releaseBlocked_settled (W : World Nat) (c : ClientId) (settled : s.pending = []) :
    s.releaseBlocked W c = s := by
  unfold releaseBlocked
  split
  · split <;> rename_i found
    · rw [settled] at found
      cases found
      rfl
    · rw [settled] at found
      cases found
  · rfl

theorem Plain.completeIfPrepared {g : Grant} (h : s.Plain held [g] l) :
    (s.completeIfPrepared (.uniting blocks) 0).Plain held [] l := by
  obtain ⟨t, ready, plain⟩ := h.isReady (.uniting blocks) g
  have taken : Plain { t with pending := t.pending.eraseIdx 0 } held [] l :=
    ⟨plain.running, plain.alone, plain.unwatched, plain.holders, by rw [plain.pending]; rfl,
      plain.line⟩
  have delivered := taken.deliver blocks g
  unfold Allocator.completeIfPrepared
  rw [h.pending]
  dsimp only [List.getElem?_cons_zero, List.take_zero]
  rw [ready]
  dsimp only
  rw [if_pos rfl, releaseBlocked_settled _ _ delivered.pending]
  exact delivered

theorem Plain.asks (h : s.Plain held gs l) {W : World Nat} (asks : Asks W s t) :
    t.Plain held gs l := by
  induction asks with
  | refl => exact h
  | tail _ ask ih =>
    cases ask with
    | expand rs => exact ⟨ih.running, ih.alone, ih.unwatched, ih.holders, ih.pending, ih.line⟩
    | question hook c rs => exact ih.question W hook c rs ▸ ih.note _
    | announce c rs => exact ih.announce W c rs ▸ ih.note _

/-- What is asked for is locked with its blocks if nobody else holds any of it. -/
theorem Plain.allocate (h : s.Plain held [] l) (r : Request)
    (available : ∀ x ∈ Block.expand blocks r.resources,
      held x = none ∨ held x = some r.client.id) :
    (s.allocate (.uniting blocks) r).Plain
      (fun x => if x ∈ Block.expand blocks r.resources then some r.client.id else held x) [] l := by
  have unites : (World.uniting blocks).Unites blocks := fun _ _ => rfl
  have obtains : (s.tryAllocate (.uniting blocks) r.client.id r.resources).1 ≠ none :=
    tryAllocate_alone h.alone rfl fun x hx => h.holders x ▸ available x hx
  unfold Allocator.allocate
  rcases tried : s.tryAllocate (.uniting blocks) r.client.id r.resources with ⟨answer, t⟩
  rw [tried] at obtains
  rcases answer with _ | ⟨expanded, claimed⟩
  · exact absurd rfl obtains
  obtain rfl := expanded_of_unites unites tried
  obtain ⟨u, table, asks, rfl, free, claims, holders⟩ := tryAllocate_some tried
  obtain ⟨running, alone, unwatched, -, pending, line⟩ := h.asks asks
  have held_now (x : ResourceId) : table.holder x =
      if x ∈ Block.expand blocks r.resources then some r.client.id else held x := by
    rw [holders, ← h.holders x]
    grind
  unfold grant
  dsimp only
  rw [pending]
  exact Plain.completeIfPrepared ⟨running, alone, unwatched, held_now, rfl, line⟩

theorem Plain.followUp (h : s.Plain held gs l) (a b : Command) :
    ∃ more, (s.followUp [a, b]).Plain held gs (l ++ more) := by
  have both := (h.submit a).submit b
  have same : s.followUp [a, b] = (s.submit ⟨a, .normal⟩).submit ⟨b, .normal⟩ := by
    unfold Allocator.followUp
    rw [if_pos (isRunning_iff.mpr h.running)]
    rfl
  rw [same]
  rw [List.append_assoc] at both
  exact ⟨_, both⟩

theorem Plain.free (h : s.Plain held [] l) (W : World Nat) (c : ClientId) (rs : ResourceSet) :
    ∃ more, (s.free W c rs).Plain
      (fun x => if x ∈ rs ∧ held x = some c then none else held x) [] (l ++ more) := by
  have stripped : ((s.take c rs .asked).2.cancelOrphaned c).Plain
      (fun x => if x ∈ rs ∧ held x = some c then none else held x) [] l := by
    unfold cancelOrphaned
    rw [pending_take, h.pending]
    refine ⟨h.running, h.alone, h.unwatched, fun x => ?_, rfl, h.line⟩
    rw [← h.holders x]
    exact Table.holder_free s.table c rs x
  have left := releaseBlocked_settled W c stripped.pending
  unfold Allocator.free afterFree
  dsimp only
  rw [left]
  split
  · exact ⟨[], by rwa [List.append_nil]⟩
  · exact ((stripped.count .addFree).record W _ _ _ _).followUp _ _

theorem Plain.serve_allocate (blocks : List Block) {c : Client} {rs : ResourceSet} {p : Priority}
    {n : Nat} (h : s.Plain held [] (⟨.allocate c rs, p, n⟩ :: l))
    (available : ∀ x ∈ Block.expand blocks rs, held x = none ∨ held x = some c.id) :
    (s.step (.uniting blocks)).Plain
      (fun x => if x ∈ Block.expand blocks rs then some c.id else held x) [] l := by
  obtain ⟨t, served, plain⟩ := h.step (.uniting blocks)
  rw [served]
  exact plain.allocate ⟨c, rs, p, n⟩ available

theorem Plain.serve_free {c : ClientId} {rs : ResourceSet} {p : Priority} {n : Nat}
    (h : s.Plain held [] (⟨.free c rs, p, n⟩ :: l)) (W : World Nat) :
    ∃ more, (s.step W).Plain
      (fun x => if x ∈ rs ∧ held x = some c then none else held x) [] (l ++ more) := by
  obtain ⟨t, served, plain⟩ := h.step W
  rw [served]
  exact plain.free W c rs

theorem initial_plain : (initial [] .nowhere 0 : Allocator Nat).Plain (fun _ => none) [] [] :=
  ⟨rfl, rfl, rfl, fun _ => rfl, rfl, rfl, .refl _, .nil, by simp⟩

/-- One client asks for `x` and gives up what belongs to `z`. Another asks for `z`: the first has
`x` still, and `y` of the same block goes to the second. -/
theorem divided_of_open {x y z : ResourceId} {b k : Block} (hk : k ∈ blocks)
    (hx : x ∈ b.members) (hy : y ∈ b.members) (shared : y ∈ k.members) (hz : z ∈ k.members)
    (out : x ∉ Block.expand blocks (.ofList [z])) :
    ∃ hs, ¬ b.Undivided ((initial [] .nowhere 0).run (.uniting blocks) hs).table := by
  let p : Client := ⟨⟨"p"⟩, "p"⟩
  let q : Client := ⟨⟨"q"⟩, "q"⟩
  let wanted := Block.expand blocks (.ofList [z])
  refine ⟨[.submit ⟨.allocate p (.ofList [x]), .normal⟩, .submit ⟨.free p.id wanted, .normal⟩,
    .submit ⟨.allocate q (.ofList [z]), .normal⟩, .step, .step, .step], fun undivided => ?_⟩
  have lined := ((initial_plain.submit (.allocate p (.ofList [x]))).submit
    (.free p.id wanted)).submit (.allocate q (.ofList [z]))
  have locked := Plain.serve_allocate blocks lined fun _ _ => .inl rfl
  obtain ⟨more, freed⟩ := locked.serve_free (.uniting blocks)
  have divided := Plain.serve_allocate blocks freed fun a ha => by
    by_cases locked : a ∈ Block.expand blocks (.ofList [x])
    · simp [locked, show a ∈ wanted from ha]
    · simp [locked]
  have own : x ∈ Block.expand blocks (.ofList [x]) := Block.mem_expand_of_mem (by simp)
  have given : y ∈ wanted := Block.mem_expand_of_block hk hz (by simp) shared
  have first := divided.holders x
  rw [if_neg out, if_neg fun both => out both.1, if_pos own] at first
  have second := divided.holders y
  rw [if_pos given] at second
  simp only [run, List.foldl_cons, List.foldl_nil, apply] at undivided
  have same : p.id = q.id := undivided x hx y hy p.id q.id first second
  exact absurd same (by decide)

/-- Over which blocks no run ever divides one: whatever the advisors, the clients and the order of
events, nobody gets into a block beside another client if and only if a second expansion never adds
anything to the first. -/
theorem units_undivided_iff (blocks : List Block) :
    (∀ (σ : Type) (W : World σ), W.Unites blocks → ∀ advisors sink w hs, ∀ b ∈ blocks,
      b.Undivided ((initial advisors sink w).run W hs).table) ↔
    ∀ rs, Block.expand blocks (Block.expand blocks rs) = Block.expand blocks rs := by
  constructor
  · -- Where an expansion adds something, some run divides a block.
    intro undivided rs
    refine Block.closed_of_transitive (fun b hb k hk x hx y hy shared z hz => ?_) rs
    refine Classical.byContradiction fun out => ?_
    obtain ⟨hs, divided⟩ := divided_of_open hk hx hy shared hz out
    exact divided (undivided Nat (.uniting blocks) (fun _ _ => rfl) [] .nowhere 0 hs b hb)
  · intro closed σ W unites advisors sink w hs
    exact run_undivided unites closed advisors sink w hs

/-- Of three blocks in a row, the two ends bring in one half each of the block between them. -/
theorem middle_block_divided :
    let blocks : List Block := [⟨"p", .ofList [⟨"a"⟩, ⟨"x"⟩]⟩, ⟨"q", .ofList [⟨"x"⟩, ⟨"y"⟩]⟩,
      ⟨"r", .ofList [⟨"y"⟩, ⟨"z"⟩]⟩]
    let s := (initial [] .nowhere 0).run (.uniting blocks)
      [asking "c1" ["a"], .step, asking "c2" ["z"], .step]
    (World.uniting blocks).Unites blocks ∧ s.phase = .running ∧
      s.table.holder ⟨"x"⟩ = some ⟨"c1"⟩ ∧ s.table.holder ⟨"y"⟩ = some ⟨"c2"⟩ ∧
      ¬ ∀ b ∈ blocks, b.Undivided s.table := by
  intro blocks s
  have ends : s.phase = .running ∧ s.table.holder ⟨"x"⟩ = some ⟨"c1"⟩ ∧
      s.table.holder ⟨"y"⟩ = some ⟨"c2"⟩ := by decide +kernel
  refine ⟨fun _ _ => rfl, ends.1, ends.2.1, ends.2.2, fun undivided => ?_⟩
  have middle : (⟨"q", .ofList [⟨"x"⟩, ⟨"y"⟩]⟩ : Block) ∈ blocks := by simp [blocks]
  have same := undivided _ middle ⟨"x"⟩ (by simp) ⟨"y"⟩ (by simp) _ _ ends.2.1 ends.2.2
  exact absurd same (by decide)

end Allocator

end Allotment

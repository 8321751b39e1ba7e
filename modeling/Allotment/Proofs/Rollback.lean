import Allotment.Proofs.Responses
import Allotment.Proofs.Serving

/-!
# Deferred requests leave no trace

Whether a request is granted is up to the expander, the table and the responses of the chain of
advisors (`Chain.respond`). A request is `Declined` for one of four reasons, each of which settles
what is submitted meanwhile and who is told of a release, or it is `Admitted`. One that is declined
is deferred and changes nothing else in the books; one that is admitted gets all that it was
expanded to (`deferral_leaves_no_trace`).
-/

namespace Allotment

variable {σ : Type} {W : World σ}

namespace Journal

/-- Which advisor was told of which release, the latest first. -/
def notices (j : Journal) : List (String × ClientId × ResourceSet) :=
  j.filterMap fun
    | .advised tag .released c rs _ => some (tag.name, c, rs)
    | _ => none

/-- Which grants their clients were called for, and what they replied, the latest first. -/
def calls (j : Journal) : List (Grant × Reply) :=
  j.filterMap fun
    | .called g reply => some (g, reply)
    | _ => none

theorem notices_append (es j : Journal) : notices (es ++ j) = notices es ++ notices j :=
  List.filterMap_append

theorem calls_append (es j : Journal) : calls (es ++ j) = calls es ++ calls j :=
  List.filterMap_append

theorem notices_outline (j : Journal) : notices j.outline = notices j := by
  unfold notices outline
  rw [List.filterMap_filterMap]
  refine congrArg (List.filterMap · j) (funext fun e => ?_)
  cases e with
  | advised tag h => cases h <;> rfl
  | _ => rfl

theorem calls_quiet {es : List Event} (quiet : ∀ e ∈ es, e.isQuiet = true) : calls es = [] := by
  refine List.filterMap_eq_nil_iff.mpr fun e he => ?_
  cases e with
  | called g reply => cases quiet _ he
  | _ => rfl

end Journal

/-! ### How a chain responds -/

namespace Chain

/-- Whether a chain approves, what its advisors submit, and how they and the world are
afterwards. -/
structure Response (σ : Type) where
  approved : Bool
  submissions : List Submission
  advisors : List Advisor
  world : σ

/-- The advisors respond in turn. An objection ends it, unless they are told of a release. -/
def respond (W : World σ) (h : Hook) (c : ClientId) (rs : ResourceSet) (w : σ) :
    List Advisor → Response σ
  | [] => ⟨true, [], [], w⟩
  | a :: as =>
    let (answer, submissions, a, w) := a.respond W h c rs w
    if answer.approves || h == .released then
      let next := respond W h c rs w as
      { next with submissions := submissions ++ next.submissions, advisors := a :: next.advisors }
    else ⟨false, submissions, a :: as, w⟩

/-- The same chain is asked something more. -/
def Response.ask (W : World σ) (h : Hook) (c : ClientId) (rs : ResourceSet) (r : Response σ) :
    Response σ :=
  let next := respond W h c rs r.world r.advisors
  { next with submissions := r.submissions ++ next.submissions }

end Chain

namespace Setting

open Chain Journal

theorem consult_responds (W : World σ) {h : Hook} (early : h ≠ .released) (c : ClientId)
    (rs : ResourceSet) (as : List Advisor) (x : Setting σ) :
    let r := respond W h c rs x.world as
    let asked := consult (Advisor.ask W h c rs) as x
    asked.1 = r.approved ∧ asked.2.1 = r.advisors ∧ asked.2.2.world = r.world ∧
      r.advisors.map Advisor.name = as.map Advisor.name ∧
      ∃ es, Leads x asked.2.2 r.submissions es ∧ notices es = [] := by
  induction as generalizing x with
  | nil => exact ⟨rfl, rfl, rfl, rfl, [], ⟨rfl, rfl, rfl⟩, rfl⟩
  | cons a as ih =>
    obtain ⟨answer, advisor, world, name, leads⟩ := ask_responds W h c rs a x
    have unannounced (answer : Answer) :
        notices [.advised (.outside a.name) h c rs answer] = [] := by
      cases h <;> first | rfl | exact absurd rfl early
    dsimp only [consult, respond]
    rw [answer, beq_false_of_ne early, Bool.or_false]
    split
    · obtain ⟨approved, advisors, further, names, es, through, silent⟩ :=
        ih (Advisor.ask W h c rs a x).2.2
      rw [world] at approved advisors further names through
      refine ⟨approved, congrArg₂ List.cons advisor advisors, further,
        congrArg₂ List.cons name names, _, leads.trans through, ?_⟩
      rw [notices_append, silent, unannounced]
      rfl
    · exact ⟨rfl, congrArg (· :: as) advisor, world, congrArg (· :: _) name, _, leads,
        unannounced _⟩

/-- Every advisor is told of a release, once. -/
theorem notify_responds (W : World σ) (c : ClientId) (rs : ResourceSet) (as : List Advisor)
    (x : Setting σ) :
    let r := respond W .released c rs x.world as
    let told := notify (Advisor.ask W .released c rs) as x
    told.1 = r.advisors ∧ told.2.world = r.world ∧
      r.advisors.map Advisor.name = as.map Advisor.name ∧
      ∃ es, Leads x told.2 r.submissions es ∧
        notices es = (as.map fun a => (a.name, c, rs)).reverse := by
  induction as generalizing x with
  | nil => exact ⟨rfl, rfl, rfl, [], ⟨rfl, rfl, rfl⟩, rfl⟩
  | cons a as ih =>
    obtain ⟨-, advisor, world, name, leads⟩ := ask_responds W .released c rs a x
    obtain ⟨advisors, further, names, es, through, notices⟩ :=
      ih (Advisor.ask W .released c rs a x).2.2
    dsimp only [notify, respond]
    rw [world] at advisors further names through
    rw [if_pos (by simp)]
    refine ⟨congrArg₂ List.cons advisor advisors, further, congrArg₂ List.cons name names, _,
      leads.trans through, ?_⟩
    rw [notices_append, notices, List.map_cons, List.reverse_cons]
    rfl

end Setting

/-! ### How an attempt goes -/

namespace Allocator

open Chain Journal

variable {s t : Allocator σ} {c : ClientId} {rs expanded claimed : ResourceSet}

/-- From `s` on the chain has given the response, and these notices, the latest first. -/
structure Responds (s t : Allocator σ) (r : Response σ)
    (told : List (String × ClientId × ResourceSet)) : Prop where
  advisors : t.advisors = r.advisors
  names : r.advisors.map Advisor.name = s.advisors.map Advisor.name
  world : t.setting.world = r.world
  leads : ∃ es, Setting.Leads s.setting t.setting r.submissions es ∧ notices es = told

theorem Responds.notices {r : Response σ} {told : List (String × ClientId × ResourceSet)}
    (h : Responds s t r told) :
    t.setting.journal.notices = told ++ s.setting.journal.notices := by
  obtain ⟨es, leads, rfl⟩ := h.leads
  rw [← notices_outline, leads.outline, notices_append, notices_outline]

/-- Before a question is asked: the set has been expanded. -/
def opening (W : World σ) (rs : ResourceSet) (s : Allocator σ) : Response σ :=
  ⟨true, [], s.advisors, (W.expand rs s.setting.world).2⟩

theorem opening_responds (W : World σ) (rs : ResourceSet) (s : Allocator σ) :
    Responds s (s.expand W rs).2 (s.opening W rs) [] := by
  have noted : Setting.Leads s.setting (s.expand W rs).2.setting ([] ++ [])
      ([] ++ [.expanding rs]) :=
    (Setting.leads_note rfl s.setting).trans (Setting.leads_turn _ _)
  exact ⟨rfl, rfl, rfl, _, noted, rfl⟩

namespace Responds

variable {r : Response σ} {told : List (String × ClientId × ResourceSet)}

theorem question (h : Responds s t r told) (W : World σ) (hook : Hook) (c : ClientId)
    (rs : ResourceSet) (early : hook ≠ .released) :
    (t.question W hook c rs).1 = (r.ask W hook c rs).approved ∧
      Responds s (t.question W hook c rs).2 (r.ask W hook c rs) told := by
  obtain ⟨es, leads, notices⟩ := h.leads
  obtain ⟨approved, advisors, world, names, fs, through, silent⟩ :=
    Setting.consult_responds W early c rs t.advisors t.setting
  rw [h.advisors, h.world] at approved advisors world names through
  have noted := (leads.trans through).trans (Setting.leads_note (e := .consulted hook c rs
    (consult (Advisor.ask W hook c rs) r.advisors t.setting).1) rfl _)
  rw [List.append_nil] at noted
  unfold Allocator.question Chain.question
  rw [h.advisors]
  refine ⟨approved, advisors, names.trans h.names, world, _, noted, ?_⟩
  rw [notices_append, notices_append, silent, notices]
  rfl

theorem announce (h : Responds s t r told) (W : World σ) (c : ClientId) (rs : ResourceSet) :
    Responds s (t.announce W c rs) (r.ask W .released c rs)
      ((s.advisors.map fun a => (a.name, c, rs)).reverse ++ told) := by
  obtain ⟨es, leads, notices⟩ := h.leads
  obtain ⟨advisors, world, names, fs, through, told⟩ :=
    Setting.notify_responds W c rs t.advisors t.setting
  rw [h.advisors, h.world] at advisors world names through
  have noted := (leads.trans through).trans
    (Setting.leads_note (e := .consulted .released c rs true) rfl _)
  rw [List.append_nil] at noted
  unfold Allocator.announce Chain.announce
  rw [h.advisors]
  refine ⟨advisors, names.trans h.names, world, _, noted, ?_⟩
  rw [notices_append, notices_append, told, notices, h.advisors]
  have same := congrArg (List.map fun name => (name, c, rs)) h.names
  rw [List.map_map, List.map_map] at same
  exact congrArg (·.reverse ++ _) same

end Responds

/-- The chain's leave to lock what `c` does not hold yet of an expanded set. -/
def leave (W : World σ) (s : Allocator σ) (c : ClientId) (rs expanded : ResourceSet) :
    Response σ :=
  (s.opening W rs).ask W .may c (s.unclaimed c expanded)

/-- Its preparation, once there is leave. -/
def preparation (W : World σ) (s : Allocator σ) (c : ClientId) (rs expanded : ResourceSet) :
    Response σ :=
  (s.leave W c rs expanded).ask W .prepare c (s.unclaimed c expanded)

/-- Why a request is not granted, what is submitted meanwhile, and which advisors are told of a
release. -/
inductive Declined (W : World σ) (s : Allocator σ) (c : ClientId) (rs : ResourceSet) :
    List Submission → List (String × ClientId × ResourceSet) → Prop
  | unexpanded (broke : (W.expand rs s.setting.world).1 = none) : Declined W s c rs [] []
  | held {expanded : ResourceSet} (found : (W.expand rs s.setting.world).1 = some expanded)
      (x : ResourceId) (d : ClientId) (wanted : x ∈ expanded) (held : s.table.holder x = some d)
      (other : d ≠ c) : Declined W s c rs [] []
  | vetoed {expanded : ResourceSet} (found : (W.expand rs s.setting.world).1 = some expanded)
      (available : ∀ x ∈ expanded, s.table.holder x = none ∨ s.table.holder x = some c)
      (claims : s.unclaimed c expanded ≠ ∅)
      (vetoed : (s.leave W c rs expanded).approved = false) :
      Declined W s c rs (s.leave W c rs expanded).submissions []
  | unprepared {expanded : ResourceSet} (found : (W.expand rs s.setting.world).1 = some expanded)
      (available : ∀ x ∈ expanded, s.table.holder x = none ∨ s.table.holder x = some c)
      (claims : s.unclaimed c expanded ≠ ∅)
      (allowed : (s.leave W c rs expanded).approved = true)
      (failed : (s.preparation W c rs expanded).approved = false) :
      Declined W s c rs
        ((s.preparation W c rs expanded).ask W .released c (s.unclaimed c expanded)).submissions
        (s.advisors.map fun a => (a.name, c, s.unclaimed c expanded))

/-- Nothing stands in the way of a request. -/
structure Admitted (W : World σ) (s : Allocator σ) (c : ClientId) (rs expanded : ResourceSet) :
    Prop where
  found : (W.expand rs s.setting.world).1 = some expanded
  available : ∀ x ∈ expanded, s.table.holder x = none ∨ s.table.holder x = some c
  allowed : s.unclaimed c expanded ≠ ∅ → (s.leave W c rs expanded).approved = true
  prepared : s.unclaimed c expanded ≠ ∅ → (s.preparation W c rs expanded).approved = true

theorem claim_declined {u : Allocator σ} (opened : Responds s u (s.opening W rs) [])
    (same : u.table = s.table) (found : (W.expand rs s.setting.world).1 = some expanded)
    (available : ∀ x ∈ expanded, s.table.holder x = none ∨ s.table.holder x = some c)
    (claims : s.unclaimed c expanded ≠ ∅)
    (h : u.claim W c (s.unclaimed c expanded) = (false, t)) :
    ∃ r told, Declined W s c rs r.submissions told ∧ Responds s t r told.reverse := by
  have free : ∀ x ∈ s.unclaimed c expanded, u.table.holder x = none ∨ u.table.holder x = some c :=
    fun x hx => same ▸ available x (ResourceSet.mem_filter.mp hx).1
  obtain ⟨leave, asked⟩ := opened.question W .may c (s.unclaimed c expanded) (by simp)
  obtain ⟨-, may⟩ | ⟨v, may, ⟨-, y, prepare, rfl⟩ | ⟨locked, -⟩⟩ := claim_cases free h
  · rw [may] at leave asked
    exact ⟨_, [], .vetoed found available claims leave.symm, asked⟩
  · rw [may] at leave asked
    obtain ⟨preparation, prepared⟩ :=
      asked.question W .prepare c (s.unclaimed c expanded) (by simp)
    rw [prepare] at preparation prepared
    have told := prepared.announce W c (s.unclaimed c expanded)
    rw [List.append_nil] at told
    exact ⟨_, _, .unprepared found available claims leave.symm preparation.symm, told⟩
  · cases locked

theorem tryAllocate_declined (h : s.tryAllocate W c rs = (none, t)) :
    ∃ r told, Declined W s c rs r.submissions told ∧ Responds s t r told.reverse := by
  have opened := opening_responds W rs s
  have table : (s.expand W rs).2.table = s.table := rfl
  have same : (s.expand W rs).1 = (W.expand rs s.setting.world).1 := rfl
  unfold tryAllocate at h
  rcases expand : s.expand W rs with ⟨found, u⟩
  rw [expand] at h opened table same
  dsimp only at h table same
  cases found with
  | none =>
    cases h
    exact ⟨_, [], .unexpanded same.symm, opened⟩
  | some expanded =>
    have unclaimed : u.unclaimed c expanded = s.unclaimed c expanded := by
      unfold Allocator.unclaimed
      rw [table]
    dsimp only at h
    rw [unclaimed, table] at h
    split at h
    · rename_i available
      split at h
      · cases h
      · rename_i something
        rcases claim : u.claim W c (s.unclaimed c expanded) with ⟨locked, v⟩
        rw [claim] at h
        cases locked with
        | true => cases h
        | false =>
          cases h
          exact claim_declined opened table same.symm (Table.isAvailableFor_iff.mp available)
            (mt ResourceSet.isEmpty_iff.mpr something) claim
    · rename_i taken
      cases h
      obtain ⟨x, wanted, neither⟩ : ∃ x ∈ expanded,
          ¬(s.table.holder x = none ∨ s.table.holder x = some c) := by
        simpa using mt Table.isAvailableFor_iff.mpr taken
      obtain ⟨d, held⟩ := Option.ne_none_iff_exists'.mp fun free => neither (.inl free)
      refine ⟨_, [], .held same.symm x d wanted held fun own => ?_, opened⟩
      exact neither (.inr (own ▸ held))

theorem claim_admitted {u : Allocator σ} (opened : Responds s u (s.opening W rs) [])
    (same : u.table = s.table) (admitted : Admitted W s c rs expanded)
    (claims : s.unclaimed c expanded ≠ ∅) : (u.claim W c (s.unclaimed c expanded)).1 = true := by
  have free : ∀ x ∈ s.unclaimed c expanded, u.table.holder x = none ∨ u.table.holder x = some c :=
    fun x hx => same ▸ admitted.available x (ResourceSet.mem_filter.mp hx).1
  obtain ⟨leave, asked⟩ := opened.question W .may c (s.unclaimed c expanded) (by simp)
  rcases h : u.claim W c (s.unclaimed c expanded) with ⟨locked, t⟩
  obtain ⟨-, may⟩ | ⟨v, may, ⟨-, y, prepare, -⟩ | ⟨rfl, -⟩⟩ := claim_cases free h
  · rw [may] at leave
    cases leave.trans (admitted.allowed claims)
  · rw [may] at asked
    have preparation := (asked.question W .prepare c (s.unclaimed c expanded) (by simp)).1
    rw [prepare] at preparation
    cases preparation.trans (admitted.prepared claims)
  · rfl

/-- An admitted request is granted: no lock fails once its resources are available. -/
theorem tryAllocate_admitted (admitted : Admitted W s c rs expanded) :
    (s.tryAllocate W c rs).1 = some (expanded, s.unclaimed c expanded) := by
  have opened := opening_responds W rs s
  have table : (s.expand W rs).2.table = s.table := rfl
  have same : (s.expand W rs).1 = some expanded := admitted.found
  unfold tryAllocate
  rcases expand : s.expand W rs with ⟨found, u⟩
  rw [expand] at opened table same
  obtain rfl : found = some expanded := same
  have unclaimed : u.unclaimed c expanded = s.unclaimed c expanded := by
    unfold Allocator.unclaimed
    rw [show u.table = s.table from table]
  dsimp only at table ⊢
  rw [unclaimed, table, if_pos (Table.isAvailableFor_iff.mpr admitted.available)]
  split
  · rfl
  · rename_i something
    have locked := claim_admitted opened table admitted (mt ResourceSet.isEmpty_iff.mpr something)
    rcases claim : u.claim W c (s.unclaimed c expanded) with ⟨answer, v⟩
    rw [claim] at locked
    obtain rfl : answer = true := locked
    rfl

/-! ### What is left of it -/

/-- Only a request in hand is deferred. -/
theorem deferred_of_acts {d e : Docket} (acts : Docket.Acts W d e) (idle : d.hand = none) :
    e.hand = none ∧ ∀ r ∈ e.deferred, r ∈ d.deferred := by
  induction acts with
  | refl => exact ⟨idle, fun _ => id⟩
  | tail _ act ih =>
    obtain ⟨hand, sub⟩ := ih
    refine ⟨act.hand.elim id fun same => same.trans hand, fun r hr => ?_⟩
    cases act with
    | defer k asked => cases hand.symm.trans asked
    | withdraw => exact sub r (List.mem_filter.mp hr).1
    | retry | stop => cases hr
    | _ => exact sub r hr

/-- The request waits behind all others, and besides what was submitted meanwhile and the advisors
were told, nothing has changed. -/
structure Shelved (W : World σ) (s : Allocator σ) (rest : Queue) (r : Request) (t : Allocator σ) :
    Prop where
  table : t.table = s.table
  pending : t.pending = s.pending
  deferred : t.deferred = s.deferred ++ [r]
  calls : t.setting.journal.calls = s.setting.journal.calls
  declined : ∃ submissions told, Declined W s r.client.id r.resources submissions told ∧
    t.setting.queue = (({ s.setting with queue := rest } : Setting σ).submitAll submissions).queue ∧
    t.setting.journal.notices = told.reverse ++ s.setting.journal.notices

theorem recorded_aside (W : World σ) (d : Decision) (c : ClientId) (rs : ResourceSet)
    (detail : Option String) (s : Allocator σ) :
    let t := s.record W d c rs detail
    t.table = s.table ∧ t.pending = s.pending ∧ t.deferred = s.deferred ∧
      t.setting.journal.calls = s.setting.journal.calls ∧
      t.setting.journal.notices = s.setting.journal.notices := by
  unfold record recordEvent
  dsimp only
  split <;> exact ⟨rfl, rfl, rfl, rfl, rfl⟩

/-- Taking a command changes nothing of what the outside says to its request. -/
theorem Declined.accepted {q : Queued} {rest : Queue} {submissions : List Submission}
    {told : List (String × ClientId × ResourceSet)}
    (h : Declined W (s.accept q rest) c rs submissions told) :
    Declined W s c rs submissions told := by
  cases h with
  | unexpanded broke => exact .unexpanded broke
  | held found x d wanted held other => exact .held found x d wanted held other
  | vetoed found available claims vetoed => exact .vetoed found available claims vetoed
  | unprepared found available claims allowed failed =>
    exact .unprepared found available claims allowed failed

theorem defer_shelves {s u : Allocator σ} {q : Queued} {rest : Queue} {r : Request}
    (h : (s.accept q rest).tryAllocate W r.client.id r.resources = (none, u)) :
    Shelved W s rest r (u.defer W r) := by
  obtain ⟨es, quiet, books⟩ := (tryAllocate_none h).quietly
  have waiting : u.deferred = s.deferred := congrArg Books.deferred books
  obtain ⟨response, told, declined, responds⟩ := tryAllocate_declined h
  obtain ⟨table, pending, deferred, calls, notices⟩ :=
    recorded_aside W .defer r.client.id r.resources none
      (note (.deferred r) { u.count .addDeferral with deferred := u.deferred ++ [r] })
  refine ⟨table.trans (congrArg Books.table books), pending.trans (congrArg Books.pending books),
    deferred.trans (congrArg (· ++ [r]) waiting), calls.trans ?_, response.submissions,
    told, ?_, ?_, notices.trans responds.notices⟩
  · show u.setting.journal.calls = _
    rw [show u.setting.journal = es ++ .took q :: s.setting.journal from
      congrArg Books.journal books, calls_append, calls_quiet quiet]
    rfl
  · exact declined.accepted
  · obtain ⟨fs, leads, -⟩ := responds.leads
    refine (queue_record ..).trans (leads.queue.trans ?_)
    exact (Setting.submitAll_congr (x := { s.setting with queue := rest })
      (y := (s.accept q rest).setting) rfl rfl _).1

/-- A request that is granted gets what it is expanded to, and nobody is deferred for it. -/
theorem allocate_obtained {s u : Allocator σ} {q : Queued} {rest : Queue} {r : Request}
    (running : s.phase = .running)
    (h : (s.accept q rest).tryAllocate W r.client.id r.resources = (some (expanded, claimed), u)) :
    let g : Grant := ⟨r, expanded, claimed⟩
    let t := (s.accept q rest).allocate W r
    t = u.grant W g ∧
      (∃ later, t.setting.journal = later ++ .locked g :: u.setting.journal) ∧
      u.pending = s.pending ∧ u.deferred = s.deferred ∧
      (∀ x, u.table.holder x = if x ∈ expanded then some r.client.id else s.table.holder x) ∧
      ∀ k ∈ t.deferred, k ∈ s.deferred := by
  intro g t
  have same : t = u.grant W g := by
    dsimp only [t]
    unfold allocate
    rw [h]
  obtain ⟨v, table, asks, rfl, -, claims, holders⟩ := tryAllocate_some h
  obtain ⟨es, -, books⟩ := asks.quietly
  have phase : v.phase = .running := (congrArg Books.phase books).trans running
  have waiting : v.deferred = s.deferred := congrArg Books.deferred books
  have delivered := (completeIfPrepared_deliveries W v.pending.length (s :=
    note (.locked g) { v with table, pending := v.pending ++ [g] }) phase).acts (k := 0)
  obtain ⟨later, -, journal⟩ := acts_untaken delivered
  refine ⟨same, ⟨later, ?_⟩, congrArg Books.pending books, waiting, fun x => ?_, fun k hk => ?_⟩
  · rw [same]
    exact journal
  · refine (holders x).trans ?_
    by_cases hx : x ∈ expanded
    · rw [if_pos hx]
      split
      · rfl
      · rename_i unclaimed
        by_contra other
        exact unclaimed ((claims x).mpr ⟨hx, other⟩)
    · rw [if_neg hx, if_neg fun claimed => hx ((claims x).mp claimed).1]
      rfl
  · rw [same] at hk
    exact waiting ▸ (deferred_of_acts delivered rfl).2 k hk

/-- Whenever a request is served and deferred, it waits behind all others just as it was submitted;
the table and the tentative grants stay, nobody is called back, what comes into the queue was
submitted by those who were asked, and each advisor is told of a release, once, if a preparation has
failed. If nothing stands in the way of the request, it gets all that it was expanded to. -/
theorem deferral_leaves_no_trace (W : World σ) (advisors : List Advisor) (sink : AuditSink) (w : σ)
    (hs : List (Happening σ)) {q : Queued} {rest : Queue} {client : Client}
    {requested : ResourceSet}
    (running : ((initial advisors sink w).run W hs).phase = .running)
    (next : ((initial advisors sink w).run W hs).setting.queue.take? = some (q, rest))
    (command : q.command = .allocate client requested) :
    let s := (initial advisors sink w).run W hs
    let t := s.step W
    let r : Request := ⟨client, requested, q.priority, q.seq⟩
    (.entered r.queued ∈ s.setting.journal ∧
      ∀ p, .entered p ∈ s.setting.journal → p.seq = r.seq → p = r.queued) ∧
    (r ∈ t.deferred → Shelved W s rest r t) ∧
    ∀ expanded, Admitted W s client.id requested expanded →
      let g : Grant := ⟨r, expanded, s.unclaimed client.id expanded⟩
      r ∉ t.deferred ∧ ∃ (u : Allocator σ) (later : Journal), t = u.grant W g ∧
        t.setting.journal = later ++ .locked g :: u.setting.journal ∧
        u.pending = s.pending ∧ u.deferred = s.deferred ∧
        ∀ x, u.table.holder x = if x ∈ expanded then some client.id else s.table.holder x := by
  intro s t r
  have regular : (s.docket none 0).Regular :=
    (run_holds (P := fun _ => True) (fun _ _ => id) (fun _ _ => id) advisors sink w hs
      trivial).1.regular
  have waits : q ∈ s.setting.queue.waiting :=
    (Queue.waiting_of_take? next).1.mem_iff.mpr List.mem_cons_self
  have queued : r.queued = q := by
    show (⟨.allocate client requested, q.priority, q.seq⟩ : Queued) = q
    rw [← command]
  have entered : .entered r.queued ∈ s.setting.journal := by
    refine mem_entered.mp (regular.issued.subset (List.mem_append_left _ ?_))
    exact queued ▸ waits
  have absent : r ∉ s.deferred := fun hr =>
    (List.nodup_append.mp regular.nodup_circulating).2.2 q waits q
      (List.mem_append_left _ (queued ▸ List.mem_map_of_mem hr)) rfl
  have served : t = (s.accept q rest).allocate W r := by
    have stepped : s.step W = (s.accept q rest).process W q := by
      unfold step
      rw [if_pos (isRunning_iff.mpr running), next]
    rw [process, command] at stepped
    exact stepped
  refine ⟨⟨entered, fun p hp same => ?_⟩, fun deferred => ?_, fun expanded admitted => ?_⟩
  · exact regular.eq_of_seq (mem_entered.mpr hp) (mem_entered.mpr entered) same
  · rw [served] at deferred ⊢
    rcases h : (s.accept q rest).tryAllocate W r.client.id r.resources with ⟨_ | ⟨_, _⟩, u⟩
    · unfold allocate
      rw [h]
      exact defer_shelves h
    · exact absurd ((allocate_obtained running h).2.2.2.2.2 r deferred) absent
  · have granted := tryAllocate_admitted (s := s.accept q rest)
      ⟨admitted.found, admitted.available, admitted.allowed, admitted.prepared⟩
    rcases h : (s.accept q rest).tryAllocate W r.client.id r.resources with ⟨answer, u⟩
    rw [show ((s.accept q rest).tryAllocate W client.id requested).1 = answer from
      congrArg Prod.fst h] at granted
    obtain rfl : answer = some (expanded, s.unclaimed client.id expanded) := granted
    obtain ⟨same, ⟨later, journal⟩, pending, waiting, holders, kept⟩ := allocate_obtained running h
    rw [← served] at same journal kept
    exact ⟨fun hr => absent (kept r hr), u, later, same, journal, pending, waiting, holders⟩

/-- A client asks for more than it holds, and for once the preparation of the rest fails: it keeps
what it holds, and the one advisor is told of the rest. Then it asks for something else besides and
gets it. -/
theorem overlap_deferred_and_granted :
    let W : World Nat := { World.steady .yes with
      advise := fun _ h _ rs n => (if h = .prepare ∧ ⟨"b"⟩ ∈ rs then .no else .yes, [], n) }
    let start := initial [.outside 0 "site"] .nowhere 0
    let x : Client := ⟨⟨"x"⟩, "x"⟩
    let ab : ResourceSet := .ofList [⟨"a"⟩, ⟨"b"⟩]
    let ac : ResourceSet := .ofList [⟨"a"⟩, ⟨"c"⟩]
    let hs : List (Happening Nat) := [asking "x" ["a"], .step, asking "x" ["a", "b"]]
    let ks := hs ++ [.step, asking "x" ["a", "c"]]
    let s := start.run W hs
    let u := start.run W ks
    let r : Request := ⟨x, ab, .normal, 1⟩
    let g : Grant := ⟨⟨x, ac, .normal, 2⟩, ac, .ofList [⟨"c"⟩]⟩
    (∃ rest, s.setting.queue.take? = some (r.queued, rest) ∧ Shelved W s rest r (s.step W)) ∧
    (s.step W).setting.journal.notices = [("site", ⟨"x"⟩, .ofList [⟨"b"⟩])] ∧
    (∃ rest, u.setting.queue.take? = some (g.request.queued, rest)) ∧
    Admitted W u ⟨"x"⟩ ac ac ∧ .locked g ∈ (u.step W).setting.journal := by
  intro W start x ab ac hs ks s u r g
  have head {v : Allocator Nat} {q : Queued} (h : v.setting.queue.take?.map Prod.fst = some q) :
      ∃ rest, v.setting.queue.take? = some (q, rest) := by
    obtain ⟨⟨p, rest⟩, next, rfl⟩ := Option.map_eq_some_iff.mp h
    exact ⟨rest, next⟩
  obtain ⟨rest, next⟩ : ∃ rest, s.setting.queue.take? = some (r.queued, rest) :=
    head (by decide +kernel)
  obtain ⟨rest', next'⟩ : ∃ rest, u.setting.queue.take? = some (g.request.queued, rest) :=
    head (by decide +kernel)
  have shelved := (deferral_leaves_no_trace W [.outside 0 "site"] .nowhere 0 hs (by decide +kernel)
    next rfl).2.1 (by decide +kernel)
  have admitted : Admitted W u ⟨"x"⟩ ac ac :=
    ⟨by decide +kernel, by decide +kernel, fun _ => by decide +kernel, fun _ => by decide +kernel⟩
  obtain ⟨-, v, later, -, journal, -⟩ := (deferral_leaves_no_trace W [.outside 0 "site"] .nowhere 0
    ks (by decide +kernel) next' rfl).2.2 ac admitted
  have same : u.unclaimed ⟨"x"⟩ ac = .ofList [⟨"c"⟩] := by decide +kernel
  have locked : .locked ⟨g.request, ac, u.unclaimed ⟨"x"⟩ ac⟩ ∈ (u.step W).setting.journal :=
    journal ▸ List.mem_append_right _ List.mem_cons_self
  rw [same] at locked
  exact ⟨⟨rest, next, shelved⟩, by decide +kernel, ⟨rest', next'⟩, admitted, locked⟩

end Allocator

end Allotment

import Mathlib.Data.List.Perm.Basic
import Allotment.Queue

/-!
# Queues serve by rank

What becomes of the commands that a queue is given, whatever is done with it. Each that it accepts
is taken, waits, or was discarded when the queue was closed; nothing that waits outranks what is
taken; numbers are given out one after the other, so that commands of one priority leave in the
order in which they were submitted, unless some are put back; and a closed queue stays as it is.
-/

namespace Allotment

theorem Queued.order_eq_gt_iff (a b : Queued) : a.order b = .gt ↔ a.before b := by
  have priority : compare a.priority b.priority = compare a.priority.rank b.priority.rank := rfl
  have lower : b.priority < a.priority ↔ b.priority.rank < a.priority.rank := Iff.rfl
  rw [order, before, Ordering.then_eq_gt, priority, Nat.compare_eq_gt, Nat.compare_eq_eq,
    Nat.compare_eq_gt, lower, Priority.rank_inj]

namespace Queue

/-- What can be done with a queue. -/
inductive Act
  | push (c : Command) (p : Priority)
  | pushAll (cs : List Command) (p : Priority)
  | requeue (xs : List Queued)
  /-- Waits until there is a command to take. -/
  | take
  | tryTake
  | close

inductive Answer
  | numbered (n : Nat)
  | accepted
  | rejected (e : SchedulerError)
  | returned (n : Nat)
  | took (x : Queued)
  | nothing
  /-- The taker still waits. -/
  | waits
  | discarded (n : Nat)
deriving DecidableEq

def act (q : Queue) : Act → Answer × Queue
  | .push c p =>
    match q.push c p with
    | .ok (n, r) => (.numbered n, r)
    | .error e => (.rejected e, q)
  | .pushAll cs p =>
    match q.pushAll cs p with
    | .ok r => (.accepted, r)
    | .error e => (.rejected e, q)
  | .requeue xs => ((.returned (q.requeue xs).1), (q.requeue xs).2)
  | .take =>
    match q.take? with
    | some (x, r) => (.took x, r)
    | none => (if q.closed then .nothing else .waits, q)
  | .tryTake =>
    match q.take? with
    | some (x, r) => (.took x, r)
    | none => (.nothing, q)
  | .close => (.discarded q.close.1, q.close.2)

def run (q : Queue) (as : List Act) : Queue := as.foldl (fun q a => (q.act a).2) q

theorem run_append (q : Queue) (as bs : List Act) : q.run (as ++ bs) = (q.run as).run bs :=
  List.foldl_append

/-! ### What becomes of commands -/

/-- Commands of one priority under numbers from `n` on. -/
def numbered (p : Priority) : Nat → List Command → List Queued
  | _, [] => []
  | n, c :: cs => ⟨c, p, n⟩ :: numbered p (n + 1) cs

/-- The commands that an act brings in under new numbers. -/
def submits (q : Queue) (a : Act) : List Queued :=
  match (q.act a).1, a with
  | .numbered n, .push c p => [⟨c, p, n⟩]
  | .accepted, .pushAll cs p => numbered p q.nextSeq cs
  | _, _ => []

/-- Those that it brings in under the numbers they have. -/
def returns (q : Queue) (a : Act) : List Queued :=
  match (q.act a).1, a with
  | .returned n, .requeue xs => xs.take n
  | _, _ => []

def takes (q : Queue) (a : Act) : List Queued :=
  match (q.act a).1 with
  | .took x => [x]
  | _ => []

def discards (q : Queue) : Act → List Queued
  | .close => q.waiting
  | _ => []

/-- What the acts of a history yield, one after the other. -/
def gather (f : Queue → Act → List Queued) (q : Queue) : List Act → List Queued
  | [] => []
  | a :: as => f q a ++ gather f (q.act a).2 as

def submitted (as : List Act) : List Queued := gather submits empty as
def returned (as : List Act) : List Queued := gather returns empty as
def taken (as : List Act) : List Queued := gather takes empty as
def discarded (as : List Act) : List Queued := gather discards empty as

def Act.submissions : Act → List Submission
  | push c p => [⟨c, p⟩]
  | pushAll cs p => cs.map (⟨·, p⟩)
  | _ => []

def Act.putBack : Act → List Queued
  | requeue xs => xs
  | _ => []

/-- What a closed queue answers. -/
def Act.refusal : Act → Answer
  | push .. | pushAll .. => .rejected .terminated
  | requeue _ => .returned 0
  | take | tryTake => .nothing
  | close => .discarded 0

def Act.isRequeue : Act → Bool
  | requeue _ => true
  | _ => false

/-! ### Numbers -/

variable {q r : Queue} {p : Priority} {a : Act} {x : Queued}

@[simp] theorem length_numbered (p : Priority) (n : Nat) (cs : List Command) :
    (numbered p n cs).length = cs.length := by
  induction cs generalizing n with
  | nil => rfl
  | cons c cs ih => exact congrArg Nat.succ (ih (n + 1))

theorem seqs_numbered (p : Priority) (n : Nat) (cs : List Command) :
    (numbered p n cs).map (·.seq) = List.range' n cs.length := by
  induction cs generalizing n with
  | nil => rfl
  | cons c cs ih => exact congrArg (n :: ·) (ih (n + 1))

theorem submissions_numbered (p : Priority) (n : Nat) (cs : List Command) :
    (numbered p n cs).map (fun x => (⟨x.command, x.priority⟩ : Submission)) = cs.map (⟨·, p⟩) := by
  induction cs generalizing n with
  | nil => rfl
  | cons c cs ih => exact congrArg (⟨c, p⟩ :: ·) (ih (n + 1))

theorem enter_all (q : Queue) (p : Priority) (cs : List Command) :
    let r := cs.foldl (fun q c => q.enter c p) q
    r.waiting.Perm (numbered p q.nextSeq cs ++ q.waiting) ∧
      r.nextSeq = q.nextSeq + cs.length ∧ r.closed = q.closed := by
  induction cs generalizing q with
  | nil => exact ⟨.refl _, rfl, rfl⟩
  | cons c cs ih =>
    obtain ⟨waiting, number, closed⟩ := ih (q.enter c p)
    have next : (q.enter c p).nextSeq = q.nextSeq + 1 := rfl
    refine ⟨waiting.trans ?_, ?_, closed⟩
    · exact ((waiting_enter q c p).append_left _).trans List.perm_middle
    · rw [List.foldl_cons, number, next, List.length_cons]
      omega

/-! ### What an act does -/

theorem act_of_closed (closed : q.closed = true) (nothing : q.waiting = []) (a : Act) :
    q.act a = (a.refusal, q) := by
  have none : q.take? = none := take?_eq_none_iff.mpr (.inl closed)
  cases a with
  | push c p => simp [act, push, closed, Act.refusal]
  | pushAll cs p => simp [act, pushAll, closed, Act.refusal]
  | requeue xs => simp [act, requeue, closed, Act.refusal]
  | take => simp [act, none, closed, Act.refusal]
  | tryTake => simp [act, none, Act.refusal]
  | close =>
    have empty : q.heap = .empty := Heap.eq_empty_of_toList nothing
    have same : q.close.2 = q := ext empty.symm rfl closed.symm
    have length : q.close.1 = 0 := by rw [close, ← length_waiting, nothing, List.length_nil]
    rw [act, length, same, Act.refusal]

/-- What an act on an open queue answers and leaves. -/
inductive Effect (q : Queue) : Act → Answer → Queue → Prop
  | push (c : Command) (p : Priority) : Effect q (.push c p) (.numbered q.nextSeq) (q.enter c p)
  | pushAll (cs : List Command) (p : Priority) :
      Effect q (.pushAll cs p) .accepted (cs.foldl (fun q c => q.enter c p) q)
  | requeue (xs : List Queued) : Effect q (.requeue xs) (.returned xs.length) (q.requeue xs).2
  | take {a : Act} {x : Queued} {r : Queue} (taking : a = .take ∨ a = .tryTake)
      (taken : q.take? = some (x, r)) : Effect q a (.took x) r
  | idle {a : Act} {answer : Answer} (unanswered : answer = .waits ∨ answer = .nothing)
      (taking : a = .take ∨ a = .tryTake) (nothing : q.waiting = []) : Effect q a answer q
  | close : Effect q .close (.discarded q.length) q.close.2

theorem effect_of_opened (opened : q.closed = false) {answer : Answer}
    (h : q.act a = (answer, r)) : Effect q a answer r := by
  have nothing (h : q.take? = none) : q.waiting = [] := by
    simpa [opened] using take?_eq_none_iff.mp h
  cases a with
  | push c p =>
    simp only [act, Queue.push, opened, Bool.false_eq_true, if_false] at h
    cases h
    exact .push c p
  | pushAll cs p =>
    simp only [act, Queue.pushAll, opened, Bool.false_eq_true, if_false] at h
    cases h
    exact .pushAll cs p
  | requeue xs =>
    have returned : (q.requeue xs).1 = xs.length := by simp [Queue.requeue, opened]
    rw [act, returned] at h
    cases h
    exact .requeue xs
  | take =>
    cases taken : q.take? with
    | none =>
      simp only [act, taken, opened, Bool.false_eq_true, if_false] at h
      cases h
      exact .idle (.inl rfl) (.inl rfl) (nothing taken)
    | some found =>
      simp only [act, taken] at h
      cases h
      exact .take (.inl rfl) taken
  | tryTake =>
    cases taken : q.take? with
    | none =>
      simp only [act, taken] at h
      cases h
      exact .idle (.inr rfl) (.inr rfl) (nothing taken)
    | some found =>
      simp only [act, taken] at h
      cases h
      exact .take (.inr rfl) taken
  | close =>
    cases h
    exact .close

/-- Once closed it is empty. -/
def Shut (q : Queue) : Prop := q.closed = true → q.waiting = []

theorem yields_of_closed (closed : q.closed = true) (shut : q.Shut) (a : Act) :
    q.submits a = [] ∧ q.returns a = [] ∧ q.takes a = [] ∧ q.discards a = [] := by
  have nothing := shut closed
  simp only [submits, returns, takes, act_of_closed closed nothing]
  cases a <;> simp [Act.refusal, discards, nothing]

theorem closed_act (shut : q.Shut) (a : Act) :
    (q.act a).2.closed = true ↔ q.closed = true ∨ a = .close := by
  cases closed : q.closed with
  | true => simp [act_of_closed closed (shut closed), closed]
  | false =>
    rcases h : q.act a with ⟨answer, r⟩
    have effect := effect_of_opened closed h
    cases effect with
    | push c p => simpa using show (q.enter c p).closed = false from closed
    | pushAll cs p => simp [(enter_all q p cs).2.2, closed]
    | requeue xs => simp [requeue, closed]
    | take taking taken => obtain rfl | rfl := taking <;> simp [(waiting_of_take? taken).2.2.2]
    | idle unanswered taking => obtain rfl | rfl := taking <;> simp [closed]
    | close => simp only [or_true, iff_true]; rfl

theorem shut_act (shut : q.Shut) (a : Act) : (q.act a).2.Shut := by
  cases closed : q.closed with
  | true => rwa [act_of_closed closed (shut closed)]
  | false =>
    intro after
    obtain before | rfl := (closed_act shut a).mp after
    · rw [closed] at before
      cases before
    · rfl

/-- Nothing is lost and nothing made up. -/
theorem balance_act (shut : q.Shut) (a : Act) :
    (q.submits a ++ q.returns a ++ q.waiting).Perm
      (q.takes a ++ (q.act a).2.waiting ++ q.discards a) := by
  cases closed : q.closed with
  | true =>
    obtain ⟨submits, returns, takes, discards⟩ := yields_of_closed closed shut a
    rw [submits, returns, takes, discards, act_of_closed closed (shut closed)]
    simp
  | false =>
    rcases h : q.act a with ⟨answer, r⟩
    have effect := effect_of_opened closed h
    simp only [submits, returns, takes, h]
    cases effect with
    | push c p =>
      simp only [discards, List.append_nil, List.nil_append, List.singleton_append]
      exact (waiting_enter q c p).symm
    | pushAll cs p => simpa [discards] using (enter_all q p cs).1.symm
    | requeue xs => simpa [discards] using (waiting_requeue closed xs).symm
    | take taking taken =>
      obtain rfl | rfl := taking <;> simpa [discards] using (waiting_of_take? taken).1
    | idle unanswered taking =>
      obtain rfl | rfl := taking <;> obtain rfl | rfl := unanswered <;> simp [discards]
    | close => exact .refl _

theorem numbers_act (shut : q.Shut) (a : Act) :
    (q.submits a).map (·.seq) = List.range' q.nextSeq (q.submits a).length ∧
      (q.act a).2.nextSeq = q.nextSeq + (q.submits a).length := by
  cases closed : q.closed with
  | true =>
    rw [(yields_of_closed closed shut a).1, act_of_closed closed (shut closed)]
    exact ⟨rfl, rfl⟩
  | false =>
    rcases h : q.act a with ⟨answer, r⟩
    have effect := effect_of_opened closed h
    simp only [submits, h]
    cases effect with
    | push c p => exact ⟨rfl, rfl⟩
    | pushAll cs p =>
      simp only [length_numbered]
      exact ⟨seqs_numbered p q.nextSeq cs, (enter_all q p cs).2.1⟩
    | requeue xs => simp [requeue, closed]
    | take taking taken => exact ⟨rfl, (waiting_of_take? taken).2.1⟩
    | idle unanswered => obtain rfl | rfl := unanswered <;> exact ⟨rfl, rfl⟩
    | close => exact ⟨rfl, rfl⟩

/-- An open queue accepts what it is given. -/
theorem accepts_act (opened : q.closed = false) (a : Act) :
    (q.submits a).map (fun x => (⟨x.command, x.priority⟩ : Submission)) = a.submissions ∧
      q.returns a = a.putBack := by
  rcases h : q.act a with ⟨answer, r⟩
  have effect := effect_of_opened opened h
  simp only [submits, returns, h]
  cases effect with
  | push c p => exact ⟨rfl, rfl⟩
  | pushAll cs p => exact ⟨submissions_numbered p q.nextSeq cs, rfl⟩
  | requeue xs => exact ⟨rfl, List.take_length⟩
  | take taking taken => obtain rfl | rfl := taking <;> exact ⟨rfl, rfl⟩
  | idle unanswered taking =>
    obtain rfl | rfl := taking <;> obtain rfl | rfl := unanswered <;> exact ⟨rfl, rfl⟩
  | close => exact ⟨rfl, rfl⟩

/-! ### Taking -/

theorem took_iff :
    (q.act a).1 = .took x ↔ (a = .take ∨ a = .tryTake) ∧ ∃ r, q.take? = some (x, r) := by
  cases a with
  | push c p => cases closed : q.closed <;> simp [act, push, closed]
  | pushAll cs p => cases closed : q.closed <;> simp [act, pushAll, closed]
  | requeue xs => simp [act]
  | take =>
    cases taken : q.take? with
    | none => cases closed : q.closed <;> simp [act, taken, closed]
    | some found => simp [act, taken, Prod.ext_iff]
  | tryTake =>
    cases taken : q.take? with
    | none => simp [act, taken]
    | some found => simp [act, taken, Prod.ext_iff]
  | close => simp [act]

theorem first_of_took (took : (q.act a).1 = .took x) :
    x ∈ q.waiting ∧ ∀ y ∈ q.waiting, ¬ y.before x := by
  obtain ⟨-, r, taken⟩ := took_iff.mp took
  have perm := (waiting_of_take? taken).1
  refine ⟨perm.mem_iff.mpr List.mem_cons_self, fun y hy => ?_⟩
  obtain rfl | later := List.mem_cons.mp (perm.mem_iff.mp hy)
  · exact Queued.before_irrefl y
  · exact first_of_take? taken y later

theorem took_iff_waiting (shut : q.Shut) (taking : a = .take ∨ a = .tryTake) :
    (∃ x, (q.act a).1 = .took x) ↔ q.waiting ≠ [] := by
  simp only [took_iff, taking, true_and]
  constructor
  · rintro ⟨x, r, taken⟩ nothing
    rw [take?_eq_none_iff.mpr (.inr nothing)] at taken
    cases taken
  · intro something
    obtain ⟨⟨x, r⟩, taken⟩ := Option.ne_none_iff_exists'.mp fun none =>
      something ((take?_eq_none_iff.mp none).elim shut id)
    exact ⟨x, r, taken⟩

/-! ### Commands of one priority -/

/-- The commands of a priority that wait, in the order in which they were submitted. -/
structure InLine (p : Priority) (q : Queue) (line : List Queued) : Prop where
  waiting : (q.waiting.filter (·.priority = p)).Perm line
  order : line.Pairwise fun a b => a.seq < b.seq
  issued : ∀ x ∈ line, x.seq < q.nextSeq

theorem InLine.submit {line new : List Queued} (h : InLine p q line)
    (waiting : r.waiting.Perm (new ++ q.waiting))
    (seqs : new.map (·.seq) = List.range' q.nextSeq new.length)
    (nextSeq : r.nextSeq = q.nextSeq + new.length) :
    InLine p r (line ++ new.filter (·.priority = p)) := by
  have number {y : Queued} (hy : y ∈ new) : y.seq ∈ List.range' q.nextSeq new.length :=
    seqs ▸ List.mem_map_of_mem hy
  have later : ∀ y ∈ new.filter (·.priority = p), q.nextSeq ≤ y.seq ∧ y.seq < r.nextSeq := by
    intro y hy
    have among := List.mem_range'_1.mp (number (List.mem_filter.mp hy).1)
    rw [nextSeq]
    exact among
  constructor
  · have filtered := waiting.filter (·.priority = p)
    rw [List.filter_append] at filtered
    exact filtered.trans ((h.waiting.append_left _).trans List.perm_append_comm)
  · have ascending : new.Pairwise fun a b => a.seq < b.seq := by
      refine List.pairwise_map.mp ?_
      rw [seqs]
      exact List.pairwise_lt_range'
    refine List.pairwise_append.mpr ⟨h.order, ascending.filter _, fun a ha b hb => ?_⟩
    exact Nat.lt_of_lt_of_le (h.issued a ha) (later b hb).1
  · intro y hy
    obtain old | hy := List.mem_append.mp hy
    · have issued := h.issued y old
      omega
    · exact (later y hy).2

theorem InLine.take {line : List Queued} (h : InLine p q line) (taken : q.take? = some (x, r)) :
    ∃ line', InLine p r line' ∧ [x].filter (·.priority = p) ++ line' = line := by
  obtain ⟨perm, nextSeq, -, -⟩ := waiting_of_take? taken
  have filtered := (perm.filter (·.priority = p)).symm.trans h.waiting
  by_cases own : x.priority = p
  · rw [List.filter_cons_of_pos (by simpa using own)] at filtered
    cases line with
    | nil => cases filtered.eq_nil
    | cons y line =>
      obtain ⟨ahead, order⟩ := List.pairwise_cons.mp h.order
      -- Were `y` another command, it would outrank `x`, being ahead of it in line.
      have same : x = y := by
        obtain same | behind := List.mem_cons.mp (filtered.subset List.mem_cons_self)
        · exact same
        · obtain same | waits := List.mem_cons.mp (filtered.symm.subset List.mem_cons_self)
          · exact same.symm
          · obtain ⟨waits, priority⟩ := List.mem_filter.mp waits
            have level : y.priority = x.priority := (of_decide_eq_true priority).trans own.symm
            exact absurd (.inr ⟨level, ahead x behind⟩) (first_of_take? taken y waits)
      subst same
      refine ⟨line, ⟨filtered.cons_inv, order, fun z hz => ?_⟩, by simp [own]⟩
      exact nextSeq ▸ h.issued z (List.mem_cons_of_mem _ hz)
  · rw [List.filter_cons_of_neg (by simpa using own)] at filtered
    exact ⟨line, ⟨filtered, h.order, fun z hz => nextSeq ▸ h.issued z hz⟩, by simp [own]⟩

theorem inLine_act {line : List Queued} (shut : q.Shut) (opened : (q.act a).2.closed = false)
    (fresh : a.isRequeue = false) (h : InLine p q line) :
    ∃ line', InLine p (q.act a).2 line' ∧
      (q.takes a).filter (·.priority = p) ++ line' =
        line ++ (q.submits a).filter (·.priority = p) := by
  have before : q.closed = false := by
    cases closed : q.closed with
    | false => rfl
    | true => rw [(closed_act shut a).mpr (.inl closed)] at opened; cases opened
  obtain ⟨seqs, nextSeq⟩ := numbers_act shut a
  rcases step : q.act a with ⟨answer, r⟩
  simp only [submits, takes, step] at seqs nextSeq opened ⊢
  cases effect_of_opened before step with
  | push c p' => exact ⟨_, h.submit (waiting_enter q c p') seqs nextSeq, rfl⟩
  | pushAll cs p' => exact ⟨_, h.submit (enter_all q p' cs).1 seqs nextSeq, rfl⟩
  | requeue xs => cases fresh
  | take taking taken =>
    obtain ⟨line', rest, first⟩ := h.take taken
    exact ⟨line', rest, first.trans (List.append_nil _).symm⟩
  | idle unanswered =>
    obtain rfl | rfl := unanswered <;> exact ⟨line, h, (List.append_nil _).symm⟩
  | close => cases opened

/-! ### Histories -/

theorem shut_run (shut : q.Shut) (as : List Act) : (q.run as).Shut := by
  induction as generalizing q with
  | nil => exact shut
  | cons a as ih => exact ih (shut_act shut a)

theorem closed_run (shut : q.Shut) (closed : q.closed = true) (as : List Act) : q.run as = q := by
  induction as with
  | nil => rfl
  | cons a as ih =>
    show (q.act a).2.run as = q
    rwa [act_of_closed closed (shut closed)]

/-- What has been closed stays so, and refuses everything. -/
theorem refuses_run (shut : q.Shut) (earlier later : List Act) :
    let r := q.run (earlier ++ .close :: later)
    r.closed = true ∧ r.waiting = [] ∧ ∀ a, r.act a = (a.refusal, r) := by
  intro r
  have before := shut_run shut earlier
  have after := shut_act before .close
  have closed := (closed_act before .close).mpr (.inr rfl)
  have same : r = ((q.run earlier).act .close).2 := by
    show q.run (earlier ++ .close :: later) = _
    rw [run_append]
    exact closed_run after closed later
  rw [same]
  exact ⟨closed, after closed, act_of_closed closed (after closed)⟩

theorem takes_closed (shut : q.Shut) (closed : q.closed = true) (as : List Act) :
    gather takes q as = [] := by
  induction as with
  | nil => rfl
  | cons a as ih =>
    have same := congrArg Prod.snd (act_of_closed closed (shut closed) a)
    simp only at same
    rw [gather, same, ih, (yields_of_closed closed shut a).2.2.1]
    rfl

theorem balance_run (shut : q.Shut) (as : List Act) :
    (gather submits q as ++ gather returns q as ++ q.waiting).Perm
      (gather takes q as ++ (q.run as).waiting ++ gather discards q as) := by
  induction as generalizing q with
  | nil => simp [gather, run]
  | cons a as ih =>
    refine List.perm_iff_count.mpr fun x => ?_
    have first := (balance_act shut a).count_eq x
    have rest := (ih (shut_act shut a)).count_eq x
    have same : q.run (a :: as) = (q.act a).2.run as := rfl
    simp only [gather, List.count_append, same] at first rest ⊢
    omega

theorem numbers_run (shut : q.Shut) (as : List Act) :
    (gather submits q as).map (·.seq) =
      List.range' q.nextSeq (gather submits q as).length := by
  induction as generalizing q with
  | nil => rfl
  | cons a as ih =>
    obtain ⟨seqs, nextSeq⟩ := numbers_act shut a
    rw [gather, List.map_append, seqs, ih (shut_act shut a), nextSeq, List.length_append,
      List.range'_append_1]

theorem accepts_run (shut : q.Shut) (opened : q.closed = false) (as : List Act)
    (unclosed : .close ∉ as) :
    (gather submits q as).map (fun x => (⟨x.command, x.priority⟩ : Submission)) =
        as.flatMap Act.submissions ∧
      gather returns q as = as.flatMap Act.putBack := by
  induction as generalizing q with
  | nil => exact ⟨rfl, rfl⟩
  | cons a as ih =>
    obtain ⟨first, rest⟩ := List.ne_and_not_mem_of_not_mem_cons unclosed
    have still : (q.act a).2.closed = false := by
      simpa [opened, first.symm] using (closed_act shut a).not
    obtain ⟨submitted, returned⟩ := accepts_act opened a
    obtain ⟨later, back⟩ := ih (shut_act shut a) still rest
    simp only [gather, List.map_append, List.flatMap_cons, submitted, returned, later, back]
    exact ⟨trivial, trivial⟩

theorem inLine_run {line : List Queued} (shut : q.Shut) (h : InLine p q line) (as : List Act)
    (fresh : ∀ a ∈ as, a.isRequeue = false) :
    (gather takes q as).filter (·.priority = p) <+:
      line ++ (gather submits q as).filter (·.priority = p) := by
  induction as generalizing q line with
  | nil => exact List.nil_prefix
  | cons a as ih =>
    obtain ⟨first, fresh⟩ := List.forall_mem_cons.mp fresh
    have later := shut_act shut a
    cases closed : (q.act a).2.closed with
    | true =>
      -- Nothing is taken any more, so that nothing is to be said of the line.
      have none : q.takes a = [] := by
        obtain before | rfl := (closed_act shut a).mp closed
        · exact (yields_of_closed before shut a).2.2.1
        · rfl
      rw [gather, none, takes_closed later closed as]
      exact List.nil_prefix
    | false =>
      obtain ⟨line', inLine, same⟩ := inLine_act shut closed first h
      rw [gather, gather, List.filter_append, List.filter_append, ← List.append_assoc, ← same,
        List.append_assoc]
      exact (List.prefix_append_right_inj _).mpr (ih later inLine fresh)

/-- Whatever is done with a queue, the commands that it has accepted, all it is given until it is
closed, are those that were taken, that wait, and that were discarded when it was closed. A taker
gets a command if any waits, and nothing that waits outranks the one it gets. Submitted commands are
numbered one after the other, and as long as none is put back, those of one priority are taken in
the order in which they were submitted. Once closed, a queue is empty and refuses everything. -/
theorem serves_by_rank (as : List Act) :
    let q := empty.run as
    (submitted as ++ returned as).Perm (taken as ++ q.waiting ++ discarded as) ∧
    (.close ∉ as → (submitted as).map (fun x => (⟨x.command, x.priority⟩ : Submission)) =
      as.flatMap Act.submissions ∧ returned as = as.flatMap Act.putBack) ∧
    (∀ earlier a later x, as = earlier ++ a :: later → ((empty.run earlier).act a).1 = .took x →
      x ∈ (empty.run earlier).waiting ∧
        ∀ y ∈ (empty.run earlier).waiting, ¬ y.before x ∧ y.order x ≠ .gt) ∧
    (∀ a, a = .take ∨ a = .tryTake → ((∃ x, (q.act a).1 = .took x) ↔ q.waiting ≠ [])) ∧
    (submitted as).map (·.seq) = List.range (submitted as).length ∧
    ((∀ a ∈ as, a.isRequeue = false) → ∀ p,
      (taken as).filter (·.priority = p) <+: (submitted as).filter (·.priority = p)) ∧
    (∀ earlier later, as = earlier ++ .close :: later →
      q.closed = true ∧ q.waiting = [] ∧ ∀ a, q.act a = (a.refusal, q)) := by
  intro q
  have shut : empty.Shut := fun _ => rfl
  refine ⟨?_, accepts_run shut rfl as, fun earlier a later x _ took => ?_,
    fun a taking => took_iff_waiting (shut_run shut as) taking, ?_, fun fresh p => ?_,
    fun earlier later split => ?_⟩
  · have balanced := balance_run shut as
    rw [show empty.waiting = [] from rfl, List.append_nil] at balanced
    exact balanced
  · obtain ⟨waits, first⟩ := first_of_took took
    exact ⟨waits, fun y hy => ⟨first y hy, mt (Queued.order_eq_gt_iff y x).mp (first y hy)⟩⟩
  · rw [submitted, numbers_run shut as, List.range_eq_range']
    rfl
  · exact inLine_run shut ⟨.nil, .nil, by simp⟩ as fresh
  · subst split
    exact refuses_run shut earlier later

/-- Of two commands the older is put back once both have been taken, and is taken again. -/
example :
    let old : Queued := ⟨.withdraw ⟨"x"⟩, .normal, 0⟩
    taken [.push (.withdraw ⟨"x"⟩) .normal, .push .snapshot .normal, .take, .tryTake,
      .requeue [old], .push .shutdown .high, .take, .take, .take] =
      [old, ⟨.snapshot, .normal, 1⟩, ⟨.shutdown, .high, 2⟩, old] := by
  decide +kernel

end Queue

end Allotment

import Allotment.Command

/-!
# Heaps of commands

A heap is a tree whose levels are filled one after the other from the left. In a ranked heap nothing
below a command is served before it, so the next one to be served stands at the top. Of commands with
one rank the tree says which comes first.

`push_perm`, `pushAll_perm` and `pop?_perm` say that no command is lost or made up;
`pop?_first` says that what is taken from a ranked heap is outranked by nothing left in it.
-/

namespace Allotment

inductive Heap
  | empty
  | node (top : Queued) (left right : Heap)

namespace Heap

def size : Heap → Nat
  | empty => 0
  | node _ l r => l.size + r.size + 1

def toList : Heap → List Queued
  | empty => []
  | node a l r => a :: (l.toList ++ r.toList)

def top? : Heap → Option Queued
  | empty => none
  | node a _ _ => some a

/-- Nothing below a command is served before it. -/
def Ranked : Heap → Prop
  | empty => True
  | node a l r => (∀ x ∈ l.toList ++ r.toList, ¬ x.before a) ∧ l.Ranked ∧ r.Ranked

@[simp] theorem length_toList (h : Heap) : h.toList.length = h.size := by
  induction h with
  | empty => rfl
  | node a l r ihl ihr => simp [toList, size, ihl, ihr]

theorem eq_empty_of_toList {h : Heap} (e : h.toList = []) : h = empty := by
  cases h with
  | empty => rfl
  | node => cases e

theorem not_before_top {h : Heap} (hr : h.Ranked) {a : Queued} (e : h.top? = some a) :
    ∀ x ∈ h.toList, ¬ x.before a := by
  cases h with
  | empty => cases e
  | node b l r =>
    cases e
    intro x hx
    rcases List.mem_cons.1 hx with rfl | hx
    · exact Queued.before_irrefl _
    · exact hr.1 x hx

/-! ### Places -/

/-- All levels are full if the size is one less than a power of two. -/
def isFull (h : Heap) : Bool := (h.size + 1) &&& h.size == 0

def nextRight (l r : Heap) : Bool := l.isFull && r.size < l.size

def lastRight (l r : Heap) : Bool := l.isFull && l.size < 2 * r.size

def append (x : Queued) : Heap → Heap
  | empty => node x empty empty
  | node a l r => if nextRight l r then node a l (append x r) else node a (append x l) r

/-- Puts a command at the top; what stood on the way to the next place moves one place down. -/
def shift (x : Queued) : Heap → Heap
  | empty => node x empty empty
  | node a l r => if nextRight l r then node x l (shift a r) else node x (shift a l) r

def unappend? : Heap → Option (Queued × Heap)
  | empty => none
  | node a l r =>
    match if lastRight l r then unappend? r else none with
    | some (x, r) => some (x, node a l r)
    | none =>
      match unappend? l with
      | some (x, l) => some (x, node a l r)
      | none => some (a, empty)

/-! ### Putting commands in -/

/-- Puts a command at the next place and lets it rise past all that it is served before. -/
def push (x : Queued) : Heap → Heap
  | empty => node x empty empty
  | node a l r =>
    if x.before a then shift x (node a l r)
    else if nextRight l r then node a l (push x r) else node a (push x l) r

/-- The one of two branches whose top is served first, and that top; the right one of equals. -/
def leader? (l r : Heap) : Option (Bool × Queued) :=
  match l.top?, r.top? with
  | none, none => none
  | some a, none => some (true, a)
  | none, some b => some (false, b)
  | some a, some b => if a.before b then some (true, a) else some (false, b)

/-- Puts a command in the place of the top and lets it sink until it stays above the leader of the
branches below. -/
def sink (stays : Queued → Queued → Bool) (x : Queued) : Heap → Heap
  | empty => empty
  | node _ l r =>
    match leader? l r with
    | none => node x l r
    | some (onLeft, a) =>
      if stays x a then node x l r
      else if onLeft then node a (sink stays x l) r
      else node a l (sink stays x r)

/-- Ranks a heap from the bottom up; a command sinks below what is served before it. -/
def rank : Heap → Heap
  | empty => empty
  | node a l r => sink (fun x y => !decide (y.before x)) a (node a l.rank r.rank)

/-- Whether ranking the whole heap anew is less work than letting new commands rise one by one. -/
def rankingPays (old new : Nat) : Bool :=
  old < new || 2 * (old + new) < new * (if old + new ≤ 2048 then old.log2 else 11)

def pushAll (xs : List Queued) (h : Heap) : Heap :=
  if rankingPays h.size xs.length then (xs.foldl (fun h x => append x h) h).rank
  else xs.foldl (fun h x => push x h) h

/-- Takes the top. The command at the last place sinks from there; it stays above what it is served
before. -/
def pop? (h : Heap) : Option (Queued × Heap) :=
  match h.unappend? with
  | none => none
  | some (x, empty) => some (x, empty)
  | some (x, node a l r) => some (a, sink (fun x y => decide (x.before y)) x (node a l r))

/-! ### No command is lost or made up -/

theorem append_perm (x : Queued) (h : Heap) : (h.append x).toList.Perm (x :: h.toList) := by
  induction h with
  | empty => exact .refl _
  | node a l r ihl ihr =>
    unfold append
    split
    · exact (((ihr.append_left l.toList).trans List.perm_middle).cons a).trans (.swap x a _)
    · exact ((ihl.append_right r.toList).cons a).trans (.swap x a _)

theorem shift_perm (x : Queued) (h : Heap) : (h.shift x).toList.Perm (x :: h.toList) := by
  induction h generalizing x with
  | empty => exact .refl _
  | node a l r ihl ihr =>
    unfold shift
    split
    · exact (((ihr a).append_left l.toList).trans List.perm_middle).cons x
    · exact ((ihl a).append_right r.toList).cons x

theorem push_perm (x : Queued) (h : Heap) : (h.push x).toList.Perm (x :: h.toList) := by
  induction h with
  | empty => exact .refl _
  | node a l r ihl ihr =>
    unfold push
    split
    · exact shift_perm x _
    · split
      · exact (((ihr.append_left l.toList).trans List.perm_middle).cons a).trans (.swap x a _)
      · exact ((ihl.append_right r.toList).cons a).trans (.swap x a _)

theorem unappend?_eq_none {h : Heap} (e : h.unappend? = none) : h = empty := by
  cases h with
  | empty => rfl
  | node a l r =>
    unfold unappend? at e
    split at e
    · cases e
    · split at e <;> cases e

/-- If there is no last place below a command, there is nothing below it. -/
theorem eq_empty_of_unappend? {l r : Heap} (hr : (if lastRight l r then r.unappend? else none) = none)
    (hl : l.unappend? = none) : l = empty ∧ r = empty := by
  have hl := unappend?_eq_none hl
  subst hl
  refine ⟨rfl, ?_⟩
  by_cases h : lastRight empty r = true
  · rw [if_pos h] at hr
    exact unappend?_eq_none hr
  · cases r with
    | empty => rfl
    | node b bl br => exact absurd (by simp [lastRight, isFull, size]) h

theorem unappend?_perm {h k : Heap} {x : Queued} (e : h.unappend? = some (x, k)) :
    h.toList.Perm (x :: k.toList) := by
  induction h generalizing k with
  | empty => cases e
  | node a l r ihl ihr =>
    unfold unappend? at e
    split at e
    · rename_i y r' hr
      cases e
      split at hr
      · exact ((((ihr hr).append_left l.toList).trans List.perm_middle).cons a).trans (.swap x a _)
      · cases hr
    · rename_i hr
      split at e
      · rename_i y l' hl
        cases e
        exact (((ihl hl).append_right r.toList).cons a).trans (.swap x a _)
      · rename_i hl
        obtain ⟨rfl, rfl⟩ := eq_empty_of_unappend? hr hl
        cases e
        exact .refl _

/-- Taking the last command leaves the top in its place, unless it was the top. -/
theorem top?_unappend? {h k : Heap} {x : Queued} (e : h.unappend? = some (x, k)) :
    k = empty ∨ k.top? = h.top? := by
  cases h with
  | empty => cases e
  | node a l r =>
    unfold unappend? at e
    split at e
    · cases e
      exact .inr rfl
    · split at e
      · cases e
        exact .inr rfl
      · cases e
        exact .inl rfl

theorem leader?_eq_none {l r : Heap} (e : leader? l r = none) : l = empty ∧ r = empty := by
  cases l with
  | empty =>
    cases r with
    | empty => exact ⟨rfl, rfl⟩
    | node => cases e
  | node =>
    cases r with
    | empty => cases e
    | node =>
      simp only [leader?, top?] at e
      split at e <;> cases e

theorem leader?_left {l r : Heap} {a : Queued} (e : leader? l r = some (true, a)) :
    l.top? = some a ∧ ∀ b, r.top? = some b → a.before b := by
  unfold leader? at e
  split at e
  · cases e
  · cases e
    simp_all
  · cases e
  · split at e
    · cases e
      simp_all
    · cases e

theorem leader?_right {l r : Heap} {b : Queued} (e : leader? l r = some (false, b)) :
    r.top? = some b ∧ ∀ a, l.top? = some a → ¬ a.before b := by
  unfold leader? at e
  split at e
  · cases e
  · cases e
  · cases e
    simp_all
  · split at e
    · cases e
    · cases e
      simp_all

theorem sink_perm (stays : Queued → Queued → Bool) (x : Queued) {h : Heap} {a : Queued}
    (e : h.top? = some a) : (a :: (h.sink stays x).toList).Perm (x :: h.toList) := by
  induction h generalizing a with
  | empty => cases e
  | node b l r ihl ihr =>
    cases e
    unfold sink
    split
    · exact .swap x b _
    · rename_i onLeft c hc
      split
      · exact .swap x b _
      · refine .trans ?_ (.swap x b _)
        refine .cons b ?_
        split
        · rename_i ho
          cases ho
          exact (ihl (leader?_left hc).1).append_right r.toList
        · rename_i ho
          cases onLeft with
          | true => exact absurd rfl ho
          | false =>
            exact (List.perm_middle.symm.trans ((ihr (leader?_right hc).1).append_left l.toList)).trans
              List.perm_middle

theorem rank_perm (h : Heap) : h.rank.toList.Perm h.toList := by
  induction h with
  | empty => exact .refl _
  | node a l r ihl ihr =>
    exact (sink_perm _ a (h := node a l.rank r.rank) rfl).cons_inv.trans ((ihl.append ihr).cons a)

theorem foldl_append_perm (xs : List Queued) (h : Heap) :
    (xs.foldl (fun h x => append x h) h).toList.Perm (xs ++ h.toList) := by
  induction xs generalizing h with
  | nil => exact .refl _
  | cons x xs ih => exact ((ih _).trans ((append_perm x h).append_left xs)).trans List.perm_middle

theorem foldl_push_perm (xs : List Queued) (h : Heap) :
    (xs.foldl (fun h x => push x h) h).toList.Perm (xs ++ h.toList) := by
  induction xs generalizing h with
  | nil => exact .refl _
  | cons x xs ih => exact ((ih _).trans ((push_perm x h).append_left xs)).trans List.perm_middle

theorem pushAll_perm (xs : List Queued) (h : Heap) :
    (h.pushAll xs).toList.Perm (xs ++ h.toList) := by
  unfold pushAll
  split
  · exact (rank_perm _).trans (foldl_append_perm xs h)
  · exact foldl_push_perm xs h

theorem pop?_perm {h k : Heap} {a : Queued} (e : h.pop? = some (a, k)) :
    h.toList.Perm (a :: k.toList) := by
  unfold pop? at e
  split at e
  · cases e
  · rename_i x hx
    cases e
    exact unappend?_perm hx
  · rename_i x b l r hx
    cases e
    exact (unappend?_perm hx).trans (sink_perm _ x rfl).symm

theorem pop?_eq_none_iff {h : Heap} : h.pop? = none ↔ h.toList = [] := by
  constructor
  · intro e
    unfold pop? at e
    split at e
    · rename_i hx
      rw [unappend?_eq_none hx]
      rfl
    · cases e
    · cases e
  · intro e
    rw [eq_empty_of_toList e]
    rfl

/-! ### A ranked heap stays ranked -/

theorem ranked_shift {x : Queued} {h : Heap} (hr : h.Ranked)
    (hx : ∀ y ∈ h.toList, ¬ y.before x) : (h.shift x).Ranked := by
  induction h generalizing x with
  | empty => simp [shift, Ranked, toList]
  | node a l r ihl ihr =>
    obtain ⟨ha, hl, hr⟩ := hr
    have hx' : ∀ y ∈ a :: (l.toList ++ r.toList), ¬ y.before x := hx
    unfold shift
    split
    · refine ⟨fun y hy => ?_, hl, ihr hr fun y hy => ha y (List.mem_append_right _ hy)⟩
      refine hx' y ?_
      have := (((shift_perm a r).append_left l.toList).trans List.perm_middle).mem_iff.1 hy
      exact this
    · refine ⟨fun y hy => ?_, ihl hl fun y hy => ha y (List.mem_append_left _ hy), hr⟩
      exact hx' y (((shift_perm a l).append_right r.toList).mem_iff.1 hy)

theorem ranked_push {x : Queued} {h : Heap} (hr : h.Ranked) : (h.push x).Ranked := by
  induction h with
  | empty => simp [push, Ranked, toList]
  | node a l r ihl ihr =>
    obtain ⟨ha, hl, hr'⟩ := hr
    unfold push
    split
    · rename_i hx
      refine ranked_shift ⟨ha, hl, hr'⟩ fun y hy e => ?_
      rcases List.mem_cons.1 hy with rfl | hy
      · exact Queued.before_irrefl _ (Queued.before_trans e hx)
      · exact ha y hy (Queued.before_trans e hx)
    · rename_i hx
      have hxa : ∀ y ∈ x :: (l.toList ++ r.toList), ¬ y.before a := fun y hy => by
        rcases List.mem_cons.1 hy with rfl | hy
        · exact hx
        · exact ha y hy
      split
      · exact ⟨fun y hy => hxa y ((((push_perm x r).append_left l.toList).trans
          List.perm_middle).mem_iff.1 hy), hl, ihr hr'⟩
      · exact ⟨fun y hy => hxa y (((push_perm x l).append_right r.toList).mem_iff.1 hy),
          ihl hl, hr'⟩

theorem ranked_unappend? {h k : Heap} {x : Queued} (hr : h.Ranked)
    (e : h.unappend? = some (x, k)) : k.Ranked := by
  induction h generalizing k with
  | empty => cases e
  | node a l r ihl ihr =>
    obtain ⟨ha, hl, hr'⟩ := hr
    unfold unappend? at e
    split at e
    · rename_i y r' he
      cases e
      split at he
      · refine ⟨fun z hz => ha z ?_, hl, ihr hr' he⟩
        rcases List.mem_append.1 hz with hz | hz
        · exact List.mem_append_left _ hz
        · exact List.mem_append_right _ ((unappend?_perm he).mem_iff.2 (List.mem_cons_of_mem _ hz))
      · cases he
    · split at e
      · rename_i y l' he
        cases e
        refine ⟨fun z hz => ha z ?_, ihl hl he, hr'⟩
        rcases List.mem_append.1 hz with hz | hz
        · exact List.mem_append_left _ ((unappend?_perm he).mem_iff.2 (List.mem_cons_of_mem _ hz))
        · exact List.mem_append_right _ hz
      · cases e
        trivial

/-- The leader of two ranked branches is outranked by nothing in them. -/
theorem not_before_leader {l r : Heap} (hl : l.Ranked) (hr : r.Ranked) {onLeft : Bool} {a : Queued}
    (e : leader? l r = some (onLeft, a)) : ∀ x ∈ l.toList ++ r.toList, ¬ x.before a := by
  intro x hx
  cases onLeft with
  | true =>
    obtain ⟨ha, hb⟩ := leader?_left e
    rcases List.mem_append.1 hx with hx | hx
    · exact not_before_top hl ha x hx
    · cases r with
      | empty => cases hx
      | node b bl br =>
        have hab := hb b rfl
        exact fun h => not_before_top hr rfl x hx (Queued.before_trans h hab)
  | false =>
    obtain ⟨hb, ha⟩ := leader?_right e
    rcases List.mem_append.1 hx with hx | hx
    · cases l with
      | empty => cases hx
      | node c cl cr => exact Queued.not_before_trans (ha c rfl) (not_before_top hl rfl x hx)
    · exact not_before_top hr hb x hx

theorem ranked_sink {stays : Queued → Queued → Bool} {x : Queued}
    (hs : ∀ y, stays x y = true → ¬ y.before x) (hn : ∀ y, stays x y = false → ¬ x.before y)
    {a : Queued} {l r : Heap} (hl : l.Ranked) (hr : r.Ranked) :
    ((node a l r).sink stays x).Ranked := by
  suffices H : ∀ h : Heap, (∀ b l r, h = node b l r → l.Ranked ∧ r.Ranked) →
      (h.sink stays x).Ranked from
    H _ fun b l' r' e => by cases e; exact ⟨hl, hr⟩
  intro h
  induction h with
  | empty => exact fun _ => trivial
  | node b l r ihl ihr =>
    intro h
    obtain ⟨hl, hr⟩ := h b l r rfl
    have below : ∀ {k : Heap}, k.Ranked → ∀ b l r, k = node b l r → l.Ranked ∧ r.Ranked := by
      rintro _ hk b l r rfl
      exact hk.2
    unfold sink
    split
    · rename_i he
      obtain ⟨rfl, rfl⟩ := leader?_eq_none he
      exact ⟨fun y hy => (List.not_mem_nil hy).elim, trivial, trivial⟩
    · rename_i onLeft c hc
      have hlead := not_before_leader hl hr hc
      split
      · rename_i h
        exact ⟨fun y hy => Queued.not_before_trans (hs c h) (hlead y hy), hl, hr⟩
      · rename_i h
        have hxc : ¬ x.before c := hn c (by simpa using h)
        split
        · rename_i ho
          cases ho
          refine ⟨fun y hy => ?_, ihl (below hl), hr⟩
          have hp := (sink_perm stays x (leader?_left hc).1).append_right r.toList
          have hy := hp.mem_iff.1 (List.mem_cons_of_mem c hy)
          rcases List.mem_cons.1 hy with rfl | hy
          · exact hxc
          · exact hlead y hy
        · rename_i ho
          cases onLeft with
          | true => exact absurd rfl ho
          | false =>
            refine ⟨fun y hy => ?_, hl, ihr (below hr)⟩
            rcases List.mem_append.1 hy with hy | hy
            · exact hlead y (List.mem_append_left _ hy)
            · have hp := sink_perm stays x (leader?_right hc).1
              have hy := hp.mem_iff.1 (List.mem_cons_of_mem c hy)
              rcases List.mem_cons.1 hy with rfl | hy
              · exact hxc
              · exact hlead y (List.mem_append_right _ hy)

theorem ranked_rank (h : Heap) : h.rank.Ranked := by
  induction h with
  | empty => trivial
  | node a l r ihl ihr =>
    refine ranked_sink (fun y hy => by simpa using hy) (fun y hy e => ?_) ihl ihr
    have hy : y.before a := by simpa using hy
    exact Queued.before_irrefl _ (Queued.before_trans e hy)

theorem ranked_foldl_push (xs : List Queued) {h : Heap} (hr : h.Ranked) :
    (xs.foldl (fun h x => push x h) h).Ranked := by
  induction xs generalizing h with
  | nil => exact hr
  | cons x xs ih => exact ih (ranked_push hr)

theorem ranked_pushAll (xs : List Queued) {h : Heap} (hr : h.Ranked) : (h.pushAll xs).Ranked := by
  unfold pushAll
  split
  · exact ranked_rank _
  · exact ranked_foldl_push xs hr

theorem ranked_pop? {h k : Heap} {a : Queued} (hr : h.Ranked) (e : h.pop? = some (a, k)) :
    k.Ranked := by
  unfold pop? at e
  split at e
  · cases e
  · cases e
    trivial
  · rename_i x b l r hx
    cases e
    have h := ranked_unappend? hr hx
    refine ranked_sink (fun y hy e => ?_) (fun y hy => by simpa using hy) h.2.1 h.2.2
    have hy : x.before y := by simpa using hy
    exact Queued.before_irrefl _ (Queued.before_trans e hy)

theorem pop?_first {h k : Heap} {a : Queued} (hr : h.Ranked) (e : h.pop? = some (a, k)) :
    ∀ x ∈ k.toList, ¬ x.before a := by
  have hp := pop?_perm e
  suffices ht : h.top? = some a from
    fun x hx => not_before_top hr ht x (hp.mem_iff.2 (List.mem_cons_of_mem a hx))
  unfold pop? at e
  split at e
  · cases e
  · rename_i x hx
    cases e
    cases h with
    | empty => cases hx
    | node b l r =>
      have := hp.mem_iff.1 (List.mem_cons_self (a := b))
      simpa [toList, top?] using this
  · rename_i x b l r hx
    cases e
    rcases top?_unappend? hx with h | h
    · cases h
    · exact h.symm

end Heap

end Allotment

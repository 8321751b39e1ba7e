import Allotment.Proofs.Units

/-!
# Expanding requests

An expansion is put together from what each of the requested resources brings in, whichever way the
blocks are listed. Two requests that touch one block both bring in all of it, so they cannot both be
granted to different clients (`expand_composes`).
-/

namespace Allotment

theorem ResourceSet.meets_union (s t u : ResourceSet) :
    s.meets (t ∪ u) = true ↔ s.meets t = true ∨ s.meets u = true := by
  simp only [meets_iff, mem_union]
  constructor
  · rintro ⟨r, hs, ht | hu⟩
    · exact .inl ⟨r, hs, ht⟩
    · exact .inr ⟨r, hs, hu⟩
  · rintro (⟨r, hs, ht⟩ | ⟨r, hs, hu⟩)
    · exact ⟨r, hs, .inl ht⟩
    · exact ⟨r, hs, .inr hu⟩

namespace Block

variable {σ : Type} {W : World σ} {blocks others : List Block} {b : Block} {rs ps : ResourceSet}

theorem expand_union (blocks : List Block) (rs ps : ResourceSet) :
    expand blocks (rs ∪ ps) = expand blocks rs ∪ expand blocks ps := by
  apply ResourceSet.ext
  intro r
  simp only [ResourceSet.mem_union, mem_expand, ResourceSet.meets_union]
  constructor
  · rintro ((own | own) | ⟨b, hb, touched | touched, hr⟩)
    · exact .inl (.inl own)
    · exact .inr (.inl own)
    · exact .inl (.inr ⟨b, hb, touched, hr⟩)
    · exact .inr (.inr ⟨b, hb, touched, hr⟩)
  · rintro ((own | ⟨b, hb, touched, hr⟩) | (own | ⟨b, hb, touched, hr⟩))
    · exact .inl (.inl own)
    · exact .inr ⟨b, hb, .inl touched, hr⟩
    · exact .inl (.inr own)
    · exact .inr ⟨b, hb, .inr touched, hr⟩

/-- Neither the order of the blocks nor their repetition matters. -/
theorem expand_congr (same : ∀ b, b ∈ others ↔ b ∈ blocks) (rs : ResourceSet) :
    expand others rs = expand blocks rs := by
  apply ResourceSet.ext
  intro r
  simp only [mem_expand, same]

theorem mem_expand_of_meets (hb : b ∈ blocks) (touched : b.members.meets rs = true)
    {r : ResourceId} (hr : r ∈ b.members) : r ∈ expand blocks rs :=
  mem_expand.mpr (.inr ⟨b, hb, touched, hr⟩)

/-- Who holds what one request was expanded to stands in the way of anybody else's request for a
part of the same block. -/
theorem tryAllocate_of_shared {s : Allocator σ} {c d : ClientId} (unites : W.Unites blocks)
    (hb : b ∈ blocks) (first : b.members.meets rs = true) (second : b.members.meets ps = true)
    (other : c ≠ d) (held : ∀ r ∈ expand blocks rs, s.table.holder r = some c) :
    (s.tryAllocate W d ps).1 = none := by
  obtain ⟨x, member, -⟩ := ResourceSet.meets_iff.mp first
  have taken : s.table.holder x = some c := held x (mem_expand_of_meets hb first member)
  rcases tried : s.tryAllocate W d ps with ⟨answer, t⟩
  obtain ⟨refused, -⟩ | ⟨expanded, -, found, available, -⟩ := Allocator.tryAllocate_expanded tried
  · exact refused
  · have whole : expanded = expand blocks ps :=
      Option.some.inj (found.symm.trans (unites ps s.setting.world))
    have wanted : x ∈ expanded := whole ▸ mem_expand_of_meets hb second member
    obtain free | own := available x wanted
    · cases taken.symm.trans free
    · exact absurd (Option.some.inj (taken.symm.trans own)) other

/-- A request for two sets brings in what each of them does, and no request loses anything by being
expanded. Only which blocks there are matters, not how they are listed. Requests that touch the same
block bring in all of it, so while one client holds what it was granted, nobody else is granted the
other. -/
theorem expand_composes (blocks : List Block) (rs ps : ResourceSet) :
    expand blocks (rs ∪ ps) = expand blocks rs ∪ expand blocks ps ∧
    (∀ r ∈ rs, r ∈ expand blocks rs) ∧
    (∀ others : List Block, (∀ b, b ∈ others ↔ b ∈ blocks) →
      expand others rs = expand blocks rs) ∧
    ∀ b ∈ blocks, b.members.meets rs = true → b.members.meets ps = true →
      (∀ r ∈ b.members, r ∈ expand blocks rs ∧ r ∈ expand blocks ps) ∧
      ∀ (σ : Type) (W : World σ) (s : Allocator σ) (c d : ClientId), W.Unites blocks → c ≠ d →
        (∀ r ∈ expand blocks rs, s.table.holder r = some c) →
        (s.tryAllocate W d ps).1 = none := by
  refine ⟨expand_union blocks rs ps, fun r => mem_expand_of_mem, fun others same => ?_, ?_⟩
  · exact expand_congr same rs
  · intro b hb first second
    constructor
    · intro r hr
      exact ⟨mem_expand_of_meets hb first hr, mem_expand_of_meets hb second hr⟩
    · intro σ W s c d unites other held
      exact tryAllocate_of_shared unites hb first second other held

/-- Two clients ask for different ends of a block that overlaps another. The blocks are listed the
other way round, and one of them twice, without any difference. -/
theorem second_end_refused :
    let yard : Block := ⟨"yard", .ofList [⟨"a"⟩, ⟨"m"⟩, ⟨"z"⟩]⟩
    let gate : Block := ⟨"gate", .ofList [⟨"a"⟩, ⟨"g"⟩]⟩
    let blocks := [yard, gate]
    let rs : ResourceSet := .ofList [⟨"a"⟩]
    let ps : ResourceSet := .ofList [⟨"z"⟩]
    let W := World.uniting blocks
    let s := (Allocator.initial [] .nowhere 0).run W [Allocator.asking "x" ["a"], .step]
    (∀ b, b ∈ [gate, yard, gate] ↔ b ∈ blocks) ∧
    expand [gate, yard, gate] rs = expand blocks rs ∧
    expand blocks (rs ∪ ps) = expand blocks rs ∪ expand blocks ps ∧
    W.Unites blocks ∧ (⟨"x"⟩ : ClientId) ≠ ⟨"y"⟩ ∧
    yard.members.meets rs = true ∧ yard.members.meets ps = true ∧
    (∀ r ∈ expand blocks rs, s.table.holder r = some ⟨"x"⟩) ∧
    (s.tryAllocate W ⟨"y"⟩ ps).1 = none := by
  intro yard gate blocks rs ps W s
  have same : ∀ b, b ∈ [gate, yard, gate] ↔ b ∈ blocks := by
    intro b
    constructor
    · intro h
      rcases List.mem_cons.mp h with rfl | h
      · exact List.mem_cons_of_mem _ List.mem_cons_self
      · exact h
    · exact List.mem_cons_of_mem gate
  have unites : W.Unites blocks := fun _ _ => rfl
  have other : (⟨"x"⟩ : ClientId) ≠ ⟨"y"⟩ := by decide
  have first : yard.members.meets rs = true := by decide
  have second : yard.members.meets ps = true := by decide
  have held : ∀ r ∈ expand blocks rs, s.table.holder r = some ⟨"x"⟩ := by
    show ∀ r ∈ (expand blocks rs).toList, s.table.holder r = some ⟨"x"⟩
    decide +kernel
  obtain ⟨union, -, listed, shared⟩ := expand_composes blocks rs ps
  have refused := (shared yard List.mem_cons_self first second).2 Nat W s _ _ unites other held
  exact ⟨same, listed _ same, union, unites, other, first, second, held, refused⟩

end Block

end Allotment

import Mathlib.Data.Finset.Card
import Mathlib.Data.Fintype.Basic

/- Owners that hold one block each.

   An owner points to a block of its own, everyone else to none, and no block is without its
   owner. There are then as many blocks as owners. A new owner with a new block keeps this; a
   block whose owner no longer points to it, or a pointer left with one that owns nothing,
   ends it. -/
namespace Ownership

/-- Each owner holds one of the blocks, and each block has its owner. -/
structure OneEach {ι κ : Type} (owner : ι → Bool) (pointer : ι → Option κ) (blocks : Finset κ) :
    Prop where
  holds : ∀ o, owner o = true → ∃ n ∈ blocks, pointer o = some n
  null : ∀ o, owner o = false → pointer o = none
  alone : ∀ o₁ o₂ n, pointer o₁ = some n → pointer o₂ = some n → o₁ = o₂
  held : ∀ n ∈ blocks, ∃ o, pointer o = some n

namespace OneEach
variable {ι κ : Type} {owner : ι → Bool} {pointer : ι → Option κ} {blocks : Finset κ} {o : ι}
  {n : κ}

theorem empty : OneEach (fun _ : ι => false) (fun _ => (none : Option κ)) ∅ where
  holds := fun _ ho => absurd ho Bool.false_ne_true
  null := fun _ _ => rfl
  alone := fun _ _ _ h _ => nomatch h
  held := fun n hn => absurd hn (Finset.notMem_empty n)

/-- Who points to a block owns one. -/
theorem owner_of_pointer (h : OneEach owner pointer blocks) (hn : pointer o = some n) :
    owner o = true := by
  by_contra ho
  rw [h.null o ((Bool.not_eq_true _).mp ho)] at hn
  cases hn

/-- There are as many blocks as owners. -/
theorem card [Fintype ι] [DecidableEq κ] (h : OneEach owner pointer blocks) :
    blocks.card = (Finset.univ.filter fun o => owner o = true).card := by
  have himage : blocks.image some = (Finset.univ.filter fun o => owner o = true).image pointer := by
    ext p
    simp only [Finset.mem_image, Finset.mem_filter, Finset.mem_univ, true_and]
    constructor
    · rintro ⟨n, hn, rfl⟩
      obtain ⟨o, ho⟩ := h.held n hn
      exact ⟨o, h.owner_of_pointer ho, ho⟩
    · rintro ⟨o, ho, rfl⟩
      obtain ⟨n, hn, hpointer⟩ := h.holds o ho
      exact ⟨n, hn, hpointer.symm⟩
  have hinjective : Set.InjOn pointer (Finset.univ.filter fun o => owner o = true) := by
    intro o₁ ho₁ o₂ _ heq
    obtain ⟨n, -, hn⟩ := h.holds o₁ (Finset.mem_filter.mp ho₁).2
    exact h.alone o₁ o₂ n hn (heq ▸ hn)
  calc blocks.card
      = (blocks.image some).card :=
        (Finset.card_image_of_injective blocks (Option.some_injective κ)).symm
    _ = ((Finset.univ.filter fun o => owner o = true).image pointer).card := by rw [himage]
    _ = (Finset.univ.filter fun o => owner o = true).card := Finset.card_image_of_injOn hinjective

variable [DecidableEq ι]

/-- An owner that is given another block loses the first one. -/
theorem not_overwritten {owner' : ι → Bool} {blocks' : Finset κ} {p : Option κ}
    (h : OneEach owner pointer blocks) (hn : pointer o = some n) (hkept : n ∈ blocks')
    (hp : p ≠ some n) : ¬ OneEach owner' (Function.update pointer o p) blocks' := by
  intro h'
  obtain ⟨o', hpointer⟩ := h'.held n hkept
  by_cases heq : o' = o
  · subst heq
    rw [Function.update_self] at hpointer
    exact hp hpointer
  · rw [Function.update_of_ne heq] at hpointer
    exact heq (h.alone o' o n hpointer hn)

/-- Someone who owns nothing becomes the owner of a new block. -/
theorem acquire [DecidableEq κ] (h : OneEach owner pointer blocks) (ho : owner o = false)
    (hn : n ∉ blocks) :
    OneEach (Function.update owner o true) (Function.update pointer o (some n))
      (insert n blocks) where
  holds := by
    intro o' ho'
    by_cases heq : o' = o
    · subst heq
      exact ⟨n, Finset.mem_insert_self n blocks, Function.update_self ..⟩
    · rw [Function.update_of_ne heq] at ho' ⊢
      obtain ⟨n', hn', hpointer⟩ := h.holds o' ho'
      exact ⟨n', Finset.mem_insert_of_mem hn', hpointer⟩
  null := by
    intro o' ho'
    by_cases heq : o' = o
    · subst heq
      rw [Function.update_self] at ho'
      cases ho'
    · rw [Function.update_of_ne heq] at ho' ⊢
      exact h.null o' ho'
  alone := by
    -- the new block is none of those that the others hold
    have hnew : ∀ o' n', o' ≠ o → pointer o' = some n' → n' ≠ n := by
      rintro o' n' - hpointer rfl
      obtain ⟨n₁, hn₁, hpointer'⟩ := h.holds o' (h.owner_of_pointer hpointer)
      rw [hpointer] at hpointer'
      cases hpointer'
      exact hn hn₁
    intro o₁ o₂ n' h₁ h₂
    by_cases heq₁ : o₁ = o <;> by_cases heq₂ : o₂ = o
    · rw [heq₁, heq₂]
    · subst heq₁
      rw [Function.update_self] at h₁
      rw [Function.update_of_ne heq₂] at h₂
      exact absurd (Option.some.inj h₁).symm (hnew o₂ n' heq₂ h₂)
    · subst heq₂
      rw [Function.update_self] at h₂
      rw [Function.update_of_ne heq₁] at h₁
      exact absurd (Option.some.inj h₂).symm (hnew o₁ n' heq₁ h₁)
    · rw [Function.update_of_ne heq₁] at h₁
      rw [Function.update_of_ne heq₂] at h₂
      exact h.alone o₁ o₂ n' h₁ h₂
  held := by
    intro n' hn'
    rcases Finset.mem_insert.mp hn' with rfl | hn'
    · exact ⟨o, Function.update_self ..⟩
    · obtain ⟨o', hpointer⟩ := h.held n' hn'
      have hne : o' ≠ o := by
        rintro rfl
        rw [h.null o' ho] at hpointer
        cases hpointer
      exact ⟨o', (Function.update_of_ne hne ..).trans hpointer⟩

end OneEach
end Ownership

import RlboxWasm2c.Base.Runs

/- Parts that run side by side.

   `step t i s` is a step of part `t` in the whole state `s`, `partStep i v` the same step of
   a part on its own, and `view t s` what part `t` has of the whole. `Apart` says that a
   step of a part does in its view what it does on its own, and nothing in the others'.
   Then a run of the whole is a run of each part (`exec_view`), it is possible where those
   are (`exec_isSome`), and how the parts take turns makes no difference (`exec_reorder`). -/
namespace Interleave
open Runs

section parts
variable {τ ι σ ω : Type} [DecidableEq τ] {step : τ → ι → σ → Option σ}
  {partStep : ι → ω → Option ω} {view : τ → σ → ω} {I : σ → Prop} {C : τ → ι → Prop}

/-- The inputs of part `t`, in order. -/
def inputsOf (t : τ) (xs : List (τ × ι)) : List ι :=
  xs.filterMap fun x => if x.1 = t then some x.2 else none

theorem inputsOf_self (t : τ) (i : ι) (xs : List (τ × ι)) :
    inputsOf t ((t, i) :: xs) = i :: inputsOf t xs := by
  simp [inputsOf]

theorem inputsOf_other {t u : τ} (h : u ≠ t) (i : ι) (xs : List (τ × ι)) :
    inputsOf u ((t, i) :: xs) = inputsOf u xs := by
  simp [inputsOf, h.symm]

/-- The inputs that meet `C` keep the parts apart. -/
structure Apart (step : τ → ι → σ → Option σ) (partStep : ι → ω → Option ω) (view : τ → σ → ω)
    (I : σ → Prop) (C : τ → ι → Prop) : Prop where
  own : ∀ t i s, I s → C t i → (step t i s).map (view t) = partStep i (view t s)
  others : ∀ t i s s', I s → C t i → step t i s = some s' → ∀ u, u ≠ t → view u s' = view u s
  keeps : ∀ t i s s', I s → C t i → step t i s = some s' → I s'

/-- A step of the whole: the part and its input. -/
def turn (step : τ → ι → σ → Option σ) (x : τ × ι) : σ → Option σ := step x.1 x.2

abbrev run (step : τ → ι → σ → Option σ) : List (τ × ι) → σ → Option σ := exec (turn step)

namespace Apart

theorem exec_view (h : Apart step partStep view I C) {xs : List (τ × ι)} {s s' : σ} (hs : I s)
    (hC : ∀ x ∈ xs, C x.1 x.2) (hrun : run step xs s = some s') (t : τ) :
    exec partStep (inputsOf t xs) (view t s) = some (view t s') := by
  induction xs generalizing s with
  | nil =>
    cases hrun
    rfl
  | cons x xs ih =>
    obtain ⟨u, hu, hrest⟩ := exec_cons hrun
    have hu : step x.1 x.2 s = some u := hu
    obtain ⟨hx, hxs⟩ := List.forall_mem_cons.mp hC
    have htail := ih (h.keeps x.1 x.2 s u hs hx hu) hxs hrest
    by_cases ht : t = x.1
    · have hown := h.own x.1 x.2 s hs hx
      rw [hu, Option.map_some, ← ht] at hown
      rw [show x :: xs = (t, x.2) :: xs by rw [ht], inputsOf_self, exec, ← hown]
      exact htail
    · rw [show x :: xs = (x.1, x.2) :: xs from rfl, inputsOf_other ht,
        ← h.others x.1 x.2 s u hs hx hu t ht]
      exact htail

theorem exec_isSome (h : Apart step partStep view I C) {xs : List (τ × ι)} {s : σ} (hs : I s)
    (hC : ∀ x ∈ xs, C x.1 x.2)
    (hparts : ∀ t, (exec partStep (inputsOf t xs) (view t s)).isSome) :
    (run step xs s).isSome := by
  induction xs generalizing s with
  | nil => rfl
  | cons x xs ih =>
    obtain ⟨hx, hxs⟩ := List.forall_mem_cons.mp hC
    have hown := h.own x.1 x.2 s hs hx
    -- the part that moves can, so the whole can
    have hfirst := hparts x.1
    rw [show x :: xs = (x.1, x.2) :: xs from rfl, inputsOf_self, exec, ← hown] at hfirst
    cases hu : step x.1 x.2 s with
    | none => rw [hu] at hfirst; cases hfirst
    | some u =>
      rw [hu, Option.map_some] at hfirst
      show ((step x.1 x.2 s).bind (run step xs)).isSome
      rw [hu]
      refine ih (h.keeps x.1 x.2 s u hs hx hu) hxs fun t => ?_
      by_cases ht : t = x.1
      · exact ht ▸ hfirst
      · have hpart := hparts t
        rw [show x :: xs = (x.1, x.2) :: xs from rfl, inputsOf_other ht] at hpart
        rw [h.others x.1 x.2 s u hs hx hu t ht]
        exact hpart

/-- If the views tell the state, how the parts take turns makes no difference. -/
theorem exec_reorder (h : Apart step partStep view I C)
    (hviews : ∀ s s', (∀ t, view t s = view t s') → s = s') {xs ys : List (τ × ι)} {s : σ}
    (hs : I s) (hxs : ∀ x ∈ xs, C x.1 x.2) (hys : ∀ y ∈ ys, C y.1 y.2)
    (hsame : ∀ t, inputsOf t xs = inputsOf t ys) : run step xs s = run step ys s := by
  have hsome : ∀ {xs ys : List (τ × ι)}, (∀ x ∈ xs, C x.1 x.2) → (∀ y ∈ ys, C y.1 y.2) →
      (∀ t, inputsOf t xs = inputsOf t ys) → ∀ a, run step xs s = some a →
      run step ys s = some a := by
    intro xs ys hxs hys hsame a ha
    have hparts := h.exec_view hs hxs ha
    have hpossible : (run step ys s).isSome := by
      refine h.exec_isSome hs hys fun t => ?_
      rw [← hsame t, hparts t]
      rfl
    obtain ⟨b, hb⟩ := Option.isSome_iff_exists.mp hpossible
    rw [hb]
    refine congrArg some (hviews b a fun t => ?_)
    have hboth := hparts t
    rw [hsame t, h.exec_view hs hys hb t] at hboth
    exact Option.some.inj hboth
  cases hx : run step xs s with
  | some a => exact (hsome hxs hys hsame a hx).symm
  | none =>
    cases hy : run step ys s with
    | none => rfl
    | some b =>
      rw [hsome hys hxs (fun t => (hsame t).symm) b hy] at hx
      cases hx

end Apart
end parts
end Interleave

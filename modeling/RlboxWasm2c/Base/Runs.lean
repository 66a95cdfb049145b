import Mathlib.Data.List.Basic

/- Runs of a machine that reads inputs: `step i s` is the next state, or `none` where
   the input is not accepted. `exec` runs a list of inputs, `Meets C` says that every
   step taken meets a condition on the state and the input, and `exec_invariant` is the
   induction every safety result goes through; `exec_collect` is the one for what the steps
   put out.

   The second half is about machines with a stack: if a step changes the stack by at
   most one frame at the top, then what lies under a frame is what it was when that
   frame was pushed. -/
namespace Runs

section runs
variable {σ ι : Type} {step : ι → σ → Option σ} {C : σ → ι → Prop} {I : σ → Prop}

def exec (step : ι → σ → Option σ) : List ι → σ → Option σ
  | [], s => some s
  | i :: is, s => (step i s).bind (exec step is)

/-- Every step of the run meets `C`. -/
def Meets (step : ι → σ → Option σ) (C : σ → ι → Prop) : List ι → σ → Prop
  | [], _ => True
  | i :: is, s => C s i ∧ ∀ s' ∈ step i s, Meets step C is s'

instance Meets.decidable [∀ s i, Decidable (C s i)] :
    ∀ (is : List ι) (s : σ), Decidable (Meets step C is s)
  | [], _ => .isTrue trivial
  | i :: is, s =>
    match h : step i s with
    | none => decidable_of_iff (C s i) (by simp [Meets, h])
    | some s' =>
      have := Meets.decidable is s'
      decidable_of_iff (C s i ∧ Meets step C is s') (by simp [Meets, h])

theorem exec_cons {i : ι} {is : List ι} {s t : σ} (h : exec step (i :: is) s = some t) :
    ∃ u, step i s = some u ∧ exec step is u = some t := Option.bind_eq_some_iff.mp h

theorem exec_append (is js : List ι) (s : σ) :
    exec step (is ++ js) s = (exec step is s).bind (exec step js) := by
  induction is generalizing s with
  | nil => rfl
  | cons i is ih =>
    simp only [List.cons_append, exec, Option.bind_assoc]
    exact congrArg _ (funext ih)

/-- An invariant of the steps that meet `C` holds wherever such a run ends. -/
theorem exec_invariant (hstep : ∀ s i s', I s → C s i → step i s = some s' → I s')
    {is : List ι} {s t : σ} (hs : I s) (hC : Meets step C is s) (h : exec step is s = some t) :
    I t := by
  induction is generalizing s with
  | nil => cases h; exact hs
  | cons i is ih =>
    obtain ⟨u, hu, ht⟩ := exec_cons h
    exact ih (hstep s i u hs hC.1 hu) (hC.2 u hu) ht

/-- What the steps of a run put out, in order. -/
def collect {β : Type} (step : ι → σ → Option σ) (out : σ → ι → List β) : List ι → σ → List β
  | [], _ => []
  | i :: is, s => out s i ++ ((step i s).map (collect step out is)).getD []

/-- A relation of the state to what was put out, kept by the steps that meet `C`. -/
theorem exec_collect {β : Type} {out : σ → ι → List β} {R : σ → List β → Prop}
    (hstep : ∀ s i s' l, R s l → C s i → step i s = some s' → R s' (l ++ out s i))
    {is : List ι} {s t : σ} {l : List β} (hs : R s l) (hC : Meets step C is s)
    (h : exec step is s = some t) : R t (l ++ collect step out is s) := by
  induction is generalizing s l with
  | nil =>
    cases h
    simpa [collect] using hs
  | cons i is ih =>
    obtain ⟨u, hu, ht⟩ := exec_cons h
    have hrest := ih (hstep s i u l hs hC.1 hu) (hC.2 u hu) ht
    simpa [collect, hu, List.append_assoc] using hrest

/-- A condition that tells of each step whether it keeps a property tells of each run whether
    the property holds throughout it. -/
theorem holds_throughout_iff {P : σ → Prop} {A : σ → ι → Prop}
    (hstep : ∀ s i, I s → P s → A s i → ∃ s', step i s = some s' ∧ I s' ∧ (P s' ↔ C s i))
    {is : List ι} {s : σ} (hI : I s) (hP : P s) (hA : Meets step A is s) :
    (∀ is₁ t, is₁ <+: is → exec step is₁ s = some t → P t) ↔ Meets step C is s := by
  -- `I` is carried along the whole run, `P` as far as the conditions are met
  induction is generalizing s with
  | nil =>
    refine iff_of_true ?_ trivial
    intro is₁ t hprefix ht
    rw [List.prefix_nil.mp hprefix] at ht
    cases ht
    exact hP
  | cons i is ih =>
    obtain ⟨s', hs', hI', hiff⟩ := hstep s i hI hP hA.1
    have hrest := fun hP' => ih hI' hP' (hA.2 s' hs')
    constructor
    · intro hall
      -- the prefix of one step gives this condition, the longer ones those behind it
      have hP' : P s' := hall [i] s' ⟨is, rfl⟩ (by rw [exec, hs']; rfl)
      refine ⟨hiff.mp hP', fun u hu => ?_⟩
      rw [hs'] at hu
      cases hu
      refine (hrest hP').mp fun is₁ t hprefix ht => ?_
      exact hall (i :: is₁) t ((List.prefix_cons_inj i).mpr hprefix) (by rw [exec, hs']; exact ht)
    · rintro ⟨hC, hmeets⟩ is₁ t hprefix ht
      cases is₁ with
      | nil =>
        cases ht
        exact hP
      | cons j js =>
        obtain ⟨rfl, htail⟩ := List.cons_prefix_cons.mp hprefix
        obtain ⟨u, hu, ht⟩ := exec_cons ht
        rw [hs'] at hu
        cases hu
        exact (hrest (hiff.mpr hC)).mpr (hmeets s' hs') js t htail ht

theorem meets_true (is : List ι) (s : σ) : Meets step (fun _ _ => True) is s := by
  induction is generalizing s with
  | nil => trivial
  | cons i is ih => exact ⟨trivial, fun s' _ => ih s'⟩

/-- The first steps of a run that meets `C` meet it. -/
theorem Meets.left {is js : List ι} {s : σ} (h : Meets step C (is ++ js) s) :
    Meets step C is s := by
  induction is generalizing s with
  | nil => trivial
  | cons i is ih => exact ⟨h.1, fun s' hs' => ih (h.2 s' hs')⟩

/-- What lies at the bottom of a stack stays there while the stack is higher. -/
theorem suffix_kept {τ : Type} {stack : σ → List τ}
    (hstep : ∀ i s s', step i s = some s' → stack s' = stack s ∨
      (∃ a, stack s' = a :: stack s) ∨ ∃ a, stack s = a :: stack s')
    {base : List τ} {is : List ι} {s t : σ} (hbase : base <:+ stack s)
    (hdeeper : Meets step (fun s' _ => base.length < (stack s').length) is s)
    (h : exec step is s = some t) : base <:+ stack t := by
  have hinv : ∀ s i s', base <:+ stack s → base.length < (stack s).length →
      step i s = some s' → base <:+ stack s' := by
    intro s i s' hs hlt hss
    rcases hstep i s s' hss with heq | ⟨a, heq⟩ | ⟨a, heq⟩
    · rwa [heq]
    · rw [heq]; exact hs.trans (List.suffix_cons a _)
    · rw [heq] at hs
      -- the stack was higher than the base, so a pop leaves the base
      rcases List.suffix_cons_iff.mp hs with hall | htail
      · rw [hall, heq] at hlt
        exact absurd hlt (Nat.lt_irrefl _)
      · exact htail
  exact exec_invariant hinv hbase hdeeper h

end runs
end Runs

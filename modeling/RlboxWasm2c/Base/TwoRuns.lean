import RlboxWasm2c.Base.Traced

/- Two runs side by side. `Alike S x y R` says that from states related by `S` the
   computations `x` and `y` log the same events and end in states related by `S`, with values
   related by `R` or stopped for the same reason. The rules are those of `Obeys`, read for
   two runs: return, sequence, branch and the primitives.

   With `x = y` this is what an observer of one run can tell of its start: of two states that
   `S` relates, nothing. -/
namespace Traced
variable {σ τ ω ε ε' α β γ δ : Type}

/-- `x` with its reasons to stop renamed. -/
def Run.mapStop (f : ε → ε') (x : Run σ ω ε α) : Run σ ω ε' α := fun s =>
  ((x s).1.mapError f, (x s).2.1, (x s).2.2)

/-- Any log is allowed. -/
def Discipline.any : Discipline ω ε where
  done := fun _ => True
  stopped := fun _ _ => True
  nil := trivial
  append := fun _ _ => trivial
  stop_append := fun _ _ => trivial

/-- What is left of a discipline that says nothing about logs. -/
theorem obeys_any_iff {I : σ → Prop} {x : Run σ ω ε α} {Q : α → Prop} :
    Obeys .any I x Q ↔ ∀ s, I s → I (x s).2.1 ∧ ∀ a, (x s).1 = .ok a → Q a := by
  constructor
  · intro h s hs
    obtain ⟨hI, hend⟩ := h s hs
    refine ⟨hI, fun a ha => ?_⟩
    rw [ha] at hend
    exact hend.1
  · intro h s hs
    obtain ⟨hI, hvalue⟩ := h s hs
    refine ⟨hI, ?_⟩
    cases hend : (x s).1 with
    | ok a => exact ⟨hvalue a hend, trivial⟩
    | error e => trivial

/-! ## Outcomes -/

/-- Values related by `R`, or the same reason to stop. -/
inductive EndAlike (R : α → β → Prop) : Except ε α → Except ε β → Prop where
  | ok {a : α} {b : β} (related : R a b) : EndAlike R (.ok a) (.ok b)
  | stopped (e : ε) : EndAlike R (.error e) (.error e)

theorem EndAlike.eq {r r' : Except ε α} (h : EndAlike Eq r r') : r = r' := by
  cases h with
  | ok related => rw [related]
  | stopped e => rfl

theorem EndAlike.mapError {R : α → β → Prop} {r : Except ε α} {r' : Except ε β}
    (h : EndAlike R r r') (f : ε → ε') : EndAlike R (r.mapError f) (r'.mapError f) := by
  cases h with
  | ok related => exact .ok related
  | stopped e => exact .stopped (f e)

structure OutcomeAlike (S : σ → τ → Prop) (R : α → β → Prop)
    (r : Except ε α × σ × List ω) (r' : Except ε β × τ × List ω) : Prop where
  ends : EndAlike R r.1 r'.1
  state : S r.2.1 r'.2.1
  log : r.2.2 = r'.2.2

def Alike (S : σ → τ → Prop) (x : Run σ ω ε α) (y : Run τ ω ε β) (R : α → β → Prop) : Prop :=
  ∀ s t, S s t → OutcomeAlike S R (x s) (y t)

namespace Alike
variable {S S' : σ → τ → Prop} {x : Run σ ω ε α} {y : Run τ ω ε β} {R : α → β → Prop}
  {Q : γ → δ → Prop}

theorem pure' {a : α} {b : β} (h : R a b) :
    Alike S (pure a : Run σ ω ε α) (pure b : Run τ ω ε β) R :=
  fun _ _ hst => ⟨.ok h, hst, rfl⟩

theorem bind' {f : α → Run σ ω ε γ} {g : β → Run τ ω ε δ} (hx : Alike S x y R)
    (hf : ∀ a b, R a b → Alike S (f a) (g b) Q) : Alike S (x >>= f) (y >>= g) Q := by
  intro s t hst
  have hxs := hx s t hst
  rcases hs : x s with ⟨r, s', L⟩
  rcases ht : y t with ⟨r', t', L'⟩
  rw [hs, ht] at hxs
  obtain ⟨hends, hstate, hlog⟩ := hxs
  dsimp only at hends hstate hlog
  subst hlog
  cases hends with
  | stopped e =>
    rw [Run.bind_error hs, Run.bind_error ht]
    exact ⟨.stopped e, hstate, rfl⟩
  | ok related =>
    rw [Run.bind_ok hs, Run.bind_ok ht]
    obtain ⟨hends', hstate', hlog'⟩ := hf _ _ related _ _ hstate
    exact ⟨hends', hstate', congrArg (L ++ ·) hlog'⟩

theorem ite' {c : Prop} [Decidable c] {x' : Run σ ω ε α} {y' : Run τ ω ε β}
    (hx : c → Alike S x y R) (hy : ¬c → Alike S x' y' R) :
    Alike S (if c then x else x') (if c then y else y') R := by
  by_cases h : c
  · rw [if_pos h, if_pos h]
    exact hx h
  · rw [if_neg h, if_neg h]
    exact hy h

theorem get' : Alike S (Run.get : Run σ ω ε σ) Run.get S := fun _ _ hst => ⟨.ok hst, hst, rfl⟩

theorem modify' {f : σ → σ} {g : τ → τ} (h : ∀ s t, S s t → S (f s) (g t)) :
    Alike S (Run.modify f : Run σ ω ε Unit) (Run.modify g) Eq :=
  fun s t hst => ⟨.ok rfl, h s t hst, rfl⟩

theorem stop' (e : ε) : Alike S (Run.stop e : Run σ ω ε α) (Run.stop e : Run τ ω ε β) R :=
  fun _ _ hst => ⟨.stopped e, hst, rfl⟩

theorem mapStop' (h : Alike S x y R) (f : ε → ε') :
    Alike S (x.mapStop f) (y.mapStop f) R := by
  intro s t hst
  obtain ⟨hends, hstate, hlog⟩ := h s t hst
  exact ⟨hends.mapError f, hstate, hlog⟩

/-- A change of both states brings them closer for as long as `x` and `y` run. -/
theorem within {f : σ → σ} {g : τ → τ} (henter : ∀ s t, S s t → S' (f s) (g t))
    (hleave : ∀ s t, S' s t → S s t) (h : Alike S' x y R) :
    Alike S (Run.modify f >>= fun _ => x) (Run.modify g >>= fun _ => y) R := by
  intro s t hst
  obtain ⟨hends, hstate, hlog⟩ := h _ _ (henter s t hst)
  exact ⟨hends, hleave _ _ hstate, congrArg ([] ++ ·) hlog⟩

end Alike
end Traced

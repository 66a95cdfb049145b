import Mathlib.Data.List.Basic

/- Computations over a state that log events and may stop, and the logs they can
   leave. A `Discipline` says which logs a completed run and a stopped run may have;
   `Obeys D I x Q` says that from every state in `I` the run of `x` stays in `I`, logs
   what `D` allows, and returns a value in `Q` if it completes. The rules follow the
   program: return, sequence, branch, and the primitives. -/
namespace Traced

/-- A run ends with a value or is stopped with an `ε`; either way it leaves a state
    and the events it logged, in order. -/
def Run (σ ω ε α : Type) := σ → Except ε α × σ × List ω

namespace Run
variable {σ ω ε α β γ : Type}

instance : Monad (Run σ ω ε) where
  pure a := fun s => (.ok a, s, [])
  bind x f := fun s =>
    match x s with
    | (.ok a, s', L) => ((f a s').1, (f a s').2.1, L ++ (f a s').2.2)
    | (.error e, s', L) => (.error e, s', L)

def get : Run σ ω ε σ := fun s => (.ok s, s, [])

def modify (f : σ → σ) : Run σ ω ε Unit := fun s => (.ok (), f s, [])

def log (e : ω) : Run σ ω ε Unit := fun s => (.ok (), s, [e])

def stop (e : ε) : Run σ ω ε α := fun s => (.error e, s, [])

theorem bind_ok {x : Run σ ω ε α} {f : α → Run σ ω ε β} {s s' : σ} {a : α} {L : List ω}
    (h : x s = (.ok a, s', L)) :
    (x >>= f) s = ((f a s').1, (f a s').2.1, L ++ (f a s').2.2) := by
  change (match x s with | (.ok a, s', L) => _ | (.error e, s', L) => _) = _
  rw [h]

theorem bind_error {x : Run σ ω ε α} {f : α → Run σ ω ε β} {s s' : σ} {e : ε} {L : List ω}
    (h : x s = (.error e, s', L)) : (x >>= f) s = (.error e, s', L) := by
  change (match x s with | (.ok a, s', L) => _ | (.error e, s', L) => _) = _
  rw [h]

/-- The outcome `r` with the events `L` before its own. -/
def after (L : List ω) (r : Except ε α × σ × List ω) : Except ε α × σ × List ω :=
  (r.1, r.2.1, L ++ r.2.2)

@[simp] theorem after_value (L : List ω) (r : Except ε α × σ × List ω) :
    (after L r).1 = r.1 := rfl

@[simp] theorem after_state (L : List ω) (r : Except ε α × σ × List ω) :
    (after L r).2.1 = r.2.1 := rfl

@[simp] theorem after_log (L : List ω) (r : Except ε α × σ × List ω) :
    (after L r).2.2 = L ++ r.2.2 := rfl

@[simp] theorem after_nil (r : Except ε α × σ × List ω) : after [] r = r := rfl

@[simp] theorem after_after (L L' : List ω) (r : Except ε α × σ × List ω) :
    after L (after L' r) = after (L ++ L') r := by
  simp only [after, List.append_assoc]

theorem bind_after {x : Run σ ω ε α} {f : α → Run σ ω ε β} {s s' : σ} {a : α} {L : List ω}
    {r : Except ε β × σ × List ω} (hx : x s = (.ok a, s', L)) (hf : f a s' = r) :
    (x >>= f) s = after L r := by
  rw [bind_ok hx, hf]
  rfl

/-- The run from `s` ends with `r` in state `t`, whatever it logs. -/
def Ends (x : Run σ ω ε α) (s : σ) (r : Except ε α) (t : σ) : Prop := ∃ L, x s = (r, t, L)

theorem Ends.bind {x : Run σ ω ε α} {f : α → Run σ ω ε β} {s s' t : σ} {a : α}
    {r : Except ε β} (hx : Ends x s (.ok a) s') (hf : Ends (f a) s' r t) :
    Ends (x >>= f) s r t := by
  obtain ⟨L, hx⟩ := hx
  obtain ⟨L', hf⟩ := hf
  exact ⟨L ++ L', by rw [bind_ok hx, hf]⟩

theorem Ends.value {x : Run σ ω ε α} {s t : σ} {r : Except ε α} (h : Ends x s r t) :
    (x s).1 = r := by
  obtain ⟨L, hL⟩ := h
  rw [hL]

theorem Ends.state {x : Run σ ω ε α} {s t : σ} {r : Except ε α} (h : Ends x s r t) :
    (x s).2.1 = t := by
  obtain ⟨L, hL⟩ := h
  rw [hL]

theorem bind_assoc' (x : Run σ ω ε α) (f : α → Run σ ω ε β) (g : β → Run σ ω ε γ) :
    (x >>= f) >>= g = x >>= fun a => f a >>= g := by
  funext s
  rcases hx : x s with ⟨_ | a, s', L⟩
  · rw [bind_error (bind_error hx), bind_error hx]
  · rcases hf : f a s' with ⟨_ | b, s'', L'⟩
    · rw [bind_ok hx, bind_error hf]
      apply bind_error
      rw [bind_ok hx, hf]
    · rw [bind_ok hx, bind_ok hf, bind_ok (L := L ++ L') (by rw [bind_ok hx, hf])]
      simp only [List.append_assoc]

end Run

/-- The logs allowed to completed and to stopped runs. -/
structure Discipline (ω ε : Type) where
  done : List ω → Prop
  stopped : ε → List ω → Prop
  nil : done []
  append : ∀ {L L' : List ω}, done L → done L' → done (L ++ L')
  stop_append : ∀ {L L' : List ω} {e : ε}, done L → stopped e L' → stopped e (L ++ L')

variable {σ ω ε α β : Type}

def Obeys (D : Discipline ω ε) (I : σ → Prop) (x : Run σ ω ε α) (Q : α → Prop) : Prop :=
  ∀ s, I s →
    I (x s).2.1 ∧
    match (x s).1 with
    | .ok a => Q a ∧ D.done (x s).2.2
    | .error e => D.stopped e (x s).2.2

namespace Obeys
variable {D : Discipline ω ε} {I : σ → Prop} {Q : α → Prop} {R : β → Prop}

theorem pure' {a : α} (h : Q a) : Obeys D I (pure a) Q := fun _ hs => ⟨hs, h, D.nil⟩

theorem bind' {x : Run σ ω ε α} {f : α → Run σ ω ε β} (hx : Obeys D I x Q)
    (hf : ∀ a, Q a → Obeys D I (f a) R) : Obeys D I (x >>= f) R := by
  intro s hs
  have hxs := hx s hs
  rcases hrun : x s with ⟨r, s', L⟩
  rw [hrun] at hxs
  obtain ⟨hI, hxs⟩ := hxs
  cases r with
  | error e =>
    rw [Run.bind_error hrun]
    exact ⟨hI, hxs⟩
  | ok a =>
    rw [Run.bind_ok hrun]
    obtain ⟨hI', hfs⟩ := hf a hxs.1 s' hI
    refine ⟨hI', ?_⟩
    revert hfs
    cases (f a s').1 with
    | ok b => exact fun hfs => ⟨hfs.1, D.append hxs.2 hfs.2⟩
    | error e => exact fun hfs => D.stop_append hxs.2 hfs

theorem ite' {c : Prop} [Decidable c] {x y : Run σ ω ε α} (hx : c → Obeys D I x Q)
    (hy : ¬c → Obeys D I y Q) : Obeys D I (if c then x else y) Q := by
  by_cases h : c
  · rw [if_pos h]; exact hx h
  · rw [if_neg h]; exact hy h

theorem get' : Obeys D I Run.get I := fun _ hs => ⟨hs, hs, D.nil⟩

end Obeys
end Traced

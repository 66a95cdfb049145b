import Mathlib.Data.Finset.Basic
import Mathlib.Logic.Function.Basic
import Mathlib.Logic.Relation
import RlboxWasm2c.Base.Runs

/- Critical sections under a lock that is held by one writer or by any number of readers.

   A section is a program: `next op r s` makes one statement of operation `op` with the
   locals `r` on the guarded state `s`, or ends the section with a result. `step` is the
   machine of many threads, each of which calls an operation, acquires the lock in the mode
   of that operation, makes its statements one by one, releases the lock and leaves with the
   result. In `atomicStep` an operation is one step, `sem`.

   `exec_simulated`: a run of the machine, whatever the order of the statements, is a run of
   the atomic one, in which each operation takes place where its section ends. `Legal` says
   that the results are those of the operations one after the other in that order.
   `exec_drained`: from every state reached, the sections can be brought to their end. -/
namespace RwLock
open Runs

/-- How a guard holds the lock. -/
inductive Mode where
  | shared
  | exclusive
  deriving DecidableEq

structure Lock (τ : Type) where
  writer : Option τ
  readers : Finset τ

/-- What a thread is at. -/
inductive Activity (ω ρ α : Type) where
  | idle
  | waiting (op : ω)
  | inside (op : ω) (r : ρ)
  | finished (op : ω) (a : α)

/-- The sections of a program; `next` ends with `.inl` a result. -/
structure Sections (σ ω ρ α : Type) where
  mode : ω → Mode
  entry : ω → ρ
  next : ω → ρ → σ → α ⊕ (ρ × σ)

structure Config (τ σ ω ρ α : Type) where
  lock : Lock τ
  shared : σ
  threads : τ → Activity ω ρ α

inductive Move (τ ω : Type) where
  | call (t : τ) (op : ω)
  | acquire (t : τ)
  | run (t : τ)
  | release (t : τ)
  | leave (t : τ)
  deriving DecidableEq

section machine
variable {τ σ ω ρ α : Type} [DecidableEq τ]

namespace Lock

def free : Lock τ := ⟨none, ∅⟩

/-- A guard of the mode can be had. -/
def Grants (l : Lock τ) : Mode → Prop
  | .shared => l.writer = none
  | .exclusive => l.writer = none ∧ l.readers = ∅

instance (l : Lock τ) : DecidablePred l.Grants
  | .shared => inferInstanceAs (Decidable (l.writer = none))
  | .exclusive => inferInstanceAs (Decidable (l.writer = none ∧ l.readers = ∅))

def take (l : Lock τ) (t : τ) : Mode → Lock τ
  | .shared => { l with readers := insert t l.readers }
  | .exclusive => { l with writer := some t }

def drop (l : Lock τ) (t : τ) : Mode → Lock τ
  | .shared => { l with readers := l.readers.erase t }
  | .exclusive => { l with writer := none }

end Lock

/-- Thread `t` is at `x` now. -/
def Config.put (c : Config τ σ ω ρ α) (t : τ) (x : Activity ω ρ α) : Config τ σ ω ρ α :=
  { c with threads := Function.update c.threads t x }

def step (P : Sections σ ω ρ α) (m : Move τ ω) (c : Config τ σ ω ρ α) :
    Option (Config τ σ ω ρ α) :=
  match m with
  | .call t op =>
    match c.threads t with
    | .idle => some (c.put t (.waiting op))
    | _ => none
  | .acquire t =>
    match c.threads t with
    | .waiting op =>
      if c.lock.Grants (P.mode op) then
        some { c.put t (.inside op (P.entry op)) with lock := c.lock.take t (P.mode op) }
      else none
    | _ => none
  | .run t =>
    match c.threads t with
    | .inside op r =>
      match P.next op r c.shared with
      | .inr (r', s) => some { c.put t (.inside op r') with shared := s }
      | .inl _ => none
    | _ => none
  | .release t =>
    match c.threads t with
    | .inside op r =>
      match P.next op r c.shared with
      | .inl a => some { c.put t (.finished op a) with lock := c.lock.drop t (P.mode op) }
      | .inr _ => none
    | _ => none
  | .leave t =>
    match c.threads t with
    | .finished _ _ => some (c.put t .idle)
    | _ => none

/-! ## Sections on their own -/

/-- The section makes statements. -/
def Steps (P : Sections σ ω ρ α) (op : ω) : ρ × σ → ρ × σ → Prop :=
  Relation.ReflTransGen fun x y => P.next op x.1 x.2 = .inr y

/-- The section, begun in `s`, ends in `s'` with the result `a`. -/
def Ends (P : Sections σ ω ρ α) (op : ω) (s : σ) (a : α) (s' : σ) : Prop :=
  ∃ r, Steps P op (P.entry op, s) (r, s') ∧ P.next op r s' = .inl a

/-- Sections end, as `sem` says, and those under a shared guard only read. -/
structure Computes (P : Sections σ ω ρ α) (sem : ω → σ → α × σ) : Prop where
  ends : ∀ op s, Ends P op s (sem op s).1 (sem op s).2
  reads : ∀ op s y, P.mode op = .shared → Steps P op (P.entry op, s) y → y.2 = s

section sections
variable {P : Sections σ ω ρ α} {sem : ω → σ → α × σ} {op : ω}

/-- What a section has begun it ends the one way it can. -/
theorem Computes.finish (hP : Computes P sem) {s : σ} {x : ρ × σ}
    (h : Steps P op (P.entry op, s) x) :
    ∃ r, Steps P op x (r, (sem op s).2) ∧ P.next op r (sem op s).2 = .inl (sem op s).1 := by
  obtain ⟨r, hend, hret⟩ := hP.ends op s
  refine ⟨r, ?_, hret⟩
  have hunique : Relator.RightUnique fun x y : ρ × σ => P.next op x.1 x.2 = .inr y :=
    fun x y z hy hz => Sum.inr.inj (hy.symm.trans hz)
  rcases Relation.ReflTransGen.total_of_right_unique hunique h hend with hx | hx
  · exact hx
  · -- nothing comes after the end
    rcases Relation.ReflTransGen.cases_head hx with heq | ⟨y, hy, -⟩
    · exact heq ▸ .refl
    · exact absurd (hret.symm.trans hy) Sum.inl_ne_inr

theorem Computes.ends_eq (hP : Computes P sem) {s s' : σ} {r : ρ} {a : α}
    (h : Steps P op (P.entry op, s) (r, s')) (hret : P.next op r s' = .inl a) :
    sem op s = (a, s') := by
  obtain ⟨r', hx, hend⟩ := hP.finish h
  rcases Relation.ReflTransGen.cases_head hx with heq | ⟨y, hy, -⟩
  · obtain ⟨hr, hs⟩ := Prod.ext_iff.mp heq
    simp only at hr hs
    rw [← hr, ← hs, hret] at hend
    exact Prod.ext (Sum.inl.inj hend).symm hs.symm
  · exact absurd (hret.symm.trans hy) Sum.inl_ne_inr

/-- What is changed only by the statements that come to a marked place, and by none after
    them, is changed at most once. -/
theorem Computes.changes_once (hP : Computes P sem) {β : Type} {f : σ → β} {M : ρ → Prop}
    (hmark : ∀ op r s r' s', P.next op r s = .inr (r', s') →
      (¬M r ∧ M r') ∨ (M r ↔ M r') ∧ f s' = f s)
    {s s' : σ} {r : ρ} (h : Steps P op (P.entry op, s) (r, s')) :
    f s' = f s ∨ f s' = f (sem op s).2 := by
  have hbefore : ∀ x y, Steps P op x y → ¬M y.1 → ¬M x.1 ∧ f y.2 = f x.2 := by
    intro x y hxy
    induction hxy with
    | refl => exact fun hy => ⟨hy, rfl⟩
    | @tail u v _ huv ih =>
      intro hv
      rcases hmark op _ _ _ _ huv with hcross | ⟨hsame, hkeep⟩
      · exact absurd hcross.2 hv
      · obtain ⟨hx, hu⟩ := ih fun hmarked => hv (hsame.mp hmarked)
        exact ⟨hx, hkeep.trans hu⟩
  have hafter : ∀ x y, Steps P op x y → M x.1 → M y.1 ∧ f y.2 = f x.2 := by
    intro x y hxy hx
    induction hxy with
    | refl => exact ⟨hx, rfl⟩
    | @tail u v _ huv ih =>
      rcases hmark op _ _ _ _ huv with hcross | ⟨hsame, hkeep⟩
      · exact absurd ih.1 hcross.1
      · exact ⟨hsame.mp ih.1, hkeep.trans ih.2⟩
  by_cases hr : M r
  · obtain ⟨r', hrest, -⟩ := hP.finish h
    exact .inr (hafter _ _ hrest hr).2.symm
  · exact .inl (hbefore _ _ h hr).2

end sections

/-- Nobody has called anything yet. -/
def Config.start (s : σ) : Config τ σ ω ρ α := ⟨.free, s, fun _ => .idle⟩

/-! ## Operations as one step -/

/-- What the caller of an operation sees of a thread. -/
inductive Stage (ω α : Type) where
  | idle
  | waiting (op : ω)
  | finished (op : ω) (a : α)

def Activity.stage : Activity ω ρ α → Stage ω α
  | .idle => .idle
  | .waiting op | .inside op _ => .waiting op
  | .finished op a => .finished op a

/-- The state, the threads, and the operations done so far with their results. -/
structure Atomic (τ σ ω α : Type) where
  shared : σ
  threads : τ → Stage ω α
  log : List (τ × ω × α)

inductive AtomicMove (τ ω : Type) where
  | call (t : τ) (op : ω)
  | commit (t : τ)
  | leave (t : τ)
  deriving DecidableEq

def atomicStep (sem : ω → σ → α × σ) (m : AtomicMove τ ω) (x : Atomic τ σ ω α) :
    Option (Atomic τ σ ω α) :=
  match m with
  | .call t op =>
    match x.threads t with
    | .idle => some { x with threads := Function.update x.threads t (.waiting op) }
    | _ => none
  | .commit t =>
    match x.threads t with
    | .waiting op =>
      some
        { shared := (sem op x.shared).2
          threads := Function.update x.threads t (.finished op (sem op x.shared).1)
          log := x.log ++ [(t, op, (sem op x.shared).1)] }
    | _ => none
  | .leave t =>
    match x.threads t with
    | .finished _ _ => some { x with threads := Function.update x.threads t .idle }
    | _ => none

/-- The move of the atomic machine, if the caller sees one. -/
def Move.visible : Move τ ω → Option (AtomicMove τ ω)
  | .call t op => some (.call t op)
  | .release t => some (.commit t)
  | .leave t => some (.leave t)
  | .acquire _ | .run _ => none

def Atomic.start (s : σ) : Atomic τ σ ω α := ⟨s, fun _ => .idle, []⟩

/-- The operations, done one after the other from `s`, give these results and end in `s'`. -/
inductive Legal (sem : ω → σ → α × σ) (s : σ) : List (τ × ω × α) → σ → Prop where
  | nil : Legal sem s [] s
  | snoc (log : List (τ × ω × α)) (s' : σ) (t : τ) (op : ω) (h : Legal sem s log s') :
    Legal sem s (log ++ [(t, op, (sem op s').1)]) (sem op s').2

/-! ## The lock -/

section lock
variable {P : Sections σ ω ρ α} {l : Lock τ} {threads : τ → Activity ω ρ α} {t : τ}

/-- How the thread holds the lock. -/
def Activity.holds (P : Sections σ ω ρ α) : Activity ω ρ α → Option Mode
  | .inside op _ => some (P.mode op)
  | .idle | .waiting _ | .finished _ _ => none

/-- The lock knows who holds it, and a writer holds it alone. -/
structure Agrees (P : Sections σ ω ρ α) (l : Lock τ) (threads : τ → Activity ω ρ α) : Prop where
  writer : ∀ t, l.writer = some t ↔ (threads t).holds P = some .exclusive
  readers : ∀ t, t ∈ l.readers ↔ (threads t).holds P = some .shared
  alone : l.writer = none ∨ l.readers = ∅

theorem update_holds (x : Activity ω ρ α) (u : τ) :
    (Function.update threads t x u).holds P =
      if u = t then x.holds P else (threads u).holds P := by
  by_cases hu : u = t
  · rw [hu, Function.update_self, if_pos rfl]
  · rw [Function.update_of_ne hu, if_neg hu]

theorem Agrees.keep (h : Agrees P l threads) {x : Activity ω ρ α}
    (hx : x.holds P = (threads t).holds P) : Agrees P l (Function.update threads t x) := by
  have hsame : ∀ u, (Function.update threads t x u).holds P = (threads u).holds P := by
    intro u
    rw [update_holds]
    by_cases hu : u = t
    · rw [if_pos hu, hx, hu]
    · rw [if_neg hu]
  refine ⟨fun u => ?_, fun u => ?_, h.alone⟩
  · rw [hsame]
    exact h.writer u
  · rw [hsame]
    exact h.readers u

theorem Agrees.take (h : Agrees P l threads) {m : Mode} {x : Activity ω ρ α}
    (hgrants : l.Grants m) (hx : x.holds P = some m) :
    Agrees P (l.take t m) (Function.update threads t x) := by
  cases m with
  | shared =>
    have hwriter : l.writer = none := hgrants
    refine ⟨fun u => ?_, fun u => ?_, .inl hwriter⟩
    · rw [update_holds]
      by_cases hu : u = t
      · simp [Lock.take, hwriter, hu, hx]
      · rw [if_neg hu]
        exact h.writer u
    · rw [update_holds]
      by_cases hu : u = t
      · simp [Lock.take, hu, hx]
      · simpa [Lock.take, hu] using h.readers u
  | exclusive =>
    obtain ⟨hwriter, hreaders⟩ := hgrants
    refine ⟨fun u => ?_, fun u => ?_, .inr hreaders⟩
    · rw [update_holds]
      by_cases hu : u = t
      · simp [Lock.take, hu, hx]
      · have hother : ¬(threads u).holds P = some .exclusive := by
          rw [← h.writer u, hwriter]
          exact (Option.some_ne_none u).symm
        simpa [Lock.take, hu, Ne.symm hu] using hother
    · rw [update_holds]
      by_cases hu : u = t
      · simp [Lock.take, hreaders, hu, hx]
      · rw [if_neg hu]
        exact h.readers u

theorem Agrees.drop (h : Agrees P l threads) {m : Mode} {x : Activity ω ρ α}
    (hx : x.holds P = none) (hm : (threads t).holds P = some m) :
    Agrees P (l.drop t m) (Function.update threads t x) := by
  cases m with
  | shared =>
    refine ⟨fun u => ?_, fun u => ?_, h.alone.imp_right ?_⟩
    · rw [update_holds]
      by_cases hu : u = t
      · have hnot : ¬l.writer = some u := by
          rw [h.writer u, hu, hm]
          decide
        simpa [Lock.drop, hu, hx] using hu ▸ hnot
      · rw [if_neg hu]
        exact h.writer u
    · rw [update_holds]
      by_cases hu : u = t
      · simp [Lock.drop, hu, hx]
      · simpa [Lock.drop, hu] using h.readers u
    · intro hempty
      simp [Lock.drop, hempty]
  | exclusive =>
    have hwriter : l.writer = some t := (h.writer t).mpr hm
    refine ⟨fun u => ?_, fun u => ?_, .inl rfl⟩
    · rw [update_holds]
      by_cases hu : u = t
      · simp [Lock.drop, hu, hx]
      · have hother : ¬(threads u).holds P = some .exclusive := by
          rw [← h.writer u, hwriter]
          exact fun heq => hu (Option.some.inj heq).symm
        simpa [Lock.drop, hu] using hother
    · rw [update_holds]
      by_cases hu : u = t
      · have hne : ¬l.writer = none := hwriter ▸ Option.some_ne_none t
        have hempty : l.readers = ∅ := h.alone.resolve_left hne
        simp [Lock.drop, hempty, hu, hx]
      · rw [if_neg hu]
        exact h.readers u

omit [DecidableEq τ] in
/-- A writer excludes every other holder. -/
theorem Agrees.excludes (h : Agrees P l threads) {u : τ} {m : Mode}
    (ht : (threads t).holds P = some .exclusive) (hu : (threads u).holds P = some m) :
    u = t := by
  have hwriter : l.writer = some t := (h.writer t).mpr ht
  cases m with
  | exclusive => exact Option.some.inj (((h.writer u).mpr hu).symm.trans hwriter)
  | shared =>
    have hmem : u ∈ l.readers := (h.readers u).mpr hu
    rcases h.alone with hnone | hempty
    · exact absurd (hwriter.symm.trans hnone) (Option.some_ne_none t)
    · rw [hempty] at hmem
      exact absurd hmem (Finset.notMem_empty u)

omit [DecidableEq τ] in
/-- A lock that nobody holds is free. -/
theorem Agrees.free (h : Agrees P l threads) (hout : ∀ t, (threads t).holds P = none) :
    l = .free := by
  obtain ⟨writer, readers⟩ := l
  have hwriter : writer = none := by
    cases writer with
    | none => rfl
    | some u => exact absurd ((hout u).symm.trans ((h.writer u).mp rfl)) (by rintro ⟨⟩)
  have hreaders : readers = ∅ := by
    refine Finset.eq_empty_of_forall_notMem fun u hu => ?_
    exact absurd ((hout u).symm.trans ((h.readers u).mp hu)) (by rintro ⟨⟩)
  rw [hwriter, hreaders]
  rfl

end lock

/-! ## A run of statements is a run of operations -/

section simulation
variable {P : Sections σ ω ρ α} {sem : ω → σ → α × σ} {c c' : Config τ σ ω ρ α}
  {x : Atomic τ σ ω α}

/-- The threads are at the same stage, and every section inside was begun in the state of
    the atomic machine; without a writer the states are one. -/
structure Simulates (P : Sections σ ω ρ α) (c : Config τ σ ω ρ α) (x : Atomic τ σ ω α) :
    Prop where
  lock : Agrees P c.lock c.threads
  threads : x.threads = fun t => (c.threads t).stage
  begun : ∀ t op r, c.threads t = .inside op r → Steps P op (P.entry op, x.shared) (r, c.shared)
  settled : c.lock.writer = none → c.shared = x.shared

theorem stage_put (threads : τ → Activity ω ρ α) (t : τ) (y : Activity ω ρ α) :
    (fun u => (Function.update threads t y u).stage) =
      Function.update (fun u => (threads u).stage) t y.stage :=
  Function.comp_update Activity.stage threads t y

/-- A thread that is not inside is put elsewhere. -/
theorem Simulates.put (h : Simulates P c x) {t : τ} {y : Activity ω ρ α}
    (hy : y.holds P = none) (ht : (c.threads t).holds P = none) :
    Simulates P (c.put t y)
      { x with threads := Function.update x.threads t y.stage } where
  lock := h.lock.keep (hy.trans ht.symm)
  threads := by
    show Function.update x.threads t y.stage = _
    rw [h.threads]
    exact (stage_put c.threads t y).symm
  begun := by
    intro u op r hu
    by_cases hut : u = t
    · subst hut
      rw [show (c.put u y).threads u = y from Function.update_self ..] at hu
      rw [hu] at hy
      cases hy
    · exact h.begun u op r ((Function.update_of_ne hut ..).symm.trans hu)
  settled := h.settled

theorem Simulates.acquire (h : Simulates P c x) {t : τ} {op : ω}
    (ht : c.threads t = .waiting op) (hgrants : c.lock.Grants (P.mode op)) :
    Simulates P
      { c.put t (.inside op (P.entry op)) with lock := c.lock.take t (P.mode op) } x where
  lock := h.lock.take hgrants rfl
  threads := by
    rw [h.threads]
    show _ = fun u => (Function.update c.threads t _ u).stage
    have hstage : Activity.stage (.inside op (P.entry op) : Activity ω ρ α) =
        (c.threads t).stage := by
      rw [ht]
      rfl
    rw [stage_put, hstage]
    exact (Function.update_eq_self t _).symm
  begun := by
    have hnone : c.lock.writer = none := by
      cases hm : P.mode op with
      | shared => rw [hm] at hgrants; exact hgrants
      | exclusive => rw [hm] at hgrants; exact hgrants.1
    intro u op' r hu
    by_cases hut : u = t
    · subst hut
      cases (Function.update_self ..).symm.trans hu
      show Steps P op (P.entry op, x.shared) (P.entry op, c.shared)
      rw [h.settled hnone]
      exact .refl
    · exact h.begun u op' r ((Function.update_of_ne hut ..).symm.trans hu)
  settled := by
    show (c.lock.take t (P.mode op)).writer = none → c.shared = x.shared
    cases hm : P.mode op with
    | shared =>
      rw [hm] at hgrants
      exact fun _ => h.settled hgrants
    | exclusive => exact fun hwriter => absurd hwriter (Option.some_ne_none t)

omit [DecidableEq τ] in
/-- While there is a writer, the others are outside. -/
theorem Simulates.other_shared (h : Simulates P c x) {t u : τ} {op op' : ω} {r r' : ρ}
    (ht : c.threads t = .inside op r) (hu : c.threads u = .inside op' r') (hne : u ≠ t) :
    P.mode op = .shared := by
  cases hm : P.mode op with
  | shared => rfl
  | exclusive =>
    refine absurd (h.lock.excludes (m := P.mode op') ?_ ?_) hne
    · rw [ht, ← hm]
      rfl
    · rw [hu]
      rfl

omit [DecidableEq τ] in
/-- While there is a reader, there is no writer. -/
theorem Simulates.no_writer (h : Simulates P c x) {t : τ} {op : ω} {r : ρ}
    (ht : c.threads t = .inside op r) (hm : P.mode op = .shared) : c.lock.writer = none := by
  have hmem : t ∈ c.lock.readers := by
    refine (h.lock.readers t).mpr ?_
    rw [ht, ← hm]
    rfl
  refine h.lock.alone.resolve_right fun hempty => ?_
  rw [hempty] at hmem
  exact Finset.notMem_empty t hmem

omit [DecidableEq τ] in
/-- A statement under a shared guard only reads. -/
theorem Simulates.run_reads (hP : Computes P sem) (h : Simulates P c x) {t : τ} {op : ω}
    {r r' : ρ} {s : σ} (ht : c.threads t = .inside op r)
    (hnext : P.next op r c.shared = .inr (r', s)) (hm : P.mode op = .shared) : s = c.shared := by
  have hbegun := h.begun t op r ht
  have hbefore : c.shared = x.shared := hP.reads op x.shared _ hm hbegun
  have hafter : s = x.shared := hP.reads op x.shared (r', s) hm (hbegun.tail hnext)
  rw [hafter, hbefore]

theorem Simulates.run (hP : Computes P sem) (h : Simulates P c x) {t : τ} {op : ω} {r r' : ρ}
    {s : σ} (ht : c.threads t = .inside op r) (hnext : P.next op r c.shared = .inr (r', s)) :
    Simulates P { c.put t (.inside op r') with shared := s } x where
  lock := h.lock.keep (by rw [ht]; rfl)
  threads := by
    rw [h.threads]
    show _ = fun u => (Function.update c.threads t _ u).stage
    rw [stage_put, show Activity.stage (.inside op r') = (c.threads t).stage by rw [ht]; rfl]
    exact (Function.update_eq_self t _).symm
  begun := by
    intro u op' q hu
    by_cases hut : u = t
    · subst hut
      cases (Function.update_self ..).symm.trans hu
      exact (h.begun u op r ht).tail hnext
    · have hu' : c.threads u = .inside op' q := (Function.update_of_ne hut ..).symm.trans hu
      have hs : s = c.shared := h.run_reads hP ht hnext (h.other_shared ht hu' hut)
      show Steps P op' _ (q, s)
      rw [hs]
      exact h.begun u op' q hu'
  settled := by
    intro hnone
    have hm : P.mode op = .shared := by
      cases hm : P.mode op with
      | shared => rfl
      | exclusive =>
        have hwriter : c.lock.writer = some t := by
          refine (h.lock.writer t).mpr ?_
          rw [ht, ← hm]
          rfl
        exact absurd (hwriter.symm.trans hnone) (Option.some_ne_none t)
    show s = x.shared
    rw [h.run_reads hP ht hnext hm]
    exact h.settled hnone

theorem Simulates.release (hP : Computes P sem) (h : Simulates P c x) {t : τ} {op : ω} {r : ρ}
    {a : α} (ht : c.threads t = .inside op r) (hnext : P.next op r c.shared = .inl a) :
    sem op x.shared = (a, c.shared) ∧
      Simulates P { c.put t (.finished op a) with lock := c.lock.drop t (P.mode op) }
        { shared := c.shared
          threads := Function.update x.threads t (.finished op a)
          log := x.log ++ [(t, op, a)] } := by
  refine ⟨hP.ends_eq (h.begun t op r ht) hnext, ?_⟩
  constructor
  · exact h.lock.drop rfl (by rw [ht]; rfl)
  · show Function.update x.threads t _ = _
    rw [h.threads]
    exact (stage_put c.threads t (.finished op a)).symm
  · intro u op' q hu
    by_cases hut : u = t
    · subst hut
      cases (Function.update_self ..).symm.trans hu
    · -- a reader leaves another: neither wrote
      have hu' : c.threads u = .inside op' q := (Function.update_of_ne hut ..).symm.trans hu
      have hwriter := h.no_writer ht (h.other_shared ht hu' hut)
      have hbegun := h.begun u op' q hu'
      rw [← h.settled hwriter] at hbegun
      exact hbegun
  · intro _
    rfl

omit [DecidableEq τ] in
theorem start_simulates (s : σ) : Simulates P (.start s : Config τ σ ω ρ α) (.start s) where
  lock := ⟨fun _ => iff_of_false (by rintro ⟨⟩) (by rintro ⟨⟩),
    fun t => iff_of_false (Finset.notMem_empty t) (by rintro ⟨⟩), .inl rfl⟩
  threads := rfl
  begun := by rintro t op r ⟨⟩
  settled := fun _ => rfl

omit [DecidableEq τ] in
theorem Simulates.stage (h : Simulates P c x) {t : τ} {y : Activity ω ρ α}
    (ht : c.threads t = y) : x.threads t = y.stage := by
  rw [h.threads, ← ht]

theorem step_simulated (hP : Computes P sem) (h : Simulates P c x) {m : Move τ ω}
    (hstep : step P m c = some c') :
    ∃ x', exec (atomicStep sem) m.visible.toList x = some x' ∧ Simulates P c' x' := by
  cases m with
  | call t op =>
    simp only [step] at hstep
    split at hstep
    · next ht =>
      cases hstep
      have hx : x.threads t = .idle := h.stage ht
      refine ⟨_, ?_, h.put rfl (by rw [ht]; rfl)⟩
      simp [exec, Move.visible, atomicStep, hx, Activity.stage]
    · cases hstep
  | acquire t =>
    simp only [step] at hstep
    split at hstep
    · next op ht =>
      split at hstep
      · next hgrants =>
        cases hstep
        exact ⟨x, rfl, h.acquire ht hgrants⟩
      · cases hstep
    · cases hstep
  | run t =>
    simp only [step] at hstep
    split at hstep
    · next op r ht =>
      split at hstep
      · next r' s hnext =>
        cases hstep
        exact ⟨x, rfl, h.run hP ht hnext⟩
      · cases hstep
    · cases hstep
  | release t =>
    simp only [step] at hstep
    split at hstep
    · next op r ht =>
      split at hstep
      · next a hnext =>
        cases hstep
        obtain ⟨hsem, hnew⟩ := h.release hP ht hnext
        have hx : x.threads t = .waiting op := h.stage ht
        refine ⟨_, ?_, hnew⟩
        simp [exec, Move.visible, atomicStep, hx, hsem]
      · cases hstep
    · cases hstep
  | leave t =>
    simp only [step] at hstep
    split at hstep
    · next op a ht =>
      cases hstep
      have hx : x.threads t = .finished op a := h.stage ht
      refine ⟨_, ?_, h.put rfl (by rw [ht]; rfl)⟩
      simp [exec, Move.visible, atomicStep, hx, Activity.stage]
    · cases hstep

/-- Every run of statements is a run of operations, each done where its section ends. -/
theorem exec_simulated (hP : Computes P sem) (h : Simulates P c x) {ms : List (Move τ ω)}
    (hrun : exec (step P) ms c = some c') :
    ∃ x', exec (atomicStep sem) (ms.filterMap Move.visible) x = some x' ∧ Simulates P c' x' := by
  induction ms generalizing c x with
  | nil =>
    cases hrun
    exact ⟨x, rfl, h⟩
  | cons m ms ih =>
    obtain ⟨u, hu, hrest⟩ := exec_cons hrun
    obtain ⟨y, hy, hsim⟩ := step_simulated hP h hu
    obtain ⟨x', hx', hfinal⟩ := ih hsim hrest
    refine ⟨x', ?_, hfinal⟩
    have hsplit : (m :: ms).filterMap Move.visible =
        m.visible.toList ++ ms.filterMap Move.visible := by
      cases hm : m.visible <;> simp [hm]
    rw [hsplit, exec_append, hy]
    exact hx'

end simulation

/-! ## The operations one after the other -/

section legal
variable {sem : ω → σ → α × σ} {x x' : Atomic τ σ ω α} {s : σ}

omit [DecidableEq τ] in
/-- An entry of a legal log has what its operation does after those before it. -/
theorem Legal.entry {log : List (τ × ω × α)} {s s' : σ} (h : Legal sem s log s') :
    ∀ {before after : List (τ × ω × α)} {t : τ} {op : ω} {a : α},
      log = before ++ (t, op, a) :: after → ∃ u, Legal sem s before u ∧ a = (sem op u).1 := by
  induction h with
  | nil =>
    intro before after t op a heq
    exact absurd heq.symm (by simp)
  | snoc log u t' op' hlegal ih =>
    intro before after t op a heq
    rcases List.eq_nil_or_concat after with rfl | ⟨after, e, rfl⟩
    · obtain ⟨rfl, hlast⟩ := List.append_inj' heq rfl
      cases hlast
      exact ⟨u, hlegal, rfl⟩
    · rw [List.concat_eq_append, ← List.cons_append, ← List.append_assoc] at heq
      exact ih (List.append_inj' heq rfl).1

/-- The log is legal from `s`, and has what the threads were given. -/
structure Atomic.Recorded (sem : ω → σ → α × σ) (s : σ) (x : Atomic τ σ ω α) : Prop where
  legal : Legal sem s x.log x.shared
  results : ∀ t op a, x.threads t = .finished op a → (t, op, a) ∈ x.log

theorem atomicStep_recorded (m : AtomicMove τ ω) (h : x.Recorded sem s)
    (hstep : atomicStep sem m x = some x') : x'.Recorded sem s := by
  -- a thread put at another stage than `finished` needs no entry
  have hput : ∀ (t : τ) (y : Stage ω α), (∀ op a, y ≠ .finished op a) →
      ∀ u op a, Function.update x.threads t y u = .finished op a → (u, op, a) ∈ x.log := by
    intro t y hy u op a hu
    by_cases hut : u = t
    · rw [hut, Function.update_self] at hu
      exact absurd hu (hy op a)
    · rw [Function.update_of_ne hut] at hu
      exact h.results u op a hu
  cases m with
  | call t op =>
    simp only [atomicStep] at hstep
    split at hstep
    · cases hstep
      exact ⟨h.legal, hput t _ (by rintro op a ⟨⟩)⟩
    · cases hstep
  | commit t =>
    simp only [atomicStep] at hstep
    split at hstep
    · next op ht =>
      cases hstep
      refine ⟨.snoc _ _ t op h.legal, ?_⟩
      intro u op' a hu
      by_cases hut : u = t
      · subst hut
        cases (Function.update_self ..).symm.trans hu
        exact List.mem_append_right _ (List.mem_singleton.mpr rfl)
      · exact List.mem_append_left _
          (h.results u op' a ((Function.update_of_ne hut ..).symm.trans hu))
    · cases hstep
  | leave t =>
    simp only [atomicStep] at hstep
    split at hstep
    · cases hstep
      exact ⟨h.legal, hput t _ (by rintro op a ⟨⟩)⟩
    · cases hstep

omit [DecidableEq τ] in
theorem start_recorded (s : σ) : (Atomic.start s : Atomic τ σ ω α).Recorded sem s :=
  ⟨.nil, by rintro t op a ⟨⟩⟩

theorem exec_recorded {ms : List (AtomicMove τ ω)} (h : x.Recorded sem s)
    (hrun : exec (atomicStep sem) ms x = some x') : x'.Recorded sem s :=
  exec_invariant (fun _ m _ hx _ hstep => atomicStep_recorded m hx hstep) h
    (meets_true ms x) hrun

end legal

/-! ## No section is stuck -/

section progress
variable {P : Sections σ ω ρ α} {sem : ω → σ → α × σ} {c c' c'' : Config τ σ ω ρ α}
  {x : Atomic τ σ ω α}

/-- A move of a thread on its way through a section. -/
def Move.Internal : Move τ ω → Prop
  | .acquire _ | .run _ | .release _ => True
  | .call _ _ | .leave _ => False

/-- Some threads finish what they were called for, the others stay where they are. -/
def Onward (c c' : Config τ σ ω ρ α) : Prop :=
  ∀ t, c'.threads t = c.threads t ∨
    ∃ op a, (c.threads t).stage = .waiting op ∧ c'.threads t = .finished op a

def Reaches (P : Sections σ ω ρ α) (c c' : Config τ σ ω ρ α) : Prop :=
  ∃ ms : List (Move τ ω), (∀ m ∈ ms, m.Internal) ∧ exec (step P) ms c = some c'

theorem Reaches.refl (c : Config τ σ ω ρ α) : Reaches P c c :=
  ⟨[], fun _ hm => absurd hm List.not_mem_nil, rfl⟩

theorem Reaches.trans (h : Reaches P c c') (h' : Reaches P c' c'') : Reaches P c c'' := by
  obtain ⟨ms, hms, hrun⟩ := h
  obtain ⟨ms', hms', hrun'⟩ := h'
  refine ⟨ms ++ ms', ?_, ?_⟩
  · intro m hm
    exact (List.mem_append.mp hm).elim (hms m) (hms' m)
  · rw [exec_append, hrun]
    exact hrun'

theorem Reaches.one {m : Move τ ω} (hm : m.Internal) (h : step P m c = some c') :
    Reaches P c c' := by
  refine ⟨[m], ?_, ?_⟩
  · intro m' hm'
    exact List.mem_singleton.mp hm' ▸ hm
  · rw [exec, h]
    rfl

omit [DecidableEq τ] in
theorem Onward.trans (h : Onward c c') (h' : Onward c' c'') : Onward c c'' := by
  intro t
  rcases h' t with hsame | ⟨op, a, hwaiting, hfinished⟩
  · rw [hsame]
    exact h t
  · rcases h t with hsame | ⟨op', a', -, hfinished'⟩
    · exact .inr ⟨op, a, hsame ▸ hwaiting, hfinished⟩
    · rw [hfinished'] at hwaiting
      cases hwaiting

theorem put_onward {t : τ} {op : ω} {a : α} (ht : (c.threads t).stage = .waiting op)
    (hc' : c'.threads = Function.update c.threads t (.finished op a)) : Onward c c' := by
  intro u
  rw [hc']
  by_cases hu : u = t
  · subst hu
    exact .inr ⟨op, a, ht, Function.update_self ..⟩
  · exact .inl (Function.update_of_ne hu ..)

theorem Reaches.simulated (hP : Computes P sem) (h : Reaches P c c') (hx : Simulates P c x) :
    ∃ x', Simulates P c' x' := by
  obtain ⟨ms, -, hrun⟩ := h
  obtain ⟨x', -, hx'⟩ := exec_simulated hP hx hrun
  exact ⟨x', hx'⟩

/-- The statements of one thread, one after the other. -/
theorem steps_reaches {t : τ} {op : ω} {y z : ρ × σ} (h : Steps P op y z) :
    ∀ c : Config τ σ ω ρ α, c.threads t = .inside op y.1 → c.shared = y.2 →
      Reaches P c { c.put t (.inside op z.1) with shared := z.2 } := by
  induction h with
  | refl =>
    intro c ht hs
    have hself : c.put t (.inside op y.1) = c := by
      unfold Config.put
      rw [← ht, Function.update_eq_self]
    rw [hself, ← hs]
    exact .refl c
  | @tail u v _ hlast ih =>
    intro c ht hs
    refine (ih c ht hs).trans (.one (m := .run t) trivial ?_)
    simp only [step, Config.put, Function.update_self, hlast, Function.update_idem]

/-- A thread inside finishes on its own. -/
theorem finish_inside (hP : Computes P sem) (h : Simulates P c x) {t : τ} {op : ω} {r : ρ}
    (ht : c.threads t = .inside op r) :
    ∃ c' a, Reaches P c c' ∧ c'.threads = Function.update c.threads t (.finished op a) := by
  obtain ⟨r', hsteps, hret⟩ := hP.finish (h.begun t op r ht)
  let a := (sem op x.shared).1
  let u : Config τ σ ω ρ α := { c.put t (.inside op r') with shared := (sem op x.shared).2 }
  have hrelease : step P (.release t) u =
      some { u.put t (.finished op a) with lock := u.lock.drop t (P.mode op) } := by
    simp only [step, u, Config.put, Function.update_self, hret, a]
  refine ⟨_, a, (steps_reaches hsteps c ht rfl).trans (.one (m := .release t) trivial hrelease), ?_⟩
  simp only [u, Config.put, Function.update_idem]

/-- With nobody inside, a thread that waits gets the lock and finishes. -/
theorem finish_waiting (hP : Computes P sem) (h : Simulates P c x)
    (hout : ∀ t, (c.threads t).holds P = none) {t : τ} {op : ω} (ht : c.threads t = .waiting op) :
    ∃ c' a, Reaches P c c' ∧ c'.threads = Function.update c.threads t (.finished op a) := by
  have hgrants : c.lock.Grants (P.mode op) := by
    rw [h.lock.free hout]
    cases P.mode op with
    | shared => rfl
    | exclusive => exact ⟨rfl, rfl⟩
  have hacquire : step P (.acquire t) c =
      some { c.put t (.inside op (P.entry op)) with lock := c.lock.take t (P.mode op) } := by
    simp only [step, ht, hgrants, if_true]
  obtain ⟨c', a, hreach, hc'⟩ :=
    finish_inside hP (h.acquire ht hgrants) (Function.update_self ..)
  refine ⟨c', a, (Reaches.one (m := .acquire t) trivial hacquire).trans hreach, ?_⟩
  rw [hc']
  simp only [Config.put, Function.update_idem]

/-- Those inside finish, one after the other. -/
theorem drain_inside (hP : Computes P sem) (F : Finset τ) :
    ∀ c x, Simulates P c x → (∀ t, (c.threads t).holds P ≠ none → t ∈ F) →
      ∃ c', Reaches P c c' ∧ Onward c c' ∧ ∀ t, (c'.threads t).holds P = none := by
  induction F using Finset.induction_on with
  | empty =>
    intro c x _ hF
    refine ⟨c, .refl c, fun t => .inl rfl, fun t => ?_⟩
    by_contra hne
    exact Finset.notMem_empty t (hF t hne)
  | insert t F _ ih =>
    intro c x hc hF
    by_cases ht : (c.threads t).holds P = none
    · refine ih c x hc fun u hu => ?_
      exact (Finset.mem_insert.mp (hF u hu)).resolve_left fun heq => hu (heq ▸ ht)
    · obtain ⟨op, r, hinside⟩ : ∃ op r, c.threads t = .inside op r := by
        cases hx : c.threads t with
        | inside op r => exact ⟨op, r, rfl⟩
        | idle | waiting | finished => exact absurd (by rw [hx]; rfl) ht
      obtain ⟨c₁, a, hreach, hc₁⟩ := finish_inside hP hc hinside
      obtain ⟨x₁, hx₁⟩ := hreach.simulated hP hc
      have hstage : (c.threads t).stage = .waiting op := by rw [hinside]; rfl
      obtain ⟨c', hreach', honward, hout⟩ := ih c₁ x₁ hx₁ fun u hu => by
        rw [hc₁, update_holds] at hu
        by_cases hut : u = t
        · rw [if_pos hut] at hu
          exact absurd rfl hu
        · rw [if_neg hut] at hu
          exact (Finset.mem_insert.mp (hF u hu)).resolve_left hut
      exact ⟨c', hreach.trans hreach', (put_onward hstage hc₁).trans honward, hout⟩

/-- Those waiting get the lock, one after the other. -/
theorem drain_waiting (hP : Computes P sem) (F : Finset τ) :
    ∀ c x, Simulates P c x → (∀ t, (c.threads t).holds P = none) →
      (∀ t op, c.threads t = .waiting op → t ∈ F) →
      ∃ c', Reaches P c c' ∧ Onward c c' ∧ ∀ t op, (c'.threads t).stage ≠ .waiting op := by
  induction F using Finset.induction_on with
  | empty =>
    intro c x _ hout hF
    refine ⟨c, .refl c, fun t => .inl rfl, fun t op hstage => ?_⟩
    cases ht : c.threads t with
    | waiting op' => exact Finset.notMem_empty t (hF t op' ht)
    | inside op' r =>
      have hholds := hout t
      rw [ht] at hholds
      cases hholds
    | idle | finished =>
      rw [ht] at hstage
      cases hstage
  | insert t F _ ih =>
    intro c x hc hout hF
    by_cases ht : ∃ op, c.threads t = .waiting op
    · obtain ⟨op, ht⟩ := ht
      obtain ⟨c₁, a, hreach, hc₁⟩ := finish_waiting hP hc hout ht
      obtain ⟨x₁, hx₁⟩ := hreach.simulated hP hc
      have hstage : (c.threads t).stage = .waiting op := by rw [ht]; rfl
      have hout₁ : ∀ u, (c₁.threads u).holds P = none := by
        intro u
        rw [hc₁, update_holds]
        by_cases hut : u = t
        · rw [if_pos hut]
          rfl
        · rw [if_neg hut]
          exact hout u
      obtain ⟨c', hreach', honward, hdone⟩ := ih c₁ x₁ hx₁ hout₁ fun u op' hu => by
        rw [hc₁] at hu
        by_cases hut : u = t
        · subst hut
          cases (Function.update_self ..).symm.trans hu
        · rw [Function.update_of_ne hut] at hu
          exact (Finset.mem_insert.mp (hF u op' hu)).resolve_left hut
      exact ⟨c', hreach.trans hreach', (put_onward hstage hc₁).trans honward, hdone⟩
    · refine ih c x hc hout fun u op hu => ?_
      exact (Finset.mem_insert.mp (hF u op hu)).resolve_left fun heq => ht ⟨op, heq ▸ hu⟩

/-- A move puts one thread elsewhere. -/
theorem step_threads {m : Move τ ω} (h : step P m c = some c') :
    ∃ t y, c'.threads = Function.update c.threads t y := by
  cases m with
  | call t op | leave t =>
    simp only [step] at h
    split at h
    · cases h
      exact ⟨t, _, rfl⟩
    · cases h
  | acquire t | run t | release t =>
    simp only [step] at h
    split at h
    · split at h
      · cases h
        exact ⟨t, _, rfl⟩
      · cases h
    · cases h

/-- Only the threads that moved are not idle. -/
theorem exec_idle {F : Finset τ} {ms : List (Move τ ω)} (hF : ∀ t ∉ F, c.threads t = .idle)
    (hrun : exec (step P) ms c = some c') : ∃ F' : Finset τ, ∀ t ∉ F', c'.threads t = .idle := by
  refine exec_invariant (I := fun c : Config τ σ ω ρ α =>
    ∃ F : Finset τ, ∀ t ∉ F, c.threads t = .idle) ?_ ⟨F, hF⟩ (meets_true ms c) hrun
  intro s m s' hs _ hstep
  obtain ⟨F, hF⟩ := hs
  obtain ⟨t, y, hs'⟩ := step_threads hstep
  refine ⟨insert t F, fun u hu => ?_⟩
  obtain ⟨hne, hu⟩ := not_or.mp (mt Finset.mem_insert.mpr hu)
  rw [hs', Function.update_of_ne hne]
  exact hF u hu

/-- From every state reached by finitely many threads the sections can be brought to their
    end: whoever was called for something has it done, the others stay where they are, and
    the lock is free. -/
theorem drained (hP : Computes P sem) (h : Simulates P c x) {F : Finset τ}
    (hF : ∀ t ∉ F, c.threads t = .idle) :
    ∃ c', Reaches P c c' ∧ c'.lock = .free ∧ Onward c c' ∧
      ∀ t op, (c'.threads t).stage ≠ .waiting op := by
  obtain ⟨c₁, hreach₁, honward₁, hout₁⟩ := drain_inside hP F c x h fun t ht => by
    by_contra hnot
    rw [hF t hnot] at ht
    exact ht rfl
  obtain ⟨x₁, hx₁⟩ := hreach₁.simulated hP h
  obtain ⟨c₂, hreach₂, honward₂, hdone⟩ := drain_waiting hP F c₁ x₁ hx₁ hout₁ fun t op ht => by
    by_contra hnot
    rcases honward₁ t with hsame | ⟨op', a, -, hfinished⟩
    · rw [hsame, hF t hnot] at ht
      cases ht
    · rw [hfinished] at ht
      cases ht
  obtain ⟨x₂, hx₂⟩ := hreach₂.simulated hP hx₁
  refine ⟨c₂, hreach₁.trans hreach₂, hx₂.lock.free fun t => ?_, honward₁.trans honward₂, hdone⟩
  cases ht : c₂.threads t with
  | inside op r => exact absurd (by rw [ht]; rfl) (hdone t op)
  | idle | waiting | finished => rfl

/-! ## Reads without the lock -/

omit [DecidableEq τ] in
/-- What a section changes at most once is, for one that reads without the lock, as it was
    before the section or as it is after it. -/
theorem unlocked_read {β : Type} {f : σ → β} (h : Simulates P c x)
    (honce : ∀ op s r s', Steps P op (P.entry op, s) (r, s') →
      f s' = f s ∨ f s' = f (sem op s).2) :
    f c.shared = f x.shared ∨
      ∃ t op, x.threads t = .waiting op ∧ c.lock.writer = some t ∧
        f c.shared = f (sem op x.shared).2 := by
  cases hw : c.lock.writer with
  | none => exact .inl (by rw [h.settled hw])
  | some t =>
    obtain ⟨op, r, hinside⟩ : ∃ op r, c.threads t = .inside op r := by
      have hholds := (h.lock.writer t).mp hw
      cases hx : c.threads t with
      | inside op r => exact ⟨op, r, rfl⟩
      | idle | waiting | finished =>
        rw [hx] at hholds
        cases hholds
    refine (honce op _ _ _ (h.begun t op r hinside)).imp_right fun hafter => ?_
    exact ⟨t, op, h.stage hinside, rfl, hafter⟩

end progress

end machine
end RwLock

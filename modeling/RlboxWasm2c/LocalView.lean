import RlboxWasm2c.Nesting

/- One sandbox of the machine. `seenBy S` keeps the sandbox, the invocations on it and
   whether an exception is under way; `LocalStep` lists what a step can do to that, with
   what the machine, the nesting and the guest's contract say of the states around it.
   `step_local` is the simulation; the invariants of a sandbox are proved from it. -/
namespace RlboxWasm2c
open Blocks

/-- The invocations on sandbox `S`, innermost first. -/
def framesOn (S : SandboxId) : List Frame → List InvokeFrame
  | [] => []
  | .invoke f :: rest => if f.sandbox = S then f :: framesOn S rest else framesOn S rest
  | .callback _ :: rest => framesOn S rest

/-- The guest function of the innermost invocation, if there is one, waits for a callback
    or runs. -/
def TopRuns (fs : List InvokeFrame) : Prop := ∀ f ∈ fs.head?, f.RunsGuest

/-- The invocation `f` was made by the next one, or by host code while the guest function of
    the next one waits. -/
def MadeOver (f : InvokeFrame) : List InvokeFrame → Prop
  | [] => f.retBlock = none
  | g :: _ => Invoked f g ∨ g.RunsGuest ∧ f.retBlock = none

def Chain : List InvokeFrame → Prop
  | [] => True
  | f :: fs => f.WellFormed ∧ MadeOver f fs ∧ Chain fs

section chain
variable {S : SandboxId} {f : InvokeFrame} {fs : List InvokeFrame}

/-- Under the frames of other sandboxes there is a callback. -/
theorem topRuns_of_nested {stack : List Frame} (h : Nested stack)
    (hother : ∀ f rest, stack = .invoke f :: rest → f.sandbox ≠ S) :
    TopRuns (framesOn S stack) := by
  induction stack with
  | nil => intro f hf; cases hf
  | cons fr rest ih =>
    cases fr with
    | invoke f =>
      have hf : f.sandbox ≠ S := hother f rest rfl
      rw [framesOn, if_neg hf]
      apply ih h.tail
      intro g rest' hrest
      obtain ⟨-, hmade, -⟩ := h
      rw [hrest] at hmade
      exact hmade.1 ▸ hf
    | callback c =>
      obtain ⟨⟨f, rest', rfl, hruns⟩, hrest⟩ := h
      rw [framesOn]
      by_cases hf : f.sandbox = S
      · rw [framesOn, if_pos hf]
        intro g hg
        cases hg
        exact hruns
      · apply ih hrest
        intro g rest'' heq
        cases heq
        exact hf

theorem chain_of_nested {stack : List Frame} (h : Nested stack) (S : SandboxId) :
    Chain (framesOn S stack) := by
  induction stack with
  | nil => trivial
  | cons fr rest ih =>
    cases fr with
    | callback c => exact ih h.tail
    | invoke f =>
      obtain ⟨hwf, hmade, hrest⟩ := h
      unfold framesOn
      by_cases hf : f.sandbox = S
      · rw [if_pos hf]
        refine ⟨hwf, ?_, ih hrest⟩
        -- directly below is the invocation that made `f`, or a callback, or nothing
        cases rest with
        | nil => exact hmade
        | cons fr' rest' =>
          cases fr' with
          | invoke g =>
            rw [framesOn, if_pos (hmade.1.trans hf)]
            exact .inl hmade.2
          | callback c =>
            have hruns : TopRuns (framesOn S (.callback c :: rest')) :=
              topRuns_of_nested hrest fun _ _ heq => by cases heq
            cases hfs : framesOn S (.callback c :: rest') with
            | nil => exact hmade
            | cons g fs =>
              rw [hfs] at hruns
              exact .inr ⟨hruns g rfl, hmade⟩
      · rw [if_neg hf]
        exact ih hrest

/-- Below an invocation that is not malloc or free every guest function waits: for a
    callback, or for the recursive call of a class return. -/
theorem Chain.below (h : Chain (f :: fs)) (hother : ¬ f.call.Allocates) :
    ∀ g ∈ fs, g.pc = .body ∨ ∃ n, g.pc = .copyOut n := by
  induction fs generalizing f with
  | nil => intro g hg; cases hg
  | cons g fs ih =>
    obtain ⟨-, hmade, hchain⟩ := h
    have hwf : g.WellFormed := hchain.1
    have hg : ¬ g.call.Allocates ∧ (g.pc = .body ∨ ∃ n, g.pc = .copyOut n) := by
      rcases hmade with hinvoked | ⟨hruns, -⟩
      · cases hinvoked with
        | freeSlot _ hcall | freeArg _ hcall => rw [hcall] at hother; exact absurd (.inr rfl) hother
        | mallocSlot _ hcall | mallocArg _ _ hcall =>
          rw [hcall] at hother
          exact absurd (.inl rfl) hother
        | @recurse n _ hpc =>
          have hfits := hwf.fits
          rw [hpc] at hfits
          exact ⟨hwf.shaped.not_allocates hfits, .inr ⟨n, hpc⟩⟩
      · exact ⟨hruns.2, .inl hruns.1⟩
    intro k hk
    rcases List.mem_cons.mp hk with rfl | hk
    · exact hg.2
    · exact ih hchain hg.1 k hk

end chain

/-! ## The steps of one sandbox -/

/-- A sandbox, the invocations on it, and whether an exception is under way. -/
structure Local where
  box : Sandbox
  frames : List InvokeFrame
  raising : Bool

def World.seenBy (w : World) (S : SandboxId) : Local :=
  ⟨w.sandboxes S, framesOn S w.stack, w.raising.isSome⟩

/-- The steps of sandbox `S`; host code asks for a class of size `n` over the invocations
    `fs` only where `P fs n`. -/
inductive LocalStep (P : List InvokeFrame → ClassSize → Prop) (S : SandboxId) :
    Local → Local → Prop where
  | same (L : Local) : LocalStep P S L L
  | table {s : Sandbox} {fs : List InvokeFrame} {r : Bool} (t : Table) :
    LocalStep P S ⟨s, fs, r⟩ ⟨{ s with table := t }, fs, r⟩
  | raise {s : Sandbox} {fs : List InvokeFrame} (hruns : TopRuns fs) :
    LocalStep P S ⟨s, fs, false⟩ ⟨s, fs, true⟩
  | unwind {s : Sandbox} {f : InvokeFrame} {fs : List InvokeFrame} :
    LocalStep P S ⟨s, f :: fs, true⟩ ⟨s, fs, true⟩
  | caught {s : Sandbox} {fs : List InvokeFrame} (hruns : TopRuns fs) :
    LocalStep P S ⟨s, fs, true⟩ ⟨s, fs, false⟩
  -- host and guest code
  | invoke {s : Sandbox} {fs : List InvokeFrame} {call : Call} {old : Option SandboxId}
    (hruns : TopRuns fs) (hclass : ∀ n, call.retClass = some n → P fs n) :
    LocalStep P S ⟨s, fs, false⟩ ⟨s, newFrame S call old none s.memory :: fs, false⟩
  | store {s : Sandbox} {f : InvokeFrame} {fs : List InvokeFrame} {a : Nat} {bytes : List UInt8}
    (hpc : f.pc = .body) (hmay : MayStore s f a bytes.length) :
    LocalStep P S ⟨s, f :: fs, false⟩
      ⟨{ s with memory := s.memory.write a bytes }, f.note a bytes :: fs, false⟩
  | ret {s : Sandbox} {f : InvokeFrame} {fs : List InvokeFrame} {v : Nat} (hpc : f.pc = .body) :
    LocalStep P S ⟨s, f :: fs, false⟩ ⟨s, { f with pc := .freeArgs 0, ret := v } :: fs, false⟩
  -- the slot of a class return and the recursive call
  | plainReturn {s : Sandbox} {f : InvokeFrame} {fs : List InvokeFrame} (hpc : f.pc = .start)
    (hret : f.call.retClass = none) :
    LocalStep P S ⟨s, f :: fs, false⟩ ⟨s, { f with pc := .serialize } :: fs, false⟩
  | freeSlot {s : Sandbox} {f : InvokeFrame} {fs : List InvokeFrame} {n : ClassSize}
    {old : Option SandboxId} (hpc : f.pc = .start) (hret : f.call.retClass = some n)
    (hpos : s.returnSlotSize ≠ 0) :
    LocalStep P S ⟨s, f :: fs, false⟩
      ⟨s.release s.returnSlot,
        newFrame S (freeCall s.returnSlot) old none s.memory ::
          { f with pc := .mallocSlot n } :: fs, false⟩
  | noSlot {s : Sandbox} {f : InvokeFrame} {fs : List InvokeFrame} {n : ClassSize}
    (hpc : f.pc = .start) (hret : f.call.retClass = some n) :
    LocalStep P S ⟨s, f :: fs, false⟩ ⟨s, { f with pc := .mallocSlot n } :: fs, false⟩
  | slotFits {s : Sandbox} {f : InvokeFrame} {fs : List InvokeFrame} {n : ClassSize}
    (hpc : f.pc = .start) (hret : f.call.retClass = some n) (hsize : n.1 ≤ s.returnSlotSize) :
    LocalStep P S ⟨s, f :: fs, false⟩ ⟨s, { f with pc := .recurse n } :: fs, false⟩
  | mallocSlot {s : Sandbox} {f : InvokeFrame} {fs : List InvokeFrame} {n : ClassSize}
    {old : Option SandboxId} (hpc : f.pc = .mallocSlot n) :
    LocalStep P S ⟨s, f :: fs, false⟩
      ⟨s, newFrame S (mallocCall n.1) old none s.memory :: { f with pc := .setSlot n } :: fs, false⟩
  | slotTooBig {s : Sandbox} {f : InvokeFrame} {fs : List InvokeFrame} {n : ClassSize}
    (hpc : f.pc = .mallocSlot n) (hsize : 2 ^ 32 ≤ n.1) :
    LocalStep P S ⟨s, f :: fs, false⟩ ⟨s, { f with pc := .setSlot n } :: fs, true⟩
  | slotGranted {s : Sandbox} {f g : InvokeFrame} {fs : List InvokeFrame} {n : ClassSize}
    {i v : Nat} (hfree : f.pc = .freeArgs i) (hpc : g.pc = .setSlot n) (hgrants : Grants s n.1 v) :
    LocalStep P S ⟨s, f :: g :: fs, false⟩
      ⟨{ s.grant ⟨v, n.1⟩ with returnSlot := v, returnSlotSize := n.1 },
        { g with pc := .recurse n } :: fs, false⟩
  | recurse {s : Sandbox} {f : InvokeFrame} {fs : List InvokeFrame} {n : ClassSize}
    {old : Option SandboxId} (hpc : f.pc = .recurse n) :
    LocalStep P S ⟨s, f :: fs, false⟩
      ⟨s, newFrame S (f.call.promoted s.returnSlot) old (some ⟨s.returnSlot, n.1⟩) s.memory ::
        { f with pc := .copyOut n } :: fs, false⟩
  | recorded {s : Sandbox} {f g : InvokeFrame} {fs : List InvokeFrame} {n : ClassSize} {i a : Nat}
    (hfree : f.pc = .freeArgs i) (hpc : g.pc = .copyOut n) (hcall : f.call = g.call.promoted a)
    (hret : f.retBlock = some ⟨a, n.1⟩) :
    LocalStep P S ⟨s, f :: g :: fs, false⟩
      ⟨s,
        { g with
          slots := f.slots.map fun s => (s.1 - 1, s.2)
          passed := f.passed.tail
          freed := f.freed
          inner := some (⟨a, n.1⟩, f.own) } :: fs, false⟩
  | copyOutBad {s : Sandbox} {f : InvokeFrame} {fs : List InvokeFrame} {n : ClassSize}
    (hpc : f.pc = .copyOut n) : LocalStep P S ⟨s, f :: fs, false⟩ ⟨s, f :: fs, true⟩
  -- the class arguments
  | serializeArg {s : Sandbox} {f : InvokeFrame} {fs : List InvokeFrame} {k : Nat}
    {bytes : ClassBytes} {lvalue : Bool} {old : Option SandboxId} (hpc : f.pc = .serialize)
    (hpending : k ∈ f.pending) (hk : f.call.params[k]? = some ⟨.cls bytes, lvalue⟩) :
    LocalStep P S ⟨s, f :: fs, false⟩
      ⟨s,
        newFrame S (mallocCall bytes.1.length) old none s.memory ::
          { f with pc := .setArg k, pending := f.pending.erase k } :: fs, false⟩
  | argTooBig {s : Sandbox} {f : InvokeFrame} {fs : List InvokeFrame} {k : Nat}
    {bytes : ClassBytes} {lvalue : Bool} (hpc : f.pc = .serialize)
    (hpending : k ∈ f.pending) (hk : f.call.params[k]? = some ⟨.cls bytes, lvalue⟩) :
    LocalStep P S ⟨s, f :: fs, false⟩
      ⟨s, { f with pc := .setArg k, pending := f.pending.erase k } :: fs, true⟩
  | argStored {s : Sandbox} {f g : InvokeFrame} {fs : List InvokeFrame} {i k v : Nat}
    {bytes : ClassBytes} {lvalue : Bool} (hfree : f.pc = .freeArgs i) (hpc : g.pc = .setArg k)
    (hk : g.call.params[k]? = some ⟨.cls bytes, lvalue⟩)
    (hgrants : Grants s bytes.1.length v) :
    LocalStep P S ⟨s, f :: g :: fs, false⟩
      ⟨{ s.grant ⟨v, bytes.1.length⟩ with memory := s.memory.write v bytes.1 },
        { g with pc := .serialize, slots := g.slots ++ [(k, v)] } :: fs, false⟩
  | argBad {s : Sandbox} {f g : InvokeFrame} {fs : List InvokeFrame} {i k v : Nat}
    {bytes : ClassBytes} {lvalue : Bool} (hfree : f.pc = .freeArgs i) (hpc : g.pc = .setArg k)
    (hk : g.call.params[k]? = some ⟨.cls bytes, lvalue⟩)
    (hgrants : Grants s bytes.1.length v) :
    LocalStep P S ⟨s, f :: g :: fs, false⟩ ⟨s.grant ⟨v, bytes.1.length⟩, g :: fs, true⟩
  | enterBody {s : Sandbox} {f : InvokeFrame} {fs : List InvokeFrame} (hpc : f.pc = .serialize)
    (hpending : f.pending = []) :
    LocalStep P S ⟨s, f :: fs, false⟩
      ⟨s,
        { f with
          pc := .body
          passed := f.call.params.mapIdx fun k p => passedValue s.memory f.slots p k } :: fs, false⟩
  -- the return
  | freeArg {s : Sandbox} {f : InvokeFrame} {fs : List InvokeFrame} {i : Nat}
    {old : Option SandboxId} (hpc : f.pc = .freeArgs i) (hi : i < f.call.allocLength) :
    LocalStep P S ⟨s, f :: fs, false⟩
      ⟨s.release (((f.slots.map Prod.snd)[i]?).getD 0),
        newFrame S (freeCall (((f.slots.map Prod.snd)[i]?).getD 0)) old none s.memory ::
          { f with
            pc := .freeArgs (i + 1)
            freed := f.freed ++ [((f.slots.map Prod.snd)[i]?).getD 0] } :: fs, false⟩
  | exited {s : Sandbox} {f : InvokeFrame} {fs : List InvokeFrame}
    (hexit : (∃ n, f.pc = .copyOut n) ∨ ∃ i, f.pc = .freeArgs i)
    (htop : ∀ g ∈ fs.head?, ∀ n, g.pc ≠ .copyOut n) :
    LocalStep P S ⟨s, f :: fs, false⟩ ⟨s, fs, false⟩

/-! ## Steps elsewhere -/

/-- Neither the sandbox `S` nor the invocations on it differ. -/
def Untouched (S : SandboxId) (w w' : World) : Prop :=
  w'.sandboxes S = w.sandboxes S ∧ framesOn S w'.stack = framesOn S w.stack

section elsewhere
variable {S : SandboxId} {w w' : World} {f g : InvokeFrame} {rest : List Frame}

theorem framesOn_self (hf : f.sandbox = S) :
    framesOn S (.invoke f :: rest) = f :: framesOn S rest := if_pos hf

theorem framesOn_other (hf : f.sandbox ≠ S) :
    framesOn S (.invoke f :: rest) = framesOn S rest := if_neg hf

theorem Untouched.refl (w : World) : Untouched S w w := ⟨rfl, rfl⟩

theorem Untouched.setTop (h : Untouched S w w') (hstack : w'.stack = .invoke f :: rest)
    (hf : f.sandbox ≠ S) (hg : g.sandbox = f.sandbox) : Untouched S w (w'.setTop g rest) := by
  refine ⟨h.1, ?_⟩
  rw [World.setTop_stack, ← h.2, hstack, framesOn_other hf, framesOn_other (hg ▸ hf)]

theorem Untouched.onSandbox (h : Untouched S w w') {S' : SandboxId} {change : Sandbox → Sandbox}
    (hS : S' ≠ S) : Untouched S w (w'.onSandbox S' change) :=
  ⟨(World.onSandbox_of_ne w' change hS.symm).trans h.1, h.2⟩

theorem Untouched.raise (h : Untouched S w w') {e : Exn} : Untouched S w (w'.raise e) := h

theorem Untouched.hand (h : Untouched S w w') {bytes : List UInt8} :
    Untouched S w (w'.hand bytes) := h

theorem Untouched.enterInvoke (h : Untouched S w w') {S' : SandboxId} {call : Call}
    {retBlock : Option Block} (hS : S' ≠ S) : Untouched S w (enterInvoke w' S' call retBlock) :=
  ⟨h.1, (framesOn_other hS).trans h.2⟩

theorem Untouched.implMallocInSandbox (h : Untouched S w w') {S' : SandboxId} {size : Nat}
    (hS : S' ≠ S) : Untouched S w (implMallocInSandbox w' S' size) := by
  unfold RlboxWasm2c.implMallocInSandbox
  split
  · exact h.enterInvoke hS
  · exact h

theorem Untouched.leaveFrame (h : Untouched S w w') (hstack : w'.stack = .invoke f :: rest)
    (hf : f.sandbox ≠ S) : Untouched S w (leaveFrame w' (.invoke f) rest) := by
  refine ⟨h.1, ?_⟩
  rw [leaveFrame_stack, ← h.2, hstack, framesOn_other hf]

theorem Untouched.resume (h : Untouched S w w') (hstack : w'.stack = .invoke g :: rest)
    (hg : g.sandbox ≠ S) (v : Nat) : Untouched S w (resume w' g rest f v) := by
  have hcases := resume_cases w' g rest f v
  generalize RlboxWasm2c.resume w' g rest f v = w'' at hcases ⊢
  cases hcases with
  | slotFailed | argBad => exact (h.onSandbox hg).raise
  | slotGranted => exact (h.onSandbox hg).setTop hstack hg rfl
  | argStored => exact ((h.onSandbox hg).onSandbox hg).setTop hstack hg rfl
  | recorded => exact h.setTop hstack hg rfl
  | same => exact h

theorem Untouched.exitInvoke (h : Untouched S w w') (hstack : w'.stack = .invoke f :: rest)
    (hmade : MadeBy f rest) (hf : f.sandbox ≠ S) (v : Nat) :
    Untouched S w (exitInvoke w' f rest v) := by
  unfold RlboxWasm2c.exitInvoke
  split
  · exact (h.leaveFrame hstack hf).resume rfl (hmade.1 ▸ hf) v
  · exact h.leaveFrame hstack hf

theorem tickInvoke_untouched (hstack : w.stack = .invoke f :: rest) (hmade : MadeBy f rest)
    (hf : f.sandbox ≠ S) (hs : tickInvoke w f rest = some w') : Untouched S w w' := by
  have htop : ∀ {g : InvokeFrame}, g.sandbox = f.sandbox → Untouched S w (w.setTop g rest) :=
    fun hg => (Untouched.refl w).setTop hstack hf hg
  cases tickInvoke_cases hs with
  | plainReturn | noSlot | slotFits | enterBody => exact htop rfl
  | freeSlot | freeArg =>
    refine Untouched.enterInvoke (Untouched.onSandbox ?_ hf) hf
    exact htop rfl
  | mallocSlot =>
    refine Untouched.implMallocInSandbox ?_ hf
    exact htop rfl
  | recurse =>
    refine Untouched.enterInvoke ?_ hf
    exact htop rfl
  | copyOut =>
    refine Untouched.exitInvoke ?_ ?_ hmade hf 0
    · exact (Untouched.refl w).hand
    · exact hstack
  | copyOutBad => exact (Untouched.refl w).raise
  | done => exact (Untouched.refl w).exitInvoke hstack hmade hf f.ret

/-- A step that does not touch the sandbox is none, or the exception it raises. -/
theorem LocalStep.elsewhere {P : List InvokeFrame → ClassSize → Prop}
    (h : Untouched S w w') (hruns : TopRuns (framesOn S w.stack)) (hraising : w.raising = none) :
    LocalStep P S (w.seenBy S) (w'.seenBy S) := by
  unfold World.seenBy
  rw [h.1, h.2, hraising]
  cases w'.raising with
  | none => exact .same _
  | some e => exact .raise hruns

end elsewhere
/-! ## Steps on the sandbox -/

section steps
variable {P : List InvokeFrame → ClassSize → Prop} {S : SandboxId} {w w' : World}
  {f g : InvokeFrame} {rest : List Frame}

theorem seenBy_invoke (hstack : w.stack = .invoke f :: rest) (hf : f.sandbox = S)
    (hraising : w.raising = none) :
    w.seenBy S = ⟨w.sandboxes S, f :: framesOn S rest, false⟩ := by
  unfold World.seenBy
  rw [hstack, framesOn_self hf, hraising]
  rfl

theorem seenBy_parts {s : Sandbox} {fs : List InvokeFrame} {r : Bool}
    (hbox : w'.sandboxes S = s) (hframes : framesOn S w'.stack = fs)
    (hraising : w'.raising.isSome = r) : w'.seenBy S = ⟨s, fs, r⟩ := by
  unfold World.seenBy
  rw [hbox, hframes, hraising]

/-- A step to the state `w'`, given by its parts. -/
theorem LocalStep.to {L : Local} {s : Sandbox} {fs : List InvokeFrame} {r : Bool}
    (h : LocalStep P S L ⟨s, fs, r⟩) (hbox : w'.sandboxes S = s)
    (hframes : framesOn S w'.stack = fs) (hraising : w'.raising.isSome = r) :
    LocalStep P S L (w'.seenBy S) := by
  rwa [seenBy_parts hbox hframes hraising]

theorem topRuns_other (hstack : w.stack = .invoke f :: rest) (hnested : Nested w.stack)
    (hf : f.sandbox ≠ S) : TopRuns (framesOn S w.stack) := by
  refine topRuns_of_nested hnested fun g rest' heq => ?_
  rw [hstack] at heq
  cases heq
  exact hf

theorem framesOn_two (hf : f.sandbox = S) (hg : g.sandbox = S) :
    framesOn S (.invoke f :: .invoke g :: rest) = f :: g :: framesOn S rest := by
  rw [framesOn_self hf, framesOn_self hg]

/-- What was invoked by host code is left for host code. -/
theorem leaveFrame_local (hstack : w.stack = .invoke f :: rest) (hnested : Nested w.stack)
    (hhost : HostRuns rest) (hf : f.sandbox = S) (hraising : w.raising = none)
    (hexit : (∃ n, f.pc = .copyOut n) ∨ ∃ i, f.pc = .freeArgs i) :
    LocalStep P S (w.seenBy S) ((leaveFrame w (.invoke f) rest).seenBy S) := by
  rw [hstack] at hnested
  have hruns : TopRuns (framesOn S rest) :=
    topRuns_of_nested hnested.tail fun g rest' hrest => absurd hrest (hhost g rest')
  rw [seenBy_invoke hstack hf hraising]
  refine LocalStep.to (.exited hexit ?_) rfl rfl (congrArg Option.isSome hraising)
  intro g hg n hpc
  have hbody := (hruns g hg).1
  rw [hpc] at hbody
  cases hbody

/-- The return of an invocation without a class return. -/
theorem exitInvoke_local (hstack : w.stack = .invoke f :: rest) (hnested : Nested w.stack)
    (hf : f.sandbox = S) (hraising : w.raising = none) {i : Nat} (hpc : f.pc = .freeArgs i)
    (hgrants : ∀ n ∈ f.request, Grants (w.sandboxes f.sandbox) n f.ret) :
    LocalStep P S (w.seenBy S) ((exitInvoke w f rest f.ret).seenBy S) := by
  have hmade := (hstack ▸ hnested : Nested (.invoke f :: rest)).2.1
  cases rest with
  | nil => exact leaveFrame_local hstack hnested hostRuns_nil hf hraising (.inr ⟨i, hpc⟩)
  | cons fr rest =>
    cases fr with
    | callback c =>
      exact leaveFrame_local hstack hnested (hostRuns_callback c rest) hf hraising
        (.inr ⟨i, hpc⟩)
    | invoke g =>
      obtain ⟨hgf, hinvoked⟩ := hmade
      have hg : g.sandbox = S := hgf.trans hf
      subst hg
      rw [seenBy_invoke hstack hf hraising, framesOn_self rfl]
      -- the value a call of malloc made by `g` returned
      have hgrant : ∀ n, f.call = mallocCall n → Grants (w.sandboxes g.sandbox) n f.ret := by
        intro n hcall
        rw [← hf]
        apply hgrants
        unfold InvokeFrame.request
        rw [hpc, hcall]
        rfl
      have hleft : (leaveFrame w (.invoke f) (.invoke g :: rest)).raising.isSome = false :=
        congrArg Option.isSome hraising
      have hcases := resume_cases (leaveFrame w (.invoke f) (.invoke g :: rest)) g rest f f.ret
      change LocalStep P _ _ ((resume _ g rest f f.ret).seenBy g.sandbox)
      generalize resume _ g rest f f.ret = w' at hcases ⊢
      cases hcases with
      | slotFailed hpc' hv => exact absurd hv (hgrant _ (hinvoked.of_setSlot hpc')).1
      | slotGranted hpc' =>
        exact LocalStep.to (.slotGranted hpc hpc' (hgrant _ (hinvoked.of_setSlot hpc')))
          (by simp) (framesOn_self rfl) hleft
      | argStored hpc' hk =>
        exact LocalStep.to (.argStored hpc hpc' hk (hgrant _ (hinvoked.of_setArg hpc' hk)))
          (by simp [Sandbox.grant]) (framesOn_self rfl) hleft
      | argBad hpc' hk =>
        exact LocalStep.to (.argBad hpc hpc' hk (hgrant _ (hinvoked.of_setArg hpc' hk)))
          (by simp) (framesOn_self rfl) rfl
      | recorded hpc' =>
        obtain ⟨a, hcall, hret⟩ := hinvoked.of_copyOut hpc'
        refine LocalStep.to (.recorded hpc hpc' hcall hret) rfl ?_ hleft
        rw [hret]
        exact framesOn_self rfl
      | same _ hcopy =>
        refine LocalStep.to (.exited (.inr ⟨i, hpc⟩) ?_) rfl (framesOn_self rfl) hleft
        intro k hk
        cases hk
        exact hcopy

theorem exitInvoke_host (hhost : HostRuns rest) (v : Nat) :
    exitInvoke w f rest v = leaveFrame w (.invoke f) rest := by
  cases rest with
  | nil => rfl
  | cons fr rest =>
    cases fr with
    | callback c => rfl
    | invoke g => exact absurd rfl (hhost g rest)

/-- Only host code asks for a class. -/
theorem hostRuns_of_class {n : ClassSize} (hmade : MadeBy f rest)
    (hret : f.call.retClass = some n) : HostRuns rest := by
  rintro g rest' rfl
  have hnone := hmade.2.retClass
  rw [hret] at hnone
  cases hnone

theorem mallocInSandbox_local {L : Local} {size : Nat} (hstack : w.stack = .invoke f :: rest)
    (hS : f.sandbox = S) (hraising : w.raising = none)
    (hcall : ∀ old, LocalStep P S L ⟨w.sandboxes S,
      newFrame S (mallocCall size) old none (w.sandboxes S).memory :: f :: framesOn S rest, false⟩)
    (hbig : 2 ^ 32 ≤ size → LocalStep P S L ⟨w.sandboxes S, f :: framesOn S rest, true⟩) :
    LocalStep P S L ((implMallocInSandbox w S size).seenBy S) := by
  unfold implMallocInSandbox
  split
  · refine LocalStep.to (hcall w.threadData.sandbox) rfl ?_ (congrArg Option.isSome hraising)
    unfold enterInvoke
    rw [hstack]
    exact framesOn_two rfl hS
  · refine LocalStep.to (hbig (by omega)) rfl ?_ rfl
    change framesOn S w.stack = _
    rw [hstack, framesOn_self hS]

theorem freeInSandbox_local {L : Local} {p : Nat} (hstack : w.stack = .invoke f :: rest)
    (hS : f.sandbox = S) (hraising : w.raising = none)
    (hcall : ∀ old, LocalStep P S L ⟨(w.sandboxes S).release p,
      newFrame S (freeCall p) old none (w.sandboxes S).memory :: f :: framesOn S rest, false⟩) :
    LocalStep P S L
      ((implFreeInSandbox (w.onSandbox S fun s => s.release p) S p).seenBy S) := by
  have hbox := World.onSandbox_self w S fun s => s.release p
  unfold implFreeInSandbox enterInvoke
  refine LocalStep.to (hcall w.threadData.sandbox) hbox ?_ (congrArg Option.isSome hraising)
  rw [hbox]
  change framesOn S (_ :: w.stack) = _
  rw [hstack]
  exact framesOn_two rfl hS

theorem tickInvoke_local (hstack : w.stack = .invoke f :: rest) (hnested : Nested w.stack)
    (hraising : w.raising = none) (hcontract : GuestContract w .tick)
    (hs : tickInvoke w f rest = some w') : LocalStep P S (w.seenBy S) (w'.seenBy S) := by
  have hn : Nested (.invoke f :: rest) := hstack ▸ hnested
  -- an invocation of another sandbox is nothing to this one
  by_cases hf : f.sandbox = S
  case neg =>
    exact LocalStep.elsewhere (tickInvoke_untouched hstack hn.2.1 hf hs)
      (topRuns_other hstack hnested hf) hraising
  subst hf
  have hquiet : w.raising.isSome = false := congrArg Option.isSome hraising
  have hw := seenBy_invoke hstack rfl hraising
  have hfits := hn.1.fits
  cases tickInvoke_cases hs with
  | plainReturn hpc hret =>
    rw [hw]
    exact LocalStep.to (.plainReturn hpc hret) rfl (framesOn_self rfl) hquiet
  | freeSlot hpc hret hsize hpos =>
    rw [hw]
    exact freeInSandbox_local rfl rfl hraising fun _ => .freeSlot hpc hret hpos
  | noSlot hpc hret =>
    rw [hw]
    exact LocalStep.to (.noSlot hpc hret) rfl (framesOn_self rfl) hquiet
  | slotFits hpc hret hsize =>
    rw [hw]
    exact LocalStep.to (.slotFits hpc hret hsize) rfl (framesOn_self rfl) hquiet
  | mallocSlot hpc =>
    rw [hw]
    exact mallocInSandbox_local rfl rfl hraising (fun _ => .mallocSlot hpc) (.slotTooBig hpc)
  | recurse hpc =>
    rw [hw]
    exact LocalStep.to (.recurse hpc) rfl (framesOn_two rfl rfl) hquiet
  | @copyOut n hpc =>
    rw [hpc] at hfits
    rw [exitInvoke_host (hostRuns_of_class hn.2.1 hfits)]
    exact leaveFrame_local (w := w.hand _) hstack hnested (hostRuns_of_class hn.2.1 hfits) rfl
      hraising (.inl ⟨n, hpc⟩)
  | copyOutBad hpc =>
    rw [hw]
    exact LocalStep.to (.copyOutBad hpc) rfl (hstack ▸ framesOn_self rfl) rfl
  | enterBody hpc hpending =>
    rw [hw]
    exact LocalStep.to (.enterBody hpc hpending) rfl (framesOn_self rfl) hquiet
  | freeArg hpc hi =>
    rw [hw]
    exact freeInSandbox_local rfl rfl hraising fun _ => .freeArg hpc hi
  | done hpc =>
    refine exitInvoke_local hstack hnested rfl hraising hpc ?_
    exact hcontract f (by rw [World.running, hstack]; rfl)

theorem serializeArg_local {k : Nat} (hstack : w.stack = .invoke f :: rest)
    (hnested : Nested w.stack) (hraising : w.raising = none)
    (hs : serializeArg w f rest k = some w') : LocalStep P S (w.seenBy S) (w'.seenBy S) := by
  obtain ⟨hpc, hpending, bytes, lvalue, hk, rfl⟩ := serializeArg_cases hs
  by_cases hf : f.sandbox = S
  · subst hf
    rw [seenBy_invoke hstack rfl hraising]
    exact mallocInSandbox_local rfl rfl hraising (fun _ => .serializeArg hpc hpending hk)
      fun _ => .argTooBig hpc hpending hk
  · refine LocalStep.elsewhere ?_ (topRuns_other hstack hnested hf) hraising
    refine Untouched.implMallocInSandbox ?_ hf
    exact (Untouched.refl w).setTop hstack hf rfl

/-- Host code invokes a guest function: a step of the sandbox invoked. -/
theorem enterInvoke_local {S' : SandboxId} {call : Call} (hnested : Nested w.stack)
    (hhost : HostRuns w.stack) (hraising : w.raising = none)
    (hclass : ∀ n, call.retClass = some n → P (framesOn S' w.stack) n) :
    LocalStep P S (w.seenBy S) ((enterInvoke w S' call none).seenBy S) := by
  have hruns : ∀ S, TopRuns (framesOn S w.stack) := fun S =>
    topRuns_of_nested hnested fun g rest heq => absurd heq (hhost g rest)
  by_cases hS : S' = S
  · subst hS
    have hw : w.seenBy S' = ⟨w.sandboxes S', framesOn S' w.stack, false⟩ := by
      unfold World.seenBy
      rw [hraising]
      rfl
    rw [hw]
    exact LocalStep.to (.invoke (hruns S') hclass) rfl (framesOn_self rfl)
      (congrArg Option.isSome hraising)
  · exact LocalStep.elsewhere ((Untouched.refl w).enterInvoke hS) (hruns S) hraising

/-- A store on behalf of the guest function on top, for steps `R` that contain those of the
    sandbox. -/
theorem storeFor_seen {R : Local → Local → Prop} {a : Nat} {bytes : List UInt8}
    (hlocal : ∀ L, LocalStep P S (w.seenBy S) L → R (w.seenBy S) L)
    (hstack : w.stack = .invoke f :: rest) (hnested : Nested w.stack) (hraising : w.raising = none)
    (hstore : R ⟨w.sandboxes f.sandbox, f :: framesOn f.sandbox rest, false⟩
      ⟨{ w.sandboxes f.sandbox with memory := (w.sandboxes f.sandbox).memory.write a bytes },
        f.note a bytes :: framesOn f.sandbox rest, false⟩) :
    R (w.seenBy S) ((storeFor w f.sandbox f rest a bytes).seenBy S) := by
  by_cases hf : f.sandbox = S
  · subst hf
    have hafter : (storeFor w f.sandbox f rest a bytes).seenBy f.sandbox =
        ⟨{ w.sandboxes f.sandbox with memory := (w.sandboxes f.sandbox).memory.write a bytes },
          f.note a bytes :: framesOn f.sandbox rest, false⟩ := by
      have hbox := World.onSandbox_self w f.sandbox fun s =>
        { s with memory := s.memory.write a bytes }
      exact seenBy_parts hbox (framesOn_self rfl) (congrArg Option.isSome hraising)
    rw [seenBy_invoke hstack rfl hraising, hafter]
    exact hstore
  · refine hlocal _ (LocalStep.elsewhere ?_ (topRuns_other hstack hnested hf) hraising)
    exact ((Untouched.refl w).onSandbox hf).setTop hstack hf rfl

/-- While a callback runs the context is the sandbox that called it. -/
theorem context_calledBack {c : CallbackFrame} {outer : Option SandboxId}
    (hsound : SavedContext.Sound outer w.view)
    (hstack : w.stack = .callback c :: .invoke f :: rest) :
    w.threadData.sandbox = some f.sandbox := by
  have hcurrent := hsound.current
  unfold World.view at hcurrent
  rw [hstack] at hcurrent
  exact hcurrent

/-- A callback returns to the guest function that called it, whose sandbox is the context. -/
theorem leaveInterceptor_seen {R : Local → Local → Prop} {c : CallbackFrame} {bytes : List UInt8}
    (hlocal : ∀ L, LocalStep P S (w.seenBy S) L → R (w.seenBy S) L)
    (hstack : w.stack = .callback c :: .invoke f :: rest) (hnested : Nested w.stack)
    (hcontext : w.threadData.sandbox = some f.sandbox) (hraising : w.raising = none)
    (hstore : c.type.returnsClass = true → f.pc = .body →
      R ⟨w.sandboxes f.sandbox, f :: framesOn f.sandbox rest, false⟩
        ⟨{ w.sandboxes f.sandbox with memory := (w.sandboxes f.sandbox).memory.write c.ret bytes },
          f.note c.ret bytes :: framesOn f.sandbox rest, false⟩)
    (hs : leaveInterceptor w c (.invoke f :: rest) bytes = some w') :
    R (w.seenBy S) (w'.seenBy S) := by
  have hn : Nested (.callback c :: .invoke f :: rest) := hstack ▸ hnested
  -- a callback stands on guest code
  have hpc : f.pc = .body := by
    obtain ⟨⟨g, rest', heq, hruns⟩, -⟩ := hn
    cases heq
    exact hruns.1
  have hleave : w.seenBy S = (leaveFrame w (.callback c) (.invoke f :: rest)).seenBy S := by
    unfold World.seenBy
    rw [hstack]
    rfl
  rw [hleave] at hlocal ⊢
  have hruns : TopRuns (framesOn S (.callback c :: .invoke f :: rest)) :=
    topRuns_of_nested hn fun _ _ heq => by cases heq
  cases leaveInterceptor_cases hs with
  | plain => exact hlocal _ (.same _)
  | refused => exact hlocal _ (LocalStep.elsewhere (Untouched.refl _).raise hruns hraising)
  | stored hret hcontext' hrest =>
    cases hrest
    cases hcontext.symm.trans hcontext'
    refine storeFor_seen hlocal rfl hn.tail hraising (hstore ?_ hpc)
    unfold FuncType.returnsClass
    rw [hret]
    rfl

theorem hostStep_local {grow : GrowFuncrefTable} {a : HostAct} {outer : Option SandboxId}
    (hnested : Nested w.stack) (hsound : SavedContext.Sound outer w.view)
    (hhost : HostRuns w.stack) (hraising : w.raising = none)
    (hcontract : GuestContract w (.host a))
    (hclass : ∀ S' func n params, a = .invoke S' func (some n) params → P (framesOn S' w.stack) n)
    (hs : hostStep grow a w = some w') : LocalStep P S (w.seenBy S) (w'.seenBy S) := by
  have hruns : TopRuns (framesOn S w.stack) :=
    topRuns_of_nested hnested fun g rest heq => absurd heq (hhost g rest)
  cases a with
  | invoke S' func retClass params =>
    cases hs
    refine enterInvoke_local hnested hhost hraising fun n hn => hclass S' func n params ?_
    exact congrArg (HostAct.invoke S' func · params) hn
  | mallocInSandbox S' size =>
    cases hs
    unfold implMallocInSandbox
    split
    · exact enterInvoke_local hnested hhost hraising fun n hn => by cases hn
    · exact LocalStep.elsewhere (Untouched.refl w).raise hruns hraising
  | freeInSandbox S' p =>
    cases hs
    exact enterInvoke_local hnested hhost hraising fun n hn => by cases hn
  | table S' op =>
    cases hs
    by_cases hS : S' = S
    · subst hS
      exact LocalStep.to (.table _) (World.onSandbox_self ..) rfl rfl
    · exact LocalStep.elsewhere ((Untouched.refl w).onSandbox hS) hruns hraising
  | ret bytes =>
    unfold hostStep at hs
    dsimp only at hs
    split at hs
    · next c rest hstack =>
      obtain ⟨⟨f, rest', rfl, -⟩, -⟩ := (hstack ▸ hnested : Nested (.callback c :: rest))
      refine leaveInterceptor_seen (fun _ h => h) hstack hnested (context_calledBack hsound hstack)
        hraising (fun hclass hpc => .store hpc ?_) hs
      exact hcontract (c, f) (by rw [World.calledBack, hstack]; rfl) hclass
    · cases hs
  | throw =>
    cases hs
    exact LocalStep.elsewhere (Untouched.refl w).raise hruns hraising

theorem guestStep_local {grow : GrowFuncrefTable} {a : GuestAct}
    (hstack : w.stack = .invoke f :: rest) (hnested : Nested w.stack) (hpc : f.pc = .body)
    (hraising : w.raising = none) (hcontract : GuestContract w (.guest a))
    (hs : guestStep grow a w f rest = some w') : LocalStep P S (w.seenBy S) (w'.seenBy S) := by
  have hrunning : f ∈ w.running := by rw [World.running, hstack]; rfl
  unfold guestStep at hs
  cases a with
  | store a v =>
    dsimp only at hs
    split at hs
    · cases hs
      exact storeFor_seen (fun _ h => h) hstack hnested hraising
        (.store hpc (hcontract f hrunning))
    · cases hs
  | growTable delta init =>
    cases hs
    by_cases hf : f.sandbox = S
    · subst hf
      exact LocalStep.to (.table _) (World.onSandbox_self ..) rfl rfl
    · exact LocalStep.elsewhere ((Untouched.refl w).onSandbox hf)
        (topRuns_other hstack hnested hf) hraising
  | callSlot slot ret params =>
    have hruns : TopRuns (framesOn S w.stack) := by
      by_cases hf : f.sandbox = S
      · rw [hstack, framesOn_self hf]
        intro g hg
        cases hg
        exact ⟨hpc, hcontract f hrunning⟩
      · exact topRuns_other hstack hnested hf
    dsimp only at hs
    split at hs
    · obtain ⟨S', -, hcases⟩ := enterInterceptor_cases hs
      cases hcases with
      | refused => exact LocalStep.elsewhere ⟨rfl, rfl⟩ hruns hraising
      | called => exact .same _
    · cases hs
  | ret v =>
    cases hs
    by_cases hf : f.sandbox = S
    · subst hf
      rw [seenBy_invoke hstack rfl hraising]
      exact LocalStep.to (.ret hpc) rfl (framesOn_self rfl) (congrArg Option.isSome hraising)
    · exact LocalStep.elsewhere ((Untouched.refl w).setTop hstack hf rfl)
        (topRuns_other hstack hnested hf) hraising

/-- While an exception is under way a frame is left. -/
theorem unwind_local {fr : Frame} (hstack : w.stack = fr :: rest) (hraising : w.raising.isSome) :
    LocalStep P S (w.seenBy S) ((leaveFrame w fr rest).seenBy S) := by
  have hw : w.seenBy S = ⟨w.sandboxes S, framesOn S (fr :: rest), true⟩ := by
    unfold World.seenBy
    rw [hstack, hraising]
  rw [hw]
  cases fr with
  | callback c => exact LocalStep.to (.same _) rfl rfl hraising
  | invoke f =>
    by_cases hf : f.sandbox = S
    · rw [framesOn_self hf]
      exact LocalStep.to .unwind rfl rfl hraising
    · rw [framesOn_other hf]
      exact LocalStep.to (.same _) rfl rfl hraising

/-- Every step of the machine is a step of each sandbox. -/
theorem step_local (grow : GrowFuncrefTable) {i : Input} {outer : Option SandboxId}
    (hnested : Nested w.stack) (hsound : SavedContext.Sound outer w.view)
    (hcontract : GuestContract w i)
    (hclass : ∀ S' func n params, i = .host (.invoke S' func (some n) params) →
      P (framesOn S' w.stack) n)
    (hs : step grow i w = some w') : LocalStep P S (w.seenBy S) (w'.seenBy S) := by
  have hhostclass : ∀ a, i = .host a → ∀ S' func n params, a = .invoke S' func (some n) params →
      P (framesOn S' w.stack) n := by
    rintro a rfl S' func n params rfl
    exact hclass S' func n params rfl
  -- host code catches, outside of every invocation or in a callback
  have hcatch : HostRuns w.stack → w.raising.isSome →
      LocalStep P S (w.seenBy S) (World.seenBy { w with raising := none } S) := by
    intro hhost hraising
    have hruns : TopRuns (framesOn S w.stack) :=
      topRuns_of_nested hnested fun g rest heq => absurd heq (hhost g rest)
    have hw : w.seenBy S = ⟨w.sandboxes S, framesOn S w.stack, true⟩ := by
      unfold World.seenBy
      rw [hraising]
    rw [hw]
    exact LocalStep.to (.caught hruns) rfl rfl rfl
  unfold step at hs
  split at hs
  · next hraising hstack =>
    exact hostStep_local hnested hsound (hstack ▸ hostRuns_nil) hraising hcontract
      (hhostclass _ rfl) hs
  · next hraising hstack =>
    exact hostStep_local hnested hsound (hstack ▸ hostRuns_callback _ _) hraising hcontract
      (hhostclass _ rfl) hs
  · next hraising hstack =>
    split at hs
    · next hpc => exact guestStep_local hstack hnested hpc hraising hcontract hs
    · cases hs
  · next hraising hstack => exact serializeArg_local hstack hnested hraising hs
  · next hraising hstack => exact tickInvoke_local hstack hnested hraising hcontract hs
  · next hraising hstack =>
    cases hs
    exact unwind_local hstack (by rw [hraising]; rfl)
  · next hraising hstack =>
    cases hs
    exact hcatch (hstack ▸ hostRuns_nil) (by rw [hraising]; rfl)
  · next hraising hstack =>
    cases hs
    exact hcatch (hstack ▸ hostRuns_callback _ _) (by rw [hraising]; rfl)
  · cases hs

end steps

/-! ## Invariants of a sandbox -/

theorem Created.seenBy {w : World} (h : Created w) (S : SandboxId) :
    w.seenBy S = ⟨w.sandboxes S, [], false⟩ := by
  unfold World.seenBy
  rw [h.stack, h.raising]
  rfl

/-- What holds of every created sandbox and is kept by every step holds of every sandbox in
    every reached world, where invocations are nested. -/
theorem WorldReached.sandbox_invariant {grow : GrowFuncrefTable} {C : World → Input → Prop}
    {I : Local → Prop} {is : List Input} {w : World}
    (hcalls : ∀ w i, C w i → AllocatorsCallNothing w i)
    (hcreated : ∀ s : Sandbox, s.returnSlotSize = 0 → s.held = [] → I ⟨s, [], false⟩)
    (hstep : ∀ w i w' outer S, Nested w.stack → SavedContext.Sound outer w.view → C w i →
      step grow i w = some w' → I (w.seenBy S) → I (w'.seenBy S))
    (h : WorldReached grow C is w) : Nested w.stack ∧ ∀ S, I (w.seenBy S) := by
  obtain ⟨w₀, hw₀, hmeets, hexec⟩ := h
  have hinv := Runs.exec_invariant
    (I := fun w => Nested w.stack ∧ SavedContext.Sound w₀.threadData.sandbox w.view ∧
      ∀ S, I (w.seenBy S)) ?_ ?_ hmeets hexec
  · exact ⟨hinv.1, hinv.2.2⟩
  · rintro v i v' ⟨hnested, hsound, hlocal⟩ hC hv
    exact ⟨step_nested grow hnested (hcalls v i hC) hv,
      SavedContext.move_sound (step_move grow i v v' hv) hsound,
      fun S => hstep v i v' _ S hnested hsound hC hv (hlocal S)⟩
  · refine ⟨?_, hw₀.sound, fun S => ?_⟩
    · rw [hw₀.stack]
      trivial
    · rw [hw₀.seenBy S]
      exact hcreated _ (hw₀.slots S).1 (hw₀.slots S).2

/-- The same for what the steps of a sandbox keep, under the guest's contract. -/
theorem WorldReached.local_invariant {grow : GrowFuncrefTable} {C : World → Input → Prop}
    {P : List InvokeFrame → ClassSize → Prop} {I : Local → Prop} {is : List Input} {w : World}
    (hcontract : ∀ w i, C w i → GuestContract w i)
    (hclass : ∀ w i, C w i → ∀ S func n params, i = .host (.invoke S func (some n) params) →
      P (framesOn S w.stack) n)
    (hcreated : ∀ s : Sandbox, s.returnSlotSize = 0 → s.held = [] → I ⟨s, [], false⟩)
    (hstep : ∀ S L L', Chain L.frames → I L → LocalStep P S L L' → I L')
    (h : WorldReached grow C is w) : Nested w.stack ∧ ∀ S, I (w.seenBy S) := by
  refine h.sandbox_invariant (fun w i hC => (hcontract w i hC).calls) hcreated ?_
  intro w i w' outer S hnested hsound hC hs hI
  exact hstep S _ _ (chain_of_nested hnested S) hI
    (step_local grow hnested hsound (hcontract w i hC) (hclass w i hC) hs)

end RlboxWasm2c

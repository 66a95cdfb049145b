import RlboxWasm2c.Context

/- How invocations nest. An invocation directly above another was made by it, for the
   purpose its program counter says; a callback stands on a guest function that runs
   (`Nested`, kept by every step: `step_nested`). Seen from one sandbox, an invocation is
   made by the next one below it, or by host code while the next one's guest function
   waits for a callback (`Chain`), whatever the other sandboxes do in between.

   `GuestContract` is what guest code promises: it stores into no block held by an
   invocation but those handed to it, its allocator calls no callback, and malloc grants
   every request with a block that overlaps no held one. -/
namespace RlboxWasm2c
open Blocks
open MinWasi (Memory)

/-! ## What guest code promises -/

def Call.Allocates (c : Call) : Prop := c.func = .malloc ∨ c.func = .free

instance (c : Call) : Decidable c.Allocates :=
  inferInstanceAs (Decidable (c.func = .malloc ∨ c.func = .free))

/-- The addresses an invocation hands to its guest function. -/
def InvokeFrame.handed (f : InvokeFrame) : List Nat :=
  f.slots.map Prod.snd ++ (f.retBlock.map Block.addr).toList

/-- The guest function of `f` may store `n` bytes at `a`. -/
def MayStore (s : Sandbox) (f : InvokeFrame) (a n : Nat) : Prop :=
  ∀ b ∈ s.held, b.addr ∈ f.handed ∨ b.Disjoint ⟨a, n⟩

instance (s : Sandbox) (f : InvokeFrame) (a n : Nat) : Decidable (MayStore s f a n) :=
  inferInstanceAs (Decidable (∀ b ∈ s.held, b.addr ∈ f.handed ∨ b.Disjoint ⟨a, n⟩))

/-- A block for a request of `n` bytes. -/
def Grants (s : Sandbox) (n v : Nat) : Prop := v ≠ 0 ∧ ∀ b ∈ s.held, b.Disjoint ⟨v, n⟩

instance (s : Sandbox) (n v : Nat) : Decidable (Grants s n v) :=
  inferInstanceAs (Decidable (v ≠ 0 ∧ ∀ b ∈ s.held, b.Disjoint ⟨v, n⟩))

/-- The request that a call of malloc which has returned was made for. -/
def InvokeFrame.request (f : InvokeFrame) : Option Nat :=
  match f.pc, f.call with
  | .freeArgs _, ⟨.malloc, _, [⟨.scalar n, _⟩]⟩ => some n
  | _, _ => none

/-- The invocation on top. -/
def World.running (w : World) : Option InvokeFrame :=
  match w.stack with
  | .invoke f :: _ => some f
  | _ => none

/-- The callback on top, with the invocation that called it. -/
def World.calledBack (w : World) : Option (CallbackFrame × InvokeFrame) :=
  match w.stack with
  | .callback c :: .invoke f :: _ => some (c, f)
  | _ => none

def GuestContract (w : World) : Input → Prop
  | .guest (.store a _) => ∀ f ∈ w.running, MayStore (w.sandboxes f.sandbox) f a 1
  | .guest (.callSlot _ _ _) => ∀ f ∈ w.running, ¬ f.call.Allocates
  | .host (.ret bytes) => ∀ x ∈ w.calledBack, x.1.type.returnsClass = true →
      MayStore (w.sandboxes x.2.sandbox) x.2 x.1.ret bytes.length
  | .tick => ∀ f ∈ w.running, ∀ n ∈ f.request, Grants (w.sandboxes f.sandbox) n f.ret
  | _ => True

instance (w : World) : DecidablePred (GuestContract w)
  | .guest (.store a _) =>
    inferInstanceAs (Decidable (∀ f ∈ w.running, MayStore (w.sandboxes f.sandbox) f a 1))
  | .guest (.callSlot _ _ _) =>
    inferInstanceAs (Decidable (∀ f ∈ w.running, ¬ f.call.Allocates))
  | .host (.ret bytes) =>
    inferInstanceAs (Decidable (∀ x ∈ w.calledBack, x.1.type.returnsClass = true →
      MayStore (w.sandboxes x.2.sandbox) x.2 x.1.ret bytes.length))
  | .tick =>
    inferInstanceAs (Decidable (∀ f ∈ w.running, ∀ n ∈ f.request,
      Grants (w.sandboxes f.sandbox) n f.ret))
  | .host (.invoke ..) | .host (.mallocInSandbox ..) | .host (.freeInSandbox ..)
  | .host (.table ..) | .host .throw | .guest (.growTable ..) | .guest (.ret _)
  | .serializeArg _ | .unwind | .catch => .isTrue trivial

/-- malloc and free call no callback. -/
def AllocatorsCallNothing (w : World) : Input → Prop
  | .guest (.callSlot _ _ _) => ∀ f ∈ w.running, ¬ f.call.Allocates
  | _ => True

theorem GuestContract.calls {w : World} {i : Input} (h : GuestContract w i) :
    AllocatorsCallNothing w i := by
  unfold AllocatorsCallNothing
  split
  · exact h
  · trivial

/-! ## Who invoked whom -/

/-- malloc and free take one scalar and give no class. -/
def Call.Shaped (c : Call) : Prop :=
  c.Allocates → c.retClass = none ∧ ∃ v, c.params = [⟨.scalar v, false⟩]

/-- The return type an invocation with this program counter has. -/
def Pc.Fits (pc : Pc) (retClass : Option ClassSize) : Prop :=
  match pc with
  | .start => True
  | .mallocSlot n | .setSlot n | .recurse n | .copyOut n => retClass = some n
  | .serialize | .setArg _ | .body | .freeArgs _ => retClass = none

/-- The call is one the code makes, and the program counter on the path of its return. -/
structure InvokeFrame.WellFormed (f : InvokeFrame) : Prop where
  shaped : f.call.Shaped
  fits : f.pc.Fits f.call.retClass

/-- The guest function of `f` runs, and it is not malloc or free. -/
def InvokeFrame.RunsGuest (f : InvokeFrame) : Prop := f.pc = .body ∧ ¬ f.call.Allocates

/-- The invocation `f` was made by `g`. -/
inductive Invoked (f g : InvokeFrame) : Prop where
  | freeSlot {n : ClassSize} {p : Nat} (hpc : g.pc = .mallocSlot n) (hcall : f.call = freeCall p)
    (hret : f.retBlock = none)
  | mallocSlot {n : ClassSize} (hpc : g.pc = .setSlot n) (hcall : f.call = mallocCall n.1)
    (hret : f.retBlock = none)
  | recurse {n : ClassSize} {a : Nat} (hpc : g.pc = .copyOut n)
    (hcall : f.call = g.call.promoted a) (hret : f.retBlock = some ⟨a, n.1⟩)
  | mallocArg {k : Nat} {bytes : ClassBytes} {lvalue : Bool} (hpc : g.pc = .setArg k)
    (hk : g.call.params[k]? = some ⟨.cls bytes, lvalue⟩)
    (hcall : f.call = mallocCall bytes.1.length) (hret : f.retBlock = none)
  | freeArg {i p : Nat} (hpc : g.pc = .freeArgs i) (hcall : f.call = freeCall p)
    (hret : f.retBlock = none)

/-- The invocation `f` on `rest` was made by the invocation on top of `rest`, or by host
    code. -/
def MadeBy (f : InvokeFrame) : List Frame → Prop
  | .invoke g :: _ => g.sandbox = f.sandbox ∧ Invoked f g
  | _ => f.retBlock = none

def Nested : List Frame → Prop
  | [] => True
  | .invoke f :: rest => f.WellFormed ∧ MadeBy f rest ∧ Nested rest
  | .callback _ :: rest => (∃ f rest', rest = .invoke f :: rest' ∧ f.RunsGuest) ∧ Nested rest

theorem mallocCall_shaped (n : Nat) : (mallocCall n).Shaped := fun _ => ⟨rfl, n, rfl⟩

theorem freeCall_shaped (p : Nat) : (freeCall p).Shaped := fun _ => ⟨rfl, p, rfl⟩

theorem Call.Shaped.not_allocates {c : Call} (h : c.Shaped) {n : ClassSize}
    (hret : c.retClass = some n) : ¬ c.Allocates := by
  intro halloc
  have hnone := (h halloc).1
  rw [hret] at hnone
  cases hnone

theorem Call.Shaped.not_allocates_of_class {c : Call} (h : c.Shaped) {k : Nat}
    {bytes : ClassBytes} {lvalue : Bool} (hk : c.params[k]? = some ⟨.cls bytes, lvalue⟩) :
    ¬ c.Allocates := by
  intro halloc
  obtain ⟨-, v, hparams⟩ := h halloc
  rw [hparams] at hk
  cases k <;> cases hk

section nesting
variable {w w' : World} {f g : InvokeFrame} {rest : List Frame}

theorem newFrame_wellFormed {S : SandboxId} {call : Call} {old : Option SandboxId}
    {retBlock : Option Block} {memory : Memory} (h : call.Shaped) :
    (newFrame S call old retBlock memory).WellFormed := ⟨h, trivial⟩

/-- Who made an invocation, and what it made, are known by its call. -/
theorem Nested.setTop (h : Nested (.invoke f :: rest)) (hS : g.sandbox = f.sandbox)
    (hcall : g.call = f.call) (hret : g.retBlock = f.retBlock)
    (hfits : g.pc.Fits f.call.retClass) : Nested (.invoke g :: rest) := by
  obtain ⟨hwf, hmade, hrest⟩ := h
  refine ⟨⟨by rw [hcall]; exact hwf.shaped, by rwa [hcall]⟩, ?_, hrest⟩
  cases rest with
  | nil => exact hret.trans hmade
  | cons fr rest' =>
    cases fr with
    | callback c => exact hret.trans hmade
    | invoke k =>
      refine ⟨hmade.1.trans hS.symm, ?_⟩
      cases hmade.2 with
      | freeSlot hpc hc hr => exact .freeSlot hpc (hcall.trans hc) (hret.trans hr)
      | mallocSlot hpc hc hr => exact .mallocSlot hpc (hcall.trans hc) (hret.trans hr)
      | recurse hpc hc hr => exact .recurse hpc (hcall.trans hc) (hret.trans hr)
      | mallocArg hpc hk hc hr => exact .mallocArg hpc hk (hcall.trans hc) (hret.trans hr)
      | freeArg hpc hc hr => exact .freeArg hpc (hcall.trans hc) (hret.trans hr)

theorem Nested.push (h : Nested (.invoke g :: rest)) (hwf : f.WellFormed)
    (hS : g.sandbox = f.sandbox) (hinvoked : Invoked f g) :
    Nested (.invoke f :: .invoke g :: rest) := ⟨hwf, ⟨hS, hinvoked⟩, h⟩

theorem Nested.tail {fr : Frame} (h : Nested (fr :: rest)) : Nested rest := by
  cases fr with
  | invoke f => exact h.2.2
  | callback c => exact h.2

/-- No invocation is on top: host code runs. -/
def HostRuns (stack : List Frame) : Prop := ∀ f rest, stack ≠ .invoke f :: rest

theorem Nested.host (h : Nested rest) (hhost : HostRuns rest) (hwf : f.WellFormed)
    (hret : f.retBlock = none) : Nested (.invoke f :: rest) := by
  refine ⟨hwf, ?_, h⟩
  cases rest with
  | nil => exact hret
  | cons fr rest' =>
    cases fr with
    | callback c => exact hret
    | invoke g => exact absurd rfl (hhost g rest')

theorem hostRuns_nil : HostRuns [] := fun _ _ h => by cases h

theorem hostRuns_callback (c : CallbackFrame) (rest : List Frame) :
    HostRuns (.callback c :: rest) := fun _ _ h => by cases h

/-- What an invocation is for, from where its maker stands. -/
theorem Invoked.of_setSlot (h : Invoked f g) {n : ClassSize} (hpc : g.pc = .setSlot n) :
    f.call = mallocCall n.1 := by
  cases h with
  | mallocSlot hpc' hcall => rw [hpc] at hpc'; cases hpc'; exact hcall
  | freeSlot hpc' | recurse hpc' | mallocArg hpc' | freeArg hpc' => rw [hpc] at hpc'; cases hpc'

theorem Invoked.of_setArg (h : Invoked f g) {k : Nat} {bytes : ClassBytes} {lvalue : Bool}
    (hpc : g.pc = .setArg k) (hk : g.call.params[k]? = some ⟨.cls bytes, lvalue⟩) :
    f.call = mallocCall bytes.1.length := by
  cases h with
  | mallocArg hpc' hk' hcall =>
    rw [hpc] at hpc'
    cases hpc'
    rw [hk] at hk'
    cases hk'
    exact hcall
  | freeSlot hpc' | mallocSlot hpc' | recurse hpc' | freeArg hpc' => rw [hpc] at hpc'; cases hpc'

theorem Invoked.of_copyOut (h : Invoked f g) {n : ClassSize} (hpc : g.pc = .copyOut n) :
    ∃ a, f.call = g.call.promoted a ∧ f.retBlock = some ⟨a, n.1⟩ := by
  cases h with
  | recurse hpc' hcall hret => rw [hpc] at hpc'; cases hpc'; exact ⟨_, hcall, hret⟩
  | freeSlot hpc' | mallocSlot hpc' | mallocArg hpc' | freeArg hpc' => rw [hpc] at hpc'; cases hpc'

/-- What an invocation makes gives no class. -/
theorem Invoked.retClass (h : Invoked f g) : f.call.retClass = none := by
  cases h with
  | freeSlot _ hcall | mallocSlot _ hcall | recurse _ hcall | mallocArg _ _ hcall
  | freeArg _ hcall => rw [hcall]; rfl

/-! ## Every step keeps the nesting -/

theorem resume_nested (h : Nested (.invoke g :: rest)) (hstack : w.stack = .invoke g :: rest)
    (v : Nat) : Nested (resume w g rest f v).stack := by
  have hfits := h.1.fits
  have hcases := resume_cases w g rest f v
  generalize resume w g rest f v = w' at hcases ⊢
  cases hcases with
  | slotFailed => exact hstack ▸ h
  | slotGranted hpc =>
    rw [hpc] at hfits
    exact h.setTop rfl rfl rfl hfits
  | argStored hpc =>
    rw [hpc] at hfits
    exact h.setTop rfl rfl rfl hfits
  | argBad => exact hstack ▸ h
  | recorded hpc => exact h.setTop rfl rfl rfl hfits
  | same => exact hstack ▸ h

theorem exitInvoke_nested (h : Nested (.invoke f :: rest)) (v : Nat) :
    Nested (exitInvoke w f rest v).stack := by
  unfold exitInvoke
  split
  · exact resume_nested h.tail rfl v
  · exact h.tail

/-- An invocation of malloc made by the invocation on top. -/
theorem mallocInSandbox_nested (h : Nested (.invoke g :: rest)) {size : Nat}
    (hstack : w.stack = .invoke g :: rest)
    (hinvoked : ∀ old memory,
      Invoked (newFrame g.sandbox (mallocCall size) old none memory) g) :
    Nested (implMallocInSandbox w g.sandbox size).stack := by
  unfold implMallocInSandbox
  split
  · unfold enterInvoke
    rw [hstack]
    exact h.push (newFrame_wellFormed (mallocCall_shaped size)) rfl (hinvoked _ _)
  · exact hstack ▸ h

theorem tickInvoke_nested (h : Nested (.invoke f :: rest)) (hs : tickInvoke w f rest = some w')
    (hstack : w.stack = .invoke f :: rest) : Nested w'.stack := by
  have hfits := h.1.fits
  cases tickInvoke_cases hs with
  | plainReturn hpc hret => exact h.setTop rfl rfl rfl hret
  | freeSlot hpc hret =>
    exact (h.setTop (g := { f with pc := .mallocSlot _ }) rfl rfl rfl hret).push
      (newFrame_wellFormed (freeCall_shaped _)) rfl (.freeSlot rfl rfl rfl)
  | noSlot hpc hret => exact h.setTop rfl rfl rfl hret
  | slotFits hpc hret => exact h.setTop rfl rfl rfl hret
  | @mallocSlot n hpc =>
    rw [hpc] at hfits
    exact mallocInSandbox_nested (g := { f with pc := .setSlot n }) (h.setTop rfl rfl rfl hfits)
      rfl fun _ _ => .mallocSlot rfl rfl rfl
  | recurse hpc =>
    rw [hpc] at hfits
    have hshaped : (f.call.promoted (w.sandboxes f.sandbox).returnSlot).Shaped := fun halloc =>
      absurd halloc (h.1.shaped.not_allocates hfits)
    exact (h.setTop (g := { f with pc := .copyOut _ }) rfl rfl rfl hfits).push
      (newFrame_wellFormed hshaped) rfl (.recurse rfl rfl rfl)
  | copyOut => exact exitInvoke_nested h 0
  | copyOutBad => exact hstack ▸ h
  | enterBody hpc =>
    rw [hpc] at hfits
    exact h.setTop rfl rfl rfl hfits
  | @freeArg i hpc =>
    rw [hpc] at hfits
    exact (h.setTop (g := { f with pc := .freeArgs (i + 1), freed := _ }) rfl rfl rfl hfits).push
      (newFrame_wellFormed (freeCall_shaped _)) rfl (.freeArg rfl rfl rfl)
  | done => exact exitInvoke_nested h f.ret

theorem serializeArg_nested (h : Nested (.invoke f :: rest)) {k : Nat}
    (hs : serializeArg w f rest k = some w') : Nested w'.stack := by
  obtain ⟨hpc, -, bytes, lvalue, hk, rfl⟩ := serializeArg_cases hs
  have hfits := h.1.fits
  rw [hpc] at hfits
  exact mallocInSandbox_nested
    (g := { f with pc := .setArg k, pending := f.pending.erase k })
    (h.setTop rfl rfl rfl hfits) rfl fun _ _ => .mallocArg rfl hk rfl rfl

theorem hostStep_nested {grow : GrowFuncrefTable} {a : HostAct} (h : Nested w.stack)
    (hhost : HostRuns w.stack) (hs : hostStep grow a w = some w') : Nested w'.stack := by
  cases a with
  | invoke S func retClass params =>
    cases hs
    refine h.host hhost (newFrame_wellFormed ?_) rfl
    intro halloc
    cases halloc <;> contradiction
  | mallocInSandbox S size =>
    cases hs
    unfold implMallocInSandbox
    split
    · exact h.host hhost (newFrame_wellFormed (mallocCall_shaped size)) rfl
    · exact h
  | freeInSandbox S p =>
    cases hs
    exact h.host hhost (newFrame_wellFormed (freeCall_shaped p)) rfl
  | table S op => cases hs; exact h
  | ret bytes =>
    unfold hostStep at hs
    dsimp only at hs
    split at hs
    · next c rest hstack =>
      rw [hstack] at h
      obtain ⟨⟨f, rest', rfl, hruns⟩, hrest⟩ := h
      -- only the guest that called back gets anything, and it stays in its body
      cases leaveInterceptor_cases hs with
      | plain | refused => exact hrest
      | stored _ _ heq =>
        cases heq
        exact hrest.setTop rfl rfl rfl hrest.1.fits
    · cases hs
  | throw => cases hs; exact h

theorem guestStep_nested {grow : GrowFuncrefTable} {a : GuestAct} (h : Nested w.stack)
    (hstack : w.stack = .invoke f :: rest) (hpc : f.pc = .body)
    (hcalls : ∀ slot ret params, a = .callSlot slot ret params → ¬ f.call.Allocates)
    (hs : guestStep grow a w f rest = some w') : Nested w'.stack := by
  rw [hstack] at h
  have hfits := h.1.fits
  rw [hpc] at hfits
  unfold guestStep at hs
  cases a with
  | store a v =>
    dsimp only at hs
    split at hs
    · cases hs
      exact h.setTop rfl rfl rfl h.1.fits
    · cases hs
  | growTable delta init => cases hs; exact hstack ▸ h
  | callSlot slot ret params =>
    -- the caller is in its body and no allocator, so a callback may stand on it
    have hruns : f.RunsGuest := ⟨hpc, hcalls slot ret params rfl⟩
    dsimp only at hs
    split at hs
    · obtain ⟨S, -, hcases⟩ := enterInterceptor_cases hs
      cases hcases with
      | refused => exact hstack ▸ h
      | called => exact ⟨⟨f, rest, hstack, hruns⟩, hstack ▸ h⟩
    · cases hs
  | ret v => cases hs; exact h.setTop rfl rfl rfl hfits

theorem step_nested (grow : GrowFuncrefTable) {i : Input} (h : Nested w.stack)
    (hcalls : AllocatorsCallNothing w i) (hs : step grow i w = some w') : Nested w'.stack := by
  unfold step at hs
  split at hs
  · next hstack => exact hostStep_nested h (hstack ▸ hostRuns_nil) hs
  · next hstack => exact hostStep_nested h (hstack ▸ hostRuns_callback _ _) hs
  · next hstack =>
    split at hs
    · next hpc =>
      refine guestStep_nested h hstack hpc (fun slot ret params ha => ?_) hs
      subst ha
      exact hcalls _ (by rw [World.running, hstack]; rfl)
    · cases hs
  · next hstack => exact serializeArg_nested (hstack ▸ h) hs
  · next hstack => exact tickInvoke_nested (hstack ▸ h) hs hstack
  · next fr rest hstack =>
    cases hs
    rw [hstack] at h
    rw [leaveFrame_stack]
    exact h.tail
  · cases hs; exact h
  · cases hs; exact h
  · cases hs

end nesting
end RlboxWasm2c

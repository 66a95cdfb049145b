import RlboxWasm2c.Base.Interleave
import RlboxWasm2c.Context

/- The machine of invocations and callbacks on several threads.

   `thread_data` is `thread_local`: every thread has its own context, its own stack and its
   own exception, the sandboxes are there for all (`Threads`). A step of the process is a
   step of the machine of `Invocation` on one thread (`threadStep`); the threads take turns
   in any order.

   Where each sandbox is used by one thread only, threads do not disturb each other: what a
   thread does in the process is what it does alone (`threads_apart`, by the rules of
   `Interleave`), so what was proved of one thread holds of each. Which sandbox a thread uses
   is told by what its host code names (`HostAct.named`); guest code, callbacks and the scope
   exits stay within those (`step_within`). -/
namespace RlboxWasm2c
open Runs

/-- What host code names. -/
def HostAct.named : HostAct → Option SandboxId
  | .invoke S _ _ _ | .mallocInSandbox S _ | .freeInSandbox S _ | .table S _ => some S
  | .ret _ | .throw => none

def Input.named : Input → Option SandboxId
  | .host a => a.named
  | .guest _ | .serializeArg _ | .tick | .unwind | .catch => none

/-- The invocation is on a sandbox of `A`, and so is what it goes back to. -/
def InvokeFrame.Within (A : SandboxId → Prop) (f : InvokeFrame) : Prop :=
  A f.sandbox ∧ ∀ S ∈ f.oldSandbox, A S

/-- The thread is in sandboxes of `A` only. -/
structure World.Within (ptr32 : Bool) (A : SandboxId → Prop) (w : World) : Prop where
  ptr32 : w.ptr32 = ptr32
  context : ∀ S ∈ w.threadData.sandbox, A S
  frames : ∀ f, .invoke f ∈ w.stack → f.Within A

namespace World.Within
variable {ptr32 : Bool} {A : SandboxId → Prop} {w : World} {f g : InvokeFrame} {rest : List Frame}

theorem top (h : w.Within ptr32 A) (hstack : w.stack = .invoke f :: rest) : f.Within A :=
  h.frames f (hstack ▸ List.mem_cons_self ..)

/-- Other data, the same frames or fewer. -/
theorem frames_sub {w' : World} (h : w.Within ptr32 A) (hptr : w'.ptr32 = w.ptr32)
    (hcontext : ∀ S ∈ w'.threadData.sandbox, A S)
    (hframes : ∀ f, .invoke f ∈ w'.stack → .invoke f ∈ w.stack ∨ f.Within A) :
    w'.Within ptr32 A where
  ptr32 := hptr.trans h.ptr32
  context := hcontext
  frames := fun f hf => (hframes f hf).elim (h.frames f) id

theorem onSandbox (h : w.Within ptr32 A) (S : SandboxId) (change : Sandbox → Sandbox) :
    (w.onSandbox S change).Within ptr32 A := ⟨h.ptr32, h.context, h.frames⟩

theorem raise (h : w.Within ptr32 A) (e : Exn) : (w.raise e).Within ptr32 A :=
  ⟨h.ptr32, h.context, h.frames⟩

theorem hand (h : w.Within ptr32 A) (bytes : List UInt8) : (w.hand bytes).Within ptr32 A :=
  ⟨h.ptr32, h.context, h.frames⟩

theorem setTop (h : w.Within ptr32 A) (hstack : w.stack = .invoke f :: rest)
    (hS : g.sandbox = f.sandbox) (hold : g.oldSandbox = f.oldSandbox) :
    (w.setTop g rest).Within ptr32 A := by
  refine h.frames_sub rfl h.context fun k hk => ?_
  rcases List.mem_cons.mp hk with heq | hrest
  · cases heq
    right
    unfold InvokeFrame.Within
    rw [hS, hold]
    exact h.top hstack
  · exact .inl (hstack ▸ List.mem_cons_of_mem _ hrest)

theorem enterInvoke (h : w.Within ptr32 A) {S : SandboxId} (hS : A S) (call : Call)
    (retBlock : Option Blocks.Block) : (enterInvoke w S call retBlock).Within ptr32 A := by
  refine h.frames_sub rfl ?_ fun k hk => ?_
  · intro S' hS'
    cases hS'
    exact hS
  · rcases List.mem_cons.mp hk with heq | hrest
    · cases heq
      exact .inr ⟨hS, h.context⟩
    · exact .inl hrest

theorem implMallocInSandbox (h : w.Within ptr32 A) {S : SandboxId} (hS : A S) (size : Nat) :
    (implMallocInSandbox w S size).Within ptr32 A := by
  unfold RlboxWasm2c.implMallocInSandbox
  split
  · exact h.enterInvoke hS _ _
  · exact h.raise _

theorem leaveFrame (h : w.Within ptr32 A) {fr : Frame} (hstack : w.stack = fr :: rest) :
    (leaveFrame w fr rest).Within ptr32 A := by
  have hframes : ∀ k, .invoke k ∈ rest → .invoke k ∈ w.stack :=
    fun k hk => hstack ▸ List.mem_cons_of_mem _ hk
  cases fr with
  | invoke f => exact h.frames_sub rfl (h.top hstack).2 fun k hk => .inl (hframes k hk)
  | callback c => exact h.frames_sub rfl h.context fun k hk => .inl (hframes k hk)

theorem resume (h : w.Within ptr32 A) (hstack : w.stack = .invoke g :: rest) (v : Nat) :
    (resume w g rest f v).Within ptr32 A := by
  have hcases := resume_cases w g rest f v
  generalize RlboxWasm2c.resume w g rest f v = w' at hcases ⊢
  cases hcases with
  | slotFailed | argBad => exact (h.onSandbox ..).raise _
  | slotGranted => exact (h.onSandbox ..).setTop hstack rfl rfl
  | argStored => exact ((h.onSandbox ..).onSandbox ..).setTop hstack rfl rfl
  | recorded => exact h.setTop hstack rfl rfl
  | same => exact h

theorem exitInvoke (h : w.Within ptr32 A) (hstack : w.stack = .invoke f :: rest) (v : Nat) :
    (exitInvoke w f rest v).Within ptr32 A := by
  unfold RlboxWasm2c.exitInvoke
  split
  · exact (h.leaveFrame hstack).resume rfl v
  · exact h.leaveFrame hstack

theorem storeFor (h : w.Within ptr32 A) (hstack : w.stack = .invoke f :: rest) (S : SandboxId)
    (a : Nat) (bytes : List UInt8) : (storeFor w S f rest a bytes).Within ptr32 A :=
  (h.onSandbox ..).setTop hstack rfl rfl

theorem tickInvoke {w' : World} (h : w.Within ptr32 A) (hstack : w.stack = .invoke f :: rest)
    (hs : tickInvoke w f rest = some w') : w'.Within ptr32 A := by
  have hf : A f.sandbox := (h.top hstack).1
  cases tickInvoke_cases hs with
  | plainReturn | noSlot | slotFits | enterBody => exact h.setTop hstack rfl rfl
  | freeSlot | freeArg =>
    refine enterInvoke (onSandbox ?_ _ _) hf _ _
    exact h.setTop hstack rfl rfl
  | mallocSlot =>
    refine implMallocInSandbox ?_ hf _
    exact h.setTop hstack rfl rfl
  | recurse =>
    refine enterInvoke ?_ hf _ _
    exact h.setTop hstack rfl rfl
  | @copyOut n =>
    exact (h.hand ((w.sandboxes f.sandbox).memory.read
      (w.sandboxes f.sandbox).returnSlot n.1)).exitInvoke hstack 0
  | copyOutBad => exact h.raise _
  | done => exact h.exitInvoke hstack f.ret

theorem serializeArg {w' : World} {k : Nat} (h : w.Within ptr32 A)
    (hstack : w.stack = .invoke f :: rest) (hs : serializeArg w f rest k = some w') :
    w'.Within ptr32 A := by
  obtain ⟨-, -, bytes, lvalue, -, rfl⟩ := serializeArg_cases hs
  refine implMallocInSandbox ?_ (h.top hstack).1 _
  exact h.setTop hstack rfl rfl

theorem enterInterceptor {w' : World} {n : CallbackIndex} {type : FuncType} {ret : Nat}
    {params : List Nat} (h : w.Within ptr32 A)
    (hs : enterInterceptor w n type ret params = some w') : w'.Within ptr32 A := by
  obtain ⟨S, -, hcases⟩ := enterInterceptor_cases hs
  cases hcases with
  | refused => exact ⟨h.ptr32, h.context, h.frames⟩
  | called =>
    refine h.frames_sub rfl h.context fun k hk => ?_
    rcases List.mem_cons.mp hk with heq | hrest
    · cases heq
    · exact .inl hrest

theorem leaveInterceptor {w' : World} {c : CallbackFrame} {bytes : List UInt8}
    (h : w.Within ptr32 A) (hstack : w.stack = .callback c :: rest)
    (hs : leaveInterceptor w c rest bytes = some w') : w'.Within ptr32 A := by
  have hleft := h.leaveFrame hstack
  cases leaveInterceptor_cases hs with
  | plain => exact hleft
  | refused => exact hleft.raise _
  | stored hret hcontext hrest =>
    subst hrest
    exact hleft.storeFor rfl _ _ _

theorem hostStep {w' : World} {grow : GrowFuncrefTable} {a : HostAct} (h : w.Within ptr32 A)
    (hnamed : ∀ S ∈ a.named, A S) (hs : hostStep grow a w = some w') : w'.Within ptr32 A := by
  cases a with
  | invoke S func retClass params =>
    cases hs
    exact h.enterInvoke (hnamed S rfl) _ _
  | mallocInSandbox S size =>
    cases hs
    exact h.implMallocInSandbox (hnamed S rfl) _
  | freeInSandbox S p =>
    cases hs
    exact h.enterInvoke (hnamed S rfl) _ _
  | table S op =>
    cases hs
    exact h.onSandbox _ _
  | ret bytes =>
    unfold RlboxWasm2c.hostStep at hs
    dsimp only at hs
    split at hs
    · next hstack => exact h.leaveInterceptor hstack hs
    · cases hs
  | throw =>
    cases hs
    exact h.raise _

theorem guestStep {w' : World} {grow : GrowFuncrefTable} {a : GuestAct} (h : w.Within ptr32 A)
    (hstack : w.stack = .invoke f :: rest) (hs : guestStep grow a w f rest = some w') :
    w'.Within ptr32 A := by
  unfold RlboxWasm2c.guestStep at hs
  cases a with
  | store a v =>
    dsimp only at hs
    split at hs
    · cases hs
      exact h.storeFor hstack _ _ _
    · cases hs
  | growTable delta init =>
    cases hs
    exact h.onSandbox _ _
  | callSlot slot ret params =>
    dsimp only at hs
    split at hs
    · exact h.enterInterceptor hs
    · cases hs
  | ret v =>
    cases hs
    exact h.setTop hstack rfl rfl

end World.Within

/-- A thread whose host code names sandboxes of `A` only stays in them. -/
theorem step_within {ptr32 : Bool} {A : SandboxId → Prop} {w w' : World} (grow : GrowFuncrefTable)
    {i : Input} (h : w.Within ptr32 A) (hnamed : ∀ S ∈ i.named, A S)
    (hs : step grow i w = some w') : w'.Within ptr32 A := by
  unfold step at hs
  split at hs
  · exact h.hostStep hnamed hs
  · exact h.hostStep hnamed hs
  · next hstack =>
    split at hs
    · exact h.guestStep hstack hs
    · cases hs
  · next hstack => exact h.serializeArg hstack hs
  · next hstack => exact h.tickInvoke hstack hs
  · next hstack =>
    cases hs
    exact h.leaveFrame hstack
  · cases hs
    exact ⟨h.ptr32, h.context, h.frames⟩
  · cases hs
    exact ⟨h.ptr32, h.context, h.frames⟩
  · cases hs

/-! ## A step sees these sandboxes only -/

/-- The world with the sandboxes of `A`, and those of `base` for the others. -/
def World.only (A : SandboxId → Prop) [DecidablePred A] (base : SandboxId → Sandbox) (w : World) :
    World :=
  { w with sandboxes := fun S => if A S then w.sandboxes S else base S }

section only
variable {A : SandboxId → Prop} [DecidablePred A] {base : SandboxId → Sandbox} {w : World}
  {f g : InvokeFrame} {rest : List Frame} {S : SandboxId}

theorem only_sandboxes (hS : A S) : (w.only A base).sandboxes S = w.sandboxes S := if_pos hS

theorem only_onSandbox (hS : A S) (change : Sandbox → Sandbox) :
    (w.onSandbox S change).only A base = (w.only A base).onSandbox S change := by
  unfold World.only World.onSandbox
  congr 1
  funext S'
  by_cases hS' : S' = S
  · subst hS'
    simp [hS]
  · simp [Function.update_of_ne hS']

theorem only_setTop : (w.setTop f rest).only A base = (w.only A base).setTop f rest := rfl

theorem only_raise (e : Exn) : (w.raise e).only A base = (w.only A base).raise e := rfl

theorem only_leaveFrame (fr : Frame) :
    (leaveFrame w fr rest).only A base = leaveFrame (w.only A base) fr rest := by
  cases fr <;> rfl

theorem only_dataPointerOk (hS : A S) (p : Nat) :
    (w.only A base).dataPointerOk S p = w.dataPointerOk S p := by
  unfold World.dataPointerOk
  rw [only_sandboxes hS]
  rfl

theorem only_enterInvoke (hS : A S) (call : Call) (retBlock : Option Blocks.Block) :
    (enterInvoke w S call retBlock).only A base =
      enterInvoke (w.only A base) S call retBlock := by
  unfold enterInvoke
  rw [only_sandboxes hS]
  rfl

theorem only_implMallocInSandbox (hS : A S) (size : Nat) :
    (implMallocInSandbox w S size).only A base = implMallocInSandbox (w.only A base) S size := by
  unfold implMallocInSandbox
  split
  · exact only_enterInvoke hS _ _
  · rfl

theorem only_resume (hS : A g.sandbox) (v : Nat) :
    (resume w g rest f v).only A base = resume (w.only A base) g rest f v := by
  unfold resume
  cases g.pc with
  | setSlot n =>
    dsimp only
    split
    · rw [only_raise, only_onSandbox hS]
    · rw [only_setTop, only_onSandbox hS]
  | setArg k =>
    dsimp only
    split
    · next bytes lvalue hk =>
      rw [← only_onSandbox hS, only_dataPointerOk hS]
      split
      · rw [only_setTop, only_onSandbox hS]
      · rfl
    · rfl
  | copyOut n | start | mallocSlot | recurse | serialize | body | freeArgs => rfl

theorem only_exitInvoke (hrest : ∀ g ∈ rest.head?, ∀ g', g = .invoke g' → A g'.sandbox)
    (v : Nat) : (exitInvoke w f rest v).only A base = exitInvoke (w.only A base) f rest v := by
  unfold exitInvoke
  split
  · next g rest' =>
    rw [only_resume (hrest _ rfl g rfl), only_leaveFrame]
  · rw [only_leaveFrame]

theorem only_storeFor (hS : A S) (a : Nat) (bytes : List UInt8) :
    (storeFor w S f rest a bytes).only A base = storeFor (w.only A base) S f rest a bytes := by
  unfold storeFor
  rw [only_setTop, only_onSandbox hS]

theorem only_tickInvoke (hS : A f.sandbox)
    (hrest : ∀ g ∈ rest.head?, ∀ g', g = .invoke g' → A g'.sandbox) :
    (tickInvoke w f rest).map (World.only A base) = tickInvoke (w.only A base) f rest := by
  unfold tickInvoke
  rw [only_sandboxes hS]
  cases f.pc with
  | start =>
    cases f.call.retClass with
    | none => rfl
    | some n =>
      dsimp only
      split
      · split
        · rw [Option.map_some, implFreeInSandbox, only_enterInvoke hS, only_onSandbox hS]
          rfl
        · rfl
      · rfl
  | mallocSlot n =>
    dsimp only
    rw [Option.map_some, only_implMallocInSandbox hS]
    rfl
  | recurse n =>
    dsimp only
    rw [Option.map_some, only_enterInvoke hS]
    rfl
  | copyOut n =>
    dsimp only
    rw [only_dataPointerOk hS]
    split
    · rw [Option.map_some, only_exitInvoke hrest]
      rfl
    · rfl
  | serialize =>
    dsimp only
    split <;> rfl
  | freeArgs i =>
    dsimp only
    split
    · rw [Option.map_some, implFreeInSandbox, only_enterInvoke hS, only_onSandbox hS]
      rfl
    · rw [Option.map_some, only_exitInvoke hrest]
  | setSlot | setArg | body => rfl

theorem only_serializeArg (hS : A f.sandbox) (k : Nat) :
    (serializeArg w f rest k).map (World.only A base) = serializeArg (w.only A base) f rest k := by
  unfold serializeArg
  split
  · split
    · rw [Option.map_some, only_implMallocInSandbox hS]
      rfl
    · rfl
  · rfl

theorem only_serializeToSandbox (hS : A S) (type : CType) (arg : Nat) :
    serializeToSandbox (w.only A base) S type arg = serializeToSandbox w S type arg := by
  unfold serializeToSandbox
  cases type with
  | cls n =>
    dsimp only
    rw [only_dataPointerOk hS]
    split
    · congr 3
      rw [only_sandboxes hS]
    · rfl
  | integral | enum | float | double | pointer => rfl

/-- The interceptor with its arguments converted, or one of them refused. -/
def withArgs (u : World) (S : SandboxId) (n : CallbackIndex) (type : FuncType) (ret : Nat) :
    Option (List Arg) → Option World
  | none => some (u.raise (.check .invalidPointer))
  | some args =>
    some { u with
      stack := .callback ⟨(u.sandboxes S).table.state.callbacks n, type, ret, args⟩ :: u.stack }

theorem only_enterInterceptor (hcontext : ∀ S ∈ w.threadData.sandbox, A S) (n : CallbackIndex)
    (type : FuncType) (ret : Nat) (params : List Nat) :
    (enterInterceptor w n type ret params).map (World.only A base) =
      enterInterceptor (w.only A base) n type ret params := by
  -- the arguments are converted in the context, which is one of these sandboxes
  have hargs : ∀ (u : World) {S : SandboxId}, A S →
      (type.args.zip params).mapM (fun p => serializeToSandbox (u.only A base) S p.1 p.2) =
        (type.args.zip params).mapM fun p => serializeToSandbox u S p.1 p.2 := by
    intro u S hS
    congr 1
    funext p
    exact only_serializeToSandbox hS p.1 p.2
  obtain ⟨ptr32, sandboxes, ⟨context, last⟩, stack, raising, result⟩ := w
  cases context with
  | none => rfl
  | some S =>
    have hS : A S := hcontext S rfl
    let u : World := ⟨ptr32, sandboxes, ⟨some S, n⟩, stack, raising, result⟩
    have hfunc : (u.only A base).sandboxes S = sandboxes S := only_sandboxes hS
    show Option.map (World.only A base) (enterInterceptor u n type ret params) =
      enterInterceptor (u.only A base) n type ret params
    unfold enterInterceptor
    show Option.map _ (if (u.sandboxes S).table.state.callbacks n = nullptr then none
      else withArgs u S n type ret
        ((type.args.zip params).mapM fun p => serializeToSandbox u S p.1 p.2)) =
      if ((u.only A base).sandboxes S).table.state.callbacks n = nullptr then none
      else withArgs (u.only A base) S n type ret
        ((type.args.zip params).mapM fun p => serializeToSandbox (u.only A base) S p.1 p.2)
    rw [hargs u hS, hfunc]
    split
    · rfl
    · cases (type.args.zip params).mapM fun p => serializeToSandbox u S p.1 p.2 with
      | none => rfl
      | some args =>
        unfold withArgs
        rw [hfunc]
        rfl

theorem only_leaveInterceptor (hcontext : ∀ S ∈ w.threadData.sandbox, A S) (c : CallbackFrame)
    (bytes : List UInt8) :
    (leaveInterceptor w c rest bytes).map (World.only A base) =
      leaveInterceptor (w.only A base) c rest bytes := by
  unfold leaveInterceptor
  dsimp only
  rw [← only_leaveFrame]
  have hthread : ((leaveFrame w (.callback c) rest).only A base).threadData.sandbox =
      w.threadData.sandbox := rfl
  rw [hthread, show (leaveFrame w (.callback c) rest).threadData.sandbox = w.threadData.sandbox
    from rfl]
  split
  · next n S f rest' hret hS =>
    have hin : A S := hcontext S hS
    split
    · rfl
    · rw [only_dataPointerOk hin]
      split
      · rw [Option.map_some, only_storeFor hin]
      · rfl
  · rfl
  · rfl

theorem only_hostStep {grow : GrowFuncrefTable} {a : HostAct}
    (hcontext : ∀ S ∈ w.threadData.sandbox, A S) (hnamed : ∀ S ∈ a.named, A S) :
    (hostStep grow a w).map (World.only A base) = hostStep grow a (w.only A base) := by
  cases a with
  | invoke S func retClass params => exact congrArg some (only_enterInvoke (hnamed S rfl) _ _)
  | mallocInSandbox S size => exact congrArg some (only_implMallocInSandbox (hnamed S rfl) _)
  | freeInSandbox S p => exact congrArg some (only_enterInvoke (hnamed S rfl) _ _)
  | table S op => exact congrArg some (only_onSandbox (hnamed S rfl) _)
  | ret bytes =>
    unfold hostStep
    dsimp only
    rw [show (w.only A base).stack = w.stack from rfl]
    split
    · exact only_leaveInterceptor hcontext _ _
    · rfl
  | throw => rfl

theorem only_guestStep {grow : GrowFuncrefTable} {a : GuestAct} (hS : A f.sandbox)
    (hcontext : ∀ S ∈ w.threadData.sandbox, A S) :
    (guestStep grow a w f rest).map (World.only A base) =
      guestStep grow a (w.only A base) f rest := by
  unfold guestStep
  cases a with
  | store a v =>
    dsimp only
    rw [only_sandboxes hS]
    split
    · exact congrArg some (only_storeFor hS _ _)
    · rfl
  | growTable delta init => exact congrArg some (only_onSandbox hS _)
  | callSlot slot ret params =>
    dsimp only
    rw [only_sandboxes hS]
    split
    · exact only_enterInterceptor hcontext _ _ _ _
    · rfl
  | ret v => rfl

end only

/-- A thread in sandboxes of `A` does there what it would do with any others beside them. -/
theorem step_only {ptr32 : Bool} {A : SandboxId → Prop} [DecidablePred A] {w : World}
    (base : SandboxId → Sandbox) (grow : GrowFuncrefTable) {i : Input} (h : w.Within ptr32 A)
    (hnamed : ∀ S ∈ i.named, A S) :
    (step grow i w).map (World.only A base) = step grow i (w.only A base) := by
  unfold step
  rw [show (w.only A base).raising = w.raising from rfl,
    show (w.only A base).stack = w.stack from rfl]
  split
  · exact only_hostStep h.context hnamed
  · exact only_hostStep h.context hnamed
  · next f rest _ hstack =>
    split
    · exact only_guestStep (h.top hstack).1 h.context
    · rfl
  · next hstack => exact only_serializeArg (h.top hstack).1 _
  · next f rest _ hstack =>
    refine only_tickInvoke (h.top hstack).1 fun fr hfr g hg => ?_
    have hmem : .invoke g ∈ w.stack := by
      rw [hstack, ← hg]
      exact List.mem_cons_of_mem _ (List.mem_of_mem_head? hfr)
    exact (h.frames g hmem).1
  · exact congrArg some (only_leaveFrame _)
  · rfl
  · rfl
  · rfl

/-- And it leaves the others alone. -/
theorem step_others {ptr32 : Bool} {A : SandboxId → Prop} [DecidablePred A] {w w' : World}
    (grow : GrowFuncrefTable) {i : Input} (h : w.Within ptr32 A) (hnamed : ∀ S ∈ i.named, A S)
    (hs : step grow i w = some w') {S : SandboxId} (hS : ¬A S) :
    w'.sandboxes S = w.sandboxes S := by
  have hself : w.only A w.sandboxes = w := by
    unfold World.only
    simp
  have honly := step_only w.sandboxes grow h hnamed
  rw [hself, hs, Option.map_some] at honly
  rw [← Option.some.inj honly]
  exact if_neg hS

/-! ## The process -/

/-- What a thread has for itself. -/
structure ThreadState where
  threadData : ThreadData
  stack : List Frame
  raising : Option Exn
  result : List UInt8

structure Threads where
  ptr32 : Bool
  sandboxes : SandboxId → Sandbox
  threads : Nat → ThreadState

/-- What the machine of thread `t` works on. -/
def Threads.world (p : Threads) (t : Nat) : World :=
  ⟨p.ptr32, p.sandboxes, (p.threads t).threadData, (p.threads t).stack, (p.threads t).raising,
    (p.threads t).result⟩

/-- The process after a step of thread `t` that led to `w`. -/
def Threads.put (p : Threads) (t : Nat) (w : World) : Threads :=
  { p with
    sandboxes := w.sandboxes
    threads := Function.update p.threads t ⟨w.threadData, w.stack, w.raising, w.result⟩ }

def threadStep (grow : GrowFuncrefTable) (t : Nat) (i : Input) (p : Threads) : Option Threads :=
  (step grow i (p.world t)).map (p.put t)

/-- Threads outside of every invocation, with the sandboxes of `smallWorld`. -/
def idleThreads : Threads :=
  ⟨false, smallWorld.sandboxes, fun _ => ⟨smallWorld.threadData, [], none, []⟩⟩

/-- A guest function of sandbox `S` stores a byte and returns. -/
def storeOnce (S : SandboxId) (v : UInt8) : List Input :=
  [.host (.invoke S 7 none []), .tick, .tick, .guest (.store 100 v), .guest (.ret 0), .tick]

/-- Threads 0 and 1 do so in sandboxes 0 and 1, step by step in turns. -/
def inTurns : List (Nat × Input) :=
  ((storeOnce 0 1).zip (storeOnce 1 2)).flatMap fun x => [(0, x.1), (1, x.2)]

/-- The same, one thread after the other. -/
def inSequence : List (Nat × Input) :=
  (storeOnce 1 2).map (fun i => (1, i)) ++ (storeOnce 0 1).map fun i => (0, i)

section process
variable {grow : GrowFuncrefTable} {p p' : Threads} {t u : Nat}

theorem put_world (w : World) (hptr : w.ptr32 = p.ptr32) : (p.put t w).world t = w := by
  unfold Threads.world Threads.put
  simp only [Function.update_self]
  rw [← hptr]

theorem put_world_other (w : World) (h : u ≠ t) :
    (p.put t w).world u = { p.world u with sandboxes := w.sandboxes } := by
  unfold Threads.world Threads.put
  simp only [Function.update_of_ne h]

/-! ## The context of a thread -/

variable (grow) in
/-- Whoever takes the step, it is a move of the discipline for every thread. -/
theorem threadStep_move (t : Nat) (x : Nat × Input) (p p' : Threads)
    (h : Interleave.turn (threadStep grow) x p = some p') :
    SavedContext.Move (p.world t).view (p'.world t).view := by
  obtain ⟨w, hw, rfl⟩ := Option.map_eq_some_iff.mp h
  by_cases ht : t = x.1
  · subst ht
    have hview : ((p.put x.1 w).world x.1).view = w.view := by
      unfold World.view Threads.world Threads.put
      simp only [Function.update_self]
    rw [hview]
    exact step_move grow x.2 _ w hw
  · rw [put_world_other w ht]
    exact .keep _

/-- The threads are outside of every invocation. -/
def Threads.Outside (p : Threads) : Prop := ∀ t, (p.threads t).stack = []

/-- Thread 0 registers a callback in sandbox 0 and enters it. -/
def enteredByFirst : List (Nat × Input) :=
  [(0, .host (.table 0 (.register unaryInt 11 101))), (0, .host (.invoke 0 7 none [])), (0, .tick),
    (0, .tick)]

/-- Thread 1 enters the same sandbox; both threads call the callback, and an exception leaves
    the frames of thread 1. -/
def throughSecond : List (Nat × Input) :=
  [(1, .tick), (0, .guest (.callSlot 1 0 [5])), (1, .tick), (1, .guest (.callSlot 1 0 [6])),
    (1, .host .throw), (0, .host (.ret [0, 0, 0, 0])), (1, .unwind), (1, .unwind)]

/-- Each thread is in sandboxes it owns. -/
def Threads.Within (owner : SandboxId → Nat) (ptr32 : Bool) (p : Threads) : Prop :=
  p.ptr32 = ptr32 ∧ ∀ t, (p.world t).Within ptr32 fun S => owner S = t

/-- What thread `t` has of the process; `base` stands for the sandboxes of the others. -/
def Threads.view (owner : SandboxId → Nat) (base : SandboxId → Sandbox) (t : Nat) (p : Threads) :
    World :=
  (p.world t).only (fun S => owner S = t) base

/-- Host code names sandboxes of its own thread. -/
def NamesOwn (owner : SandboxId → Nat) (t : Nat) (i : Input) : Prop := ∀ S ∈ i.named, owner S = t

theorem threads_apart (grow : GrowFuncrefTable) (owner : SandboxId → Nat) (ptr32 : Bool)
    (base : SandboxId → Sandbox) :
    Interleave.Apart (threadStep grow) (step grow) (Threads.view owner base)
      (Threads.Within owner ptr32) (NamesOwn owner) where
  own := by
    intro t i p hp hnamed
    unfold threadStep Threads.view
    rw [← step_only base grow (hp.2 t) hnamed, Option.map_map]
    cases hw : step grow i (p.world t) with
    | none => rfl
    | some w =>
      have hptr := (step_within grow (hp.2 t) hnamed hw).ptr32
      show some (((p.put t w).world t).only _ base) = some (w.only _ base)
      rw [put_world w (hptr.trans hp.1.symm)]
  others := by
    intro t i p p' hp hnamed hs u hu
    obtain ⟨w, hw, rfl⟩ := Option.map_eq_some_iff.mp hs
    unfold Threads.view
    rw [put_world_other w hu]
    unfold World.only
    congr 1
    funext S
    by_cases hS : owner S = u
    · have hother : ¬owner S = t := fun heq => hu (hS.symm.trans heq)
      simp only [hS, if_true]
      exact step_others grow (hp.2 t) hnamed hw hother
    · simp only [hS, if_false]
  keeps := by
    intro t i p p' hp hnamed hs
    obtain ⟨w, hw, rfl⟩ := Option.map_eq_some_iff.mp hs
    refine ⟨hp.1, fun u => ?_⟩
    have hwithin := step_within grow (hp.2 t) hnamed hw
    by_cases hu : u = t
    · subst hu
      rw [put_world w (hwithin.ptr32.trans hp.1.symm)]
      exact hwithin
    · rw [put_world_other w hu]
      exact ⟨(hp.2 u).ptr32, (hp.2 u).context, (hp.2 u).frames⟩

/-- The views of the threads together are the process. -/
theorem views_determine {owner : SandboxId → Nat} {base : SandboxId → Sandbox}
    (h : ∀ t, Threads.view owner base t p = Threads.view owner base t p') : p = p' := by
  obtain ⟨ptr32, sandboxes, threads⟩ := p
  obtain ⟨ptr32', sandboxes', threads'⟩ := p'
  have hptr : ptr32 = ptr32' := congrArg World.ptr32 (h 0)
  have hsandboxes : sandboxes = sandboxes' := by
    funext S
    have hS := congrFun (congrArg World.sandboxes (h (owner S))) S
    simpa [Threads.view, World.only, Threads.world] using hS
  have hthreads : threads = threads' := by
    funext t
    have hdata : (threads t).threadData = (threads' t).threadData :=
      congrArg World.threadData (h t)
    have hstack : (threads t).stack = (threads' t).stack := congrArg World.stack (h t)
    have hraising : (threads t).raising = (threads' t).raising := congrArg World.raising (h t)
    have hresult : (threads t).result = (threads' t).result := congrArg World.result (h t)
    cases ht : threads t
    cases ht' : threads' t
    rw [ht, ht'] at hdata hstack hraising hresult
    cases hdata
    cases hstack
    cases hraising
    cases hresult
    rfl
  rw [hptr, hsandboxes, hthreads]

/-- Sandbox `S` is used by thread `S`. -/
theorem idleThreads_within : idleThreads.Within id idleThreads.ptr32 :=
  ⟨rfl, fun _ => ⟨rfl, (by rintro S ⟨⟩), fun _ hf => absurd hf List.not_mem_nil⟩⟩

theorem storeOnce_own (S : SandboxId) (v : UInt8) : ∀ i ∈ storeOnce S v, NamesOwn id S i := by
  intro i hi S' hS'
  simp only [storeOnce, List.mem_cons, List.not_mem_nil, or_false] at hi
  rcases hi with rfl | rfl | rfl | rfl | rfl | rfl
  · exact (Option.some.inj hS').symm
  all_goals cases hS'

theorem inTurns_own : ∀ x ∈ inTurns, NamesOwn id x.1 x.2 := by
  intro x hx
  obtain ⟨y, hy, hx⟩ := List.mem_flatMap.mp hx
  obtain ⟨h₀, h₁⟩ := List.of_mem_zip hy
  simp only [List.mem_cons, List.not_mem_nil, or_false] at hx
  rcases hx with rfl | rfl
  · exact storeOnce_own 0 1 _ h₀
  · exact storeOnce_own 1 2 _ h₁

theorem inSequence_own : ∀ y ∈ inSequence, NamesOwn id y.1 y.2 := by
  intro y hy
  rcases List.mem_append.mp hy with h₁ | h₀
  · obtain ⟨i, hi, rfl⟩ := List.mem_map.mp h₁
    exact storeOnce_own 1 2 i hi
  · obtain ⟨i, hi, rfl⟩ := List.mem_map.mp h₀
    exact storeOnce_own 0 1 i hi

theorem inTurns_inSequence (t : Nat) :
    Interleave.inputsOf t inTurns = Interleave.inputsOf t inSequence := by
  by_cases h₀ : t = 0
  · subst h₀
    rfl
  by_cases h₁ : t = 1
  · subst h₁
    rfl
  have h₀' : ¬0 = t := fun h => h₀ h.symm
  have h₁' : ¬1 = t := fun h => h₁ h.symm
  simp [Interleave.inputsOf, inTurns, inSequence, storeOnce, h₀', h₁']

/-- Threads whose host code uses sandboxes of its own only do not disturb each other: what
    a thread and its sandboxes come to, in any interleaving, is what the machine of that
    thread comes to on its own from the start, where the other sandboxes stay as they were. -/
theorem threads_isolated {owner : SandboxId → Nat} {xs : List (Nat × Input)} {q : Threads}
    (hstart : p.Within owner p.ptr32) (hnamed : ∀ x ∈ xs, NamesOwn owner x.1 x.2)
    (hrun : Interleave.run (threadStep grow) xs p = some q) (t : Nat) :
    ∃ w, exec (step grow) (Interleave.inputsOf t xs) (p.world t) = some w ∧
      w.threadData = (q.threads t).threadData ∧ w.stack = (q.threads t).stack ∧
      w.raising = (q.threads t).raising ∧ w.result = (q.threads t).result ∧
      (∀ S, owner S = t → w.sandboxes S = q.sandboxes S) ∧
      ∀ S, owner S ≠ t → w.sandboxes S = p.sandboxes S := by
  have hself : Threads.view owner p.sandboxes t p = p.world t := by
    unfold Threads.view World.only Threads.world
    simp
  have hview := (threads_apart grow owner p.ptr32 p.sandboxes).exec_view hstart hnamed hrun t
  rw [hself] at hview
  refine ⟨_, hview, rfl, rfl, rfl, rfl, ?_, ?_⟩
  · intro S hS
    exact if_pos hS
  · intro S hS
    exact if_neg hS

theorem threads_isolated_inTurns :
    ∃ (q : Threads) (w : World),
      Interleave.run (threadStep growWithinMax) inTurns idleThreads = some q ∧
      exec (step growWithinMax) (Interleave.inputsOf 1 inTurns) (idleThreads.world 1) = some w ∧
      w.sandboxes 1 = q.sandboxes 1 ∧ w.sandboxes 0 = idleThreads.sandboxes 0 := by
  have hrun : Interleave.run (threadStep growWithinMax) inTurns idleThreads = some _ := rfl
  obtain ⟨w, hw, -, -, -, -, hown, hothers⟩ :=
    threads_isolated idleThreads_within inTurns_own hrun 1
  exact ⟨_, w, hrun, hw, hown 1 rfl, hothers 0 (by decide)⟩

/-- And the order in which they take turns makes no difference at all: two interleavings of
    the same inputs of each thread lead to the same process, or neither is possible. -/
theorem turns_irrelevant {owner : SandboxId → Nat} {xs ys : List (Nat × Input)}
    (hstart : p.Within owner p.ptr32) (hxs : ∀ x ∈ xs, NamesOwn owner x.1 x.2)
    (hys : ∀ y ∈ ys, NamesOwn owner y.1 y.2)
    (hsame : ∀ t, Interleave.inputsOf t xs = Interleave.inputsOf t ys) :
    Interleave.run (threadStep grow) xs p = Interleave.run (threadStep grow) ys p :=
  (threads_apart grow owner p.ptr32 p.sandboxes).exec_reorder (fun _ _ => views_determine) hstart
    hxs hys hsame

theorem turns_irrelevant_inTurns :
    Interleave.run (threadStep growWithinMax) inTurns idleThreads =
      Interleave.run (threadStep growWithinMax) inSequence idleThreads :=
  turns_irrelevant idleThreads_within inTurns_own inSequence_own inTurns_inSequence

end process

end RlboxWasm2c

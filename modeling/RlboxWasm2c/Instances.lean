import RlboxWasm2c.ClockInit
import RlboxWasm2c.Lifecycle

/- Guest code and the instance it runs on, over the machine of invocations and with what the
   objects hold.

   The destruction of a sandbox first enters the guest's free if the sandbox has a return
   slot, which no create and no destroy takes from it. `guest_runs_live`: guest code runs on
   a live instance as long as a sandbox with a return slot is destroyed only while it is
   live, no failing create tears down one, and no instance is freed under an invocation.
   `failed_create_leaves_iff`: when a fallible create that fails leaves the object as it
   found it, the clock data of minwasi included. `ownerStep_refines`: a step that frees no
   instance under an invocation is one of the machine of `Lifecycle`.

   Correspondence (C++ ↔ Lean): as in `Resources`, and
     the free of the return slot in
     `impl_destroy_sandbox`           ↔ `Owners.implDestroySandbox`
     `minwasi_init_instance`,
     `os_clock_init_instance`         ↔ `Owners.minwasiInitInstance`, `ClockHold.initInstance`
     `minwasi_cleanup_instance`,
     `os_clock_cleanup_instance`      ↔ in `Owners.endDestroy`, `ClockHold.cleanupInstance`
   Of the clock data only the blocks are kept; what is in them is in `ClockInit`, which has the
   same pointers (`ClockHold.Records`). The host and guest code between the calls are those of
   `Invocation`, used as in `Lifecycle`; a destroy may come at any time. -/
namespace RlboxWasm2c
open Runs
open MinWasi (Memory)

/-! ## Objects and what they hold -/

/-- The clock data of an object: `clock_data`, with the number of the block it points to, and
    the record of the blocks allocated and freed for the object, newest first. -/
structure ClockHold where
  clockData : Option Nat
  allocated : List Nat
  freed : List Nat
  deriving DecidableEq

namespace ClockHold

/-- A newly constructed object has a null pointer. -/
def constructed : ClockHold := ⟨none, [], []⟩

/-- `none` is the POSIX back end, which has no clock data. `succeeds` is whether `malloc` gives
    a block; a pointer that is there is overwritten. -/
def initInstance (backEnd : Option BackEnd) (succeeds : Bool) (c : ClockHold) : ClockHold :=
  match backEnd with
  | none => c
  | some _ =>
    if succeeds then
      { c with
        clockData := some c.allocated.length
        allocated := c.allocated.length :: c.allocated }
    else c

/-- The test is for a pointer that is null. -/
def cleanupInstance (backEnd : Option BackEnd) (c : ClockHold) : ClockHold :=
  match backEnd with
  | none => c
  | some _ =>
    if c.clockData.isNone then
      { c with freed := c.clockData.toList ++ c.freed, clockData := none }
    else c

end ClockHold

/-- The sandbox objects of a program; `destroying` is that of `Objects`. The back end of
    minwasi is that of the platform, `none` being POSIX. -/
structure Owners where
  world : World
  holders : SandboxId → Holder
  destroying : List (SandboxId × Nat)
  backEnd : Option BackEnd
  clocks : SandboxId → ClockHold

namespace Owners

def toObjects (o : Owners) : Objects :=
  ⟨o.world, fun S => (o.holders S).instanceInitialized, o.destroying⟩

def setHolder (o : Owners) (S : SandboxId) (h : Holder) : Owners :=
  { o with holders := Function.update o.holders S h }

@[simp] theorem setHolder_self (o : Owners) (S : SandboxId) (h : Holder) :
    (o.setHolder S h).holders S = h := Function.update_self ..

theorem setHolder_of_ne (o : Owners) {S S' : SandboxId} (h : Holder) (hS : S' ≠ S) :
    (o.setHolder S h).holders S' = o.holders S' := Function.update_of_ne hS ..

def setClock (o : Owners) (S : SandboxId) (c : ClockHold) : Owners :=
  { o with clocks := Function.update o.clocks S c }

@[simp] theorem setClock_self (o : Owners) (S : SandboxId) (c : ClockHold) :
    (o.setClock S c).clocks S = c := Function.update_self ..

theorem setClock_of_ne (o : Owners) {S S' : SandboxId} (c : ClockHold) (hS : S' ≠ S) :
    (o.setClock S c).clocks S' = o.clocks S' := Function.update_of_ne hS ..

/-- Called behind the first two checks of `impl_create_sandbox`. -/
def minwasiInitInstance {m : ModuleType} (o : Owners) (S : SandboxId) (call : CreateCall m) :
    Owners :=
  o.setClock S
    (if !(o.holders S).instanceInitialized && call.minwasiInitSucceeded then
      (o.clocks S).initInstance o.backEnd call.minwasiInitInstSucceeded
    else o.clocks S)

/-- The end of `impl_destroy_sandbox`; minwasi is cleaned up where it was initialized. -/
def endDestroy (m : ModuleType) (o : Owners) (S : SandboxId) : Owners :=
  (o.setHolder S ((o.holders S).implDestroySandbox m)).setClock S
    (if (o.holders S).minwasiInitInstSucceeded then (o.clocks S).cleanupInstance o.backEnd
    else o.clocks S)

def implDestroySandbox (m : ModuleType) (o : Owners) (S : SandboxId) : Owners :=
  let s := o.world.sandboxes S
  if s.returnSlotSize ≠ 0 then
    { o with
      world := implFreeInSandbox (o.world.onSandbox S fun s => s.release s.returnSlot) S
        s.returnSlot
      destroying := (S, o.world.stack.length) :: o.destroying }
  else o.endDestroy m S

def fallibleDynamicCheck (m : ModuleType) (o : Owners) (S : SandboxId) (infallible : Bool)
    (check : DynamicCheck) : Owners :=
  if infallible then { o with world := o.world.raise (.check check) }
  else o.implDestroySandbox m S

/-- The instance is made with the given table and memory, where it is made. -/
def implCreateSandbox {m : ModuleType} (o : Owners) (S : SandboxId) (call : CreateCall m)
    (t : FuncrefTable) (memory : Memory) : Owners :=
  let o := o.minwasiInitInstance S call
  match (o.holders S).attemptCreate call with
  | (some check, h) => (o.setHolder S h).fallibleDynamicCheck m S call.infallible check
  | (none, h) =>
    { o.setHolder S h with world := o.world.onSandbox S fun s => s.instantiate t memory }

end Owners

inductive OwnerInput (m : ModuleType) where
  | create (S : SandboxId) (call : CreateCall m) (t : FuncrefTable) (memory : Memory)
  | destroy (S : SandboxId)
  | finishDestroy
  | use (i : Input)

def ownerStep (grow : GrowFuncrefTable) {m : ModuleType} (i : OwnerInput m) (o : Owners) :
    Option Owners :=
  match i with
  | .create S call t memory =>
    if o.toObjects.hostRuns then some (o.implCreateSandbox S call t memory) else none
  | .destroy S => if o.toObjects.hostRuns then some (o.implDestroySandbox m S) else none
  | .finishDestroy =>
    match o.destroying with
    | (S, height) :: destroying =>
      if o.world.raising.isNone && decide (o.world.stack.length = height) then
        some ({ o with destroying := destroying }.endDestroy m S)
      else none
    | [] => none
  | .use i =>
    (o.toObjects.use grow i).map fun o' =>
      { o with world := o'.world, destroying := o'.destroying }

/-- The objects are newly constructed and nothing runs. -/
structure Owners.New (o : Owners) : Prop where
  stack : o.world.stack = []
  raising : o.world.raising = none
  slots : ∀ S, (o.world.sandboxes S).returnSlotSize = 0
  holders : ∀ S, o.holders S = .constructed
  destroying : o.destroying = []
  clocks : ∀ S, o.clocks S = .constructed

/-! ## The invocations under way -/

/-- The sandboxes of the invocations on a stack. -/
def invoked (stack : List Frame) : List SandboxId :=
  stack.filterMap fun
    | .invoke f => some f.sandbox
    | .callback _ => none

@[simp] theorem invoked_invoke (f : InvokeFrame) (rest : List Frame) :
    invoked (.invoke f :: rest) = f.sandbox :: invoked rest := rfl

@[simp] theorem invoked_callback (c : CallbackFrame) (rest : List Frame) :
    invoked (.callback c :: rest) = invoked rest := rfl

theorem mem_invoked {stack : List Frame} {f : InvokeFrame} (h : .invoke f ∈ stack) :
    f.sandbox ∈ invoked stack := List.mem_filterMap.mpr ⟨_, h, rfl⟩

section invocations
variable {w w' : World} {f g : InvokeFrame} {rest : List Frame}

theorem implMallocInSandbox_invoked (S : SandboxId) (size : Nat) :
    invoked (implMallocInSandbox w S size).stack ⊆ S :: invoked w.stack := by
  unfold implMallocInSandbox
  split
  · exact List.Subset.refl _
  · exact List.subset_cons_self ..

theorem resume_invoked (hstack : w.stack = .invoke g :: rest) (v : Nat) :
    invoked (resume w g rest f v).stack = invoked w.stack := by
  have hcases := resume_cases w g rest f v
  generalize resume w g rest f v = w' at hcases ⊢
  rw [hstack]
  cases hcases with
  | slotGranted | argStored | recorded => rfl
  | slotFailed | argBad | same => exact congrArg invoked hstack

theorem exitInvoke_invoked (w : World) (v : Nat) :
    invoked (exitInvoke w f rest v).stack = invoked rest := by
  unfold exitInvoke
  split
  · rw [resume_invoked (leaveFrame_stack ..), leaveFrame_stack]
  · rw [leaveFrame_stack]

/-- An invocation makes others on its own sandbox only. -/
theorem tickInvoke_invoked (hstack : w.stack = .invoke f :: rest)
    (h : tickInvoke w f rest = some w') : invoked w'.stack ⊆ invoked w.stack := by
  rw [hstack, invoked_invoke]
  have hagain : f.sandbox :: f.sandbox :: invoked rest ⊆ f.sandbox :: invoked rest :=
    List.cons_subset.mpr ⟨List.mem_cons_self .., List.Subset.refl _⟩
  have hleft : invoked rest ⊆ f.sandbox :: invoked rest := List.subset_cons_self ..
  cases tickInvoke_cases h with
  | plainReturn | noSlot | slotFits | enterBody => exact List.Subset.refl _
  | freeSlot | recurse | freeArg => exact hagain
  | mallocSlot => exact List.Subset.trans (implMallocInSandbox_invoked ..) hagain
  | copyOut | done => rwa [exitInvoke_invoked]
  | copyOutBad =>
    show invoked w.stack ⊆ _
    rw [hstack]
    exact List.Subset.refl _

theorem enterInterceptor_invoked {n : CallbackIndex} {type : FuncType} {ret : Nat}
    {params : List Nat} (h : enterInterceptor w n type ret params = some w') :
    invoked w'.stack = invoked w.stack := by
  obtain ⟨S, -, hcases⟩ := enterInterceptor_cases h
  cases hcases with
  | refused | called => rfl

theorem leaveInterceptor_invoked {c : CallbackFrame} {bytes : List UInt8}
    (h : leaveInterceptor w c rest bytes = some w') : invoked w'.stack = invoked rest := by
  cases leaveInterceptor_cases h with
  | plain | refused => rfl
  | stored _ _ hrest =>
    cases hrest
    rfl

theorem leaveFrame_invoked (fr : Frame) : invoked rest ⊆ invoked (fr :: rest) := by
  cases fr with
  | invoke f => exact List.subset_cons_self ..
  | callback c => exact List.Subset.refl _

theorem hostStep_invoked {grow : GrowFuncrefTable} {a : HostAct}
    (h : hostStep grow a w = some w') {S : SandboxId} (hS : S ∈ invoked w'.stack) :
    S ∈ invoked w.stack ∨ a.target = some S := by
  cases a with
  | invoke S' func retClass params =>
    cases h
    rcases List.mem_cons.mp hS with rfl | hmem
    · exact .inr rfl
    · exact .inl hmem
  | mallocInSandbox S' size =>
    cases h
    rcases List.mem_cons.mp (implMallocInSandbox_invoked S' size hS) with rfl | hmem
    · exact .inr rfl
    · exact .inl hmem
  | freeInSandbox S' p =>
    cases h
    rcases List.mem_cons.mp hS with rfl | hmem
    · exact .inr rfl
    · exact .inl hmem
  | table S' op =>
    cases h
    exact .inl hS
  | ret bytes =>
    unfold hostStep at h
    dsimp only at h
    split at h
    · next c rest hstack =>
      rw [leaveInterceptor_invoked h] at hS
      rw [hstack]
      exact .inl hS
    · cases h
  | throw =>
    cases h
    exact .inl hS

/-- Guest code makes no invocation. -/
theorem guestStep_invoked {grow : GrowFuncrefTable} {a : GuestAct}
    (hstack : w.stack = .invoke f :: rest) (h : guestStep grow a w f rest = some w') :
    invoked w'.stack = invoked w.stack := by
  unfold guestStep at h
  cases a with
  | store a v =>
    dsimp only at h
    split at h
    · cases h
      rw [hstack]
      rfl
    · cases h
  | growTable delta init =>
    cases h
    rfl
  | callSlot slot ret params =>
    dsimp only at h
    split at h
    · exact enterInterceptor_invoked h
    · cases h
  | ret v =>
    cases h
    rw [hstack]
    rfl

/-- A step makes an invocation on a sandbox that has one, or on that of a host act. -/
theorem step_invoked {grow : GrowFuncrefTable} {i : Input} (h : step grow i w = some w')
    {S : SandboxId} (hS : S ∈ invoked w'.stack) :
    S ∈ invoked w.stack ∨ ∃ a, i = .host a ∧ a.target = some S := by
  unfold step at h
  split at h
  · next a _ _ => exact (hostStep_invoked h hS).imp_right fun ha => ⟨a, rfl, ha⟩
  · next a _ _ => exact (hostStep_invoked h hS).imp_right fun ha => ⟨a, rfl, ha⟩
  · next f rest a hraising hstack =>
    split at h
    · rw [guestStep_invoked hstack h] at hS
      exact .inl hS
    · cases h
  · next f rest k hraising hstack =>
    obtain ⟨-, -, bytes, lvalue, -, rfl⟩ := serializeArg_cases h
    rw [hstack]
    rcases List.mem_cons.mp (implMallocInSandbox_invoked _ _ hS) with rfl | hmem
    · exact .inl (List.mem_cons_self ..)
    · exact .inl hmem
  · next f rest hraising hstack => exact .inl (tickInvoke_invoked hstack h hS)
  · next fr rest hraising hstack =>
    cases h
    rw [leaveFrame_stack] at hS
    rw [hstack]
    exact .inl (leaveFrame_invoked fr hS)
  · cases h
    exact .inl hS
  · cases h
    exact .inl hS
  · cases h

end invocations

/-! ## Guest code runs on live instances -/

/-- No invocation on `S` is under way. -/
def Owners.Unused (o : Owners) (S : SandboxId) : Prop := S ∉ invoked o.world.stack

instance (o : Owners) (S : SandboxId) : Decidable (o.Unused S) :=
  inferInstanceAs (Decidable (S ∉ invoked o.world.stack))

/-- A failing create tears down no object with a return slot, one with a return slot is
    destroyed only while it is live, and no instance is freed under an invocation. -/
def KeepsInstance {m : ModuleType} (o : Owners) : OwnerInput m → Prop
  | .create S call _ _ => call.infallible = false → ((o.holders S).attemptCreate call).1 ≠ none →
    (o.world.sandboxes S).returnSlotSize = 0 ∧ o.Unused S
  | .destroy S =>
    if (o.world.sandboxes S).returnSlotSize = 0 then o.Unused S
    else (o.holders S).instanceInitialized = true
  | .finishDestroy => ∀ d ∈ o.destroying.head?, o.Unused d.1
  | .use _ => True

instance {m : ModuleType} (o : Owners) : DecidablePred (KeepsInstance (m := m) o)
  | .create S call _ _ =>
    inferInstanceAs (Decidable (call.infallible = false →
      ((o.holders S).attemptCreate call).1 ≠ none →
      (o.world.sandboxes S).returnSlotSize = 0 ∧ o.Unused S))
  | .destroy S =>
    inferInstanceAs (Decidable (if (o.world.sandboxes S).returnSlotSize = 0 then o.Unused S
      else (o.holders S).instanceInitialized = true))
  | .finishDestroy => inferInstanceAs (Decidable (∀ d ∈ o.destroying.head?, o.Unused d.1))
  | .use _ => .isTrue trivial

/-- Every invocation under way is on an object with an instance. -/
def Owners.Guarded (o : Owners) : Prop :=
  ∀ S ∈ invoked o.world.stack, (o.holders S).instanceInitialized = true

section guarded
variable {grow : GrowFuncrefTable} {m : ModuleType} {o o' : Owners} {S : SandboxId}
  {call : CreateCall m} {t : FuncrefTable} {memory : Memory}

/-- Without a return slot a destroy makes no invocation. -/
theorem implDestroySandbox_zero (hzero : (o.world.sandboxes S).returnSlotSize = 0) :
    o.implDestroySandbox m S = o.endDestroy m S := if_neg (not_not_intro hzero)

theorem implDestroySandbox_pos (hpos : (o.world.sandboxes S).returnSlotSize ≠ 0) :
    (o.implDestroySandbox m S).holders = o.holders ∧
    ∃ f : InvokeFrame, f.sandbox = S ∧
      (o.implDestroySandbox m S).world.stack = .invoke f :: o.world.stack := by
  unfold Owners.implDestroySandbox
  dsimp only
  rw [if_pos hpos]
  exact ⟨rfl, _, rfl, rfl⟩

/-- What a create does, by the check that fails first. -/
inductive CreateResult (o : Owners) (S : SandboxId) (call : CreateCall m) (t : FuncrefTable)
    (memory : Memory) : Owners → Prop
  | created {h : Holder} (hattempt : Attempted call (o.holders S) (none, h))
      (hcheck : ((o.holders S).attemptCreate call).1 = none) :
      CreateResult o S call t memory
        { (o.minwasiInitInstance S call).setHolder S h with
          world := o.world.onSandbox S fun s => s.instantiate t memory }
  | thrown {check : DynamicCheck} {h : Holder}
      (hattempt : Attempted call (o.holders S) (some check, h))
      (hcheck : ((o.holders S).attemptCreate call).1 = some check)
      (hinfallible : call.infallible = true) :
      CreateResult o S call t memory
        { (o.minwasiInitInstance S call).setHolder S h with
          world := o.world.raise (.check check) }
  | failed {check : DynamicCheck} {h : Holder}
      (hattempt : Attempted call (o.holders S) (some check, h))
      (hcheck : ((o.holders S).attemptCreate call).1 = some check)
      (hfallible : call.infallible = false) :
      CreateResult o S call t memory
        (((o.minwasiInitInstance S call).setHolder S h).implDestroySandbox m S)

theorem implCreateSandbox_cases (o : Owners) (S : SandboxId) (call : CreateCall m)
    (t : FuncrefTable) (memory : Memory) :
    CreateResult o S call t memory (o.implCreateSandbox S call t memory) := by
  have hattempt := attemptCreate_cases call (o.holders S)
  unfold Owners.implCreateSandbox
  cases hr : (o.holders S).attemptCreate call with
  | mk check h =>
    rw [hr] at hattempt
    have hr' : ((o.minwasiInitInstance S call).holders S).attemptCreate call = (check, h) := hr
    cases check with
    | none =>
      dsimp only
      rw [hr']
      exact .created hattempt (congrArg Prod.fst hr)
    | some check =>
      dsimp only
      rw [hr']
      dsimp only [Owners.fallibleDynamicCheck]
      split
      · next hinfallible => exact .thrown hattempt (congrArg Prod.fst hr) hinfallible
      · next hfallible =>
        exact .failed hattempt (congrArg Prod.fst hr) (by simpa using hfallible)

/-! ### The holders -/

/-- The record of every object is sound. -/
def HoldersSound (m : ModuleType) (o : Owners) : Prop := ∀ S, (o.holders S).Sound m

theorem HoldersSound.setHolder {h : Holder} (hs : HoldersSound m o) (hsound : h.Sound m) :
    HoldersSound m (o.setHolder S h) := by
  intro S'
  by_cases hS : S' = S
  · subst hS
    rwa [Owners.setHolder_self]
  · rw [Owners.setHolder_of_ne o h hS]
    exact hs S'

theorem HoldersSound.destroy (hs : HoldersSound m o) :
    HoldersSound m (o.implDestroySandbox m S) := by
  by_cases hzero : (o.world.sandboxes S).returnSlotSize = 0
  · rw [implDestroySandbox_zero hzero]
    exact hs.setHolder (hs S).destroy
  · intro S'
    rw [(implDestroySandbox_pos hzero).1]
    exact hs S'

theorem ownerStep_holders (o : Owners) (i : OwnerInput m) (o' : Owners) (hs : HoldersSound m o)
    (h : ownerStep grow i o = some o') : HoldersSound m o' := by
  unfold ownerStep at h
  cases i with
  | create S call t memory =>
    dsimp only at h
    split at h
    · cases h
      have hcases := implCreateSandbox_cases o S call t memory
      generalize o.implCreateSandbox S call t memory = o' at hcases ⊢
      cases hcases with
      | created hattempt => exact hs.setHolder (Holder.attempted_sound (hs S) hattempt)
      | thrown hattempt => exact hs.setHolder (Holder.attempted_sound (hs S) hattempt)
      -- the cleanup is a destroy of what the attempt left
      | failed hattempt =>
        have hattempted : HoldersSound m (o.minwasiInitInstance S call) := hs
        exact (hattempted.setHolder (Holder.attempted_sound (hs S) hattempt)).destroy
    · cases h
  | destroy S =>
    dsimp only at h
    split at h
    · cases h
      exact hs.destroy
    · cases h
  | finishDestroy =>
    dsimp only at h
    split at h
    · split at h
      · cases h
        exact HoldersSound.setHolder hs (hs _).destroy
      · cases h
    · cases h
  | use i =>
    obtain ⟨o₁, -, rfl⟩ := Option.map_eq_some_iff.mp h
    exact hs

theorem Owners.New.holdersSound (hnew : o.New) : HoldersSound m o := by
  intro S
  rw [hnew.holders S]
  exact Holder.constructed_sound

theorem reached_holders {o₀ : Owners} {is : List (OwnerInput m)} (hnew : o₀.New)
    (hexec : exec (ownerStep grow) is o₀ = some o) : HoldersSound m o :=
  exec_invariant (fun o i o' hs _ h => ownerStep_holders o i o' hs h) hnew.holdersSound
    (meets_true is o₀) hexec

/-! ### The clock data -/

/-- No block was freed, and the pointer is null exactly where none was allocated. -/
structure ClockHold.Sound (backEnd : Option BackEnd) (c : ClockHold) : Prop where
  freed : c.freed = []
  pointer : c.clockData = none ↔ c.allocated = []
  posix : backEnd = none → c.clockData = none

namespace ClockHold
variable {backEnd : Option BackEnd} {succeeds : Bool} {c : ClockHold}

theorem constructed_sound : ClockHold.constructed.Sound backEnd :=
  ⟨rfl, iff_of_true rfl rfl, fun _ => rfl⟩

/-- With its test for a null pointer the cleanup does nothing. -/
theorem cleanupInstance_eq (backEnd : Option BackEnd) (c : ClockHold) :
    c.cleanupInstance backEnd = c := by
  obtain ⟨clockData, allocated, freed⟩ := c
  cases backEnd <;> cases clockData <;> rfl

theorem Sound.initInstance (hs : c.Sound backEnd) :
    (c.initInstance backEnd succeeds).Sound backEnd := by
  cases backEnd with
  | none => exact hs
  | some b =>
    cases succeeds with
    | false => exact hs
    | true => exact ⟨hs.freed, iff_of_false nofun nofun, nofun⟩

/-- Every block was freed once only where there is none. -/
theorem Sound.freed_once_iff (hs : c.Sound backEnd) :
    (∀ n ∈ c.allocated, c.freed.count n = 1) ↔ c.clockData = none := by
  rw [hs.pointer, hs.freed]
  constructor
  · intro honce
    refine List.eq_nil_iff_forall_not_mem.mpr fun n hn => ?_
    exact absurd (honce n hn) Nat.zero_ne_one
  · intro hnil n hn
    rw [hnil] at hn
    cases hn

theorem initInstance_null_iff (backEnd : Option BackEnd) (succeeds : Bool) (c : ClockHold) :
    (c.initInstance backEnd succeeds).clockData = none ↔
      c.clockData = none ∧ (backEnd ≠ none → succeeds = false) := by
  cases backEnd with
  | none => exact (and_iff_left fun hne => absurd rfl hne).symm
  | some b =>
    cases succeeds with
    | false => exact (and_iff_left fun _ => rfl).symm
    | true => exact iff_of_false nofun fun h => Bool.noConfusion (h.2 nofun)

section records
variable {b : BackEnd} {ι : Type} [DecidableEq ι] {s : ClockProcess b ι} {o : ι} {c : ClockHold}

/-- The record is of object `o` of `ClockInit`: the pointer is null in both or in neither. -/
def Records (c : ClockHold) (s : ClockProcess b ι) (o : ι) : Prop :=
  c.clockData.isSome = (s.clockData o).isSome

/-- `minwasi_init_instance` and `minwasi_cleanup_instance` do to the pointer what they do there. -/
theorem Records.initInstance (h : c.Records s o) (outcome : InitOutcome b) (malloc : Bool) :
    (c.initInstance (some b) malloc).Records (s.osClockInitInstance o outcome malloc).2 o := by
  have hlazy : (s.lazyInit outcome).clockData = s.clockData := by
    unfold ClockProcess.lazyInit
    split <;> rfl
  unfold Records at h ⊢
  unfold ClockHold.initInstance ClockProcess.osClockInitInstance
  cases malloc with
  | false =>
    refine h.trans ?_
    rw [← hlazy]
    rfl
  | true => simp [ClockProcess.setClockData]

theorem Records.cleanupInstance (h : c.Records s o) :
    (c.cleanupInstance (some b)).Records (s.osClockCleanupInstance o) o := by
  unfold Records at h ⊢
  rw [cleanupInstance_eq, h]
  unfold ClockProcess.osClockCleanupInstance
  cases hdata : s.clockData o with
  | none => simp [ClockProcess.setClockData]
  | some block => exact congrArg Option.isSome hdata.symm

end records

end ClockHold

/-- The clock data of every object are sound. -/
def ClocksSound (o : Owners) : Prop := ∀ S, (o.clocks S).Sound o.backEnd

theorem endDestroy_clocks : (o.endDestroy m S).clocks = o.clocks := by
  unfold Owners.endDestroy
  rw [ClockHold.cleanupInstance_eq, ite_self]
  exact Function.update_eq_self S o.clocks

theorem destroy_clocks :
    (o.implDestroySandbox m S).clocks = o.clocks ∧
      (o.implDestroySandbox m S).backEnd = o.backEnd := by
  by_cases hzero : (o.world.sandboxes S).returnSlotSize = 0
  · rw [implDestroySandbox_zero hzero]
    exact ⟨endDestroy_clocks, rfl⟩
  · unfold Owners.implDestroySandbox
    dsimp only
    rw [if_pos hzero]
    exact ⟨rfl, rfl⟩

/-- A create touches the clock data where it initializes minwasi for the object. -/
theorem create_clocks (o : Owners) (S : SandboxId) (call : CreateCall m) (t : FuncrefTable)
    (memory : Memory) :
    (o.implCreateSandbox S call t memory).clocks = (o.minwasiInitInstance S call).clocks ∧
      (o.implCreateSandbox S call t memory).backEnd = o.backEnd := by
  have hcases := implCreateSandbox_cases o S call t memory
  generalize o.implCreateSandbox S call t memory = o' at hcases ⊢
  cases hcases with
  | created | thrown => exact ⟨rfl, rfl⟩
  | failed => exact destroy_clocks

theorem ClocksSound.minwasiInitInstance (hs : ClocksSound o) (S : SandboxId)
    (call : CreateCall m) : ClocksSound (o.minwasiInitInstance S call) := by
  intro S'
  by_cases hS : S' = S
  · subst hS
    unfold Owners.minwasiInitInstance
    rw [Owners.setClock_self]
    split
    · exact (hs S').initInstance
    · exact hs S'
  · unfold Owners.minwasiInitInstance
    rw [Owners.setClock_of_ne o _ hS]
    exact hs S'

theorem ownerStep_clocks (o : Owners) (i : OwnerInput m) (o' : Owners) (hs : ClocksSound o)
    (h : ownerStep grow i o = some o') : ClocksSound o' := by
  unfold ownerStep at h
  cases i with
  | create S call t memory =>
    dsimp only at h
    split at h
    · cases h
      obtain ⟨hclocks, hbackEnd⟩ := create_clocks o S call t memory
      intro S'
      rw [hclocks, hbackEnd]
      exact hs.minwasiInitInstance S call S'
    · cases h
  | destroy S =>
    dsimp only at h
    split at h
    · cases h
      obtain ⟨hclocks, hbackEnd⟩ := destroy_clocks (o := o) (m := m) (S := S)
      intro S'
      rw [hclocks, hbackEnd]
      exact hs S'
    · cases h
  | finishDestroy =>
    dsimp only at h
    split at h
    · split at h
      · cases h
        intro S'
        rw [endDestroy_clocks]
        exact hs S'
      · cases h
    · cases h
  | use i =>
    obtain ⟨o₁, -, rfl⟩ := Option.map_eq_some_iff.mp h
    exact hs

theorem Owners.New.clocksSound (hnew : o.New) : ClocksSound o := by
  intro S
  rw [hnew.clocks S]
  exact ClockHold.constructed_sound

theorem reached_clocks {o₀ : Owners} {is : List (OwnerInput m)} (hnew : o₀.New)
    (hexec : exec (ownerStep grow) is o₀ = some o) : ClocksSound o :=
  exec_invariant (fun o i o' hs _ h => ownerStep_clocks o i o' hs h) hnew.clocksSound
    (meets_true is o₀) hexec

/-! ### The invocations -/

/-- A create that fails does not make the object an initialized one, or another. -/
theorem failed_initialized {h h' : Holder} {check : DynamicCheck}
    (hattempt : Attempted call h (some check, h')) :
    h'.instanceInitialized = h.instanceInitialized := by
  cases hattempt with
  | initialized | early => rfl
  | heap hinit hfails hdata => rw [Holder.withMemory_null hdata]
  | memory64 hinit hfails hdata hmemory => rw [Holder.withMemory_data hdata]

theorem created_initialized {h h' : Holder} (hattempt : Attempted call h (none, h')) :
    h'.instanceInitialized = true := by
  cases hattempt with
  | imported | exported => rfl

/-- The holder of `S` is another, with an instance if there is an invocation. -/
theorem Owners.Guarded.setHolder {h : Holder} (hg : o.Guarded)
    (hinit : S ∈ invoked o.world.stack → h.instanceInitialized = true) :
    (o.setHolder S h).Guarded := by
  intro S' hS'
  by_cases hS : S' = S
  · subst hS
    rw [setHolder_self]
    exact hinit hS'
  · rw [setHolder_of_ne o h hS]
    exact hg S' hS'

theorem Owners.Guarded.endDestroy (hg : o.Guarded) (hunused : o.Unused S) :
    (o.endDestroy m S).Guarded := hg.setHolder fun hmem => absurd hmem hunused

theorem Owners.Guarded.destroy (hg : o.Guarded)
    (hkeeps : if (o.world.sandboxes S).returnSlotSize = 0 then o.Unused S
      else (o.holders S).instanceInitialized = true) :
    (o.implDestroySandbox m S).Guarded := by
  split at hkeeps
  · next hzero =>
    rw [implDestroySandbox_zero hzero]
    exact hg.endDestroy hkeeps
  · next hpos =>
    -- a slot: the destroy has invoked the guest's free, and frees the instance after it
    obtain ⟨hholders, f, rfl, hstack⟩ := implDestroySandbox_pos (m := m) hpos
    intro S' hS'
    rw [hstack] at hS'
    rw [hholders]
    rcases List.mem_cons.mp hS' with rfl | hmem
    · exact hkeeps
    · exact hg S' hmem

theorem Owners.Guarded.create (hg : o.Guarded)
    (hkeeps : KeepsInstance o (.create S call t memory)) :
    (o.implCreateSandbox S call t memory).Guarded := by
  have hcases := implCreateSandbox_cases o S call t memory
  generalize o.implCreateSandbox S call t memory = o' at hcases ⊢
  have hsame : ∀ {check h}, Attempted call (o.holders S) (some check, h) →
      ((o.minwasiInitInstance S call).setHolder S h).Guarded := by
    intro check h hattempt
    refine Owners.Guarded.setHolder (o := o.minwasiInitInstance S call) hg fun hmem => ?_
    rw [failed_initialized hattempt]
    exact hg S hmem
  cases hcases with
  | created hattempt => exact hg.setHolder fun _ => created_initialized hattempt
  | thrown hattempt => exact hsame hattempt
  | @failed check h hattempt hcheck hfallible =>
    obtain ⟨hslot, hunused⟩ := hkeeps hfallible (by rw [hcheck]; exact Option.some_ne_none check)
    -- without a slot the cleanup enters no guest, and no invocation loses its instance
    have hslot' : (((o.minwasiInitInstance S call).setHolder S h).world.sandboxes
        S).returnSlotSize = 0 := hslot
    rw [implDestroySandbox_zero hslot']
    exact (hsame hattempt).endDestroy hunused

theorem use_guarded {i : Input} (hg : o.Guarded) {o₁ : Objects}
    (h : o.toObjects.use grow i = some o₁) :
    Owners.Guarded { o with world := o₁.world, destroying := o₁.destroying } := by
  intro S hS
  -- a sandbox is invoked already, or this step invokes it: then the host found it live
  rcases step_invoked (use_step h) hS with hmem | ⟨a, rfl, htarget⟩
  · exact hg S hmem
  · unfold Objects.use at h
    dsimp only at h
    split at h
    · next hallowed =>
      obtain ⟨-, hinit⟩ := Bool.and_eq_true_iff.mp hallowed
      rw [htarget] at hinit
      exact hinit
    · cases h

theorem ownerStep_guarded (o : Owners) (i : OwnerInput m) (o' : Owners) (hg : o.Guarded)
    (hkeeps : KeepsInstance o i) (h : ownerStep grow i o = some o') : o'.Guarded := by
  unfold ownerStep at h
  cases i with
  | create S call t memory =>
    dsimp only at h
    split at h
    · cases h
      exact hg.create hkeeps
    · cases h
  | destroy S =>
    dsimp only at h
    split at h
    · cases h
      exact hg.destroy hkeeps
    · cases h
  | finishDestroy =>
    dsimp only at h
    split at h
    · next S height destroying hdestroying =>
      split at h
      · cases h
        have hunused : o.Unused S := hkeeps (S, height) (by rw [hdestroying]; rfl)
        exact Owners.Guarded.endDestroy hg hunused
      · cases h
    · cases h
  | use i =>
    obtain ⟨o₁, ho₁, rfl⟩ := Option.map_eq_some_iff.mp h
    exact use_guarded hg ho₁

theorem Owners.New.guarded (hnew : o.New) : o.Guarded := by
  intro S hS
  rw [hnew.stack] at hS
  cases hS

/-- The cleanup of a failing create makes no invocation. -/
theorem create_stack (hkeeps : KeepsInstance o (.create S call t memory)) :
    (o.implCreateSandbox S call t memory).world.stack = o.world.stack := by
  have hcases := implCreateSandbox_cases o S call t memory
  generalize o.implCreateSandbox S call t memory = o' at hcases ⊢
  cases hcases with
  | created | thrown => rfl
  | @failed check h hattempt hcheck hfallible =>
    have hslot : (((o.minwasiInitInstance S call).setHolder S h).world.sandboxes
        S).returnSlotSize = 0 :=
      (hkeeps hfallible (by rw [hcheck]; exact Option.some_ne_none check)).1
    rw [implDestroySandbox_zero hslot]
    rfl

/-- In every run in which a failing create tears down no object with a return slot, one with
    a return slot is destroyed only while it is live, and no instance is freed under an
    invocation, every invocation is on an instance that was made and is not freed, from
    before it enters the guest on; and the cleanup of a failing create makes none. -/
theorem guest_runs_live {o₀ : Owners} {is : List (OwnerInput m)} (hnew : o₀.New)
    (hmeets : Meets (ownerStep grow) KeepsInstance is o₀)
    (hexec : exec (ownerStep grow) is o₀ = some o) :
    (∀ f, .invoke f ∈ o.world.stack → (o.holders f.sandbox).Live) ∧
    ∀ S (call : CreateCall m) t memory, KeepsInstance o (.create S call t memory) →
      (o.implCreateSandbox S call t memory).world.stack = o.world.stack := by
  have hg := exec_invariant ownerStep_guarded hnew.guarded hmeets hexec
  refine ⟨?_, ?_⟩
  · intro f hf
    exact ((reached_holders hnew hexec) f.sandbox).live.mp (hg f.sandbox (mem_invoked hf))
  · intro S call t memory hkeeps
    exact create_stack hkeeps

/-! ## The machine of lives -/

theorem toObjects_setHolder (h : Holder) :
    (o.setHolder S h).toObjects =
      { o.toObjects with
        instanceInitialized :=
          Function.update o.toObjects.instanceInitialized S h.instanceInitialized } := by
  unfold Owners.toObjects Owners.setHolder
  congr 1
  exact Function.comp_update Holder.instanceInitialized o.holders S h

theorem unused_any (hunused : o.Unused S) :
    (o.world.stack.any fun fr => fr.link.any fun l => l.1 = some S) = false := by
  refine List.any_eq_false.mpr fun fr hfr => ?_
  cases fr with
  | invoke f =>
    have hne : f.sandbox ≠ S := fun heq => hunused (heq ▸ mem_invoked hfr)
    simpa [Frame.link] using hne
  | callback c => simp [Frame.link]

theorem endDestroy_refines (hunused : o.Unused S) :
    o.toObjects.endDestroy S = some (o.endDestroy m S).toObjects := by
  have hany : (o.toObjects.world.stack.any fun fr => fr.link.any fun l => l.1 = some S) = false :=
    unused_any hunused
  have hset := toObjects_setHolder (o := o) (S := S) ((o.holders S).implDestroySandbox m)
  rw [Holder.destroy_initialized] at hset
  unfold Objects.endDestroy
  rw [hany]
  -- the clock data are no part of the objects
  exact congrArg some hset.symm

theorem destroy_refines (hunused : (o.world.sandboxes S).returnSlotSize = 0 → o.Unused S) :
    o.toObjects.implDestroySandbox S = some (o.implDestroySandbox m S).toObjects := by
  by_cases hzero : (o.world.sandboxes S).returnSlotSize = 0
  · rw [implDestroySandbox_zero hzero, ← endDestroy_refines (hunused hzero)]
    exact if_neg (not_not_intro hzero)
  · unfold Objects.implDestroySandbox Owners.implDestroySandbox
    dsimp only
    rw [if_pos hzero]
    exact if_pos hzero

/-- The outcome of a create that the checks before the instance decide. -/
def outcomeOf (check : Option DynamicCheck) (t : FuncrefTable) (memory : Memory) :
    Except CreateCheck (FuncrefTable × Memory × Bool) :=
  match check with
  | some (.create check) => .error check
  | _ => .ok (t, memory, true)

theorem fails_refines {check : DynamicCheck} {h : Holder} (b : Bool)
    (hattempt : Attempted call (o.holders S) (some check, h)) :
    o.toObjects.implCreateSandbox S b (outcomeOf (some check) t memory) =
      (o.setHolder S h).toObjects.failCreate S b check := by
  have hsame : (o.setHolder S h).toObjects = o.toObjects := by
    rw [toObjects_setHolder, failed_initialized hattempt]
    have hself := Function.update_eq_self S o.toObjects.instanceInitialized
    exact congrArg (fun init => { o.toObjects with instanceInitialized := init }) hself
  rw [hsame]
  unfold Objects.implCreateSandbox
  cases hattempt with
  | initialized hinit => exact if_pos hinit
  | early _ _ hinit | heap hinit | memory64 hinit =>
    refine if_neg ?_
    show ¬(o.holders S).instanceInitialized = true
    rw [hinit]
    exact Bool.false_ne_true

theorem created_refines {h : Holder} (b : Bool)
    (hattempt : Attempted call (o.holders S) (none, h)) :
    o.toObjects.implCreateSandbox S b (outcomeOf none t memory) =
      some { o.setHolder S h with
        world := o.world.onSandbox S fun s => s.instantiate t memory : Owners }.toObjects := by
  have hinit : o.toObjects.instanceInitialized S = false := by
    cases hattempt with
    | imported hinit | exported hinit => exact hinit
  have hset := congrArg Objects.instanceInitialized (toObjects_setHolder (o := o) (S := S) h)
  rw [created_initialized hattempt] at hset
  refine (create_succeeds hinit).trans (congrArg some ?_)
  exact congrArg (fun init => (⟨o.world.onSandbox S fun s => s.instantiate t memory, init,
    o.destroying⟩ : Objects)) hset.symm

theorem create_refines (hkeeps : KeepsInstance o (.create S call t memory)) :
    ∃ outcome, o.toObjects.implCreateSandbox S call.infallible outcome =
      some (o.implCreateSandbox S call t memory).toObjects := by
  refine ⟨outcomeOf ((o.holders S).attemptCreate call).1 t memory, ?_⟩
  have hcases := implCreateSandbox_cases o S call t memory
  generalize o.implCreateSandbox S call t memory = o' at hcases ⊢
  cases hcases with
  | created hattempt hcheck =>
    rw [hcheck]
    exact created_refines _ hattempt
  | thrown hattempt hcheck hinfallible =>
    rw [hcheck, fails_refines _ hattempt, hinfallible]
    rfl
  | failed hattempt hcheck hfallible =>
    obtain ⟨-, hunused⟩ := hkeeps hfallible (by rw [hcheck]; exact Option.some_ne_none _)
    rw [hcheck, fails_refines _ hattempt, hfallible]
    exact destroy_refines (o := (o.minwasiInitInstance S call).setHolder S _) fun _ => hunused

theorem use_initialized {o₀ o₁ : Objects} {i : Input} (h : o₀.use grow i = some o₁) :
    o₁.instanceInitialized = o₀.instanceInitialized := by
  unfold Objects.use at h
  split at h
  · split at h
    · obtain ⟨w, -, rfl⟩ := Option.map_eq_some_iff.mp h
      rfl
    · cases h
  · obtain ⟨w, -, rfl⟩ := Option.map_eq_some_iff.mp h
    rfl
  · obtain ⟨w, -, rfl⟩ := Option.map_eq_some_iff.mp h
    rfl

/-- A step that frees no instance under an invocation is one of the machine of lives. -/
theorem ownerStep_refines {i : OwnerInput m} (hkeeps : KeepsInstance o i)
    (h : ownerStep grow i o = some o') : ∃ j, lifeStep grow j o.toObjects = some o'.toObjects := by
  unfold ownerStep at h
  cases i with
  | create S call t memory =>
    dsimp only at h
    split at h
    · next hruns =>
      cases h
      obtain ⟨outcome, houtcome⟩ := create_refines hkeeps
      exact ⟨.create S call.infallible outcome, (if_pos hruns).trans houtcome⟩
    · cases h
  | destroy S =>
    dsimp only at h
    split at h
    · next hruns =>
      cases h
      refine ⟨.destroy S, (if_pos hruns).trans (destroy_refines fun hzero => ?_)⟩
      simpa only [KeepsInstance, hzero, if_true] using hkeeps
    · cases h
  | finishDestroy =>
    dsimp only at h
    split at h
    · next S height destroying hdestroying =>
      split at h
      · next hready =>
        cases h
        have hunused : o.Unused S := hkeeps (S, height) (by rw [hdestroying]; rfl)
        refine ⟨.finishDestroy, ?_⟩
        have hend := endDestroy_refines (m := m) (o := { o with destroying := destroying }) hunused
        unfold lifeStep Owners.toObjects
        simp only [hdestroying]
        exact (if_pos hready).trans hend
      · cases h
    · cases h
  | use i =>
    obtain ⟨o₁, ho₁, rfl⟩ := Option.map_eq_some_iff.mp h
    refine ⟨.use i, ho₁.trans (congrArg some ?_)⟩
    have hinit := use_initialized ho₁
    obtain ⟨w, init, destroying⟩ := o₁
    cases hinit
    rfl

/-! ## A create that fails -/

/-- A live object is as it was; one without an instance has none, and everything acquired and
    all clock data allocated for it were released once. No guest code was entered: a live
    object would lose its return slot, another has no guest to enter. -/
structure LeftAsFound (S : SandboxId) (o o' : Owners) : Prop where
  stack : o'.world.stack = o.world.stack
  live : (o.holders S).instanceInitialized = true →
    o'.holders S = o.holders S ∧ o'.world.sandboxes S = o.world.sandboxes S ∧
      o'.clocks S = o.clocks S
  notCreated : (o.holders S).instanceInitialized = false →
    (o'.holders S).instanceInitialized = false ∧
    (∀ r ∈ (o'.holders S).acquired, (o'.holders S).released.count r = 1) ∧
    ∀ n ∈ (o'.clocks S).allocated, (o'.clocks S).freed.count n = 1

/-- The object has no clock data, and on a back end that has them the create gets none. -/
def Owners.NoClockData (o : Owners) (S : SandboxId) (call : CreateCall m) : Prop :=
  (o.clocks S).clockData = none ∧
  (o.backEnd ≠ none → (call.minwasiInitSucceeded && call.minwasiInitInstSucceeded) = false)

instance (o : Owners) (S : SandboxId) (call : CreateCall m) : Decidable (o.NoClockData S call) :=
  inferInstanceAs (Decidable ((o.clocks S).clockData = none ∧
    (o.backEnd ≠ none → (call.minwasiInitSucceeded && call.minwasiInitInstSucceeded) = false)))

/-- The cleanup of a failing create releases everything acquired once if and only if the
    object kept track and had null data pointers where the create comes to the memory. -/
theorem failed_tracked_iff {h h' : Holder} {check : DynamicCheck} (hs : h.Sound m)
    (hattempt : Attempted call h (some check, h')) :
    (∀ r ∈ (h'.implDestroySandbox m).acquired, (h'.implDestroySandbox m).released.count r = 1) ↔
      h.Tracked m ∧ (h.instanceInitialized = false → h.FindsNull call) := by
  have hsound := (Holder.attempted_sound hs hattempt).destroy
  rw [← perm_iff_once hsound.numbered.nodup hsound.released,
    ← Holder.failed_tracked hs hattempt, ← Holder.destroy_tracked]
  unfold Holder.Tracked
  rw [Holder.destroy_owed, List.nil_append]

/-- A create on an object without an instance leaves no clock data behind if and only if there
    were none and it gets none. -/
theorem created_clocks_iff (hs : ClocksSound o) (S : SandboxId) (call : CreateCall m)
    (t : FuncrefTable) (memory : Memory) (hnot : (o.holders S).instanceInitialized = false) :
    (∀ n ∈ ((o.implCreateSandbox S call t memory).clocks S).allocated,
      ((o.implCreateSandbox S call t memory).clocks S).freed.count n = 1) ↔
      o.NoClockData S call := by
  have hsound := hs.minwasiInitInstance S call S
  rw [(create_clocks o S call t memory).1, hsound.freed_once_iff]
  unfold Owners.minwasiInitInstance Owners.NoClockData
  rw [Owners.setClock_self, hnot]
  cases hinit : call.minwasiInitSucceeded with
  | false => exact (and_iff_left fun _ => rfl).symm
  | true => exact ClockHold.initInstance_null_iff ..

/-- A fallible create that fails leaves an object of any run as it found it if and only if
    the object is not live, has no return slot, would release exactly what it has acquired,
    where the create fails at its heap or memory64 check, has null data pointers of the
    memory and the table, and, where the back end has clock data, has none and gets none. -/
theorem failed_create_leaves_iff {o₀ : Owners} {is : List (OwnerInput m)} (hnew : o₀.New)
    (hexec : exec (ownerStep grow) is o₀ = some o) (hfallible : call.infallible = false)
    (hfails : ((o.holders S).attemptCreate call).1 ≠ none) :
    LeftAsFound S o (o.implCreateSandbox S call t memory) ↔
      (o.holders S).instanceInitialized = false ∧ (o.world.sandboxes S).returnSlotSize = 0 ∧
      (o.holders S).Tracked m ∧ (o.holders S).FindsNull call ∧ o.NoClockData S call := by
  have hs := reached_holders hnew hexec S
  have hclocks := created_clocks_iff (reached_clocks hnew hexec) S call t memory
  have hcases := implCreateSandbox_cases o S call t memory
  generalize o.implCreateSandbox S call t memory = o' at hcases hclocks ⊢
  cases hcases with
  | created hattempt hcheck => exact absurd hcheck hfails
  | thrown hattempt hcheck hinfallible =>
    rw [hfallible] at hinfallible
    cases hinfallible
  | @failed check h hattempt =>
    -- with a slot the cleanup invokes the guest's free, so the stack is not as found
    by_cases hzero : (o.world.sandboxes S).returnSlotSize = 0
    · have hzero' : (((o.minwasiInitInstance S call).setHolder S h).world.sandboxes
          S).returnSlotSize = 0 := hzero
      rw [implDestroySandbox_zero hzero'] at hclocks ⊢
      have hholder : (((o.minwasiInitInstance S call).setHolder S h).endDestroy m S).holders S =
          h.implDestroySandbox m := by
        have hset := Owners.setHolder_self (o.minwasiInitInstance S call) S h
        refine (Owners.setHolder_self ..).trans ?_
        rw [hset]
      constructor
      · intro hleft
        -- the cleanup leaves no object live, so one that was live is not as found
        have hnot : (o.holders S).instanceInitialized = false := by
          by_contra hlive
          have hsame := (hleft.live (by simpa using hlive)).1
          rw [hholder] at hsame
          rw [← hsame, Holder.destroy_initialized] at hlive
          exact hlive rfl
        obtain ⟨-, honce, hfreed⟩ := hleft.notCreated hnot
        rw [hholder] at honce
        have htracked := (failed_tracked_iff hs hattempt).mp honce
        exact ⟨hnot, hzero, htracked.1, htracked.2 hnot, (hclocks hnot).mp hfreed⟩
      · rintro ⟨hnot, -, htracked, hfinds, hnone⟩
        refine ⟨rfl, ?_, ?_⟩
        · intro hlive
          rw [hnot] at hlive
          cases hlive
        · intro _
          refine ⟨?_, ?_, (hclocks hnot).mpr hnone⟩
          · rw [hholder]
            exact Holder.destroy_initialized m h
          · rw [hholder]
            exact (failed_tracked_iff hs hattempt).mpr ⟨htracked, fun _ => hfinds⟩
    · have hpos : (((o.minwasiInitInstance S call).setHolder S h).world.sandboxes
          S).returnSlotSize ≠ 0 := hzero
      obtain ⟨-, f, -, hstack⟩ := implDestroySandbox_pos (m := m) hpos
      refine iff_of_false ?_ fun hright => hzero hright.2.1
      intro hleft
      have hlength := congrArg List.length (hstack.symm.trans hleft.stack)
      exact Nat.succ_ne_self _ hlength

end guarded

/-- Objects of a module with one page of memory, on POSIX. -/
def newOwners : Owners := ⟨smallWorld, fun _ => .constructed, [], none, fun _ => .constructed⟩

theorem newOwners_new : newOwners.New :=
  ⟨rfl, rfl, fun _ => rfl, fun _ => rfl, rfl, fun _ => rfl⟩

def createOwner : OwnerInput (onePageModule false) :=
  .create 0 (createOnePage false true) smallTable smallMemory

/-- A guest function that gives a class of one byte is invoked; malloc gives the return slot
    1024. -/
def ownerClassReturn : List (OwnerInput (onePageModule false)) :=
  List.map .use
    [.host (.invoke 0 7 oneByteCall.retClass oneByteCall.params), .tick, .tick, .tick, .tick,
      .guest (.ret 1024), .tick, .tick, .tick, .tick, .guest (.ret 0), .tick, .tick]

/-- The destroy has entered free with the return slot. -/
def ownerDestroy : List (OwnerInput (onePageModule false)) :=
  .destroy 0 :: List.map .use [.tick, .tick]

/-- A class is returned and the sandbox destroyed while it is live. -/
theorem guest_runs_live_destroy :
    ∃ o f, exec (ownerStep growWithinMax) (createOwner :: ownerClassReturn ++ ownerDestroy)
        newOwners = some o ∧
      o.world.running = some f ∧ f.call = freeCall 1024 ∧ f.pc = .body ∧
      (o.holders f.sandbox).Live :=
  ⟨_, _, rfl, rfl, rfl, rfl,
    (guest_runs_live newOwners_new (by decide : Meets (ownerStep growWithinMax) KeepsInstance
      (createOwner :: ownerClassReturn ++ ownerDestroy) newOwners) rfl).1 _
      (List.mem_cons_self ..)⟩

/-- Such a life, to its end. -/
def ownerLife : List (OwnerInput (onePageModule false)) :=
  createOwner :: ownerClassReturn ++ ownerDestroy ++
    [.use (.guest (.ret 0)), .use .tick, .finishDestroy]

/-- A second destroy enters free with the return slot of the life before; so does the cleanup
    of a create that gets no heap. No instance is live. -/
theorem guest_runs_dead :
    (∃ o f, exec (ownerStep growWithinMax) (ownerLife ++ ownerDestroy) newOwners = some o ∧
      o.world.running = some f ∧ f.call = freeCall 1024 ∧ f.pc = .body ∧
      ¬(o.holders f.sandbox).Live) ∧
    ∃ o f, exec (ownerStep growWithinMax)
        (ownerLife ++ [.create 0 (createNoHeap false false) smallTable smallMemory,
          .use .tick, .use .tick]) newOwners = some o ∧
      o.world.running = some f ∧ f.call = freeCall 1024 ∧ f.pc = .body ∧
      ¬(o.holders f.sandbox).Live := by
  have hfreed : ∀ h : Holder, h.wasm2cInstance = some 2 → .wasm2cInstance 2 ∈ h.released →
      ¬h.Live := by
    rintro h hinstance hmem ⟨n, hn, -, hkept⟩
    rw [hinstance] at hn
    cases hn
    exact hkept hmem
  refine ⟨⟨_, _, rfl, rfl, rfl, rfl, ?_⟩, ⟨_, _, rfl, rfl, rfl, rfl, ?_⟩⟩
  · exact hfreed _ rfl (by decide)
  · exact hfreed _ rfl (by decide)

/-- An object that was created and destroyed. -/
def plainOwnerLife : List (OwnerInput (onePageModule false)) := [createOwner, .destroy 0]

/-- A create with a capacity of more than 2^32 bytes. -/
def createTooLarge : CreateCall (onePageModule false) :=
  let capacity := getValidWasm2cMemoryCapacity .w64 (2 ^ 32 + 1) true
  let heap := (createWasm2cMemory .w64 noPages (Words.wrap 32 1) (some capacity) grantNothing).1
  ⟨false, some capacity, true, true, heap, noPages, grantNothing, noPages_supported, rfl⟩

/-- The same objects on Windows. -/
def newOwnersWindows : Owners := { newOwners with backEnd := some .windows }

theorem newOwnersWindows_new : newOwnersWindows.New :=
  ⟨rfl, rfl, fun _ => rfl, fun _ => rfl, rfl, fun _ => rfl⟩

/-- A create for which `malloc` gives no block for the clock data. -/
def createNoWasi : CreateCall (onePageModule false) :=
  { createOnePage false false with minwasiInitInstSucceeded := false }

/-- A refused capacity after a life, on POSIX; and on Windows, beside a live object, clock data
    that cannot be allocated. -/
theorem failed_create_leaves_destroyed :
    (∃ o, exec (ownerStep growWithinMax) plainOwnerLife newOwners = some o ∧
      LeftAsFound 0 o (o.implCreateSandbox 0 createTooLarge smallTable smallMemory)) ∧
    ∃ o, exec (ownerStep growWithinMax) [createOwner] newOwnersWindows = some o ∧
      LeftAsFound 1 o (o.implCreateSandbox 1 createNoWasi smallTable smallMemory) :=
  ⟨⟨_, rfl, (failed_create_leaves_iff newOwners_new (rfl : exec (ownerStep growWithinMax)
      plainOwnerLife newOwners = some _) rfl (by decide)).mpr (by decide)⟩,
    _, rfl, (failed_create_leaves_iff newOwnersWindows_new (rfl : exec (ownerStep growWithinMax)
      [createOwner] newOwnersWindows = some _) rfl (by decide)).mpr (by decide)⟩

/-- A create on a live object destroys it; one that gets no heap releases the table array of
    the life before again; and on Windows one that gets no heap on a new object leaves the
    clock data it allocated. -/
theorem failed_create_changes :
    (∃ o o', exec (ownerStep growWithinMax) [createOwner] newOwners = some o ∧
      o.implCreateSandbox 0 (createOnePage false false) smallTable smallMemory = o' ∧
      (o.holders 0).instanceInitialized = true ∧ (o'.holders 0).instanceInitialized = false ∧
      ¬LeftAsFound 0 o o') ∧
    (∃ o o', exec (ownerStep growWithinMax) plainOwnerLife newOwners = some o ∧
      o.implCreateSandbox 0 (createNoHeap false false) smallTable smallMemory = o' ∧
      (o.holders 0).instanceInitialized = false ∧
      (o'.holders 0).released.count (.tableArray 1) = 2 ∧ ¬LeftAsFound 0 o o') ∧
    ∃ o', newOwnersWindows.implCreateSandbox 0 (createNoHeap false false) smallTable
        smallMemory = o' ∧
      (o'.clocks 0).allocated = [0] ∧ (o'.clocks 0).freed = [] ∧
      ¬LeftAsFound 0 newOwnersWindows o' := by
  refine ⟨⟨_, _, rfl, rfl, rfl, rfl, ?_⟩, ⟨_, _, rfl, rfl, rfl, by decide, ?_⟩,
    _, rfl, rfl, rfl, ?_⟩
  · intro hleft
    have hsame := congrArg Holder.instanceInitialized (hleft.live rfl).1
    exact absurd hsame (by decide)
  · intro hleft
    exact absurd ((hleft.notCreated rfl).2.1 (.tableArray 1) (by decide)) (by decide)
  · intro hleft
    exact absurd ((hleft.notCreated rfl).2.2 0 (List.mem_cons_self ..)) Nat.zero_ne_one

end RlboxWasm2c

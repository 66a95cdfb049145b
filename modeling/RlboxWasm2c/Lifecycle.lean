import RlboxWasm2c.Nesting

/- Creating and destroying sandboxes, over the machine of invocations.

   An object can be created again once it was destroyed. Creation sets the table and the
   memory and keeps every other field, so a life starts with what the ones before it left
   in the pointer maps, the arrays and the return slot. `recreated_like_new` says when
   that is nothing: a run from there cannot be told from the run of an object newly
   constructed in its place.

   Correspondence (C++ ↔ Lean):
     `impl_create_sandbox`, with
     `FALLIBLE_DYNAMIC_CHECK`              ↔ `implCreateSandbox`
     `impl_destroy_sandbox`                ↔ `implDestroySandbox`, and `finishDestroy` after
                                             the call of `impl_free_in_sandbox` in it
     `instance_initialized`                ↔ `Objects.instanceInitialized`
   What the environment decides in `impl_create_sandbox` is read from the input: the first
   check that fails before the instance is made, or the table and the memory it is made
   with and whether the heap is aligned as it has to be. A destroyed sandbox keeps its last
   table and memory in the model: a return slot that is freed without an instance, which
   C++ leaves undefined, is freed there. The environment of minwasi, the heap base and the
   memory pointers are left out: creation sets them anew. -/
namespace RlboxWasm2c
open Runs
open MinWasi (Memory)

/-! ## Objects -/

/-- The sandbox objects of a program. `destroying` are the calls of `impl_destroy_sandbox`
    that wait for `impl_free_in_sandbox`, innermost first, each with the height of the
    stack it was made at. -/
structure Objects where
  world : World
  instanceInitialized : SandboxId → Bool
  destroying : List (SandboxId × Nat)

/-- The object as its constructor leaves it, but for the table and the memory. -/
def Sandbox.constructed (s : Sandbox) : Sandbox where
  table := .fresh s.table.state.wasm2cInstance s.table.state.sandboxCallbackTable
  returnSlot := 0
  returnSlotSize := 0
  memory := s.memory
  held := []

/-- The object with a new instance; the records begin with it. -/
def Sandbox.instantiate (s : Sandbox) (t : FuncrefTable) (memory : Memory) : Sandbox :=
  { s with
    table := ⟨{ s.table.state with sandboxCallbackTable := t }, .empty⟩
    memory := memory
    held := [] }

namespace Objects

/-- Host code on top is not a call of `impl_destroy_sandbox` that waits. -/
def outsideDestroy (o : Objects) : Bool :=
  o.destroying.head?.all fun d => decide (d.2 ≠ o.world.stack.length)

/-- Host code runs. -/
def hostRuns (o : Objects) : Bool :=
  o.world.raising.isNone && o.world.running.isNone && o.outsideDestroy

/-- The end of `impl_destroy_sandbox`; no invocation on the sandbox may be under way. -/
def endDestroy (o : Objects) (S : SandboxId) : Option Objects :=
  if o.world.stack.any fun fr => fr.link.any fun l => l.1 = some S then none
  else some { o with instanceInitialized := Function.update o.instanceInitialized S false }

def implDestroySandbox (o : Objects) (S : SandboxId) : Option Objects :=
  let s := o.world.sandboxes S
  if s.returnSlotSize ≠ 0 then
    some
      { o with
        world := implFreeInSandbox (o.world.onSandbox S fun s => s.release s.returnSlot) S
          s.returnSlot
        destroying := (S, o.world.stack.length) :: o.destroying }
  else o.endDestroy S

/-- The instance of `S` is made. -/
def instantiate (o : Objects) (S : SandboxId) (t : FuncrefTable) (memory : Memory) : Objects :=
  { o with world := o.world.onSandbox S fun s => s.instantiate t memory }

/-- A creation in which every check holds. -/
def created (o : Objects) (S : SandboxId) (t : FuncrefTable) (memory : Memory) : Objects :=
  { o.instantiate S t memory with
    instanceInitialized := Function.update o.instanceInitialized S true }

/-- A creation in which `check` fails. -/
def failCreate (o : Objects) (S : SandboxId) (infallible : Bool) (check : DynamicCheck) :
    Option Objects :=
  if infallible then some { o with world := o.world.raise (.check check) }
  else o.implDestroySandbox S

def implCreateSandbox (o : Objects) (S : SandboxId) (infallible : Bool)
    (outcome : Except CreateCheck (FuncrefTable × Memory × Bool)) : Option Objects :=
  if o.instanceInitialized S then o.failCreate S infallible .alreadyInitialized
  else match outcome with
    | .error check => o.failCreate S infallible (.create check)
    | .ok (t, memory, aligned) =>
      if aligned then some (o.created S t memory)
      else (o.instantiate S t memory).failCreate S infallible .heapAligned

/-- A newly constructed object takes the place of `S`. -/
def construct (o : Objects) (S : SandboxId) : Objects :=
  { o with
    world := o.world.onSandbox S Sandbox.constructed
    instanceInitialized := Function.update o.instanceInitialized S false }

end Objects

/-! ## The machine -/

/-- The sandbox an act is on. -/
def HostAct.target : HostAct → Option SandboxId
  | .invoke S _ _ _ | .mallocInSandbox S _ | .freeInSandbox S _ | .table S _ => some S
  | .ret _ | .throw => none

inductive LifeInput where
  | create (S : SandboxId) (infallible : Bool)
    (outcome : Except CreateCheck (FuncrefTable × Memory × Bool))
  | destroy (S : SandboxId)
  | finishDestroy
  | use (i : Input)

/-- Only a sandbox with an instance is used. Host code that catches an exception has left
    the calls of `impl_destroy_sandbox` that it passed through. -/
def Objects.use (grow : GrowFuncrefTable) (o : Objects) (i : Input) : Option Objects :=
  match i with
  | .host a =>
    if o.outsideDestroy && a.target.all o.instanceInitialized then
      (step grow (.host a) o.world).map fun w => { o with world := w }
    else none
  | .catch =>
    (step grow .catch o.world).map fun w =>
      { o with
        world := w
        destroying := o.destroying.dropWhile fun d => decide (w.stack.length ≤ d.2) }
  | i => (step grow i o.world).map fun w => { o with world := w }

def lifeStep (grow : GrowFuncrefTable) (i : LifeInput) (o : Objects) : Option Objects :=
  match i with
  | .create S infallible outcome =>
    if o.hostRuns then o.implCreateSandbox S infallible outcome else none
  | .destroy S => if o.hostRuns then o.implDestroySandbox S else none
  | .finishDestroy =>
    match o.destroying with
    | (S, height) :: destroying =>
      if o.world.raising.isNone && decide (o.world.stack.length = height) then
        { o with destroying := destroying }.endDestroy S
      else none
    | [] => none
  | .use i => o.use grow i

/-! ## What a step does to an object -/

section steps
variable {grow : GrowFuncrefTable} {o o' : Objects} {S S' : SandboxId}

theorem use_step {i : Input} (h : o.use grow i = some o') :
    step grow i o.world = some o'.world := by
  unfold Objects.use at h
  split at h
  · split at h
    · obtain ⟨w, hw, rfl⟩ := Option.map_eq_some_iff.mp h
      exact hw
    · cases h
  · obtain ⟨w, hw, rfl⟩ := Option.map_eq_some_iff.mp h
    exact hw
  · obtain ⟨w, hw, rfl⟩ := Option.map_eq_some_iff.mp h
    exact hw

theorem endDestroy_world (h : o.endDestroy S = some o') : o'.world = o.world := by
  unfold Objects.endDestroy at h
  split at h
  · cases h
  · cases h
    rfl

/-- A destruction keeps every field the instance does not own. -/
theorem implDestroySandbox_changes {P : SandboxId → Prop}
    (h : o.implDestroySandbox S = some o') : Changes P o.world o'.world := by
  unfold Objects.implDestroySandbox at h
  dsimp only at h
  split at h
  · cases h
    exact update_changes rfl (.data _ _)
  · exact same_changes (by rw [endDestroy_world h])

theorem failCreate_changes {P : SandboxId → Prop} {infallible : Bool} {check : DynamicCheck}
    (h : o.failCreate S infallible check = some o') : Changes P o.world o'.world := by
  unfold Objects.failCreate at h
  split at h
  · cases h
    exact same_changes rfl
  · exact implDestroySandbox_changes h

/-- A step uses the sandboxes, or makes an instance of one, or changes none beyond the data
    of its instance. -/
theorem lifeStep_cases {i : LifeInput} (h : lifeStep grow i o = some o') :
    (∃ a, i = .use a ∧ step grow a o.world = some o'.world) ∨
    (∃ S infallible t memory aligned, i = .create S infallible (.ok (t, memory, aligned)) ∧
      Changes (fun _ => False) (o.instantiate S t memory).world o'.world) ∨
    Changes (fun _ => False) o.world o'.world := by
  unfold lifeStep at h
  cases i with
  -- a create that fails destroys, or throws and leaves everything
  | create S infallible outcome =>
    right
    dsimp only at h
    split at h
    · unfold Objects.implCreateSandbox at h
      split at h
      · exact .inr (failCreate_changes h)
      · cases outcome with
        | error check => exact .inr (failCreate_changes h)
        | ok made =>
          obtain ⟨t, memory, aligned⟩ := made
          refine .inl ⟨S, infallible, t, memory, aligned, rfl, ?_⟩
          dsimp only at h
          split at h
          · cases h
            exact same_changes rfl
          · exact failCreate_changes h
    · cases h
  | destroy S =>
    dsimp only at h
    split at h
    · exact .inr (.inr (implDestroySandbox_changes h))
    · cases h
  | finishDestroy =>
    dsimp only at h
    split at h
    · split at h
      · exact .inr (.inr (same_changes (by rw [endDestroy_world h])))
      · cases h
    · cases h
  | use a => exact .inl ⟨a, rfl, use_step h⟩

end steps

/-! ## Lives that leave no trace -/

/-- No slot is left for a callback or a function pointer. -/
def NoSlotLeft (grow : GrowFuncrefTable) (s : CallbackState) : Prop :=
  (newCallbackSlot grow s).1.isOk = false

/-- The operation takes no slot. -/
def Slotless (grow : GrowFuncrefTable) (s : CallbackState) : CallbackOp → Prop
  | .register _ _ _ | .convert _ _ => NoSlotLeft grow s
  | .unregister _ | .guestGrow _ _ => True

instance (grow : GrowFuncrefTable) (s : CallbackState) : DecidablePred (Slotless grow s)
  | .register _ _ _ | .convert _ _ =>
    inferInstanceAs (Decidable ((newCallbackSlot grow s).1.isOk = false))
  | .unregister _ | .guestGrow _ _ => .isTrue trivial

/-- The step registers no callback on `S`, converts no function pointer and gives it no
    return slot. -/
def LeavesNoTrace (grow : GrowFuncrefTable) (S : SandboxId) (o : Objects) : LifeInput → Prop
  | .use (.host (.table S' op)) => S' = S → Slotless grow (o.world.sandboxes S).table.state op
  | .use .tick => o.world.grantsSlot S = false
  | _ => True

instance (grow : GrowFuncrefTable) (S : SandboxId) (o : Objects) :
    DecidablePred (LeavesNoTrace grow S o)
  | .use (.host (.table S' op)) =>
    inferInstanceAs (Decidable (S' = S →
      Slotless grow (o.world.sandboxes S).table.state op))
  | .use .tick => inferInstanceAs (Decidable (o.world.grantsSlot S = false))
  | .use (.host (.invoke ..)) | .use (.host (.mallocInSandbox ..))
  | .use (.host (.freeInSandbox ..)) | .use (.host (.ret _)) | .use (.host .throw)
  | .use (.guest _) | .use (.serializeArg _) | .use .unwind | .use .catch
  | .create .. | .destroy _ | .finishDestroy => .isTrue trivial

/-- The fields that creation keeps are as the constructor left them. -/
structure Sandbox.Pristine (s : Sandbox) : Prop where
  table : ∃ wasm2cInstance t, s.table.state = .fresh wasm2cInstance t
  returnSlot : s.returnSlot = 0
  returnSlotSize : s.returnSlotSize = 0

section pristine
variable {grow : GrowFuncrefTable} {o o' : Objects} {S : SandboxId}

/-- A new row is all that a slot takes, if the free list is empty. -/
theorem newCallbackSlot_table {s : CallbackState} (hfree : s.callbackFreeList = []) :
    ∃ t, (newCallbackSlot grow s).2 = { s with sandboxCallbackTable := t } := by
  unfold newCallbackSlot
  rw [hfree]
  simp only [List.getLast?_nil]
  by_cases hlt : s.sandboxCallbackTable.size < s.sandboxCallbackTable.maxSize
  · rw [if_pos hlt]
    refine ⟨(grow s.sandboxCallbackTable 1 FuncRef.zero).2, ?_⟩
    split <;> rfl
  · rw [if_neg hlt]
    refine ⟨s.sandboxCallbackTable, ?_⟩
    rw [← hfree]

/-- Without a slot only the table of a fresh object can change. -/
theorem newCallbackSlot_fresh {wasm2cInstance : HostPtr} {t : FuncrefTable}
    (h : NoSlotLeft grow (.fresh wasm2cInstance t)) :
    ∃ e t', newCallbackSlot grow (.fresh wasm2cInstance t) =
      (.error e, .fresh wasm2cInstance t') := by
  have htable : ∃ t', (newCallbackSlot grow (.fresh wasm2cInstance t)).2 =
      .fresh wasm2cInstance t' := newCallbackSlot_table rfl
  obtain ⟨t', ht'⟩ := htable
  unfold NoSlotLeft at h
  cases hslot : newCallbackSlot grow (.fresh wasm2cInstance t) with
  | mk result s =>
    rw [hslot] at h ht'
    cases result with
    | ok slot => cases h
    | error e => exact ⟨e, t', congrArg (Prod.mk _) ht'⟩

/-- No index of a fresh object is taken, so there is nothing to undo. -/
theorem implUnregisterCallback_fresh (wasm2cInstance : HostPtr) (t : FuncrefTable)
    (key : HostPtr) :
    ∃ result t', implUnregisterCallback key (.fresh wasm2cInstance t) =
      (result, .fresh wasm2cInstance t') := by
  unfold implUnregisterCallback
  split
  · exact ⟨_, t, rfl⟩
  · refine ⟨.ok (), t.set 0 FuncRef.zero, ?_⟩
    simp [CallbackState.fresh]

theorem slotless_fresh {w : Table} {op : CallbackOp} {wasm2cInstance : HostPtr}
    {t : FuncrefTable} (hfresh : w.state = .fresh wasm2cInstance t)
    (h : Slotless grow w.state op) :
    ∃ t', (op.apply grow w).state = .fresh wasm2cInstance t' := by
  unfold CallbackOp.apply
  rw [hfresh] at h ⊢
  cases op with
  | register f key callback =>
    -- an index may be free, but the registration fails for the slot before it is taken
    obtain ⟨e, t', he⟩ := newCallbackSlot_fresh h
    dsimp only
    cases hfind : (List.finRange maxCallbacks).find? fun i =>
        (CallbackState.fresh wasm2cInstance t).callbacks i = nullptr with
    | none =>
      simp only [implRegisterCallback, hfind]
      exact ⟨t, rfl⟩
    | some i =>
      simp only [implRegisterCallback, hfind, he]
      exact ⟨t', rfl⟩
  | convert f p =>
    obtain ⟨e, t', he⟩ := newCallbackSlot_fresh h
    have hnone : (CallbackState.fresh wasm2cInstance t).internalCallbacks p = none := rfl
    simp only [implGetSandboxedPointer, hnone, he]
    exact ⟨t', rfl⟩
  | unregister key =>
    obtain ⟨result, t', hresult⟩ := implUnregisterCallback_fresh wasm2cInstance t key
    dsimp only
    rw [hresult]
    cases result with
    | ok => exact ⟨t', rfl⟩
    | error e => exact ⟨t', rfl⟩
  | guestGrow delta init => exact ⟨_, rfl⟩

theorem Change.pristine {s s' : Sandbox} (h : Change False s s') (hs : s.Pristine) :
    s'.Pristine := by
  obtain ⟨htable, hslot, hsize⟩ := hs
  cases h with
  | data => exact ⟨htable, hslot, hsize⟩
  | slotFailed => exact ⟨htable, rfl, hsize⟩
  | slotGranted hgrant => exact hgrant.elim

theorem use_pristine {i : Input} {w w' : World} (hs : (w.sandboxes S).Pristine)
    (htick : i = .tick → w.grantsSlot S = false)
    (htable : ∀ op, i = .host (.table S op) → Slotless grow (w.sandboxes S).table.state op)
    (h : step grow i w = some w') : (w'.sandboxes S).Pristine := by
  rcases step_changes h with hchanges | ⟨S', op, hop, rfl⟩
  · refine ((hchanges S).imp ?_).pristine hs
    intro ⟨hi, hgrant⟩
    rw [htick hi] at hgrant
    cases hgrant
  · by_cases hS : S = S'
    · subst hS
      rw [World.onSandbox_self]
      obtain ⟨⟨inst, t, hfresh⟩, hslot, hsize⟩ := hs
      have hslotless : Slotless grow (w.sandboxes S).table.state op := by
        cases hop with
        | host => exact htable op rfl
        | guest => trivial
      obtain ⟨t', ht'⟩ := slotless_fresh hfresh hslotless
      exact ⟨⟨inst, t', ht'⟩, hslot, hsize⟩
    · rw [World.onSandbox_of_ne _ _ hS]
      exact hs

theorem instantiate_keeps {s : Sandbox} (hs : s.Pristine) (t : FuncrefTable) (memory : Memory) :
    (s.instantiate t memory).Pristine := by
  obtain ⟨⟨inst, t₀, hfresh⟩, hslot, hsize⟩ := hs
  refine ⟨⟨inst, t, ?_⟩, hslot, hsize⟩
  simp only [Sandbox.instantiate, hfresh]
  rfl

/-- A step that leaves no trace on `S` keeps it pristine. -/
theorem lifeStep_pristine (S : SandboxId) (o : Objects) (i : LifeInput) (o' : Objects)
    (hs : (o.world.sandboxes S).Pristine) (htrace : LeavesNoTrace grow S o i)
    (h : lifeStep grow i o = some o') : (o'.world.sandboxes S).Pristine := by
  rcases lifeStep_cases h with
    ⟨a, rfl, ha⟩ | ⟨S', infallible, t, memory, aligned, rfl, hchanges⟩ | hchanges
  · refine use_pristine hs ?_ ?_ ha
    · rintro rfl
      exact htrace
    · rintro op rfl
      exact htrace rfl
  · refine (hchanges S).pristine ?_
    unfold Objects.instantiate
    by_cases hS : S = S'
    · subst hS
      rw [World.onSandbox_self]
      exact instantiate_keeps hs t memory
    · rw [World.onSandbox_of_ne _ _ hS]
      exact hs
  · exact (hchanges S).pristine hs

end pristine

/-! ## The latest life -/

/-- No object was created yet. -/
structure New (o : Objects) : Prop where
  stack : o.world.stack = []
  raising : o.world.raising = none
  pristine : ∀ S, (o.world.sandboxes S).Pristine
  instances : ∀ S, o.instanceInitialized S = false
  destroying : o.destroying = []

/-- From the next creation of `S` on, every run is that of an object newly constructed in
    its place. -/
def LikeNew (grow : GrowFuncrefTable) (S : SandboxId) (o : Objects) : Prop :=
  ∀ infallible t memory is,
    exec (lifeStep grow) (.create S infallible (.ok (t, memory, true)) :: is) o =
      exec (lifeStep grow) (.create S infallible (.ok (t, memory, true)) :: is) (o.construct S)

/-- `S` is not created again, and the host keeps the caller's side of its table. -/
def OneLife (S : SandboxId) (o : Objects) : LifeInput → Prop
  | .create S' _ _ => S' ≠ S
  | .use (.host (.table S' op)) => S' = S → Admits (o.world.sandboxes S).table op
  | _ => True

/-- The table of `S` serves the instance it has now: a pointer is converted to a slot that
    holds it, and a callback or key in the arrays is that of a registration in this life. -/
structure Current (grow : GrowFuncrefTable) (w : Table) : Prop where
  converted : ∀ f p slot s, implGetSandboxedPointer grow f p w.state = (.ok slot, s) →
    ∃ f', s.sandboxCallbackTable.data[slot]? = some (pointerRef s f' p)
  live : ∀ i, w.state.callbacks i ≠ nullptr ∨ w.state.callbackUniqueKeys i ≠ nullptr →
    ∃ r ∈ w.ledger.live, Holds w.state i r

section life
variable {grow : GrowFuncrefTable} {o o' : Objects} {S : SandboxId} {n₀ : Nat}

theorem Consistent.current (hgrow : grow.Appends) {w : Table} (h : Consistent n₀ w) :
    Current grow w where
  converted := by
    intro f p slot s hconvert
    rcases implGetSandboxedPointer_spec hgrow h.freeList f p with
      ⟨slot', hinternal, hold⟩ | ⟨e, _, _, _, herror⟩ | ⟨t, -, hdata, hnew⟩
    · rw [hold] at hconvert
      cases hconvert
      exact (h.converted_held p slot ((h.internal p slot).mp hinternal)).2
    · rw [herror] at hconvert
      cases hconvert
    · rw [hnew] at hconvert
      cases hconvert
      refine ⟨f, ?_⟩
      change t.data[w.state.sandboxCallbackTable.size]? = some (pointerRef w.state f p)
      simp [FuncrefTable.size, hdata]
  live := by
    rintro i (hcallback | hkey)
    · exact h.index_live i hcallback
    · exact h.key_live hkey

/-- The table of `S` stays consistent in one life of it. -/
theorem lifeStep_consistent (hgrow : grow.Appends) (S : SandboxId) (o : Objects) (i : LifeInput)
    (o' : Objects) (hs : Consistent n₀ (o.world.sandboxes S).table)
    (hlife : OneLife S o i) (h : lifeStep grow i o = some o') :
    Consistent n₀ (o'.world.sandboxes S).table := by
  rcases lifeStep_cases h with
    ⟨a, rfl, ha⟩ | ⟨S', infallible, t, memory, aligned, rfl, hchanges⟩ | hchanges
  · rcases step_changes ha with hchanges | ⟨S', op, hop, hw⟩
    · rw [(hchanges S).table]
      exact hs
    · rw [hw]
      by_cases hS : S = S'
      · subst hS
        rw [World.onSandbox_self]
        refine apply_consistent hgrow hs ?_
        cases hop with
        | host => exact hlife rfl
        | guest => trivial
      · rw [World.onSandbox_of_ne _ _ hS]
        exact hs
  · rw [(hchanges S).table]
    unfold Objects.instantiate
    rw [World.onSandbox_of_ne _ _ (Ne.symm hlife)]
    exact hs
  · rw [(hchanges S).table]
    exact hs

/-- On a pristine object creation leaves what it leaves on a new one. -/
theorem instantiate_pristine {s : Sandbox} (h : s.Pristine) (t : FuncrefTable)
    (memory : Memory) : s.instantiate t memory = s.constructed.instantiate t memory := by
  obtain ⟨⟨inst, t₀, hfresh⟩, hslot, hsize⟩ := h
  unfold Sandbox.instantiate Sandbox.constructed Table.fresh
  rw [hfresh, hslot, hsize]
  rfl

theorem instantiate_table {s : Sandbox} (h : s.Pristine) (t : FuncrefTable) (memory : Memory) :
    ∃ inst, (s.instantiate t memory).table = .fresh inst t := by
  obtain ⟨⟨inst, t₀, hfresh⟩, -, -⟩ := h
  refine ⟨inst, ?_⟩
  unfold Sandbox.instantiate
  rw [hfresh]
  rfl

theorem create_succeeds (hnone : o.instanceInitialized S = false) {infallible : Bool}
    {t : FuncrefTable} {memory : Memory} :
    o.implCreateSandbox S infallible (.ok (t, memory, true)) = some (o.created S t memory) := by
  unfold Objects.implCreateSandbox
  rw [hnone]
  rfl

theorem create_construct (hs : (o.world.sandboxes S).Pristine)
    (hnone : o.instanceInitialized S = false) (infallible : Bool) (t : FuncrefTable)
    (memory : Memory) :
    lifeStep grow (.create S infallible (.ok (t, memory, true))) o =
      lifeStep grow (.create S infallible (.ok (t, memory, true))) (o.construct S) := by
  have hruns : (o.construct S).hostRuns = o.hostRuns := rfl
  have hsame : o.created S t memory = (o.construct S).created S t memory := by
    unfold Objects.created Objects.instantiate Objects.construct
    simp only [World.onSandbox, Function.update_self, Function.update_idem]
    rw [instantiate_pristine hs]
  rw [lifeStep, lifeStep, hruns, create_succeeds hnone, create_succeeds (Function.update_self ..),
    hsame]

/-- An object whose lives so far registered no callback, converted no function pointer and
    obtained no return slot is like new when it is created again: every later run is that
    of a new object, the next class return allocates its slot, and through the whole life
    the table serves the instance it has. -/
theorem recreated_like_new (hgrow : grow.Appends) {o₀ : Objects} {js : List LifeInput}
    (hnew : New o₀) (htrace : Meets (lifeStep grow) (LeavesNoTrace grow S) js o₀)
    (hexec : exec (lifeStep grow) js o₀ = some o) (hnone : o.instanceInitialized S = false) :
    LikeNew grow S o ∧
    ∀ infallible t memory o₁ is o₂,
      lifeStep grow (.create S infallible (.ok (t, memory, true))) o = some o₁ →
      (o₁.world.sandboxes S).returnSlotSize = 0 ∧
      (Meets (lifeStep grow) (OneLife S) is o₁ → exec (lifeStep grow) is o₁ = some o₂ →
        Current grow (o₂.world.sandboxes S).table) := by
  have hpristine : (o.world.sandboxes S).Pristine :=
    exec_invariant (lifeStep_pristine S) (hnew.pristine S) htrace hexec
  refine ⟨?_, ?_⟩
  · intro infallible t memory is
    unfold exec
    rw [create_construct hpristine hnone]
  · intro infallible t memory o₁ is o₂ hcreate
    -- the step is the creation itself, as an object without an instance passes every check
    have hmade : o₁ = o.created S t memory := by
      rw [lifeStep, create_succeeds hnone] at hcreate
      split at hcreate
      · cases hcreate
        rfl
      · cases hcreate
    subst hmade
    have hself : (o.created S t memory).world.sandboxes S =
        (o.world.sandboxes S).instantiate t memory := Function.update_self ..
    refine ⟨by rw [hself]; exact hpristine.returnSlotSize, ?_⟩
    intro hlife his
    obtain ⟨inst, htable⟩ := instantiate_table hpristine t memory
    have hfirst : Consistent t.size ((o.created S t memory).world.sandboxes S).table := by
      rw [hself, htable]
      exact fresh_consistent inst t
    exact (exec_invariant (lifeStep_consistent hgrow S) hfirst hlife his).current hgrow

end life

/-! ## Runs -/

/-- Objects whose modules have one table element and one page of memory. -/
def smallObjects : Objects := ⟨smallWorld, fun _ => false, []⟩

theorem smallObjects_new : New smallObjects :=
  ⟨rfl, rfl, fun _ => ⟨⟨8, smallTable, rfl⟩, rfl, rfl⟩, fun _ => rfl, rfl⟩

def smallMemory : Memory := (smallWorld.sandboxes 0).memory

def createSmall : LifeInput := .create 0 true (.ok (smallTable, smallMemory, true))

/-- A life in which a guest function is invoked and grows the table. -/
def plainLife : List LifeInput :=
  [createSmall, .use (.host (.invoke 0 7 none [])), .use .tick, .use .tick,
    .use (.guest (.growTable 2 FuncRef.zero)), .use (.guest (.ret 5)), .use .tick, .destroy 0]

/-- After a plain life the object is like new. -/
theorem recreated_like_new_plain :
    ∃ o, exec (lifeStep growWithinMax) plainLife smallObjects = some o ∧
      LikeNew growWithinMax 0 o := by
  have htrace : Meets (lifeStep growWithinMax) (LeavesNoTrace growWithinMax 0) plainLife
      smallObjects := by decide
  exact ⟨_, rfl, (recreated_like_new growWithinMax_appends smallObjects_new htrace rfl rfl).1⟩

/-- A life in which a function pointer is converted. -/
def convertingLife : List LifeInput :=
  [createSmall, .use (.host (.table 0 (.convert unaryInt 55))), .destroy 0]

/-- A guest function that gives a class of one byte is invoked. -/
def oneByteCall : Call := ⟨.other 7, some oneByte, []⟩

def classReturn : LifeInput :=
  .use (.host (.invoke 0 7 oneByteCall.retClass oneByteCall.params))

/-- A life with a class return: malloc gives the return slot 1024, which is freed when the
    sandbox is destroyed. -/
def classReturnLife : List LifeInput :=
  [createSmall, classReturn] ++
    List.map .use [.tick, .tick, .tick, .tick, .guest (.ret 1024), .tick, .tick, .tick, .tick,
      .guest (.ret 0), .tick, .tick] ++
    .destroy 0 :: List.map .use [.tick, .tick, .guest (.ret 0), .tick] ++ [.finishDestroy]

/-- What the invocation on top calls. -/
def Objects.calling (o : Objects) : Option Call := o.world.running.map InvokeFrame.call

/-- An object created again is not always like new: a pointer converted in an earlier life
    is given a slot that the new table does not have, and a class return passes on the
    return slot of the earlier heap. -/
theorem recreated_not_like_new :
    (∃ o o₁ slot s, exec (lifeStep growWithinMax) convertingLife smallObjects = some o ∧
      o.instanceInitialized 0 = false ∧ ¬ LikeNew growWithinMax 0 o ∧
      lifeStep growWithinMax createSmall o = some o₁ ∧
      implGetSandboxedPointer growWithinMax unaryInt 55 (o₁.world.sandboxes 0).table.state =
        (.ok slot, s) ∧ s.sandboxCallbackTable.data[slot]? = none) ∧
    ∃ o, exec (lifeStep growWithinMax) classReturnLife smallObjects = some o ∧
      o.instanceInitialized 0 = false ∧ ¬ LikeNew growWithinMax 0 o ∧
      ((exec (lifeStep growWithinMax) [createSmall, classReturn, .use .tick, .use .tick] o).bind
        Objects.calling) = some (oneByteCall.promoted 1024) := by
  refine ⟨⟨_, _, 1, _, rfl, rfl, ?_, rfl, rfl, rfl⟩, _, rfl, rfl, ?_, rfl⟩
  · intro hlike
    have hsame := hlike true smallTable smallMemory [.use (.host (.table 0 (.convert unaryInt 55)))]
    have hsize := congrArg (Option.map fun o : Objects =>
      (o.world.sandboxes 0).table.state.sandboxCallbackTable.size) hsame
    exact absurd hsize (by decide)
  · intro hlike
    have hsame := hlike true smallTable smallMemory [classReturn, .use .tick, .use .tick]
    have hcall := congrArg (Option.bind · Objects.calling) hsame
    exact absurd hcall (by decide)

end RlboxWasm2c

import RlboxWasm2c.Base.SavedContext
import RlboxWasm2c.Invocation

/- The context of callbacks. `thread_data.sandbox` follows the saved-context discipline:
   every invocation replaces it and restores it on any exit, an interceptor leaves it
   alone (`step_move`). Hence the guest code that runs is always that of the context, and
   with the callback table consistent the interceptor it enters through a live slot finds
   the registration of that slot (`callSlot_enters`). -/
namespace RlboxWasm2c
open Blocks Runs SavedContext
open MinWasi (Memory)

/-- What an activation saved, if it replaced the context. -/
def Frame.link : Frame → Option (Option SandboxId × Option SandboxId)
  | .invoke f => some (some f.sandbox, f.oldSandbox)
  | .callback _ => none

def World.view (w : World) : View (Option SandboxId) :=
  ⟨w.stack.map Frame.link, w.threadData.sandbox⟩

/-! ## The machine keeps the discipline -/

section moves
variable {w : World} {f g : InvokeFrame} {rest : List Frame}

theorem enterInvoke_move (S : SandboxId) (call : Call) (retBlock : Option Block) :
    Move w.view (enterInvoke w S call retBlock).view := Move.enter w.view (some S)

theorem implMallocInSandbox_move (S : SandboxId) (size : Nat) :
    Move w.view (implMallocInSandbox w S size).view := by
  unfold implMallocInSandbox
  split
  · exact enterInvoke_move S _ none
  · exact Move.keep _

theorem leaveFrame_move {fr : Frame} (h : w.stack = fr :: rest) :
    Move w.view (leaveFrame w fr rest).view := by
  unfold World.view
  rw [h]
  cases fr with
  | invoke f => exact Move.leave (some f.sandbox) f.oldSandbox w.threadData.sandbox _
  | callback c => exact Move.leavePlain w.threadData.sandbox _

/-- A change of the frame on top that keeps what it saved is no move. -/
theorem view_setTop (f' : InvokeFrame) (hstack : w.stack = .invoke f :: rest)
    (hS : f'.sandbox = f.sandbox) (hold : f'.oldSandbox = f.oldSandbox) :
    (w.setTop f' rest).view = w.view := by
  unfold World.view World.setTop
  rw [hstack, List.map_cons, List.map_cons, Frame.link, Frame.link, hS, hold]

/-- What the invocation below does with a result does not concern the context. -/
theorem resume_view (hstack : w.stack = .invoke g :: rest) (v : Nat) :
    (resume w g rest f v).view = w.view := by
  have hcases := resume_cases w g rest f v
  generalize resume w g rest f v = w' at hcases ⊢
  cases hcases with
  | slotFailed => rfl
  | slotGranted => exact view_setTop _ hstack rfl rfl
  | argStored => exact view_setTop _ hstack rfl rfl
  | argBad => rfl
  | recorded => exact view_setTop _ hstack rfl rfl
  | same => rfl

theorem exitInvoke_move (w : World) (hstack : w.stack = .invoke f :: rest) (v : Nat) :
    Move w.view (exitInvoke w f rest v).view := by
  have hleave := leaveFrame_move hstack
  unfold exitInvoke
  split
  · rwa [resume_view rfl]
  · exact hleave

theorem tickInvoke_move {w' : World} (hstack : w.stack = .invoke f :: rest)
    (h : tickInvoke w f rest = some w') : Move w.view w'.view := by
  -- what is invoked is invoked from `w` with another frame on top
  have henter : ∀ (f' : InvokeFrame) {v : View (Option SandboxId)}, f'.sandbox = f.sandbox →
      f'.oldSandbox = f.oldSandbox → Move (w.setTop f' rest).view v → Move w.view v := by
    intro f' v hS hold hmove
    rwa [view_setTop f' hstack hS hold] at hmove
  cases tickInvoke_cases h with
  | plainReturn => exact henter { f with pc := .serialize } rfl rfl (Move.keep _)
  | @freeSlot n =>
    exact henter { f with pc := .mallocSlot n } rfl rfl
      (enterInvoke_move f.sandbox (freeCall (w.sandboxes f.sandbox).returnSlot) none)
  | @noSlot n => exact henter { f with pc := .mallocSlot n } rfl rfl (Move.keep _)
  | @slotFits n => exact henter { f with pc := .recurse n } rfl rfl (Move.keep _)
  | @mallocSlot n =>
    exact henter { f with pc := .setSlot n } rfl rfl (implMallocInSandbox_move ..)
  | @recurse n =>
    exact henter { f with pc := .copyOut n } rfl rfl
      (enterInvoke_move f.sandbox (f.call.promoted (w.sandboxes f.sandbox).returnSlot)
        (some ⟨(w.sandboxes f.sandbox).returnSlot, n.1⟩))
  | @copyOut n =>
    exact exitInvoke_move
      (w.hand ((w.sandboxes f.sandbox).memory.read (w.sandboxes f.sandbox).returnSlot n.1)) hstack 0
  | copyOutBad => exact Move.keep _
  | enterBody => exact henter { f with pc := .body, passed := _ } rfl rfl (Move.keep _)
  | @freeArg i =>
    exact henter { f with pc := .freeArgs (i + 1), freed := _ } rfl rfl
      (enterInvoke_move f.sandbox (freeCall (((f.slots.map Prod.snd)[i]?).getD 0)) none)
  | done => exact exitInvoke_move w hstack f.ret

theorem serializeArg_move {w' : World} {k : Nat} (hstack : w.stack = .invoke f :: rest)
    (h : serializeArg w f rest k = some w') : Move w.view w'.view := by
  obtain ⟨-, -, bytes, lvalue, -, rfl⟩ := serializeArg_cases h
  rw [← view_setTop { f with pc := .setArg k, pending := f.pending.erase k } hstack rfl rfl]
  exact implMallocInSandbox_move ..

theorem enterInterceptor_move {w' : World} {n : CallbackIndex} {type : FuncType} {ret : Nat}
    {params : List Nat} (h : enterInterceptor w n type ret params = some w') :
    Move w.view w'.view := by
  obtain ⟨S, -, hcases⟩ := enterInterceptor_cases h
  cases hcases with
  | refused => exact Move.keep _
  | called => exact Move.enterPlain _

theorem storeFor_view (hstack : w.stack = .invoke f :: rest) (S : SandboxId) (a : Nat)
    (bytes : List UInt8) : (storeFor w S f rest a bytes).view = w.view :=
  view_setTop (f.note a bytes) hstack rfl rfl

theorem leaveInterceptor_move {w' : World} {c : CallbackFrame} {bytes : List UInt8}
    (hstack : w.stack = .callback c :: rest) (h : leaveInterceptor w c rest bytes = some w') :
    Move w.view w'.view := by
  have hleave := leaveFrame_move hstack
  cases leaveInterceptor_cases h with
  | plain | refused => exact hleave
  | stored hret hcontext hrest => rwa [storeFor_view hrest]

theorem hostStep_move {grow : GrowFuncrefTable} {a : HostAct} {w' : World}
    (h : hostStep grow a w = some w') : Move w.view w'.view := by
  cases a with
  | invoke S func retClass params => cases h; exact enterInvoke_move ..
  | mallocInSandbox S size => cases h; exact implMallocInSandbox_move ..
  | freeInSandbox S p => cases h; exact enterInvoke_move ..
  | table S op => cases h; exact Move.keep _
  | ret bytes =>
    unfold hostStep at h
    dsimp only at h
    split at h
    · next hstack => exact leaveInterceptor_move hstack h
    · cases h
  | throw => cases h; exact Move.keep _

theorem guestStep_move {grow : GrowFuncrefTable} {a : GuestAct} {w' : World}
    (hstack : w.stack = .invoke f :: rest) (h : guestStep grow a w f rest = some w') :
    Move w.view w'.view := by
  unfold guestStep at h
  cases a with
  | store a v =>
    dsimp only at h
    split at h
    · cases h
      rw [storeFor_view hstack]
      exact Move.keep _
    · cases h
  | growTable delta init => cases h; exact Move.keep _
  | callSlot slot ret params =>
    dsimp only at h
    split at h
    · exact enterInterceptor_move h
    · cases h
  | ret v =>
    cases h
    rw [view_setTop { f with pc := .freeArgs 0, ret := v } hstack rfl rfl]
    exact Move.keep _

/-- Every step is a move of the discipline. -/
theorem step_move (grow : GrowFuncrefTable) (i : Input) (w w' : World)
    (h : step grow i w = some w') : Move w.view w'.view := by
  unfold step at h
  split at h
  · exact hostStep_move h
  · exact hostStep_move h
  · next hstack =>
    split at h
    · exact guestStep_move hstack h
    · cases h
  · next hstack => exact serializeArg_move hstack h
  · next hstack => exact tickInvoke_move hstack h
  · next hstack =>
    cases h
    exact leaveFrame_move hstack
  · cases h; exact Move.keep _
  · cases h; exact Move.keep _
  · cases h

end moves

/-! ## What a step does to a sandbox -/

/-- What the code of an invocation does to a sandbox; it sets the return slot only where
    `granted` holds. -/
inductive Change (granted : Prop) (s : Sandbox) : Sandbox → Prop where
  | data (memory : Memory) (held : List Block) :
    Change granted s { s with memory := memory, held := held }
  | slotFailed : Change granted s { s with returnSlot := 0 }
  | slotGranted (h : granted) (v : Nat) (n : ClassSize) (held : List Block) :
    Change granted s { s with returnSlot := v, returnSlotSize := n.1, held := held }

theorem Change.imp {granted granted' : Prop} {s s' : Sandbox} (himp : granted → granted')
    (h : Change granted s s') : Change granted' s s' := by
  cases h with
  | data memory held => exact .data memory held
  | slotFailed => exact .slotFailed
  | slotGranted hgrant v n held => exact .slotGranted (himp hgrant) v n held

/-- Every sandbox changes in one of these ways. -/
def Changes (P : SandboxId → Prop) (w w' : World) : Prop :=
  ∀ S, Change (P S) (w.sandboxes S) (w'.sandboxes S)

/-- The invocation on top has the address of a return slot for `S`. -/
def World.grantsSlot (w : World) (S : SandboxId) : Bool :=
  match w.stack with
  | .invoke f :: .invoke g :: _ =>
    decide (g.sandbox = S) && (g.pc matches .setSlot _) && decide (f.ret ≠ 0)
  | _ => false

/-- The operation on the table of `S` that an input is, if it is one. -/
inductive TableOp (w : World) : Input → SandboxId → CallbackOp → Prop where
  | host (S : SandboxId) (op : CallbackOp) : TableOp w (.host (.table S op)) S op
  | guest {f : InvokeFrame} {rest : List Frame} (hstack : w.stack = .invoke f :: rest)
    (delta : Nat) (init : FuncRef) :
    TableOp w (.guest (.growTable delta init)) f.sandbox (.guestGrow delta init)

section changes
variable {w w' : World} {f g : InvokeFrame} {rest : List Frame} {P : SandboxId → Prop}
  {grow : GrowFuncrefTable}

theorem same_changes (h : w'.sandboxes = w.sandboxes) : Changes P w w' := by
  intro S
  rw [h]
  exact .data _ _

theorem Changes.of_eq {w₀ : World} (h₀ : w₀.sandboxes = w.sandboxes) (h : Changes P w w') :
    Changes P w₀ w' := by
  intro S
  rw [h₀]
  exact h S

theorem update_changes {S : SandboxId} {s : Sandbox}
    (h : w'.sandboxes = Function.update w.sandboxes S s) (hs : Change (P S) (w.sandboxes S) s) :
    Changes P w w' := by
  intro S'
  rw [h]
  by_cases hS : S' = S
  · subst hS
    rwa [Function.update_self]
  · rw [Function.update_of_ne hS]
    exact .data _ _

theorem resume_changes {v : Nat} (h : v ≠ 0 → ∀ n, g.pc = .setSlot n → P g.sandbox) :
    Changes P w (resume w g rest f v) := by
  have hcases := resume_cases w g rest f v
  generalize resume w g rest f v = w' at hcases ⊢
  cases hcases with
  | slotFailed => exact update_changes rfl .slotFailed
  | @slotGranted n hpc hv => exact update_changes rfl (.slotGranted (h hv n hpc) v n _)
  | argStored =>
    refine update_changes (Function.update_idem ..) ?_
    rw [World.onSandbox_self]
    exact .data _ _
  | argBad => exact update_changes rfl (.data _ _)
  | recorded => exact same_changes rfl
  | same => exact same_changes rfl

theorem exitInvoke_changes {v : Nat}
    (h : ∀ g rest', rest = .invoke g :: rest' → v ≠ 0 → ∀ n, g.pc = .setSlot n → P g.sandbox) :
    Changes P w (exitInvoke w f rest v) := by
  unfold exitInvoke
  split
  · next g rest' =>
    refine .of_eq ?_ (resume_changes (h g rest' rfl))
    rfl
  · exact same_changes rfl

theorem tickInvoke_changes (hstack : w.stack = .invoke f :: rest)
    (h : tickInvoke w f rest = some w') : Changes (fun S => w.grantsSlot S = true) w w' := by
  cases tickInvoke_cases h with
  | plainReturn | noSlot | slotFits | recurse | copyOutBad | enterBody => exact same_changes rfl
  | freeSlot => exact update_changes rfl (.data _ _)
  | mallocSlot => exact same_changes (implMallocInSandbox_sandboxes ..)
  | copyOut =>
    refine .of_eq ?_ (exitInvoke_changes fun _ _ _ hzero => absurd rfl hzero)
    rfl
  | freeArg => exact update_changes rfl (.data _ _)
  | done =>
    apply exitInvoke_changes
    intro g rest' hrest hret n hpc
    unfold World.grantsSlot
    rw [hstack, hrest]
    simp [hpc, hret]

theorem enterInterceptor_changes {n : CallbackIndex} {type : FuncType} {ret : Nat}
    {params : List Nat} (h : enterInterceptor w n type ret params = some w') :
    Changes P w w' := by
  obtain ⟨S, -, hcases⟩ := enterInterceptor_cases h
  cases hcases with
  | refused | called => exact same_changes rfl

theorem leaveInterceptor_changes {c : CallbackFrame} {bytes : List UInt8}
    (h : leaveInterceptor w c rest bytes = some w') : Changes P w w' := by
  cases leaveInterceptor_cases h with
  | plain | refused => exact same_changes rfl
  | stored => exact update_changes rfl (.data _ _)

/-- A step is an operation on a table, or the code of an invocation. -/
theorem step_changes {i : Input} (h : step grow i w = some w') :
    Changes (fun S => i = .tick ∧ w.grantsSlot S = true) w w' ∨
    ∃ S op, TableOp w i S op ∧
      w' = w.onSandbox S fun s => { s with table := op.apply grow s.table } := by
  -- outside of every invocation and in a callback the host does the same
  have hhost : ∀ a, i = .host a → hostStep grow a w = some w' →
      Changes (fun S => i = .tick ∧ w.grantsSlot S = true) w w' ∨
      ∃ S op, TableOp w i S op ∧
        w' = w.onSandbox S fun s => { s with table := op.apply grow s.table } := by
    rintro a rfl ha
    cases a with
    | invoke S func retClass params => cases ha; exact .inl (same_changes rfl)
    | mallocInSandbox S size =>
      cases ha
      exact .inl (same_changes (implMallocInSandbox_sandboxes w S size))
    | freeInSandbox S p => cases ha; exact .inl (same_changes rfl)
    | table S op => cases ha; exact .inr ⟨S, op, .host S op, rfl⟩
    | ret bytes =>
      unfold hostStep at ha
      dsimp only at ha
      split at ha
      · exact .inl (leaveInterceptor_changes ha)
      · cases ha
    | throw => cases ha; exact .inl (same_changes rfl)
  -- the host, the guest in its body, an argument, the prologue and the cleanup, unwinding
  unfold step at h
  split at h
  · exact hhost _ rfl h
  · exact hhost _ rfl h
  · next f rest a hraising hstack =>
    split at h
    · unfold guestStep at h
      cases a with
      | store a v =>
        dsimp only at h
        split at h
        · cases h
          exact .inl (update_changes rfl (.data _ _))
        · cases h
      | growTable delta init => cases h; exact .inr ⟨_, _, .guest hstack delta init, rfl⟩
      | callSlot slot ret params =>
        dsimp only at h
        split at h
        · exact .inl (enterInterceptor_changes h)
        · cases h
      | ret v => cases h; exact .inl (same_changes rfl)
    · cases h
  · obtain ⟨-, -, bytes, lvalue, -, rfl⟩ := serializeArg_cases h
    exact .inl (same_changes (implMallocInSandbox_sandboxes ..))
  · next hstack =>
    exact .inl fun S => (tickInvoke_changes hstack h S).imp fun hgrant => ⟨rfl, hgrant⟩
  · cases h
    exact .inl (same_changes (leaveFrame_sandboxes ..))
  · cases h; exact .inl (same_changes rfl)
  · cases h; exact .inl (same_changes rfl)
  · cases h

end changes

/-! ## The tables stay consistent -/

/-- The host keeps the caller's side of the callback table. -/
def CallerPromises (w : World) : Input → Prop
  | .host (.table S op) => Admits (w.sandboxes S).table op
  | _ => True

instance (w : World) : DecidablePred (CallerPromises w)
  | .host (.table S op) => inferInstanceAs (Decidable (Admits (w.sandboxes S).table op))
  | .host (.invoke ..) | .host (.mallocInSandbox ..) | .host (.freeInSandbox ..)
  | .host (.ret _) | .host .throw | .guest _ | .serializeArg _ | .tick | .unwind | .catch =>
    .isTrue trivial

section tables
variable {w w' : World} {grow : GrowFuncrefTable} {n₀ : SandboxId → Nat}

theorem Change.table {granted : Prop} {s s' : Sandbox} (h : Change granted s s') :
    s'.table = s.table := by
  cases h <;> rfl

/-- The callback table of every sandbox is consistent; that of `S` began with `n₀ S` rows. -/
def TablesConsistent (n₀ : SandboxId → Nat) (w : World) : Prop :=
  ∀ S, Consistent (n₀ S) (w.sandboxes S).table

theorem tableOp_consistent (hgrow : grow.Appends) (hw : TablesConsistent n₀ w) {S : SandboxId}
    {op : CallbackOp} (hadmits : Admits (w.sandboxes S).table op) :
    TablesConsistent n₀ (w.onSandbox S fun s => { s with table := op.apply grow s.table }) := by
  intro S'
  by_cases hS : S' = S
  · subst hS
    rw [World.onSandbox_self]
    exact apply_consistent hgrow (hw S') hadmits
  · rw [World.onSandbox_of_ne _ _ hS]
    exact hw S'

theorem step_consistent (hgrow : grow.Appends) (w : World) (i : Input) (w' : World)
    (hw : TablesConsistent n₀ w) (hpromise : CallerPromises w i)
    (h : step grow i w = some w') : TablesConsistent n₀ w' := by
  rcases step_changes h with hchanges | ⟨S, op, hop, rfl⟩
  · intro S
    rw [(hchanges S).table]
    exact hw S
  · refine tableOp_consistent hgrow hw ?_
    cases hop with
    | host => exact hpromise
    | guest => trivial

end tables

/-! ## Reached worlds -/

/-- No code runs, and every sandbox was just created. -/
structure Created (w : World) : Prop where
  stack : w.stack = []
  raising : w.raising = none
  sandboxes : ∀ S, ∃ inst t, (w.sandboxes S).table = .fresh inst t
  slots : ∀ S, (w.sandboxes S).returnSlotSize = 0 ∧ (w.sandboxes S).held = []

/-- `w` is reached from a created world by steps that meet `C`. -/
def WorldReached (grow : GrowFuncrefTable) (C : World → Input → Prop) (is : List Input)
    (w : World) : Prop :=
  ∃ w₀, Created w₀ ∧ Meets (step grow) C is w₀ ∧ exec (step grow) is w₀ = some w

section reached
variable {grow : GrowFuncrefTable} {is : List Input} {w : World}

theorem Created.consistent (h : Created w) :
    TablesConsistent (fun S => (w.sandboxes S).table.state.sandboxCallbackTable.size) w := by
  intro S
  obtain ⟨inst, t, ht⟩ := h.sandboxes S
  simp only [ht]
  exact fresh_consistent inst t

theorem Created.sound (h : Created w) : Sound w.threadData.sandbox w.view := by
  unfold World.view
  rw [h.stack]
  exact ⟨rfl, trivial⟩

theorem WorldReached.invariants (hgrow : grow.Appends) (h : WorldReached grow CallerPromises is w) :
    (∃ n₀, TablesConsistent n₀ w) ∧ ∃ outer, Sound outer w.view := by
  obtain ⟨w₀, hcreated, hpromise, hexec⟩ := h
  refine ⟨⟨_, exec_invariant (step_consistent hgrow) hcreated.consistent hpromise hexec⟩,
    _, exec_sound (step_move grow) hcreated.sound hexec⟩

/-- The guest code that runs is that of the context. -/
theorem context_of_top {outer : Option SandboxId} (h : Sound outer w.view) {f : InvokeFrame}
    {rest : List Frame} (hstack : w.stack = .invoke f :: rest) :
    w.threadData.sandbox = some f.sandbox := by
  have hcurrent := h.current
  unfold World.view at hcurrent
  rw [hstack] at hcurrent
  exact hcurrent

/-! ## The context of a callback -/

theorem exists_none_of_mapM {α β : Type} {g : α → Option β} {l : List α} (h : l.mapM g = none) :
    ∃ a ∈ l, g a = none := by
  induction l with
  | nil => cases h
  | cons a l ih =>
    cases hg : g a with
    | none => exact ⟨a, List.mem_cons_self .., hg⟩
    | some b =>
      rw [List.mapM_cons, hg] at h
      cases hl : l.mapM g with
      | none =>
        obtain ⟨a', ha', hnone⟩ := ih hl
        exact ⟨a', List.mem_cons_of_mem _ ha', hnone⟩
      | some bs => rw [hl] at h; cases h

/-- On a 64-bit host every class argument of a callback can be read. -/
theorem ptr32_of_serialize_none {S : SandboxId} {types : List CType} {params : List Nat}
    (h : (types.zip params).mapM (fun p => serializeToSandbox w S p.1 p.2) = none) :
    w.ptr32 = true := by
  obtain ⟨⟨type, arg⟩, -, hnone⟩ := exists_none_of_mapM h
  cases hptr : w.ptr32 with
  | true => rfl
  | false =>
    unfold serializeToSandbox World.dataPointerOk at hnone
    rw [hptr] at hnone
    dsimp only at hnone
    split at hnone <;> simp at hnone

/-- The interceptor of a live registration of the context enters its callback, and there
    the executed callback's sandbox and key are those of the registration. -/
theorem enterInterceptor_live {S : SandboxId} {n : CallbackIndex} {r : Registration}
    (hcontext : w.threadData.sandbox = some S) (hheld : Holds (w.sandboxes S).table.state n r)
    (hcallback : r.callback ≠ nullptr) (ret : Nat) (params : List Nat) :
    ∃ w', enterInterceptor w n r.type ret params = some w' ∧
      ((w.ptr32 = true ∧ w'.raising = some (.check .invalidPointer)) ∨
        ∃ args, w'.stack = .callback ⟨r.callback, r.type, ret, args⟩ :: w.stack ∧
          implGetExecutedCallbackSandboxAndKey w' = some (S, r.key)) := by
  unfold enterInterceptor
  dsimp only
  rw [hcontext]
  dsimp only
  rw [hheld.callback, if_neg hcallback]
  split
  · next hnone => exact ⟨_, rfl, .inl ⟨ptr32_of_serialize_none hnone, rfl⟩⟩
  · next args hargs =>
    refine ⟨_, rfl, .inr ⟨args, rfl, ?_⟩⟩
    unfold implGetExecutedCallbackSandboxAndKey
    dsimp only
    rw [Option.map_some, hheld.key]

end reached

/-- The size of a class of one byte. -/
def oneByte : ClassSize := ⟨1, by decide⟩

/-- Sandboxes whose modules have one table element and one page of memory. -/
def smallWorld : World where
  ptr32 := false
  sandboxes := fun _ =>
    ⟨.fresh 8 smallTable, 0, 0, ⟨fun _ => 0, 65536, by decide⟩, []⟩
  threadData := ⟨none, 0⟩
  stack := []
  raising := none
  result := []

theorem smallWorld_created : Created smallWorld :=
  ⟨rfl, rfl, fun _ => ⟨8, smallTable, rfl⟩, fun _ => ⟨rfl, rfl⟩⟩

/-- A callback is registered in two sandboxes and a guest function of the first invoked. -/
def registerAndInvoke : List Input :=
  [.host (.table 0 (.register unaryInt 11 101)), .host (.table 1 (.register unaryInt 21 201)),
    .host (.invoke 0 7 none []), .tick, .tick]

end RlboxWasm2c

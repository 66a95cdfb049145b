import RlboxWasm2c.Scratch
import RlboxWasm2c.Threads

/- The books of the guest's heap.

   A sandbox object allocates in its sandbox for the return slot and for copies of class
   arguments; what host code allocates for itself with `impl_malloc_in_sandbox` is not in the
   books. `owners` are the addresses the object has yet to free; `World.abandoned` are those
   that a step leaves behind for good:

     by an exception       `unwind` leaves an invocation with the copies it made
     by a return           an invocation frees its first `alloc_length` copies only: not those
                           of lvalues, and none in the recursive call of a class return
     by a refused address  `serialize_class_arg` throws with the block granted in its hands

   `held_accounted` says that nothing else is lost and nothing is freed twice: in every run
   the blocks held are those at the addresses owned and those abandoned in it.
   `frugal_accounted`: host code that passes classes as temporaries only, and none where it
   gets one, loses nothing on a 64-bit host unless it throws across a copy. -/
namespace RlboxWasm2c
open Blocks Runs

instance (f : InvokeFrame) : Decidable f.Limbo :=
  match h : f.pc with
  | .mallocSlot n => .isTrue ⟨n, .inl h⟩
  | .setSlot n => .isTrue ⟨n, .inr h⟩
  | .start | .recurse _ | .copyOut _ | .serialize | .setArg _ | .body | .freeArgs _ =>
    .isFalse (InvokeFrame.not_limbo h (by simp))

/-- The return slot, unless there is none or it is being replaced, and the copies of the
    invocations. -/
def owners (s : Sandbox) (fs : List InvokeFrame) : List Nat :=
  (if s.returnSlotSize ≠ 0 ∧ ∀ f ∈ fs, ¬ f.Limbo then [s.returnSlot] else []) ++ tempsOf fs

def World.owners (w : World) (S : SandboxId) : List Nat :=
  RlboxWasm2c.owners (w.sandboxes S) (framesOn S w.stack)

/-- The invocation has freed what it frees. -/
def InvokeFrame.leaving (f : InvokeFrame) : Bool :=
  match f.pc with
  | .freeArgs i => decide (f.call.allocLength ≤ i)
  | _ => false

/-- The block that malloc, called by `f`, has granted for an argument, if its address is
    refused. -/
def World.refused (w : World) (f : InvokeFrame) : List Frame → List Nat
  | .invoke g :: _ =>
    match g.pc with
    | .setArg _ => if f.ret = 0 ∨ w.dataPointerOk g.sandbox f.ret = true then [] else [f.ret]
    | _ => []
  | _ => []

/-- The blocks of sandbox `S` that nobody is going to free after this step. -/
def World.abandoned (S : SandboxId) (w : World) (i : Input) : List Nat :=
  match w.raising, w.stack, i with
  | some _, .invoke f :: _, .unwind => if f.sandbox = S then f.temps else []
  | none, .invoke f :: rest, .tick =>
    if f.sandbox = S ∧ f.leaving = true then f.temps ++ w.refused f rest else []
  | _, _, _ => []

/-- The blocks held are owned or lost. -/
def Accounted (S : SandboxId) (lost : List Nat) (w : World) : Prop :=
  Accounts (w.sandboxes S).held (w.owners S ++ lost)

/-! ## Owners -/

section owners
variable {s s' : Sandbox} {f g : InvokeFrame} {fs : List InvokeFrame}

theorem slot_cons_iff (hlimbo : s.returnSlotSize ≠ 0 → ¬ f.Limbo) :
    (s.returnSlotSize ≠ 0 ∧ ∀ g ∈ f :: fs, ¬ g.Limbo) ↔
      s.returnSlotSize ≠ 0 ∧ ∀ g ∈ fs, ¬ g.Limbo := by
  rw [List.forall_mem_cons]
  constructor
  · exact fun h => ⟨h.1, h.2.2⟩
  · exact fun h => ⟨h.1, hlimbo h.1, h.2⟩

theorem owners_push {S : SandboxId} {call : Call} {old : Option SandboxId}
    {retBlock : Option Block} {memory : MinWasi.Memory} :
    owners s (newFrame S call old retBlock memory :: fs) = owners s fs := by
  have hpc : (newFrame S call old retBlock memory).pc = .start := rfl
  have hlimbo := InvokeFrame.not_limbo hpc (by simp)
  unfold owners
  simp only [slot_cons_iff fun _ => hlimbo]
  rfl

theorem owners_setTop (htemps : g.temps = f.temps)
    (hlimbo : s.returnSlotSize ≠ 0 → (g.Limbo ↔ f.Limbo)) :
    owners s (g :: fs) = owners s (f :: fs) := by
  unfold owners
  rw [tempsOf_setTop htemps]
  by_cases hzero : s.returnSlotSize = 0
  · simp [hzero]
  · simp [hlimbo hzero]

theorem owners_box (hslot : s'.slotBlock = s.slotBlock) : owners s' fs = owners s fs := by
  obtain ⟨haddr, hsize⟩ := Block.mk.injEq .. ▸ hslot
  unfold owners
  rw [haddr, hsize]

variable (fs) in
/-- An invocation is left with its copies. -/
theorem owners_pop (hlimbo : s.returnSlotSize ≠ 0 → ¬ f.Limbo) :
    (owners s fs ++ f.temps).Perm (owners s (f :: fs)) := by
  unfold owners
  simp only [slot_cons_iff hlimbo]
  rw [tempsOf_cons, List.append_assoc]
  exact List.perm_append_comm.append_left _

/-- A sandbox has no slot, or one that is replaced by the invocation `f`. -/
theorem owners_limbo (h : s.returnSlotSize = 0 ∨ ∃ f ∈ fs, f.Limbo) : owners s fs = tempsOf fs := by
  unfold owners
  rw [if_neg]
  · rfl
  · rintro ⟨hpos, hnone⟩
    rcases h with hzero | ⟨f, hf, hlimbo⟩
    · exact hpos hzero
    · exact hnone f hf hlimbo

theorem owners_slot (hpos : s.returnSlotSize ≠ 0) (hnone : ∀ f ∈ fs, ¬ f.Limbo) :
    owners s fs = s.returnSlot :: tempsOf fs := by
  unfold owners
  rw [if_pos ⟨hpos, hnone⟩]
  rfl

end owners

/-! ## Copies are made last -/

/-- The invocation has no copies before its arguments are evaluated. -/
def InvokeFrame.Empty (f : InvokeFrame) : Prop :=
  match f.pc with
  | .start | .mallocSlot _ | .setSlot _ | .recurse _ => f.slots = []
  | .copyOut _ | .serialize | .setArg _ | .body | .freeArgs _ => True

section empty
variable {P : List InvokeFrame → ClassSize → Prop} {S : SandboxId} {L L' : Local}
  {f g : InvokeFrame}

theorem newFrame_empty {call : Call} {old : Option SandboxId} {retBlock : Option Block}
    {memory : MinWasi.Memory} : (newFrame S call old retBlock memory).Empty := rfl

/-- The next program counter before the arguments. -/
theorem InvokeFrame.Empty.next (h : f.Empty) (hslots : f.Empty ↔ f.slots = [])
    (hsame : g.slots = f.slots) : g.Empty := by
  have hnil : g.slots = [] := hsame.trans (hslots.mp h)
  unfold InvokeFrame.Empty
  split <;> first | exact hnil | trivial

theorem empty_iff {pc : Pc} (hpc : f.pc = pc)
    (hfirst : pc = .start ∨ (∃ n, pc = .mallocSlot n) ∨ (∃ n, pc = .setSlot n) ∨
      ∃ n, pc = .recurse n) : f.Empty ↔ f.slots = [] := by
  unfold InvokeFrame.Empty
  rw [hpc]
  rcases hfirst with rfl | ⟨n, rfl⟩ | ⟨n, rfl⟩ | ⟨n, rfl⟩ <;> rfl

theorem local_empty (h : ∀ f ∈ L.frames, f.Empty) (hs : LocalStep P S L L') :
    ∀ f ∈ L'.frames, f.Empty := by
  cases hs with
  | same | table | raise | caught | copyOutBad => exact h
  | unwind | exited | argBad => exact (List.forall_mem_cons.mp h).2
  | invoke => exact List.forall_mem_cons.mpr ⟨newFrame_empty, h⟩
  | store hpc =>
    refine List.forall_mem_cons.mpr ⟨?_, (List.forall_mem_cons.mp h).2⟩
    unfold InvokeFrame.Empty InvokeFrame.note
    rw [hpc]
    trivial
  | ret | plainReturn | argTooBig | enterBody =>
    exact List.forall_mem_cons.mpr ⟨trivial, (List.forall_mem_cons.mp h).2⟩
  | noSlot hpc | slotFits hpc | slotTooBig hpc =>
    obtain ⟨hf, hfs⟩ := List.forall_mem_cons.mp h
    exact List.forall_mem_cons.mpr ⟨hf.next (empty_iff hpc (by simp)) rfl, hfs⟩
  | freeSlot hpc | mallocSlot hpc =>
    obtain ⟨hf, hfs⟩ := List.forall_mem_cons.mp h
    exact List.forall_mem_cons.mpr ⟨newFrame_empty,
      List.forall_mem_cons.mpr ⟨hf.next (empty_iff hpc (by simp)) rfl, hfs⟩⟩
  | recurse | serializeArg | freeArg =>
    exact List.forall_mem_cons.mpr ⟨newFrame_empty,
      List.forall_mem_cons.mpr ⟨trivial, (List.forall_mem_cons.mp h).2⟩⟩
  | slotGranted hfree hpc =>
    obtain ⟨hg, hfs⟩ := List.forall_mem_cons.mp (List.forall_mem_cons.mp h).2
    exact List.forall_mem_cons.mpr ⟨hg.next (empty_iff hpc (by simp)) rfl, hfs⟩
  | recorded hfree hpc =>
    obtain ⟨-, hfs⟩ := List.forall_mem_cons.mp (List.forall_mem_cons.mp h).2
    refine List.forall_mem_cons.mpr ⟨?_, hfs⟩
    unfold InvokeFrame.Empty
    rw [hpc]
    trivial
  | argStored =>
    obtain ⟨-, hfs⟩ := List.forall_mem_cons.mp (List.forall_mem_cons.mp h).2
    exact List.forall_mem_cons.mpr ⟨trivial, hfs⟩

theorem step_empty (h : ∀ f ∈ L.frames, f.Empty) (hs : FallibleStep S L L') :
    ∀ f ∈ L'.frames, f.Empty := by
  cases hs with
  | granted hasks hs => exact local_empty h hs
  | store hpc =>
    refine List.forall_mem_cons.mpr ⟨?_, (List.forall_mem_cons.mp h).2⟩
    unfold InvokeFrame.Empty InvokeFrame.note
    rw [hpc]
    trivial
  | slotFailed | argRefused => exact (List.forall_mem_cons.mp h).2

end empty

/-! ## Steps that allocate nothing and free nothing -/

/-- The blocks held in `S`, and their owners, are the same. -/
structure SameBooks (S : SandboxId) (w w' : World) : Prop where
  held : (w'.sandboxes S).held = (w.sandboxes S).held
  owners : w'.owners S = w.owners S

section same
variable {S : SandboxId} {w w' : World} {f g : InvokeFrame} {rest : List Frame}

theorem SameBooks.trans {w'' : World} (h : SameBooks S w w') (h' : SameBooks S w' w'') :
    SameBooks S w w'' := ⟨h'.held.trans h.held, h'.owners.trans h.owners⟩

theorem SameBooks.accounted (h : SameBooks S w w') {lost : List Nat} (hw : Accounted S lost w) :
    Accounted S lost w' := by
  unfold Accounted
  rw [h.held, h.owners]
  exact hw

theorem Untouched.books (h : Untouched S w w') : SameBooks S w w' := by
  refine ⟨congrArg Sandbox.held h.1, ?_⟩
  unfold World.owners
  rw [h.1, h.2]

theorem enterInvoke_books (S' : SandboxId) (call : Call) (retBlock : Option Block) :
    SameBooks S w (enterInvoke w S' call retBlock) := by
  refine ⟨rfl, ?_⟩
  unfold World.owners
  by_cases hS : S' = S
  · subst hS
    exact (congrArg (owners (w.sandboxes S')) (framesOn_self rfl)).trans owners_push
  · exact congrArg (owners (w.sandboxes S)) (framesOn_other hS)

theorem implMallocInSandbox_books (S' : SandboxId) (size : Nat) :
    SameBooks S w (implMallocInSandbox w S' size) := by
  unfold implMallocInSandbox
  split
  · exact enterInvoke_books ..
  · exact ⟨rfl, rfl⟩

theorem setTop_books (hstack : w.stack = .invoke f :: rest) (hS : g.sandbox = f.sandbox)
    (htemps : g.temps = f.temps)
    (hlimbo : (w.sandboxes f.sandbox).returnSlotSize ≠ 0 → (g.Limbo ↔ f.Limbo)) :
    SameBooks S w (w.setTop g rest) := by
  refine ⟨rfl, ?_⟩
  unfold World.owners
  rw [World.setTop_stack, World.setTop_sandboxes, hstack]
  by_cases hf : f.sandbox = S
  · subst hf
    rw [framesOn_self hS, framesOn_self rfl]
    exact owners_setTop htemps hlimbo
  · rw [framesOn_other hf, framesOn_other (hS ▸ hf)]

theorem onSandbox_books (S' : SandboxId) {change : Sandbox → Sandbox}
    (hheld : (change (w.sandboxes S')).held = (w.sandboxes S').held)
    (hslot : (change (w.sandboxes S')).slotBlock = (w.sandboxes S').slotBlock) :
    SameBooks S w (w.onSandbox S' change) := by
  by_cases hS : S = S'
  · subst hS
    refine ⟨?_, ?_⟩
    · rw [World.onSandbox_self, hheld]
    · unfold World.owners
      rw [World.onSandbox_self]
      exact owners_box hslot
  · have hbox := World.onSandbox_of_ne w change hS
    refine ⟨congrArg Sandbox.held hbox, ?_⟩
    unfold World.owners
    rw [hbox]
    rfl

theorem leaveCallback_books {c : CallbackFrame} (hstack : w.stack = .callback c :: rest) :
    SameBooks S w (leaveFrame w (.callback c) rest) := by
  refine ⟨rfl, ?_⟩
  unfold World.owners
  rw [hstack]
  rfl

/-- A store changes what is in the blocks. -/
theorem storeFor_books (hstack : w.stack = .invoke f :: rest) (S' : SandboxId) (a : Nat)
    (bytes : List UInt8) : SameBooks S w (storeFor w S' f rest a bytes) := by
  refine (onSandbox_books S' ?_ ?_).trans (setTop_books hstack ?_ ?_ fun _ => ?_)
  all_goals rfl

theorem leaveInterceptor_books {c : CallbackFrame} {bytes : List UInt8}
    (hstack : w.stack = .callback c :: rest) (hs : leaveInterceptor w c rest bytes = some w') :
    SameBooks S w w' := by
  have hleave : SameBooks S w (leaveFrame w (.callback c) rest) := leaveCallback_books hstack
  cases leaveInterceptor_cases hs with
  | plain => exact hleave
  | refused => exact ⟨hleave.held, hleave.owners⟩
  | stored hret hcontext hrest =>
    subst hrest
    exact hleave.trans (storeFor_books rfl _ _ _)

theorem hostStep_books {grow : GrowFuncrefTable} {a : HostAct} (hs : hostStep grow a w = some w') :
    SameBooks S w w' := by
  cases a with
  | invoke S' func retClass params =>
    cases hs
    exact enterInvoke_books ..
  | mallocInSandbox S' size =>
    cases hs
    exact implMallocInSandbox_books ..
  | freeInSandbox S' p =>
    cases hs
    exact enterInvoke_books ..
  | table S' op =>
    cases hs
    exact onSandbox_books S' rfl rfl
  | ret bytes =>
    unfold hostStep at hs
    dsimp only at hs
    split at hs
    · next hstack => exact leaveInterceptor_books hstack hs
    · cases hs
  | throw =>
    cases hs
    exact ⟨rfl, rfl⟩

theorem enterInterceptor_books {n : CallbackIndex} {type : FuncType} {ret : Nat}
    {params : List Nat} (hs : enterInterceptor w n type ret params = some w') :
    SameBooks S w w' := by
  obtain ⟨S', -, hcases⟩ := enterInterceptor_cases hs
  cases hcases with
  | refused | called => exact ⟨rfl, rfl⟩

theorem guestStep_books {grow : GrowFuncrefTable} {a : GuestAct}
    (hstack : w.stack = .invoke f :: rest) (hpc : f.pc = .body)
    (hs : guestStep grow a w f rest = some w') : SameBooks S w w' := by
  unfold guestStep at hs
  cases a with
  | store a v =>
    dsimp only at hs
    split at hs
    · cases hs
      exact storeFor_books hstack _ _ _
    · cases hs
  | growTable delta init =>
    cases hs
    exact onSandbox_books _ rfl rfl
  | callSlot slot ret params =>
    dsimp only at hs
    split at hs
    · exact enterInterceptor_books hs
    · cases hs
  | ret v =>
    cases hs
    have htemps : InvokeFrame.temps { f with pc := .freeArgs 0, ret := v } = f.temps := by
      unfold InvokeFrame.temps
      rw [hpc]
      rfl
    refine setTop_books hstack rfl htemps fun _ => ?_
    exact iff_of_false (InvokeFrame.not_limbo rfl (by simp)) (InvokeFrame.not_limbo hpc (by simp))

theorem serializeArg_books {k : Nat} (hstack : w.stack = .invoke f :: rest)
    (hs : serializeArg w f rest k = some w') : SameBooks S w w' := by
  obtain ⟨hpc, -, bytes, lvalue, -, rfl⟩ := serializeArg_cases hs
  have htop : SameBooks S w
      (w.setTop { f with pc := .setArg k, pending := f.pending.erase k } rest) := by
    refine setTop_books hstack rfl ?_ fun _ => ?_
    · unfold InvokeFrame.temps
      rw [hpc]
    · exact iff_of_false (InvokeFrame.not_limbo rfl (by simp))
        (InvokeFrame.not_limbo hpc (by simp))
  exact htop.trans (implMallocInSandbox_books ..)

end same

/-! ## Steps that allocate or free -/

section changes
variable {S : SandboxId} {w w' : World} {f g : InvokeFrame} {rest : List Frame} {lost : List Nat}

theorem accounted_seen {s : Sandbox} {fs : List InvokeFrame} (hbox : w.sandboxes S = s)
    (hframes : framesOn S w.stack = fs) :
    Accounted S lost w ↔ Accounts s.held (owners s fs ++ lost) := by
  unfold Accounted World.owners
  rw [hbox, hframes]

theorem accounted_top {s : Sandbox} (hbox : w.sandboxes S = s)
    (hstack : w.stack = .invoke f :: rest) (hf : f.sandbox = S) :
    Accounted S lost w ↔ Accounts s.held (owners s (f :: framesOn S rest) ++ lost) :=
  accounted_seen hbox (hstack ▸ framesOn_self hf)

theorem leave_accounted (hstack : w.stack = .invoke f :: rest) (hf : f.sandbox = S)
    (hlimbo : (w.sandboxes S).returnSlotSize ≠ 0 → ¬ f.Limbo) (h : Accounted S lost w) :
    Accounted S (lost ++ f.temps) (leaveFrame w (.invoke f) rest) := by
  rw [accounted_top rfl hstack hf] at h
  refine h.perm ?_
  have hcopies : (lost ++ f.temps).Perm (f.temps ++ lost) := List.perm_append_comm
  refine (hcopies.append_left _).trans ?_
  rw [← List.append_assoc]
  exact (owners_pop _ hlimbo).append_right lost

theorem accounted_setTop {s : Sandbox} (hbox : w.sandboxes S = s) (hg : g.sandbox = S) :
    Accounted S lost (w.setTop g rest) ↔
      Accounts s.held (owners s (g :: framesOn S rest) ++ lost) :=
  accounted_top hbox rfl hg

/-- The slot is freed while there is none to replace it. -/
theorem freeSlot_accounted {n : ClassSize} (hstack : w.stack = .invoke f :: rest)
    (hf : f.sandbox = S) (hchain : Chain (f :: framesOn S rest)) (hpc : f.pc = .start)
    (hret : f.call.retClass = some n) (hpos : (w.sandboxes S).returnSlotSize ≠ 0)
    (h : Accounted S lost w) :
    Accounted S lost ((w.setTop { f with pc := .mallocSlot n } rest).onSandbox S
      fun s => s.release s.returnSlot) := by
  rw [accounted_top rfl hstack hf] at h
  refine (accounted_top (f := { f with pc := .mallocSlot n }) (World.onSandbox_self ..) rfl
    hf).mpr ?_
  rw [World.setTop_sandboxes]
  have hnone : ∀ g ∈ f :: framesOn S rest, ¬ g.Limbo := List.forall_mem_cons.mpr
    ⟨InvokeFrame.not_limbo hpc (by simp),
      not_limbo_below hchain (hchain.1.shaped.not_allocates hret)⟩
  have htemps : tempsOf ({ f with pc := .mallocSlot n } :: framesOn S rest) =
      tempsOf (f :: framesOn S rest) :=
    tempsOf_setTop (by rw [InvokeFrame.temps, InvokeFrame.temps, hpc])
  rw [owners_slot hpos hnone] at h
  rw [owners_limbo (.inr ⟨_, List.mem_cons_self .., n, .inl rfl⟩), htemps]
  exact h.free

/-- The next copy is freed. -/
theorem freeArg_accounted {i : Nat} (hstack : w.stack = .invoke f :: rest) (hf : f.sandbox = S)
    (hpc : f.pc = .freeArgs i) (hi : i < f.slots.length) (h : Accounted S lost w) :
    Accounted S lost
      ((w.setTop
          { f with
            pc := .freeArgs (i + 1)
            freed := f.freed ++ [((f.slots.map Prod.snd)[i]?).getD 0] } rest).onSandbox S
        fun s => s.release (((f.slots.map Prod.snd)[i]?).getD 0)) := by
  have hlen : i < (f.slots.map Prod.snd).length := by rwa [List.length_map]
  rw [accounted_top rfl hstack hf] at h
  refine (accounted_top (f := { f with
      pc := .freeArgs (i + 1)
      freed := f.freed ++ [((f.slots.map Prod.snd)[i]?).getD 0] })
    (World.onSandbox_self ..) rfl hf).mpr ?_
  rw [World.setTop_sandboxes, List.getElem?_eq_getElem hlen, Option.getD_some]
  have htemps : f.temps = (f.slots.map Prod.snd)[i] :: (f.slots.map Prod.snd).drop (i + 1) := by
    unfold InvokeFrame.temps
    rw [hpc]
    exact List.drop_eq_getElem_cons hlen
  -- without the copy, the owners are those of the invocation as it goes on
  have hbefore := owners_pop (framesOn S rest) fun _ : (w.sandboxes S).returnSlotSize ≠ 0 =>
    InvokeFrame.not_limbo hpc (by simp)
  rw [htemps] at hbefore
  refine Accounts.free (h.perm ?_)
  rw [← List.cons_append]
  refine List.Perm.append_right lost ?_
  refine List.Perm.trans ?_ hbefore
  refine List.Perm.trans ?_ List.perm_middle.symm
  refine List.Perm.cons _ ?_
  exact (owners_pop _ (f := { f with
      pc := .freeArgs (i + 1)
      freed := f.freed ++ [(f.slots.map Prod.snd)[i]] })
    fun _ => InvokeFrame.not_limbo rfl (by simp)).symm

/-- The new slot is owned. -/
theorem grantSlot_accounted {n : ClassSize} {v : Nat} (hstack : w.stack = .invoke g :: rest)
    (hg : g.sandbox = S) (hchain : Chain (g :: framesOn S rest)) (hpc : g.pc = .setSlot n)
    (hheld : ∀ b ∈ (w.sandboxes S).held, 0 < b.size) (hgrants : Grants (w.sandboxes S) n.1 v)
    (h : Accounted S lost w) :
    Accounted S lost
      ((w.onSandbox S fun s =>
        { s.grant ⟨v, n.1⟩ with returnSlot := v, returnSlotSize := n.1 }).setTop
        { g with pc := .recurse n } rest) := by
  rw [accounted_top rfl hstack hg] at h
  refine (accounted_setTop (g := { g with pc := .recurse n }) (World.onSandbox_self ..) hg).mpr ?_
  have hfits := hchain.1.fits
  rw [hpc] at hfits
  have hnone : ∀ f ∈ { g with pc := .recurse n } :: framesOn S rest, ¬ f.Limbo :=
    List.forall_mem_cons.mpr ⟨InvokeFrame.not_limbo rfl (by simp),
      not_limbo_below hchain (hchain.1.shaped.not_allocates hfits)⟩
  have htemps : tempsOf ({ g with pc := .recurse n } :: framesOn S rest) =
      tempsOf (g :: framesOn S rest) :=
    tempsOf_setTop (by rw [InvokeFrame.temps, InvokeFrame.temps, hpc])
  have hgranted : ((w.sandboxes S).grant ⟨v, n.1⟩).held = ⟨v, n.1⟩ :: (w.sandboxes S).held :=
    if_neg hgrants.1
  rw [owners_limbo (.inr ⟨g, List.mem_cons_self .., n, .inr hpc⟩)] at h
  rw [owners_slot (Nat.pos_iff_ne_zero.mp n.2) hnone, htemps]
  dsimp only
  rw [hgranted]
  exact h.grant hheld hgrants.2 n.2

/-- The copy of an argument is owned by its invocation. -/
theorem grantArg_accounted {k v : Nat} {bytes : ClassBytes} (hstack : w.stack = .invoke g :: rest)
    (hg : g.sandbox = S) (hpc : g.pc = .setArg k)
    (hheld : ∀ b ∈ (w.sandboxes S).held, 0 < b.size)
    (hgrants : Grants (w.sandboxes S) bytes.1.length v) (h : Accounted S lost w) :
    Accounted S lost
      (((w.onSandbox S fun s => s.grant ⟨v, bytes.1.length⟩).onSandbox S fun s =>
        { s with memory := s.memory.write v bytes.1 }).setTop
        { g with pc := .serialize, slots := g.slots ++ [(k, v)] } rest) := by
  rw [accounted_top rfl hstack hg] at h
  refine (accounted_setTop (g := { g with pc := .serialize, slots := g.slots ++ [(k, v)] })
    (World.onSandbox_self ..) hg).mpr ?_
  rw [World.onSandbox_self]
  have hgranted : ((w.sandboxes S).grant ⟨v, bytes.1.length⟩).held =
      ⟨v, bytes.1.length⟩ :: (w.sandboxes S).held := if_neg hgrants.1
  have htemps : g.temps = g.slots.map Prod.snd := by
    unfold InvokeFrame.temps
    rw [hpc]
  have hbefore := owners_pop (framesOn S rest) fun _ : (w.sandboxes S).returnSlotSize ≠ 0 =>
    InvokeFrame.not_limbo hpc (by simp)
  have hafter := owners_pop (framesOn S rest) (s := w.sandboxes S)
    (f := { g with pc := .serialize, slots := g.slots ++ [(k, v)] })
    fun _ => InvokeFrame.not_limbo rfl (by simp)
  rw [htemps] at hbefore
  dsimp only
  rw [hgranted]
  refine (h.grant hheld hgrants.2 (List.length_pos_iff.mpr bytes.2)).perm ?_
  change List.Perm _ (v :: owners (w.sandboxes S) (g :: framesOn S rest) ++ lost)
  refine List.Perm.append_right lost ?_
  refine hafter.symm.trans ?_
  refine List.Perm.trans ?_ (hbefore.cons v)
  show (owners _ _ ++ (g.slots ++ [(k, v)]).map Prod.snd).Perm _
  rw [List.map_append, ← List.append_assoc]
  exact List.perm_append_singleton v _

/-- The block of a copy whose address is refused is nobody's. -/
theorem refuse_accounted {v n : Nat} (hn : 0 < n)
    (hheld : ∀ b ∈ (w.sandboxes S).held, 0 < b.size) (hgrants : Grants (w.sandboxes S) n v)
    (h : Accounted S lost w) :
    Accounted S (lost ++ [v]) (w.onSandbox S fun s => s.grant ⟨v, n⟩) := by
  rw [accounted_seen rfl rfl] at h
  refine (accounted_seen (World.onSandbox_self ..) rfl).mpr ?_
  have hgranted : ((w.sandboxes S).grant ⟨v, n⟩).held = ⟨v, n⟩ :: (w.sandboxes S).held :=
    if_neg hgrants.1
  rw [hgranted]
  refine (h.grant hheld hgrants.2 hn).perm ?_
  rw [← List.append_assoc]
  exact List.perm_append_singleton v _

theorem Accounted.raise (h : Accounted S lost w) (e : Exn) : Accounted S lost (w.raise e) := h

theorem refused_arg {k : Nat} (hpc : g.pc = .setArg k) :
    w.refused f (.invoke g :: rest) =
      if f.ret = 0 ∨ w.dataPointerOk g.sandbox f.ret = true then [] else [f.ret] := by
  unfold World.refused
  dsimp only
  rw [hpc]

theorem refused_other (h : ∀ k, g.pc ≠ .setArg k) : w.refused f (.invoke g :: rest) = [] := by
  unfold World.refused
  dsimp only
  split
  · next k hk => exact absurd hk (h k)
  · rfl

/-- The invocation `g` goes on with what malloc returned for an argument. -/
theorem resumeArg_accounted {k : Nat} {bytes : ClassBytes} {lvalue : Bool}
    (hstack : w.stack = .invoke g :: rest) (hg : g.sandbox = S) (hpc : g.pc = .setArg k)
    (hk : g.call.params[k]? = some ⟨.cls bytes, lvalue⟩)
    (hheld : ∀ b ∈ (w.sandboxes S).held, 0 < b.size)
    (hgrants : f.ret ≠ 0 → Grants (w.sandboxes S) bytes.1.length f.ret)
    (hnull : f.ret = 0 → w.dataPointerOk S 0 = false) (h : Accounted S lost w) :
    Accounted S (lost ++ w.refused f (.invoke g :: rest)) (resume w g rest f f.ret) := by
  subst hg
  have hok : World.dataPointerOk
      (w.onSandbox g.sandbox fun s => s.grant ⟨f.ret, bytes.1.length⟩) g.sandbox f.ret =
        w.dataPointerOk g.sandbox f.ret := by
    unfold World.dataPointerOk
    rw [World.onSandbox_self]
    rfl
  rw [refused_arg hpc]
  unfold resume
  rw [hpc]
  dsimp only
  rw [hk]
  dsimp only
  rw [hok]
  by_cases hret : f.ret = 0
  · -- nothing was granted, and address 0 is refused
    rw [if_pos (.inl hret), hret, hnull hret, if_neg Bool.false_ne_true, onSandbox_grant_null,
      List.append_nil]
    exact h
  · by_cases hptr : w.dataPointerOk g.sandbox f.ret = true
    · rw [if_pos (.inr hptr), if_pos hptr, List.append_nil]
      exact grantArg_accounted hstack rfl hpc hheld (hgrants hret) h
    · rw [if_neg (by simp [hret, hptr]), if_neg hptr]
      exact (refuse_accounted (List.length_pos_iff.mpr bytes.2) hheld (hgrants hret) h).raise _

/-- And with what it returned for the slot. -/
theorem resumeSlot_accounted {n : ClassSize} (hstack : w.stack = .invoke g :: rest)
    (hg : g.sandbox = S) (hchain : Chain (g :: framesOn S rest)) (hpc : g.pc = .setSlot n)
    (hheld : ∀ b ∈ (w.sandboxes S).held, 0 < b.size)
    (hgrants : f.ret ≠ 0 → Grants (w.sandboxes S) n.1 f.ret)
    (hnull : f.ret = 0 → (w.sandboxes S).returnSlotSize = 0) (h : Accounted S lost w) :
    Accounted S lost (resume w g rest f f.ret) := by
  subst hg
  unfold resume
  rw [hpc]
  dsimp only
  by_cases hret : f.ret = 0
  · rw [if_pos hret]
    refine Accounted.raise ((accounted_seen (World.onSandbox_self ..) rfl).mpr ?_) _
    have hzero := hnull hret
    rw [accounted_seen rfl rfl, owners_limbo (.inl hzero)] at h
    exact (owners_limbo (s := { w.sandboxes g.sandbox with returnSlot := 0 }) (.inl hzero)).symm ▸ h
  · rw [if_neg hret]
    exact grantSlot_accounted hstack rfl hchain hpc hheld (hgrants hret) h

/-- An invocation has freed what it frees, and is left. -/
theorem exit_accounted {i : Nat} (hstack : w.stack = .invoke f :: rest) (hf : f.sandbox = S)
    (hnested : Nested w.stack) (hpc : f.pc = .freeArgs i)
    (hcontract : FallibleContract w .tick) (hfails : FailsHarmlessly w .tick)
    (hheld : ∀ b ∈ (w.sandboxes S).held, 0 < b.size) (h : Accounted S lost w) :
    Accounted S (lost ++ (f.temps ++ w.refused f rest)) (exitInvoke w f rest f.ret) := by
  have hleft : Accounted S (lost ++ f.temps) (leaveFrame w (.invoke f) rest) :=
    leave_accounted hstack hf (fun _ => InvokeFrame.not_limbo hpc (by simp)) h
  have hnest : Nested (.invoke f :: rest) := hstack ▸ hnested
  rw [← List.append_assoc]
  -- what malloc returned to the invocation below
  have hrunning : f ∈ w.running := by
    rw [World.running, hstack]
    rfl
  have hrequest : ∀ n, f.call = mallocCall n → n ∈ f.request := by
    intro n hcall
    unfold InvokeFrame.request
    rw [hpc, hcall]
    rfl
  have hgrants : ∀ n, f.call = mallocCall n → f.ret ≠ 0 → Grants (w.sandboxes S) n f.ret :=
    fun n hcall => hf ▸ hcontract f hrunning n (hrequest n hcall)
  cases rest with
  | nil =>
    rw [show w.refused f [] = [] from rfl, List.append_nil]
    exact hleft
  | cons fr rest =>
    cases fr with
    | callback c =>
      rw [show w.refused f (.callback c :: rest) = [] from rfl, List.append_nil]
      exact hleft
    | invoke g =>
      obtain ⟨-, ⟨hgf, hinvoked⟩, htail⟩ := hnest
      have hg : g.sandbox = S := hgf.trans hf
      have hchain : Chain (g :: framesOn S rest) := by
        rw [← framesOn_self hg]
        exact chain_of_nested htail S
      have hwithstands : ∀ n, f.call = mallocCall n → f.ret = 0 → w.Withstands g := by
        intro n hcall
        refine hfails.1 (f, g) ?_
        unfold World.allocated
        rw [hstack]
        exact if_pos (Option.isSome_of_mem (hrequest n hcall))
      cases hinvoked with
      | freeSlot hpc' | freeArg hpc' =>
        rw [refused_other (by simp [hpc']), List.append_nil]
        show Accounted _ _ (resume _ g rest f f.ret)
        unfold resume
        rw [hpc']
        exact hleft
      | recurse hpc' =>
        rw [refused_other (by simp [hpc']), List.append_nil]
        show Accounted _ _ (resume _ g rest f f.ret)
        unfold resume
        rw [hpc']
        refine SameBooks.accounted ?_ hleft
        refine setTop_books (f := g) rfl ?_ ?_ fun _ => ?_
        · rfl
        · unfold InvokeFrame.temps
          rw [hpc']
        · exact iff_of_false (InvokeFrame.not_limbo rfl (by simp))
            (InvokeFrame.not_limbo hpc' (by simp))
      | mallocSlot hpc' hcall =>
        rw [refused_other (by simp [hpc']), List.append_nil]
        refine resumeSlot_accounted rfl hg hchain hpc' hheld (hgrants _ hcall) ?_ hleft
        intro hret
        have hzero := hwithstands _ hcall hret
        unfold World.Withstands at hzero
        rw [hpc'] at hzero
        exact hg ▸ hzero
      | mallocArg hpc' hk hcall =>
        refine resumeArg_accounted (w := leaveFrame w (.invoke f) (.invoke g :: rest)) rfl hg hpc'
          hk hheld (hgrants _ hcall) ?_ hleft
        intro hret
        have hbad := hwithstands _ hcall hret
        unfold World.Withstands at hbad
        rw [hpc'] at hbad
        exact hg ▸ hbad

/-- An invocation on another sandbox is nothing to this one. -/
theorem abandoned_other (hstack : w.stack = .invoke f :: rest) (hf : f.sandbox ≠ S)
    (hraising : w.raising = none) : w.abandoned S .tick = [] := by
  unfold World.abandoned
  rw [hraising, hstack]
  exact if_neg fun h => hf h.1

theorem abandoned_staying (hstack : w.stack = .invoke f :: rest) (hstays : f.leaving = false)
    (hraising : w.raising = none) : w.abandoned S .tick = [] := by
  unfold World.abandoned
  rw [hraising, hstack]
  exact if_neg fun h => Bool.false_ne_true (hstays.symm.trans h.2)

theorem tickInvoke_accounted (hstack : w.stack = .invoke f :: rest) (hnested : Nested w.stack)
    (hraising : w.raising = none) (hcontract : FallibleContract w .tick)
    (hfails : FailsHarmlessly w .tick) (hscratch : Scratch (w.seenBy S))
    (hempty : ∀ f ∈ framesOn S w.stack, f.Empty) (h : Accounted S lost w)
    (hs : tickInvoke w f rest = some w') :
    Accounted S (lost ++ w.abandoned S .tick) w' := by
  have hnest : Nested (.invoke f :: rest) := hstack ▸ hnested
  by_cases hf : f.sandbox = S
  case neg =>
    rw [abandoned_other hstack hf hraising, List.append_nil]
    exact (tickInvoke_untouched hstack hnest.2.1 hf hs).books.accounted h
  have hchain : Chain (f :: framesOn S rest) := by
    have hall := chain_of_nested hnested S
    rwa [hstack, framesOn_self hf] at hall
  have hmem : f ∈ framesOn S w.stack := by
    rw [hstack, framesOn_self hf]
    exact List.mem_cons_self ..
  have hheld := hscratch.owned.temps.positive
  -- until it has freed what it frees nothing is lost
  have hstays : f.leaving = false → Accounted S lost w' →
      Accounted S (lost ++ w.abandoned S .tick) w' := by
    intro hleaving hw'
    rwa [abandoned_staying hstack hleaving hraising, List.append_nil]
  have hnext : ∀ {g : InvokeFrame} {pc : Pc}, f.pc = pc → (∀ n, pc ≠ .mallocSlot n ∧
      pc ≠ .setSlot n) → g.sandbox = f.sandbox → g.temps = f.temps → ¬ g.Limbo →
      SameBooks S w (w.setTop g rest) := by
    intro g pc hpc hfirst hS htemps hg
    exact setTop_books hstack hS htemps fun _ =>
      iff_of_false hg (InvokeFrame.not_limbo hpc hfirst)
  cases tickInvoke_cases hs with
  | plainReturn hpc | slotFits hpc =>
    refine hstays (by simp [InvokeFrame.leaving, hpc]) (SameBooks.accounted ?_ h)
    refine hnext hpc (by simp) rfl ?_ (InvokeFrame.not_limbo rfl (by simp))
    rw [InvokeFrame.temps, InvokeFrame.temps, hpc]
  | enterBody hpc =>
    refine hstays (by simp [InvokeFrame.leaving, hpc]) (SameBooks.accounted ?_ h)
    refine hnext hpc (by simp) rfl ?_ (InvokeFrame.not_limbo rfl (by simp))
    rw [InvokeFrame.temps, InvokeFrame.temps, hpc]
  | noSlot hpc hret hzero =>
    refine hstays (by simp [InvokeFrame.leaving, hpc]) (SameBooks.accounted ?_ h)
    refine setTop_books hstack rfl ?_ fun hpos => absurd hzero hpos
    rw [InvokeFrame.temps, InvokeFrame.temps, hpc]
  | freeSlot hpc hret hsize hpos =>
    subst hf
    refine hstays (by simp [InvokeFrame.leaving, hpc]) ?_
    exact (enterInvoke_books ..).accounted
      (freeSlot_accounted hstack rfl hchain hpc hret hpos h)
  | mallocSlot hpc =>
    refine hstays (by simp [InvokeFrame.leaving, hpc]) ?_
    refine (implMallocInSandbox_books ..).accounted (SameBooks.accounted ?_ h)
    refine setTop_books hstack rfl ?_ fun _ => iff_of_true ⟨_, .inr rfl⟩ ⟨_, .inl hpc⟩
    rw [InvokeFrame.temps, InvokeFrame.temps, hpc]
  | recurse hpc =>
    refine hstays (by simp [InvokeFrame.leaving, hpc]) ?_
    refine (enterInvoke_books ..).accounted (SameBooks.accounted ?_ h)
    refine hnext hpc (by simp) rfl ?_ (InvokeFrame.not_limbo rfl (by simp))
    -- no copy was made yet
    have hslots := (empty_iff hpc (by simp)).mp (hempty f hmem)
    rw [InvokeFrame.temps, InvokeFrame.temps, hpc]
    dsimp only
    rw [hslots]
    rfl
  | copyOut hpc =>
    have hret := hnest.1.fits
    rw [hpc] at hret
    have htemps : f.temps = [] := by
      unfold InvokeFrame.temps
      rw [hpc]
    refine hstays (by simp [InvokeFrame.leaving, hpc]) ?_
    rw [exitInvoke_host (hostRuns_of_class hnest.2.1 hret), ← List.append_nil lost, ← htemps]
    exact leave_accounted (w := w.hand _) hstack hf
      (fun _ => InvokeFrame.not_limbo hpc (by simp)) h
  | copyOutBad hpc => exact hstays (by simp [InvokeFrame.leaving, hpc]) h
  | freeArg hpc hi =>
    have hlen := Nat.lt_of_lt_of_le hi ((hscratch.filled f hmem).allocLength_le hpc)
    refine hstays (by simp [InvokeFrame.leaving, hpc, hi]) ?_
    subst hf
    exact (enterInvoke_books ..).accounted (freeArg_accounted hstack rfl hpc hlen h)
  | done hpc hi =>
    have hleaving : f.leaving = true := by simp [InvokeFrame.leaving, hpc, hi]
    have habandoned : w.abandoned S .tick = f.temps ++ w.refused f rest := by
      unfold World.abandoned
      rw [hraising, hstack]
      exact if_pos ⟨hf, hleaving⟩
    rw [habandoned]
    exact exit_accounted hstack hf hnested hpc hcontract hfails hheld h

end changes

/-! ## Runs -/

section runs
variable {S : SandboxId} {grow : GrowFuncrefTable} {w w' : World} {lost : List Nat} {i : Input}

theorem abandoned_quiet (htick : i ≠ .tick) (hunwind : i ≠ .unwind) : w.abandoned S i = [] := by
  unfold World.abandoned
  split
  · contradiction
  · contradiction
  · rfl

/-- An exception leaves the frame on top. -/
theorem unwind_accounted {fr : Frame} {rest : List Frame} (hstack : w.stack = fr :: rest)
    {e : Exn} (hraising : w.raising = some e) (hscratch : Scratch (w.seenBy S))
    (h : Accounted S lost w) :
    Accounted S (lost ++ w.abandoned S .unwind) (leaveFrame w fr rest) := by
  unfold World.abandoned
  rw [hraising, hstack]
  cases fr with
  | callback c =>
    rw [List.append_nil]
    exact (leaveCallback_books hstack).accounted h
  | invoke f =>
    dsimp only
    by_cases hf : f.sandbox = S
    · rw [if_pos hf]
      refine leave_accounted hstack hf (fun hpos => hscratch.settled ?_ hpos f ?_) h
      · exact congrArg Option.isSome hraising
      · show f ∈ framesOn S w.stack
        rw [hstack, framesOn_self hf]
        exact List.mem_cons_self ..
    · rw [if_neg hf, List.append_nil]
      have hsame : Untouched S w w := ⟨rfl, rfl⟩
      exact (hsame.leaveFrame hstack hf).books.accounted h

theorem step_accounted (hnested : Nested w.stack) (hcontract : FallibleContract w i)
    (hfails : FailsHarmlessly w i) (hscratch : Scratch (w.seenBy S))
    (hempty : ∀ f ∈ framesOn S w.stack, f.Empty) (h : Accounted S lost w)
    (hs : step grow i w = some w') : Accounted S (lost ++ w.abandoned S i) w' := by
  have hquiet : i ≠ .tick → i ≠ .unwind → SameBooks S w w' →
      Accounted S (lost ++ w.abandoned S i) w' := by
    intro htick hunwind hsame
    rw [abandoned_quiet htick hunwind, List.append_nil]
    exact hsame.accounted h
  unfold step at hs
  split at hs
  · exact hquiet nofun nofun (hostStep_books hs)
  · exact hquiet nofun nofun (hostStep_books hs)
  · next hstack =>
    split at hs
    · next hpc => exact hquiet nofun nofun (guestStep_books hstack hpc hs)
    · cases hs
  · next hstack => exact hquiet nofun nofun (serializeArg_books hstack hs)
  · next hraising hstack =>
    exact tickInvoke_accounted hstack hnested hraising hcontract hfails hscratch hempty h hs
  · next hraising hstack =>
    cases hs
    exact unwind_accounted hstack hraising hscratch h
  · cases hs
    exact hquiet nofun nofun ⟨rfl, rfl⟩
  · cases hs
    exact hquiet nofun nofun ⟨rfl, rfl⟩
  · cases hs

/-- What the accounts of sandbox `S` rest on, and the accounts. -/
structure Books (S : SandboxId) (outer : Option SandboxId) (w : World) (lost : List Nat) :
    Prop where
  nested : Nested w.stack
  sound : SavedContext.Sound outer w.view
  scratch : Scratch (w.seenBy S)
  empty : ∀ f ∈ framesOn S w.stack, f.Empty
  accounted : Accounted S lost w

theorem Created.books (h : Created w) (S : SandboxId) :
    Books S w.threadData.sandbox w [] := by
  have hslots := h.slots S
  refine ⟨?_, h.sound, ?_, ?_, ?_⟩
  · rw [h.stack]
    trivial
  · rw [h.seenBy S]
    exact created_scratch hslots.1 hslots.2
  · rw [h.stack]
    exact List.forall_mem_nil _
  · rw [accounted_seen rfl (congrArg (framesOn S) h.stack), hslots.2,
      owners_limbo (.inl hslots.1)]
    exact .empty

theorem step_books {outer : Option SandboxId} (h : Books S outer w lost)
    (hcontract : FallibleContract w i) (hfails : FailsHarmlessly w i)
    (hs : step grow i w = some w') : Books S outer w' (lost ++ w.abandoned S i) := by
  have hchain := chain_of_nested h.nested S
  have hlocal : FallibleStep S (w.seenBy S) (w'.seenBy S) :=
    step_fallible h.nested h.sound hcontract hfails hs
  exact ⟨step_nested grow h.nested hcontract.calls hs,
    SavedContext.move_sound (step_move grow i w w' hs) h.sound,
    step_scratch hchain h.scratch hlocal, step_empty h.empty hlocal,
    step_accounted h.nested hcontract hfails h.scratch h.empty h.accounted hs⟩

theorem reached_books {w₀ : World} {is : List Input} (hw₀ : Created w₀)
    (hmeets : Meets (step grow) (fun w i => FallibleContract w i ∧ FailsHarmlessly w i) is w₀)
    (hexec : exec (step grow) is w₀ = some w) (S : SandboxId) :
    Books S w₀.threadData.sandbox w (collect (step grow) (World.abandoned S) is w₀) :=
  exec_collect (R := Books S w₀.threadData.sandbox)
    (fun _ _ _ _ hbooks hC hs => step_books hbooks hC.1 hC.2 hs) (hw₀.books S) hmeets hexec

/-- Where nothing runs and nothing was lost, the slot is all that is held. -/
theorem Books.idle {outer : Option SandboxId} (h : Books S outer w []) (hstack : w.stack = []) :
    (w.sandboxes S).held =
      if (w.sandboxes S).returnSlotSize = 0 then [] else [(w.sandboxes S).slotBlock] := by
  have hframes : framesOn S w.stack = [] := congrArg (framesOn S) hstack
  have haccounts := h.accounted
  rw [accounted_seen rfl hframes, List.append_nil] at haccounts
  by_cases hzero : (w.sandboxes S).returnSlotSize = 0
  · rw [owners_limbo (.inl hzero)] at haccounts
    rw [if_pos hzero]
    exact List.map_eq_nil_iff.mp haccounts.all.eq_nil
  · have hnone : ∀ f ∈ framesOn S w.stack, ¬ f.Limbo := by
      rw [hframes]
      exact List.forall_mem_nil _
    have hslot := (h.scratch.owned.slot hnone hzero).2
    rw [owners_slot hzero (List.forall_mem_nil _)] at haccounts
    -- one block is held, and the slot is
    have hlength := haccounts.all.length_eq
    rw [List.length_map] at hlength
    obtain ⟨b, hb⟩ := List.length_eq_one_iff.mp hlength
    change (w.sandboxes S).slotBlock ∈ (w.sandboxes S).held at hslot
    rw [hb] at hslot
    rw [if_neg hzero, hb, List.mem_singleton.mp hslot]

end runs

/-- A callback throws out of a guest function with a class argument; then a guest function with
    a class argument gives a class. -/
def loseTwo : List Input :=
  [.host (.table 0 (.register unaryInt 11 101)), .host (.invoke 0 7 none [byteClass]), .tick,
    .serializeArg 0] ++ mallocReturns 1024 ++
    [.tick, .guest (.callSlot 1 0 [5]), .host .throw, .unwind, .unwind, .catch] ++
    [.host (.invoke 0 7 (some oneByte) [byteClass]), .tick, .tick] ++ mallocReturns 2048 ++
    [.tick, .tick, .serializeArg 1] ++ mallocReturns 4096 ++ [.tick, .guest (.ret 0), .tick, .tick]

/-- Where the call of an invocation comes from: it is there, or host code makes it, or the
    code of an invocation does. -/
inductive Spawned (w : World) (i : Input) (c : Call) : Prop where
  | there {g : InvokeFrame} (hg : .invoke g ∈ w.stack) (hcall : c = g.call)
  | host {S : SandboxId} {func : Nat} {retClass : Option ClassSize} {params : List Param}
    (hi : i = .host (.invoke S func retClass params)) (hcall : c = ⟨.other func, retClass, params⟩)
  | malloc {n : Nat} (hcall : c = mallocCall n)
  | free {p : Nat} (hcall : c = freeCall p)
  | promoted {g : InvokeFrame} {n : ClassSize} {a : Nat} (hg : .invoke g ∈ w.stack)
    (hpc : g.pc = .recurse n) (hcall : c = g.call.promoted a)

def Spawns (w : World) (i : Input) (stack : List Frame) : Prop :=
  ∀ f, .invoke f ∈ stack → Spawned w i f.call

section spawned
variable {w w' u : World} {i : Input} {f g : InvokeFrame} {rest : List Frame}
  {grow : GrowFuncrefTable}

theorem spawns_stack (w : World) (i : Input) : Spawns w i w.stack := fun _ hf => .there hf rfl

theorem Spawns.tail {fr : Frame} (h : Spawns w i (fr :: rest)) : Spawns w i rest :=
  fun f hf => h f (List.mem_cons_of_mem _ hf)

theorem Spawns.cons (h : Spawns w i rest) (hf : Spawned w i f.call) :
    Spawns w i (.invoke f :: rest) := by
  intro k hk
  rcases List.mem_cons.mp hk with heq | hrest
  · cases heq
    exact hf
  · exact h k hrest

theorem Spawns.callback (h : Spawns w i rest) (c : CallbackFrame) :
    Spawns w i (.callback c :: rest) := by
  intro k hk
  rcases List.mem_cons.mp hk with heq | hrest
  · cases heq
  · exact h k hrest

theorem Spawns.setTop (h : Spawns w i (.invoke f :: rest)) (hcall : g.call = f.call) :
    Spawns w i (.invoke g :: rest) :=
  h.tail.cons (hcall ▸ h f (List.mem_cons_self ..))

theorem Spawns.malloc (h : Spawns w i u.stack) (S : SandboxId) (size : Nat) :
    Spawns w i (implMallocInSandbox u S size).stack := by
  unfold implMallocInSandbox
  split
  · exact h.cons (.malloc rfl)
  · exact h

theorem Spawns.resume (h : Spawns w i u.stack) (hstack : u.stack = .invoke g :: rest) (v : Nat) :
    Spawns w i (resume u g rest f v).stack := by
  rw [hstack] at h
  have hcases := resume_cases u g rest f v
  generalize RlboxWasm2c.resume u g rest f v = u' at hcases ⊢
  cases hcases with
  | slotFailed | argBad | same => exact hstack ▸ h
  | slotGranted | argStored | recorded => exact h.setTop rfl

theorem Spawns.exit (h : Spawns w i (.invoke f :: rest)) (v : Nat) :
    Spawns w i (exitInvoke u f rest v).stack := by
  unfold exitInvoke
  split
  · refine Spawns.resume ?_ (leaveFrame_stack ..) v
    rw [leaveFrame_stack]
    exact h.tail
  · rw [leaveFrame_stack]
    exact h.tail

theorem tickInvoke_spawns (hstack : w.stack = .invoke f :: rest)
    (hs : tickInvoke w f rest = some w') : Spawns w i w'.stack := by
  have hw : Spawns w i (.invoke f :: rest) := hstack ▸ spawns_stack w i
  cases tickInvoke_cases hs with
  | plainReturn | noSlot | slotFits | enterBody => exact hw.setTop rfl
  | copyOutBad => exact spawns_stack w i
  | freeSlot | freeArg =>
    refine Spawns.cons ?_ (.free rfl)
    exact hw.setTop rfl
  | mallocSlot =>
    refine Spawns.malloc ?_ _ _
    exact hw.setTop rfl
  | recurse hpc =>
    refine Spawns.cons ?_ (.promoted (hstack ▸ List.mem_cons_self ..) hpc rfl)
    exact hw.setTop rfl
  | copyOut | done => exact hw.exit _

theorem leaveInterceptor_spawns {c : CallbackFrame} {bytes : List UInt8}
    (hstack : w.stack = .callback c :: rest) (hs : leaveInterceptor w c rest bytes = some w') :
    Spawns w i w'.stack := by
  have hw : Spawns w i (.callback c :: rest) := hstack ▸ spawns_stack w i
  cases leaveInterceptor_cases hs with
  | plain | refused => exact hw.tail
  | stored hret hcontext hrest =>
    subst hrest
    exact hw.tail.setTop rfl

theorem hostStep_spawns {a : HostAct} (hs : hostStep grow a w = some w') :
    Spawns w (.host a) w'.stack := by
  have hw := spawns_stack w (.host a)
  cases a with
  | invoke S func retClass params =>
    cases hs
    exact hw.cons (.host rfl rfl)
  | mallocInSandbox S size =>
    cases hs
    exact hw.malloc _ _
  | freeInSandbox S p =>
    cases hs
    exact hw.cons (.free rfl)
  | table S op =>
    cases hs
    exact hw
  | ret bytes =>
    unfold hostStep at hs
    dsimp only at hs
    split at hs
    · next hstack => exact leaveInterceptor_spawns hstack hs
    · cases hs
  | throw =>
    cases hs
    exact hw

theorem guestStep_spawns {a : GuestAct} (hstack : w.stack = .invoke f :: rest)
    (hs : guestStep grow a w f rest = some w') : Spawns w i w'.stack := by
  have hw : Spawns w i (.invoke f :: rest) := hstack ▸ spawns_stack w i
  unfold guestStep at hs
  cases a with
  | store a v =>
    dsimp only at hs
    split at hs
    · cases hs
      exact hw.setTop rfl
    · cases hs
  | growTable delta init =>
    cases hs
    exact spawns_stack w i
  | callSlot slot ret params =>
    dsimp only at hs
    split at hs
    · obtain ⟨S, -, hcases⟩ := enterInterceptor_cases hs
      cases hcases with
      | refused => exact spawns_stack w i
      | called => exact (spawns_stack w i).callback _
    · cases hs
  | ret v =>
    cases hs
    exact hw.setTop rfl

theorem step_spawns (hs : step grow i w = some w') : Spawns w i w'.stack := by
  unfold step at hs
  split at hs
  · exact hostStep_spawns hs
  · exact hostStep_spawns hs
  · next hstack =>
    split at hs
    · exact guestStep_spawns hstack hs
    · cases hs
  · next f rest k hraising hstack =>
    have hw : Spawns w (.serializeArg k) (.invoke f :: rest) := hstack ▸ spawns_stack w _
    obtain ⟨-, -, bytes, lvalue, -, rfl⟩ := serializeArg_cases hs
    refine Spawns.malloc ?_ _ _
    exact hw.setTop rfl
  · next hstack => exact tickInvoke_spawns hstack hs
  · next fr rest hraising hstack =>
    have hw : Spawns w .unwind (fr :: rest) := hstack ▸ spawns_stack w _
    cases hs
    rw [leaveFrame_stack]
    exact hw.tail
  · cases hs
    exact spawns_stack w _
  · cases hs
    exact spawns_stack w _
  · cases hs

end spawned

/-- The first `alloc_length` copies are all there are, and none where the call gives a class. -/
structure Call.FreesAll (c : Call) : Prop where
  temporaries : c.allocLength = c.classParams.length
  plain : c.retClass ≠ none → c.classParams = []

/-- Host code passes class values as temporaries only, and none where it gets a class; no
    exception leaves an invocation that has made a copy. -/
def Frugal (w : World) : Input → Prop
  | .host (.invoke _ _ retClass params) =>
    ∀ p ∈ params, p.arg.isClass = true → p.lvalue = false ∧ retClass = none
  | .unwind => ∀ f ∈ w.running, f.slots = []
  | _ => True

instance (w : World) : DecidablePred (Frugal w)
  | .host (.invoke _ _ retClass params) =>
    inferInstanceAs (Decidable (∀ p ∈ params, p.arg.isClass = true → p.lvalue = false ∧
      retClass = none))
  | .unwind => inferInstanceAs (Decidable (∀ f ∈ w.running, f.slots = []))
  | .host (.mallocInSandbox ..) | .host (.freeInSandbox ..) | .host (.table ..) | .host (.ret _)
  | .host .throw | .guest _ | .serializeArg _ | .tick | .catch => .isTrue trivial

section frugal
variable {S : SandboxId} {w w' : World} {i : Input} {f : InvokeFrame} {c : Call}
  {rest : List Frame} {grow : GrowFuncrefTable}

theorem freesAll_of_nil (h : c.classParams = []) : c.FreesAll := by
  refine ⟨?_, fun _ => h⟩
  have hle := c.allocLength_le
  rw [h] at hle ⊢
  exact Nat.le_zero.mp hle

theorem freesAll_allocator (h : c.Shaped) (halloc : c.Allocates) : c.FreesAll :=
  freesAll_of_nil (h.classParams_nil halloc)

theorem freesAll_host {func : Nat} {retClass : Option ClassSize} {params : List Param}
    (h : ∀ p ∈ params, p.arg.isClass = true → p.lvalue = false ∧ retClass = none) :
    (⟨.other func, retClass, params⟩ : Call).FreesAll := by
  refine ⟨?_, fun hret => ?_⟩
  · rw [Call.length_classParams]
    refine List.countP_congr fun p hp => ?_
    rw [Bool.and_eq_true]
    exact ⟨fun hp' => hp'.1, fun hp' => ⟨hp', by rw [(h p hp hp').1]; rfl⟩⟩
  · rw [← List.length_eq_zero_iff, Call.length_classParams, List.countP_eq_zero]
    exact fun p hp hcls => hret (h p hp hcls).2

/-- The recursive call of a class return has no class argument. -/
theorem freesAll_promoted {n : ClassSize} (h : c.FreesAll) (hret : c.retClass = some n) (a : Nat) :
    (c.promoted a).FreesAll := by
  refine freesAll_of_nil ?_
  rw [Call.classParams_promoted, h.plain (by rw [hret]; nofun)]
  rfl

def AllFreed (w : World) : Prop := ∀ f, .invoke f ∈ w.stack → f.call.FreesAll

theorem Nested.wellFormed {stack : List Frame} (h : Nested stack) :
    ∀ f, .invoke f ∈ stack → f.WellFormed := by
  induction stack with
  | nil => exact fun f hf => absurd hf List.not_mem_nil
  | cons fr rest ih =>
    intro f hf
    rcases List.mem_cons.mp hf with heq | hrest
    · subst heq
      exact h.1
    · exact ih h.tail f hrest

theorem step_allFreed (hnested : Nested w.stack) (hfrugal : Frugal w i) (h : AllFreed w)
    (hs : step grow i w = some w') : AllFreed w' := by
  intro f hf
  generalize hcall : f.call = c
  cases hcall ▸ step_spawns hs f hf with
  | there hg hthere => exact hthere ▸ h _ hg
  | host hi hhost =>
    subst hi hhost
    exact freesAll_host hfrugal
  | malloc hmalloc => exact hmalloc ▸ freesAll_allocator (mallocCall_shaped _) (.inl rfl)
  | free hfree => exact hfree ▸ freesAll_allocator (freeCall_shaped _) (.inr rfl)
  | promoted hg hpc hpromoted =>
    have hfits := (hnested.wellFormed _ hg).fits
    rw [hpc] at hfits
    exact hpromoted ▸ freesAll_promoted (h _ hg) hfits _

/-- On a 64-bit host no address is refused. -/
theorem refused_nil (hptr : w.ptr32 = false) : w.refused f rest = [] := by
  unfold World.refused World.dataPointerOk
  split
  · split
    · simp [hptr]
    · rfl
  · rfl

theorem abandoned_nil (hptr : w.ptr32 = false) (hfrugal : Frugal w i) (h : AllFreed w)
    (hscratch : Scratch (w.seenBy S)) : w.abandoned S i = [] := by
  unfold World.abandoned
  split
  · next f rest hraising hstack =>
    split
    · have hslots : f.slots = [] := hfrugal f (by rw [World.running, hstack]; rfl)
      unfold InvokeFrame.temps
      rw [hslots]
      split <;> simp
    · rfl
  · next f rest hraising hstack =>
    split
    · next hleaves =>
      obtain ⟨hf, hleaving⟩ := hleaves
      rw [refused_nil hptr, List.append_nil]
      -- as many copies were made as are freed
      unfold InvokeFrame.leaving at hleaving
      split at hleaving
      · next k hpc =>
        have hmem : f ∈ framesOn S w.stack := by
          rw [hstack, framesOn_self hf]
          exact List.mem_cons_self ..
        have hfilled := hscratch.filled f hmem
        unfold InvokeFrame.Filled at hfilled
        rw [hpc] at hfilled
        have hall := (h f (hstack ▸ List.mem_cons_self ..)).temporaries
        have hk := of_decide_eq_true hleaving
        unfold InvokeFrame.temps
        rw [hpc]
        refine List.drop_eq_nil_of_le ?_
        rw [List.length_map]
        omega
      · cases hleaving
    · rfl
  · rfl

theorem step_ptr32 (hs : step grow i w = some w') : w'.ptr32 = w.ptr32 :=
  (step_within (A := fun _ => True) grow ⟨rfl, fun _ _ => trivial, fun _ _ => ⟨trivial,
    fun _ _ => trivial⟩⟩ (fun _ _ => trivial) hs).ptr32

/-- On a 64-bit host, and where host code is frugal, nothing is ever abandoned: the blocks held
    are those at the addresses owned, and between two invocations the return slot is all
    that is held. -/
theorem frugal_accounted {w₀ : World} {is : List Input} (hw₀ : Created w₀)
    (hptr : w₀.ptr32 = false)
    (hmeets : Meets (step grow)
      (fun w i => (FallibleContract w i ∧ FailsHarmlessly w i) ∧ Frugal w i) is w₀)
    (hexec : exec (step grow) is w₀ = some w) (S : SandboxId) :
    Accounts (w.sandboxes S).held (w.owners S) ∧
    (w.stack = [] → (w.sandboxes S).held =
      if (w.sandboxes S).returnSlotSize = 0 then [] else [(w.sandboxes S).slotBlock]) := by
  have hinv := exec_invariant
    (I := fun w => Books S w₀.threadData.sandbox w [] ∧ AllFreed w ∧ w.ptr32 = false)
    ?_ ⟨hw₀.books S, ?_, hptr⟩ hmeets hexec
  · obtain ⟨hbooks, -, -⟩ := hinv
    refine ⟨?_, hbooks.idle⟩
    have haccounted := hbooks.accounted
    unfold Accounted at haccounted
    rwa [List.append_nil] at haccounted
  · intro v i v' ⟨hbooks, hfreed, hptr⟩ ⟨hcontract, hfrugal⟩ hv
    have hnext := step_books hbooks hcontract.1 hcontract.2 hv
    rw [abandoned_nil hptr hfrugal hfreed hbooks.scratch, List.append_nil] at hnext
    exact ⟨hnext, step_allFreed hbooks.nested hfrugal hfreed hv, (step_ptr32 hv).trans hptr⟩
  · intro f hf
    rw [hw₀.stack] at hf
    cases hf

end frugal

/-- A guest function with a class argument, then one that gives a class. -/
def passThenReturn : List Input :=
  passClass ++ [.tick] ++ firstReturn

theorem frugal_accounted_passThenReturn :
    ∃ w, exec (step growWithinMax) passThenReturn smallWorld = some w ∧ w.stack = [] ∧
      (w.sandboxes 0).held = [⟨1024, 1⟩] := by
  have hexec : exec (step growWithinMax) passThenReturn smallWorld = some _ := rfl
  exact ⟨_, hexec, rfl,
    (frugal_accounted smallWorld_created rfl (by decide +kernel) hexec 0).2 rfl⟩

end RlboxWasm2c

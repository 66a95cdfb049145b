import RlboxWasm2c.ReturnSlot

/- The blocks of the host in the sandbox, where the guest's malloc may fail.

   The return slot and the copies of class arguments are blocks of the guest's malloc, which
   returns null when it has none. `ensure_return_slot_size` checks for that, but by then the
   old slot is freed and `return_slot_size` still its size: with the exception caught, the
   sandbox has a size and no slot. `serialize_class_arg` checks for nothing and writes the
   copy to address 0. `scratch_live` says in which runs the host keeps to live blocks.

   The steps of a sandbox are those of `LocalStep` and three more (`FallibleStep`), and the
   invariant is `Scratch`: the blocks are owned as in a run without failures. -/
namespace RlboxWasm2c
open Blocks Runs

/-! ## Failures -/

/-- What guest code promises where its malloc may fail: a block it grants overlaps no held
    one, and its allocator calls no callback. Host code frees no block held by an
    invocation. -/
def FallibleContract (w : World) : Input → Prop
  | .guest (.callSlot _ _ _) => ∀ f ∈ w.running, ¬ f.call.Allocates
  | .host (.freeInSandbox S p) => ∀ b ∈ (w.sandboxes S).held, b.addr ≠ p
  | .tick => ∀ f ∈ w.running, ∀ n ∈ f.request,
      f.ret ≠ 0 → Grants (w.sandboxes f.sandbox) n f.ret
  | _ => True

instance (w : World) : DecidablePred (FallibleContract w)
  | .guest (.callSlot _ _ _) =>
    inferInstanceAs (Decidable (∀ f ∈ w.running, ¬ f.call.Allocates))
  | .host (.freeInSandbox S p) =>
    inferInstanceAs (Decidable (∀ b ∈ (w.sandboxes S).held, b.addr ≠ p))
  | .tick =>
    inferInstanceAs (Decidable (∀ f ∈ w.running, ∀ n ∈ f.request,
      f.ret ≠ 0 → Grants (w.sandboxes f.sandbox) n f.ret))
  | .host (.invoke ..) | .host (.mallocInSandbox ..) | .host (.table ..) | .host (.ret _)
  | .host .throw | .guest (.store ..) | .guest (.growTable ..) | .guest (.ret _)
  | .serializeArg _ | .unwind | .catch => .isTrue trivial

/-- A call of malloc that has returned, with the invocation it was made by. -/
def World.allocated (w : World) : Option (InvokeFrame × InvokeFrame) :=
  match w.stack with
  | .invoke f :: .invoke g :: _ => if f.request.isSome then some (f, g) else none
  | _ => none

/-- The size of the slot that is to be requested next. -/
def InvokeFrame.newSlot (f : InvokeFrame) : Option ClassSize :=
  match f.pc with
  | .mallocSlot n => some n
  | _ => none

/-- A null result is refused before it does harm: there was no slot before, or address 0 is
    not accepted for the copy. -/
def World.Withstands (w : World) (g : InvokeFrame) : Prop :=
  match g.pc with
  | .setSlot _ => (w.sandboxes g.sandbox).returnSlotSize = 0
  | .setArg _ => w.dataPointerOk g.sandbox 0 = false
  | _ => True

instance (w : World) (g : InvokeFrame) : Decidable (w.Withstands g) := by
  unfold World.Withstands
  split <;> infer_instance

/-- malloc gives null only where that is withstood, and a size it does not take is asked for
    only where there is no slot. -/
def FailsHarmlessly (w : World) : Input → Prop
  | .tick => (∀ x ∈ w.allocated, x.1.ret = 0 → w.Withstands x.2) ∧
      ∀ f ∈ w.running, ∀ n ∈ f.newSlot,
        2 ^ 32 ≤ n.1 → (w.sandboxes f.sandbox).returnSlotSize = 0
  | _ => True

instance (w : World) : DecidablePred (FailsHarmlessly w)
  | .tick => inferInstanceAs (Decidable ((∀ x ∈ w.allocated, _) ∧ ∀ f ∈ w.running, _))
  | .host _ | .guest _ | .serializeArg _ | .unwind | .catch => .isTrue trivial

/-! ## Live blocks -/

/-- The address is that of a block granted and not freed since. -/
def Sandbox.Live (s : Sandbox) (a : Nat) : Prop := a ≠ 0 ∧ ∃ b ∈ s.held, b.addr = a

/-- The slot of argument `x.1` is a block granted for the bytes of the argument. -/
def InGranted (s : Sandbox) (c : Call) (x : Nat × Nat) : Prop :=
  ∃ (bytes : ClassBytes) (lvalue : Bool), c.params[x.1]? = some ⟨.cls bytes, lvalue⟩ ∧
    (⟨x.2, bytes.1.length⟩ : Block) ∈ s.held

/-- `ensure_return_slot_size` is getting a new slot. -/
def World.Ensuring (w : World) (S : SandboxId) : Prop :=
  w.raising = none ∧ ∃ f ∈ framesOn S w.stack, f.Limbo

/-- The addresses that the invocation on top is about to pass to its guest function or to
    free. -/
inductive Handles (s : Sandbox) (f : InvokeFrame) : Nat → Prop where
  | passSlot {n : ClassSize} (hpc : f.pc = .recurse n) : Handles s f s.returnSlot
  | passArg {x : Nat × Nat} (hpc : f.pc = .serialize) (hpending : f.pending = [])
    (hx : x ∈ f.slots) : Handles s f x.2
  | freeSlot {n : ClassSize} (hpc : f.pc = .start) (hret : f.call.retClass = some n)
    (hsize : s.returnSlotSize < n.1) (hpos : s.returnSlotSize ≠ 0) : Handles s f s.returnSlot
  | freeArg {i : Nat} (hpc : f.pc = .freeArgs i) (hi : i < f.call.allocLength) :
    Handles s f (((f.slots.map Prod.snd)[i]?).getD 0)

/-- The host writes to, passes and frees live blocks only. A return slot there is has its
    size, and is passed where it is large enough; a copy is written, and entered in `slots`,
    at what malloc granted for it. -/
structure ScratchLive (w : World) : Prop where
  slot : ∀ S, ¬ w.Ensuring S → (w.sandboxes S).returnSlotSize ≠ 0 →
    (w.sandboxes S).returnSlot ≠ 0 ∧ (w.sandboxes S).slotBlock ∈ (w.sandboxes S).held
  fits : ∀ f, .invoke f ∈ w.stack → ∀ n, f.pc = .recurse n →
    n.1 ≤ (w.sandboxes f.sandbox).returnSlotSize
  copies : ∀ f, .invoke f ∈ w.stack → f.Serializing → ∀ x ∈ f.slots,
    x.2 ≠ 0 ∧ InGranted (w.sandboxes f.sandbox) f.call x
  handled : ∀ f rest a, w.raising = none → w.stack = .invoke f :: rest →
    Handles (w.sandboxes f.sandbox) f a → (w.sandboxes f.sandbox).Live a

/-! ## The steps of one sandbox -/

/-- A size that malloc does not take is asked for only where there is no slot. -/
def Local.AsksInRange (L : Local) : Prop :=
  L.raising = false → ∀ f ∈ L.frames.head?, ∀ n, f.pc = .mallocSlot n → 2 ^ 32 ≤ n.1 →
    L.box.returnSlotSize = 0

/-- The steps of sandbox `S` where malloc may fail and guest code may store anywhere. -/
inductive FallibleStep (S : SandboxId) : Local → Local → Prop where
  | granted {L L' : Local} (hasks : L.AsksInRange) (h : LocalStep (fun _ _ => True) S L L') :
    FallibleStep S L L'
  | store {s : Sandbox} {f : InvokeFrame} {fs : List InvokeFrame} {a : Nat} {bytes : List UInt8}
    (hpc : f.pc = .body) :
    FallibleStep S ⟨s, f :: fs, false⟩
      ⟨{ s with memory := s.memory.write a bytes }, f.note a bytes :: fs, false⟩
  | slotFailed {s : Sandbox} {f g : InvokeFrame} {fs : List InvokeFrame}
    (hzero : s.returnSlotSize = 0) :
    FallibleStep S ⟨s, f :: g :: fs, false⟩ ⟨{ s with returnSlot := 0 }, g :: fs, true⟩
  | argRefused {s : Sandbox} {f g : InvokeFrame} {fs : List InvokeFrame} {i k : Nat}
    {bytes : ClassBytes} {lvalue : Bool} (hfree : f.pc = .freeArgs i) (hpc : g.pc = .setArg k)
    (hk : g.call.params[k]? = some ⟨.cls bytes, lvalue⟩) :
    FallibleStep S ⟨s, f :: g :: fs, false⟩ ⟨s, g :: fs, true⟩

/-! ## What holds of a sandbox -/

/-- The invocation has a slot for each class argument evaluated. -/
def InvokeFrame.Filled (f : InvokeFrame) : Prop :=
  match f.pc with
  | .start | .serialize => f.slots.length + f.pending.length = f.call.classParams.length
  | .setArg _ => f.slots.length + f.pending.length + 1 = f.call.classParams.length
  | .body | .freeArgs _ => f.slots.length = f.call.classParams.length
  | .mallocSlot _ | .setSlot _ | .recurse _ | .copyOut _ => True

/-- Until the guest function is called, the slots are blocks granted. -/
def CopiesHeld (s : Sandbox) (f : InvokeFrame) : Prop :=
  f.Serializing → ∀ x ∈ f.slots, InGranted s f.call x

structure Scratch (L : Local) : Prop where
  filled : ∀ f ∈ L.frames, f.Filled
  owned : Owned L
  nonnull : ∀ b ∈ L.box.held, b.addr ≠ 0
  copied : ∀ f ∈ L.frames, CopiesHeld L.box f
  settled : L.raising = true → L.box.returnSlotSize ≠ 0 → ∀ f ∈ L.frames, ¬ f.Limbo
  fits : ∀ f ∈ L.frames, ∀ n, f.pc = .recurse n → n.1 ≤ L.box.returnSlotSize

section scratch
variable {P : List InvokeFrame → ClassSize → Prop} {S : SandboxId} {L L' : Local}
  {s s' : Sandbox} {f g : InvokeFrame} {fs : List InvokeFrame}

theorem newFrame_filled {call : Call} {old : Option SandboxId} {retBlock : Option Block}
    {memory : MinWasi.Memory} : (newFrame S call old retBlock memory).Filled :=
  Nat.zero_add _

/-- Only slots entered are freed. -/
theorem InvokeFrame.Filled.allocLength_le (h : f.Filled) {i : Nat} (hpc : f.pc = .freeArgs i) :
    f.call.allocLength ≤ f.slots.length := by
  unfold InvokeFrame.Filled at h
  rw [hpc] at h
  exact h ▸ f.call.allocLength_le

theorem filled_argEvaluated (h : f.Filled) {k : Nat} (hpc : f.pc = .serialize)
    (hpending : k ∈ f.pending) :
    InvokeFrame.Filled { f with pc := .setArg k, pending := f.pending.erase k } := by
  have hpos := List.length_pos_of_mem hpending
  unfold InvokeFrame.Filled at h ⊢
  rw [hpc] at h
  dsimp only at h ⊢
  rw [List.length_erase_of_mem hpending]
  omega

theorem step_filled (h : ∀ f ∈ L.frames, f.Filled) (hs : LocalStep P S L L') :
    ∀ f ∈ L'.frames, f.Filled := by
  -- pending, at its malloc or stored: an argument only passes on in the invocation on top
  cases hs with
  | same | table | raise | caught | copyOutBad => exact h
  | unwind | exited => exact (List.forall_mem_cons.mp h).2
  | invoke => exact List.forall_mem_cons.mpr ⟨newFrame_filled, h⟩
  | store hpc =>
    obtain ⟨hf, hfs⟩ := List.forall_mem_cons.mp h
    exact List.forall_mem_cons.mpr ⟨hf, hfs⟩
  | ret hpc | plainReturn hpc =>
    obtain ⟨hf, hfs⟩ := List.forall_mem_cons.mp h
    refine List.forall_mem_cons.mpr ⟨?_, hfs⟩
    unfold InvokeFrame.Filled at hf ⊢
    rw [hpc] at hf
    exact hf
  | enterBody hpc hpending =>
    obtain ⟨hf, hfs⟩ := List.forall_mem_cons.mp h
    refine List.forall_mem_cons.mpr ⟨?_, hfs⟩
    unfold InvokeFrame.Filled at hf ⊢
    rw [hpc, hpending] at hf
    exact hf
  | noSlot | slotFits | slotTooBig =>
    exact List.forall_mem_cons.mpr ⟨trivial, (List.forall_mem_cons.mp h).2⟩
  | freeSlot | mallocSlot | recurse =>
    exact List.forall_mem_cons.mpr ⟨newFrame_filled,
      List.forall_mem_cons.mpr ⟨trivial, (List.forall_mem_cons.mp h).2⟩⟩
  | slotGranted =>
    obtain ⟨-, hfs⟩ := List.forall_mem_cons.mp (List.forall_mem_cons.mp h).2
    exact List.forall_mem_cons.mpr ⟨trivial, hfs⟩
  | recorded hfree hpc =>
    obtain ⟨-, hfs⟩ := List.forall_mem_cons.mp (List.forall_mem_cons.mp h).2
    refine List.forall_mem_cons.mpr ⟨?_, hfs⟩
    unfold InvokeFrame.Filled
    rw [hpc]
    trivial
  | serializeArg hpc hpending =>
    obtain ⟨hf, hfs⟩ := List.forall_mem_cons.mp h
    exact List.forall_mem_cons.mpr ⟨newFrame_filled,
      List.forall_mem_cons.mpr ⟨filled_argEvaluated hf hpc hpending, hfs⟩⟩
  | argTooBig hpc hpending =>
    obtain ⟨hf, hfs⟩ := List.forall_mem_cons.mp h
    exact List.forall_mem_cons.mpr ⟨filled_argEvaluated hf hpc hpending, hfs⟩
  | argStored hfree hpc =>
    obtain ⟨hg, hfs⟩ := List.forall_mem_cons.mp (List.forall_mem_cons.mp h).2
    refine List.forall_mem_cons.mpr ⟨?_, hfs⟩
    unfold InvokeFrame.Filled at hg ⊢
    rw [hpc] at hg
    dsimp only at hg ⊢
    rw [List.length_append, List.length_singleton]
    omega
  | argBad => exact (List.forall_mem_cons.mp h).2
  | freeArg hpc =>
    obtain ⟨hf, hfs⟩ := List.forall_mem_cons.mp h
    refine List.forall_mem_cons.mpr ⟨newFrame_filled, List.forall_mem_cons.mpr ⟨?_, hfs⟩⟩
    unfold InvokeFrame.Filled at hf ⊢
    rw [hpc] at hf
    exact hf

/-! ### Blocks granted -/

theorem grant_nonnull (h : ∀ b ∈ s.held, b.addr ≠ 0) (c : Block) :
    ∀ b ∈ (s.grant c).held, b.addr ≠ 0 := by
  unfold Sandbox.grant
  split
  · exact h
  · next hc => exact List.forall_mem_cons.mpr ⟨hc, h⟩

theorem step_nonnull (h : ∀ b ∈ L.box.held, b.addr ≠ 0) (hs : LocalStep P S L L') :
    ∀ b ∈ L'.box.held, b.addr ≠ 0 := by
  cases hs with
  | freeSlot | freeArg => exact fun b hb => h b (mem_freed.mp hb).1
  | slotGranted | argStored | argBad => exact grant_nonnull h _
  | _ => exact h

theorem InGranted.grant {c : Call} {x : Nat × Nat} (h : InGranted s c x) (b : Block) :
    InGranted (s.grant b) c x := by
  obtain ⟨bytes, lvalue, hk, hheld⟩ := h
  refine ⟨bytes, lvalue, hk, ?_⟩
  unfold Sandbox.grant
  split
  · exact hheld
  · exact List.mem_cons_of_mem _ hheld

theorem newFrame_copiesHeld {call : Call} {old : Option SandboxId} {retBlock : Option Block}
    {memory : MinWasi.Memory} : CopiesHeld s (newFrame S call old retBlock memory) :=
  fun _ _ hx => (List.not_mem_nil hx).elim

theorem copiesHeld_of_called {pc : Pc} (h : f.pc = pc)
    (hpc : pc ≠ .start ∧ pc ≠ .serialize ∧ ∀ k, pc ≠ .setArg k) : CopiesHeld s f :=
  fun hserializing => absurd hserializing (InvokeFrame.not_serializing h hpc)

theorem CopiesHeld.grant (h : CopiesHeld s f) (b : Block) : CopiesHeld (s.grant b) f :=
  fun hserializing x hx => (h hserializing x hx).grant b

/-- Below an invocation that is not malloc or free every guest function was called. -/
theorem copiesHeld_below (hchain : Chain (f :: fs)) (hother : ¬ f.call.Allocates) :
    ∀ g ∈ fs, CopiesHeld s g := by
  intro g hg
  rcases hchain.below hother g hg with hpc | ⟨n, hpc⟩
  · exact copiesHeld_of_called hpc (by simp)
  · exact copiesHeld_of_called hpc (by simp)

/-- The copy just written is in the block just granted. -/
theorem copiesHeld_argStored {k v : Nat} {bytes : ClassBytes} {lvalue : Bool}
    (hpc : f.pc = .setArg k) (hk : f.call.params[k]? = some ⟨.cls bytes, lvalue⟩)
    (hgrants : Grants s bytes.1.length v) (h : CopiesHeld s f) :
    CopiesHeld { s.grant ⟨v, bytes.1.length⟩ with memory := s.memory.write v bytes.1 }
      { f with pc := .serialize, slots := f.slots ++ [(k, v)] } := by
  intro _ x hx
  rcases List.mem_append.mp hx with hx | hx
  · exact (h (.inr (.inr ⟨k, hpc⟩)) x hx).grant _
  · have hheld : (s.grant ⟨v, bytes.1.length⟩).held = ⟨v, bytes.1.length⟩ :: s.held :=
      if_neg hgrants.1
    rw [List.mem_singleton.mp hx]
    refine ⟨bytes, lvalue, hk, ?_⟩
    change _ ∈ (s.grant ⟨v, bytes.1.length⟩).held
    rw [hheld]
    exact List.mem_cons_self ..

theorem step_copied (hchain : Chain L.frames) (h : ∀ f ∈ L.frames, CopiesHeld L.box f)
    (hs : LocalStep P S L L') : ∀ f ∈ L'.frames, CopiesHeld L'.box f := by
  cases hs with
  | same | table | raise | caught | copyOutBad => exact h
  | unwind | exited => exact (List.forall_mem_cons.mp h).2
  | invoke => exact List.forall_mem_cons.mpr ⟨newFrame_copiesHeld, h⟩
  | store hpc =>
    exact List.forall_mem_cons.mpr
      ⟨copiesHeld_of_called hpc (by simp), (List.forall_mem_cons.mp h).2⟩
  | plainReturn hpc =>
    obtain ⟨hf, hfs⟩ := List.forall_mem_cons.mp h
    exact List.forall_mem_cons.mpr ⟨fun _ => hf (.inl hpc), hfs⟩
  | ret | noSlot | slotFits | slotTooBig | enterBody =>
    exact List.forall_mem_cons.mpr
      ⟨copiesHeld_of_called rfl (by simp), (List.forall_mem_cons.mp h).2⟩
  | mallocSlot | recurse =>
    exact List.forall_mem_cons.mpr ⟨newFrame_copiesHeld, List.forall_mem_cons.mpr
      ⟨copiesHeld_of_called rfl (by simp), (List.forall_mem_cons.mp h).2⟩⟩
  -- those below are in their guest code, so the copies they were to pass are passed
  | freeSlot hpc hret =>
    exact List.forall_mem_cons.mpr ⟨newFrame_copiesHeld, List.forall_mem_cons.mpr
      ⟨copiesHeld_of_called rfl (by simp),
        copiesHeld_below hchain (hchain.1.shaped.not_allocates hret)⟩⟩
  | freeArg hpc hi =>
    have hother := not_allocates_of_allocLength hchain.1 (Nat.zero_lt_of_lt hi)
    exact List.forall_mem_cons.mpr ⟨newFrame_copiesHeld, List.forall_mem_cons.mpr
      ⟨copiesHeld_of_called rfl (by simp), copiesHeld_below hchain hother⟩⟩
  | serializeArg hpc =>
    obtain ⟨hf, hfs⟩ := List.forall_mem_cons.mp h
    exact List.forall_mem_cons.mpr ⟨newFrame_copiesHeld,
      List.forall_mem_cons.mpr ⟨fun _ => hf (.inr (.inl hpc)), hfs⟩⟩
  | argTooBig hpc =>
    obtain ⟨hf, hfs⟩ := List.forall_mem_cons.mp h
    exact List.forall_mem_cons.mpr ⟨fun _ => hf (.inr (.inl hpc)), hfs⟩
  | slotGranted =>
    obtain ⟨-, hfs⟩ := List.forall_mem_cons.mp (List.forall_mem_cons.mp h).2
    exact List.forall_mem_cons.mpr
      ⟨copiesHeld_of_called rfl (by simp), fun k hk => (hfs k hk).grant _⟩
  | recorded hfree hpc =>
    obtain ⟨-, hfs⟩ := List.forall_mem_cons.mp (List.forall_mem_cons.mp h).2
    exact List.forall_mem_cons.mpr ⟨copiesHeld_of_called hpc (by simp), hfs⟩
  | argStored hfree hpc hk hgrants =>
    obtain ⟨hg, hfs⟩ := List.forall_mem_cons.mp (List.forall_mem_cons.mp h).2
    exact List.forall_mem_cons.mpr
      ⟨copiesHeld_argStored hpc hk hgrants hg, fun k hk => (hfs k hk).grant _⟩
  | argBad => exact fun k hk => ((List.forall_mem_cons.mp h).2 k hk).grant _

/-! ### The slot and exceptions -/

/-- An exception that finds a sandbox with a slot finds nothing in limbo. -/
theorem step_settled (hchain : Chain L.frames) (hasks : L.AsksInRange)
    (h : L.raising = true → L.box.returnSlotSize ≠ 0 → ∀ f ∈ L.frames, ¬ f.Limbo)
    (hs : LocalStep P S L L') :
    L'.raising = true → L'.box.returnSlotSize ≠ 0 → ∀ f ∈ L'.frames, ¬ f.Limbo := by
  cases hs with
  | same | table => exact h
  | raise hruns => exact fun _ _ => topRuns_not_limbo hchain hruns
  | unwind => exact fun _ hpos => (List.forall_mem_cons.mp (h rfl hpos)).2
  -- the exception between the free of the old slot and the recording of the new one
  | slotTooBig hpc hsize =>
    exact fun _ hpos => absurd (hasks rfl _ rfl _ hpc hsize) hpos
  | copyOutBad hpc =>
    have hfits := hchain.1.fits
    rw [hpc] at hfits
    exact fun _ _ => List.forall_mem_cons.mpr ⟨InvokeFrame.not_limbo hpc (by simp),
      not_limbo_below hchain (hchain.1.shaped.not_allocates hfits)⟩
  | argTooBig hpc hpending hk =>
    exact fun _ _ => List.forall_mem_cons.mpr ⟨InvokeFrame.not_limbo rfl (by simp),
      not_limbo_below hchain (hchain.1.shaped.not_allocates_of_class hk)⟩
  | argBad hfree hpc hk =>
    exact fun _ _ => List.forall_mem_cons.mpr ⟨InvokeFrame.not_limbo hpc (by simp),
      not_limbo_below hchain.2.2 (hchain.2.2.1.shaped.not_allocates_of_class hk)⟩
  | _ => nofun

/-- The slot is large enough for the class it is about to be passed for. -/
theorem step_fits (hchain : Chain L.frames)
    (h : ∀ f ∈ L.frames, ∀ n, f.pc = .recurse n → n.1 ≤ L.box.returnSlotSize)
    (hs : LocalStep P S L L') :
    ∀ f ∈ L'.frames, ∀ n, f.pc = .recurse n → n.1 ≤ L'.box.returnSlotSize := by
  cases hs with
  | same | table | raise | caught | copyOutBad => exact h
  | unwind | exited => exact (List.forall_mem_cons.mp h).2
  | invoke => exact List.forall_mem_cons.mpr ⟨nofun, h⟩
  | store hpc =>
    refine List.forall_mem_cons.mpr ⟨fun n hn => ?_, (List.forall_mem_cons.mp h).2⟩
    cases hpc.symm.trans hn
  | ret | plainReturn | noSlot | slotTooBig | argTooBig | enterBody =>
    exact List.forall_mem_cons.mpr ⟨nofun, (List.forall_mem_cons.mp h).2⟩
  | slotFits hpc hret hsize =>
    refine List.forall_mem_cons.mpr ⟨fun n hn => ?_, (List.forall_mem_cons.mp h).2⟩
    cases hn
    exact hsize
  | mallocSlot | serializeArg | recurse | freeSlot | freeArg =>
    exact List.forall_mem_cons.mpr ⟨nofun,
      List.forall_mem_cons.mpr ⟨nofun, (List.forall_mem_cons.mp h).2⟩⟩
  -- the size grows to what was asked for; nobody below is about to pass the old slot
  | slotGranted hfree hpc =>
    have hfits := hchain.2.2.1.fits
    rw [hpc] at hfits
    refine List.forall_mem_cons.mpr ⟨fun n hn => ?_, fun k hk n hn => ?_⟩
    · cases hn
      exact Nat.le_refl _
    · rcases hchain.2.2.below (hchain.2.2.1.shaped.not_allocates hfits) k hk with hpc' | ⟨m, hpc'⟩
        <;> cases hpc'.symm.trans hn
  | recorded hfree hpc =>
    obtain ⟨-, hfs⟩ := List.forall_mem_cons.mp (List.forall_mem_cons.mp h).2
    refine List.forall_mem_cons.mpr ⟨fun n hn => ?_, hfs⟩
    cases hpc.symm.trans hn
  | argStored =>
    obtain ⟨-, hfs⟩ := List.forall_mem_cons.mp (List.forall_mem_cons.mp h).2
    exact List.forall_mem_cons.mpr ⟨nofun, hfs⟩
  | argBad => exact (List.forall_mem_cons.mp h).2

theorem created_scratch {s : Sandbox} (hsize : s.returnSlotSize = 0) (hheld : s.held = []) :
    Scratch ⟨s, [], false⟩ := by
  refine ⟨List.forall_mem_nil _, ⟨?_, fun _ hpos => absurd hsize hpos⟩, ?_, List.forall_mem_nil _,
    nofun, List.forall_mem_nil _⟩ <;> dsimp only <;> rw [hheld]
  · exact .empty
  · exact List.forall_mem_nil _

/-- Every step keeps the host to live blocks. -/
theorem step_scratch (hchain : Chain L.frames) (h : Scratch L) (hs : FallibleStep S L L') :
    Scratch L' := by
  cases hs with
  | granted hasks hs =>
    exact ⟨step_filled h.filled hs,
      step_owned hchain (fun f hf _ => (h.filled f hf).allocLength_le) h.settled h.owned hs,
      step_nonnull h.nonnull hs, step_copied hchain h.copied hs,
      step_settled hchain hasks h.settled hs, step_fits hchain h.fits hs⟩
  | store hpc =>
    obtain ⟨hf, hfs⟩ := List.forall_mem_cons.mp h.filled
    refine ⟨List.forall_mem_cons.mpr ⟨hf, hfs⟩, h.owned.setTop rfl rfl (.refl _) id, h.nonnull,
      List.forall_mem_cons.mpr ⟨copiesHeld_of_called hpc (by simp), ?_⟩, nofun,
      List.forall_mem_cons.mpr (List.forall_mem_cons.mp h.fits)⟩
    exact (List.forall_mem_cons.mp h.copied).2
  -- there was no slot before, so none is lost
  | slotFailed hzero =>
    exact ⟨(List.forall_mem_cons.mp h.filled).2,
      ⟨h.owned.temps.sublist (temps_suffix ..), fun _ hpos => absurd hzero hpos⟩, h.nonnull,
      (List.forall_mem_cons.mp h.copied).2, fun _ hpos => absurd hzero hpos,
      (List.forall_mem_cons.mp h.fits).2⟩
  | argRefused hfree hpc hk =>
    have hpop := h.owned.pop (InvokeFrame.not_limbo hfree (by simp))
    exact ⟨(List.forall_mem_cons.mp h.filled).2, ⟨hpop.temps, hpop.slot⟩, h.nonnull,
      (List.forall_mem_cons.mp h.copied).2,
      fun _ _ => List.forall_mem_cons.mpr ⟨InvokeFrame.not_limbo hpc (by simp),
        not_limbo_below hchain.2.2 (hchain.2.2.1.shaped.not_allocates_of_class hk)⟩,
      (List.forall_mem_cons.mp h.fits).2⟩

end scratch

/-! ## Steps of the machine -/

section machine
variable {grow : GrowFuncrefTable} {S : SandboxId} {w w' : World} {i : Input}
  {f g : InvokeFrame} {rest : List Frame}

theorem FallibleStep.to {L : Local} {s : Sandbox} {fs : List InvokeFrame} {r : Bool}
    (h : FallibleStep S L ⟨s, fs, r⟩) (hbox : w'.sandboxes S = s)
    (hframes : framesOn S w'.stack = fs) (hraising : w'.raising.isSome = r) :
    FallibleStep S L (w'.seenBy S) := by
  rwa [seenBy_parts hbox hframes hraising]

/-- An invocation that is to ask for a slot does nothing else. -/
theorem tick_of_mallocSlot {n : ClassSize} (hraising : w.raising = none)
    (hstack : w.stack = .invoke f :: rest) (hpc : f.pc = .mallocSlot n)
    (hs : step grow i w = some w') : i = .tick := by
  unfold step at hs
  rw [hraising, hstack] at hs
  cases i with
  | tick => rfl
  | guest a =>
    dsimp only at hs
    rw [hpc, if_neg nofun] at hs
    cases hs
  | serializeArg k => cases hpc.symm.trans (serializeArg_cases hs).1
  | _ => cases hs

theorem asksInRange_of_step (hnested : Nested w.stack) (hfails : FailsHarmlessly w i)
    (hs : step grow i w = some w') : (w.seenBy S).AsksInRange := by
  intro hquiet f hf n hpc hbig
  have hraising : w.raising = none := Option.not_isSome_iff_eq_none.mp (Bool.eq_false_iff.mp hquiet)
  change f ∈ (framesOn S w.stack).head? at hf
  -- what waits for a callback, or runs, asks for nothing
  have hnone : ¬ TopRuns (framesOn S w.stack) := fun hruns => by
    cases hpc.symm.trans (hruns f hf).1
  cases hstack : w.stack with
  | nil => rw [hstack] at hf; cases hf
  | cons fr rest =>
    cases fr with
    | callback c =>
      refine absurd (topRuns_of_nested hnested fun g rest' heq => ?_) hnone
      cases hstack.symm.trans heq
    | invoke g =>
      by_cases hg : g.sandbox = S
      · rw [hstack, framesOn_self hg] at hf
        cases hf
        cases tick_of_mallocSlot hraising hstack hpc hs
        subst hg
        refine hfails.2 f (by rw [World.running, hstack]; rfl) n ?_ hbig
        unfold InvokeFrame.newSlot
        rw [hpc]
        rfl
      · exact absurd (topRuns_other hstack hnested hg) hnone

/-- Nothing is held at address 0. -/
theorem onSandbox_grant_null (w : World) (S : SandboxId) (n : Nat) :
    (w.onSandbox S fun s => s.grant ⟨0, n⟩) = w := by
  have hgrant : (w.sandboxes S).grant ⟨0, n⟩ = w.sandboxes S := by
    unfold Sandbox.grant
    rw [if_pos rfl]
  unfold World.onSandbox
  dsimp only
  rw [hgrant, Function.update_eq_self]

/-- What a null result of malloc does to the invocation that asked. -/
theorem resume_null (hstack : w.stack = .invoke g :: rest)
    (hnested : Nested (.invoke f :: .invoke g :: rest)) {j : Nat} (hfree : f.pc = .freeArgs j)
    (hfunc : f.call.func = .malloc) (hwithstands : w.Withstands g) :
    FallibleStep g.sandbox ⟨w.sandboxes g.sandbox, f :: framesOn g.sandbox w.stack, false⟩
      ((resume w g rest f 0).seenBy g.sandbox) := by
  obtain ⟨-, ⟨-, hinvoked⟩, hrest⟩ := hnested
  rw [hstack, framesOn_self rfl]
  unfold World.Withstands at hwithstands
  unfold resume
  cases hinvoked with
  | freeSlot _ hcall | freeArg _ hcall =>
    rw [hcall] at hfunc
    cases hfunc
  | recurse hpc hcall =>
    -- a call that gives a class is not one of malloc
    have hfits := hrest.1.fits
    rw [hpc] at hfits
    rw [hcall] at hfunc
    exact absurd (.inl hfunc) (hrest.1.shaped.not_allocates hfits)
  | mallocSlot hpc =>
    rw [hpc] at hwithstands ⊢
    dsimp only
    rw [if_pos rfl]
    refine FallibleStep.to (.slotFailed hwithstands) ?_ ?_ rfl
    · rw [World.raise_sandboxes, World.onSandbox_self]
    · change framesOn g.sandbox w.stack = _
      rw [hstack, framesOn_self rfl]
  | mallocArg hpc hk =>
    rw [hpc] at hwithstands ⊢
    dsimp only
    rw [hk]
    dsimp only
    rw [onSandbox_grant_null, hwithstands, if_neg Bool.false_ne_true]
    refine FallibleStep.to (.argRefused hfree hpc hk) rfl ?_ rfl
    change framesOn g.sandbox w.stack = _
    rw [hstack, framesOn_self rfl]

theorem mem_request {n : Nat} (h : n ∈ f.request) :
    (∃ i, f.pc = .freeArgs i) ∧ f.call.func = .malloc ∧ f.call.allocLength = 0 := by
  unfold InvokeFrame.request at h
  split at h
  · next i c m lvalue hpc hcall =>
    refine ⟨⟨i, hpc⟩, ?_, ?_⟩ <;> rw [hcall]
    rfl
  · cases h

/-- malloc returns null. -/
theorem tick_null (hstack : w.stack = .invoke f :: rest) (hnested : Nested w.stack)
    (hraising : w.raising = none) (hasks : (w.seenBy S).AsksInRange)
    (hfails : FailsHarmlessly w .tick) {n : Nat} (hn : n ∈ f.request) (hret : f.ret = 0)
    (hs : tickInvoke w f rest = some w') : FallibleStep S (w.seenBy S) (w'.seenBy S) := by
  obtain ⟨⟨i, hpc⟩, hfunc, hlength⟩ := mem_request hn
  unfold tickInvoke at hs
  rw [hpc] at hs
  dsimp only at hs
  rw [hlength, if_neg (Nat.not_lt_zero i)] at hs
  cases hs
  have hn' : Nested (.invoke f :: rest) := hstack ▸ hnested
  by_cases hf : f.sandbox = S
  case neg =>
    exact .granted hasks (LocalStep.elsewhere
      ((Untouched.refl w).exitInvoke hstack hn'.2.1 hf f.ret) (topRuns_other hstack hnested hf)
      hraising)
  subst hf
  cases rest with
  | nil =>
    exact .granted hasks (leaveFrame_local hstack hnested hostRuns_nil rfl hraising (.inr ⟨i, hpc⟩))
  | cons fr rest =>
    cases fr with
    | callback c =>
      exact .granted hasks (leaveFrame_local hstack hnested (hostRuns_callback c rest) rfl hraising
        (.inr ⟨i, hpc⟩))
    | invoke g =>
      -- malloc returns to the invocation that asked, in the same sandbox
      have hg : g.sandbox = f.sandbox := hn'.2.1.1
      have hwithstands : w.Withstands g := by
        refine hfails.1 (f, g) ?_ hret
        unfold World.allocated
        rw [hstack]
        exact if_pos (Option.isSome_of_mem hn)
      rw [seenBy_invoke hstack rfl hraising, hret, ← hg]
      exact resume_null (w := leaveFrame w (.invoke f) (.invoke g :: rest)) rfl hn' hpc hfunc
        hwithstands

/-- Where the guest breaks its contract it stores anywhere, or malloc returns null. -/
theorem breaks_cases (hcontract : FallibleContract w i) (h : ¬ GuestContract w i) :
    (∃ a v, i = .guest (.store a v)) ∨ (∃ bytes, i = .host (.ret bytes)) ∨
      i = .tick ∧ ∃ f ∈ w.running, ∃ n ∈ f.request, f.ret = 0 := by
  unfold GuestContract at h
  split at h
  · exact .inl ⟨_, _, rfl⟩
  · exact absurd hcontract h
  · exact .inr (.inl ⟨_, rfl⟩)
  · refine .inr (.inr ⟨rfl, ?_⟩)
    by_contra hnull
    exact h fun f hf n hn => hcontract f hf n hn fun hret => hnull ⟨f, hf, n, hn, hret⟩
  · exact absurd trivial h

theorem step_store {a : Nat} {v : UInt8} (hs : step grow (.guest (.store a v)) w = some w') :
    w.raising = none ∧ ∃ f rest, w.stack = .invoke f :: rest ∧ f.pc = .body ∧
      w' = storeFor w f.sandbox f rest a [v] := by
  unfold step at hs
  split at hs
  case h_3 hraising hstack heq =>
    cases heq
    split at hs
    · next hpc =>
      unfold guestStep at hs
      dsimp only at hs
      split at hs
      · cases hs
        exact ⟨hraising, _, _, hstack, hpc, rfl⟩
      · cases hs
    · cases hs
  all_goals contradiction

theorem step_ret {bytes : List UInt8} (hs : step grow (.host (.ret bytes)) w = some w') :
    w.raising = none ∧ ∃ c rest, w.stack = .callback c :: rest ∧
      leaveInterceptor w c rest bytes = some w' := by
  unfold step at hs
  split at hs
  case h_1 hstack heq =>
    cases heq
    unfold hostStep at hs
    rw [hstack] at hs
    cases hs
  case h_2 hraising hstack heq =>
    cases heq
    unfold hostStep at hs
    rw [hstack] at hs
    exact ⟨hraising, _, _, hstack, hs⟩
  all_goals contradiction

theorem step_tick (hs : step grow .tick w = some w') :
    w.raising = none ∧ ∃ f rest, w.stack = .invoke f :: rest ∧ tickInvoke w f rest = some w' := by
  unfold step at hs
  split at hs
  case h_5 hraising hstack _ => exact ⟨hraising, _, _, hstack, hs⟩
  all_goals contradiction

/-- Every step of the machine is one of these on each sandbox. -/
theorem step_fallible {outer : Option SandboxId} (hnested : Nested w.stack)
    (hsound : SavedContext.Sound outer w.view) (hcontract : FallibleContract w i)
    (hfails : FailsHarmlessly w i) (hs : step grow i w = some w') :
    FallibleStep S (w.seenBy S) (w'.seenBy S) := by
  have hasks : (w.seenBy S).AsksInRange := asksInRange_of_step hnested hfails hs
  by_cases hguest : GuestContract w i
  · exact .granted hasks
      (step_local grow hnested hsound hguest (fun _ _ _ _ _ => trivial) hs)
  rcases breaks_cases hcontract hguest with ⟨a, v, rfl⟩ | ⟨bytes, rfl⟩ | ⟨rfl, f, hf, n, hn, hret⟩
  · obtain ⟨hraising, f, rest, hstack, hpc, rfl⟩ := step_store hs
    exact storeFor_seen (fun _ => .granted hasks) hstack hnested hraising (.store hpc)
  · obtain ⟨hraising, c, rest, hstack, hleave⟩ := step_ret hs
    obtain ⟨⟨f, rest', rfl, -⟩, -⟩ := (hstack ▸ hnested : Nested (.callback c :: rest))
    exact leaveInterceptor_seen (fun _ => .granted hasks) hstack hnested
      (context_calledBack hsound hstack) hraising (fun _ hpc => .store hpc) hleave
  · obtain ⟨hraising, g, rest, hstack, htick⟩ := step_tick hs
    rw [World.running, hstack] at hf
    cases hf
    exact tick_null hstack hnested hraising hasks hfails hn hret htick

end machine

/-! ## Runs -/

theorem FallibleContract.calls {w : World} {i : Input} (h : FallibleContract w i) :
    AllocatorsCallNothing w i := by
  unfold AllocatorsCallNothing
  split
  · exact h
  · trivial

section runs
variable {grow : GrowFuncrefTable} {is : List Input} {w : World} {f : InvokeFrame}

theorem reached_scratch (h : WorldReached grow
      (fun w i => FallibleContract w i ∧ FailsHarmlessly w i) is w) :
    Nested w.stack ∧ ∀ S, Scratch (w.seenBy S) := by
  refine h.sandbox_invariant (fun _ _ hC => hC.1.calls) (fun _ => created_scratch) ?_
  rintro w i w' outer S hnested hsound ⟨hcontract, hfails⟩ hs hscratch
  exact step_scratch (chain_of_nested hnested S) hscratch
    (step_fallible hnested hsound hcontract hfails hs)

/-- A sandbox that has a slot, and is not getting another, has it live. -/
theorem Scratch.slot {S : SandboxId} (h : Scratch (w.seenBy S)) (hquiet : ¬ w.Ensuring S)
    (hpos : (w.sandboxes S).returnSlotSize ≠ 0) :
    (w.sandboxes S).returnSlot ≠ 0 ∧ (w.sandboxes S).slotBlock ∈ (w.sandboxes S).held := by
  have hlimbo : ∀ f ∈ framesOn S w.stack, ¬ f.Limbo := by
    cases hraising : w.raising with
    | none => exact fun f hf hlimbo => hquiet ⟨hraising, f, hf, hlimbo⟩
    | some e =>
      refine h.settled ?_ hpos
      unfold World.seenBy
      rw [hraising]
      rfl
  have hmem := (h.owned.slot hlimbo hpos).2
  exact ⟨h.nonnull _ hmem, hmem⟩

/-- An address owned is live. -/
theorem Scratch.live {s : Sandbox} {fs : List InvokeFrame} {r : Bool} (h : Scratch ⟨s, fs, r⟩)
    {a : Nat} (ha : a ∈ tempsOf fs) : s.Live a := by
  obtain ⟨b, hb, rfl⟩ := h.owned.temps.held a ha
  exact ⟨h.nonnull b hb, b, hb, rfl⟩

/-- An invocation that gives a class, and does not get a slot, finds the slot live. -/
theorem Scratch.slot_of_class {rest : List Frame} (h : Scratch (w.seenBy f.sandbox))
    (hnested : Nested w.stack) (hstack : w.stack = .invoke f :: rest) {n : ClassSize}
    (hret : f.call.retClass = some n) (hlimbo : ¬ f.Limbo)
    (hpos : (w.sandboxes f.sandbox).returnSlotSize ≠ 0) :
    (w.sandboxes f.sandbox).Live (w.sandboxes f.sandbox).returnSlot := by
  have hchain := chain_of_nested hnested f.sandbox
  rw [hstack, framesOn_self rfl] at hchain
  have hquiet : ¬ w.Ensuring f.sandbox := by
    rintro ⟨-, k, hk, hklimbo⟩
    rw [hstack, framesOn_self rfl] at hk
    rcases List.mem_cons.mp hk with rfl | hk
    · exact hlimbo hklimbo
    · exact not_limbo_below hchain (hchain.1.shaped.not_allocates hret) k hk hklimbo
  obtain ⟨hne, hmem⟩ := h.slot hquiet hpos
  exact ⟨hne, _, hmem, rfl⟩

theorem Scratch.handled {rest : List Frame} (h : Scratch (w.seenBy f.sandbox))
    (hnested : Nested w.stack) (hraising : w.raising = none) (hstack : w.stack = .invoke f :: rest)
    {a : Nat} (hhandles : Handles (w.sandboxes f.sandbox) f a) :
    (w.sandboxes f.sandbox).Live a := by
  have hwf : f.WellFormed := (hstack ▸ hnested : Nested (.invoke f :: rest)).1
  have hlocal := h
  rw [seenBy_invoke hstack rfl hraising] at hlocal
  have htemp : ∀ a ∈ f.temps, (w.sandboxes f.sandbox).Live a := fun a ha => by
    apply hlocal.live
    rw [tempsOf_cons]
    exact List.mem_append_left _ ha
  cases hhandles with
  | @passSlot n hpc =>
    have hret := hwf.fits
    rw [hpc] at hret
    have hfits := hlocal.fits f (List.mem_cons_self ..) n hpc
    have hpos := n.2
    refine h.slot_of_class hnested hstack hret (InvokeFrame.not_limbo hpc (by simp)) ?_
    dsimp only at hfits
    omega
  | passArg hpc hpending hx =>
    apply htemp
    rw [InvokeFrame.temps, hpc]
    exact List.mem_map_of_mem hx
  | freeSlot hpc hret hsize hpos =>
    exact h.slot_of_class hnested hstack hret (InvokeFrame.not_limbo hpc (by simp)) hpos
  | @freeArg i hpc hi =>
    have hlen : i < (f.slots.map Prod.snd).length := by
      have hle := (hlocal.filled f (List.mem_cons_self ..)).allocLength_le hpc
      rw [List.length_map]
      omega
    apply htemp
    rw [InvokeFrame.temps, hpc, List.getElem?_eq_getElem hlen, Option.getD_some]
    dsimp only
    rw [List.drop_eq_getElem_cons hlen]
    exact List.mem_cons_self ..

/-- In every run in which malloc fails only where that is withstood, the host keeps to live
    blocks. -/
theorem scratch_live
    (h : WorldReached grow (fun w i => FallibleContract w i ∧ FailsHarmlessly w i) is w) :
    ScratchLive w := by
  obtain ⟨hnested, hscratch⟩ := reached_scratch h
  refine ⟨fun S => (hscratch S).slot, fun f hf => ?_, fun f hf hserializing x hx => ?_,
    fun f rest a hraising hstack => (hscratch f.sandbox).handled hnested hraising hstack⟩
  · exact (hscratch f.sandbox).fits f (mem_framesOn hf)
  · obtain ⟨bytes, lvalue, hk, hheld⟩ :=
      (hscratch f.sandbox).copied f (mem_framesOn hf) hserializing x hx
    exact ⟨(hscratch f.sandbox).nonnull _ hheld, bytes, lvalue, hk, hheld⟩

end runs

/-- A guest function has given a class of one byte. -/
def firstReturn : List Input :=
  [.host (.invoke 0 7 (some oneByte) []), .tick, .tick] ++ mallocReturns 1024 ++
    [.tick, .tick, .tick, .guest (.ret 0), .tick, .tick]

/-- The request for the first slot fails, and the next one is granted. -/
def secondTry : List Input :=
  [.host (.invoke 0 7 (some oneByte) []), .tick, .tick] ++ mallocReturns 0 ++
    [.unwind, .catch] ++ firstReturn

theorem scratch_live_second :
    ∃ w, WorldReached growWithinMax (fun w i => FallibleContract w i ∧ FailsHarmlessly w i)
        secondTry w ∧ (w.sandboxes 0).returnSlotSize = 1 ∧ ScratchLive w := by
  have hw : WorldReached growWithinMax (fun w i => FallibleContract w i ∧ FailsHarmlessly w i)
      secondTry _ := ⟨smallWorld, smallWorld_created, by decide +kernel, rfl⟩
  exact ⟨_, hw, rfl, scratch_live hw⟩

/-- The slot is to grow to `n` bytes, and the old one is freed. -/
def growTo (n : ClassSize) : List Input :=
  firstReturn ++ [.host (.invoke 0 7 (some n) []), .tick, .tick, .tick, .guest (.ret 0), .tick,
    .tick]

/-- malloc has nothing for the new slot, and the exception is caught. -/
def growFails : List Input := growTo ⟨2, by decide⟩ ++ mallocReturns 0 ++ [.unwind, .catch]

/-- The size is refused, and the exception is caught. -/
def growRefused : List Input := growTo ⟨2 ^ 32, by decide⟩ ++ [.unwind, .catch]

/-- malloc has nothing for a class argument. -/
def argFails : List Input :=
  [.host (.invoke 0 7 none [byteClass]), .tick, .serializeArg 0] ++ mallocReturns 0

theorem not_ensuring_of_idle {w : World} (h : w.stack = []) (S : SandboxId) : ¬ w.Ensuring S := by
  rintro ⟨-, f, hf, -⟩
  rw [h] at hf
  cases hf

/-- The sandbox has a size and no slot, and passes address 0 for the next class; it has the
    size and the address of the slot freed; and the copy of an argument is written to
    address 0. -/
theorem scratch_not_live :
    (∃ w w' f, WorldReached growWithinMax FallibleContract growFails w ∧ w.stack = [] ∧
      w.raising = none ∧ (w.sandboxes 0).slotBlock = ⟨0, 1⟩ ∧ ¬ ScratchLive w ∧
      exec (step growWithinMax) [.host (.invoke 0 7 (some ⟨1, by decide⟩) []), .tick] w =
        some w' ∧
      w'.stack = [.invoke f] ∧ Handles (w'.sandboxes 0) f 0) ∧
    (∃ w, WorldReached growWithinMax FallibleContract growRefused w ∧ w.stack = [] ∧
      w.raising = none ∧ (w.sandboxes 0).slotBlock = ⟨1024, 1⟩ ∧ (w.sandboxes 0).held = [] ∧
      ¬ ScratchLive w) ∧
    ∃ w f, WorldReached growWithinMax FallibleContract argFails w ∧ w.raising = none ∧
      w.stack = [.invoke f] ∧ f.slots = [(0, 0)] ∧ (w.sandboxes 0).memory.read 0 1 = [1] ∧
      ¬ ScratchLive w := by
  refine ⟨⟨_, _, _, ⟨smallWorld, smallWorld_created, by decide +kernel, rfl⟩, rfl, rfl, rfl,
    fun hlive => ?_, rfl, rfl, .passSlot rfl⟩,
    ⟨_, ⟨smallWorld, smallWorld_created, by decide +kernel, rfl⟩, rfl, rfl, rfl, rfl,
      fun hlive => ?_⟩,
    _, _, ⟨smallWorld, smallWorld_created, by decide +kernel, rfl⟩, rfl, rfl, rfl,
    by decide +kernel, fun hlive => ?_⟩
  · exact (hlive.slot 0 (not_ensuring_of_idle rfl 0) (by decide)).1 rfl
  · exact List.not_mem_nil (hlive.slot 0 (not_ensuring_of_idle rfl 0) (by decide)).2
  · exact (hlive.copies _ (List.mem_cons_self ..) (.inr (.inl rfl)) (0, 0)
      (List.mem_cons_self ..)).1 rfl

end RlboxWasm2c

import RlboxWasm2c.LocalView

/- The temporaries of class arguments. `impl_invoke_with_func_ptr` counts the blocks it
   will free from the deduced argument types and allocates from the decayed ones, so the
   books of an invocation (`Booked`) and the copies in guest memory (`HasCopy`) are
   followed step by step (`step_temporaries`). In the end (`temporaries_balanced_iff`) an
   invocation with temporaries as arguments is balanced unless it gives a class and has a
   class argument: then the recursive call sees lvalues, for which it has a buffer of
   length one and frees nothing. -/
namespace RlboxWasm2c
open Blocks
open MinWasi (Memory)

/-! ## Counting class arguments -/

section counting
variable {α : Type}

theorem length_filter_range (q : α → Bool) (l : List α) :
    ((List.range l.length).filter fun k => l[k]?.any q).length = l.countP q := by
  induction l with
  | nil => rfl
  | cons a l ih =>
    rw [List.length_cons, List.range_succ_eq_map, List.countP_cons, ← ih, List.filter_cons,
      List.filter_map, Function.comp_def]
    simp only [List.getElem?_cons_zero, List.getElem?_cons_succ, Option.any_some]
    split
    · rw [List.length_cons, List.length_map]
    · rw [List.length_map, Nat.add_zero]

end counting

section calls
variable (c : Call) (a : Nat)

theorem Call.length_classParams : c.classParams.length = c.params.countP fun p => p.arg.isClass :=
  length_filter_range _ _

theorem Call.allocLength_le : c.allocLength ≤ c.classParams.length := by
  rw [c.length_classParams]
  refine List.countP_mono_left fun p _ h => ?_
  exact (Bool.and_eq_true _ _ ▸ h).1

/-- With temporaries as arguments the two counts agree. -/
theorem Call.allocLength_eq (h : ∀ p ∈ c.params, p.lvalue = false) :
    c.allocLength = c.classParams.length := by
  rw [c.length_classParams]
  refine List.countP_congr fun p hp => ?_
  rw [h p hp, Bool.not_false, Bool.and_true]

theorem Call.classParams_promoted : (c.promoted a).classParams = c.classParams.map Nat.succ := by
  unfold Call.classParams Call.promoted
  rw [List.length_cons, List.length_map, List.range_succ_eq_map, List.filter_cons, List.filter_map,
    Function.comp_def]
  simp only [List.getElem?_cons_zero, List.getElem?_cons_succ, List.getElem?_map, Option.any_some,
    Option.any_map, Arg.isClass]
  rfl

/-- The recursive call frees nothing: all its arguments are lvalues. -/
theorem Call.allocLength_promoted : (c.promoted a).allocLength = 0 := by
  unfold Call.allocLength Call.promoted
  rw [List.countP_eq_zero]
  intro p hp
  rcases List.mem_cons.mp hp with rfl | hp
  · exact Bool.false_ne_true
  · obtain ⟨q, -, rfl⟩ := List.mem_map.mp hp
    rw [Bool.not_true, Bool.and_false]
    exact Bool.false_ne_true

theorem Call.mem_classParams {k : Nat} :
    k ∈ c.classParams ↔ ∃ bytes lvalue, c.params[k]? = some ⟨.cls bytes, lvalue⟩ := by
  unfold Call.classParams
  rw [List.mem_filter, List.mem_range]
  constructor
  · rintro ⟨-, hany⟩
    cases hk : c.params[k]? with
    | none => rw [hk] at hany; cases hany
    | some p =>
      obtain ⟨arg, lvalue⟩ := p
      cases arg with
      | scalar v => rw [hk] at hany; cases hany
      | cls bytes => exact ⟨bytes, lvalue, rfl⟩
  · rintro ⟨bytes, lvalue, hk⟩
    rw [hk]
    exact ⟨(List.getElem?_eq_some_iff.mp hk).1, rfl⟩

end calls

/-! ## The books of an invocation -/

/-- Argument `k` passed by value, or by a pointer to an exact copy of it. -/
def exactCopy (slots : List (Nat × Nat)) (p : Param) (k : Nat) : Nat × List UInt8 :=
  match p.arg with
  | .scalar v => (v, [])
  | .cls bytes => ((slots.lookup k).getD 0, bytes.1)

namespace InvokeFrame

def Copied (f : InvokeFrame) : Prop :=
  f.passed = f.call.params.mapIdx fun k p => exactCopy f.slots p k

/-- The slots entered are those of the class arguments evaluated, and those freed are the
    first ones, as far as the invocation is. -/
def Booked (f : InvokeFrame) : Prop :=
  match f.pc with
  | .start | .serialize =>
    (f.slots.map Prod.fst ++ f.pending).Perm f.call.classParams ∧ f.freed = []
  | .setArg k => (f.slots.map Prod.fst ++ k :: f.pending).Perm f.call.classParams ∧ f.freed = []
  | .body => (f.slots.map Prod.fst).Perm f.call.classParams ∧ f.freed = [] ∧ f.Copied
  | .freeArgs i =>
    (f.slots.map Prod.fst).Perm f.call.classParams ∧ f.freed = (f.slots.map Prod.snd).take i ∧
      i ≤ f.call.allocLength ∧ f.Copied
  | .mallocSlot _ | .setSlot _ | .recurse _ | .copyOut _ => True

/-- The recursive call left a slot for each class argument, and freed none. -/
structure Recorded (f : InvokeFrame) : Prop where
  allocated : (f.slots.map Prod.fst).Perm f.call.classParams
  freed : f.freed = []
  copied : f.Copied

/-- The guest function was not called yet. -/
def Serializing (f : InvokeFrame) : Prop :=
  f.pc = .start ∨ f.pc = .serialize ∨ ∃ k, f.pc = .setArg k

end InvokeFrame

/-- The slot of argument `x.1` is a held block with the bytes of the argument. -/
def HasCopy (s : Sandbox) (c : Call) (x : Nat × Nat) : Prop :=
  ∃ (bytes : ClassBytes) (lvalue : Bool), c.params[x.1]? = some ⟨.cls bytes, lvalue⟩ ∧
    (⟨x.2, bytes.1.length⟩ : Block) ∈ s.held ∧ s.memory.read x.2 bytes.1.length = bytes.1

/-- The books of `f` are in order, what it has copied is there, and what it has freed is
    not. -/
structure Kept (s : Sandbox) (f : InvokeFrame) : Prop where
  booked : f.Booked
  copies : f.Serializing → ∀ x ∈ f.slots, HasCopy s f.call x
  released : ∀ i, f.pc = .freeArgs i → ∀ a ∈ f.freed, ∀ b ∈ s.held, b.addr ≠ a

structure Temporaries (L : Local) : Prop where
  kept : ∀ f ∈ L.frames, Kept L.box f
  recorded : L.raising = false → ∀ f ∈ L.frames.head?, ∀ n, f.pc = .copyOut n → f.Recorded

section copies
variable {s : Sandbox} {c : Call} {x : Nat × Nat}

theorem HasCopy.grant (h : HasCopy s c x) (b : Block) : HasCopy (s.grant b) c x := by
  obtain ⟨bytes, lvalue, hk, hheld, hread⟩ := h
  refine ⟨bytes, lvalue, hk, ?_, hread⟩
  unfold Sandbox.grant
  split
  · exact hheld
  · exact List.mem_cons_of_mem _ hheld

/-- Bytes stored outside the held blocks change no copy. -/
theorem HasCopy.write (h : HasCopy s c x) {a : Nat} {bytes : List UInt8}
    (hdisjoint : ∀ b ∈ s.held, b.Disjoint ⟨a, bytes.length⟩) :
    HasCopy { s with memory := s.memory.write a bytes } c x := by
  obtain ⟨bytes', lvalue, hk, hheld, hread⟩ := h
  exact ⟨bytes', lvalue, hk, hheld,
    (Memory.read_write_of_disjoint (hdisjoint _ hheld)).trans hread⟩

/-- Neither does a block granted and filled. -/
theorem HasCopy.stored (h : HasCopy s c x) {v : Nat} {bytes : List UInt8}
    (hgrants : Grants s bytes.length v) :
    HasCopy { s.grant ⟨v, bytes.length⟩ with memory := s.memory.write v bytes } c x :=
  (h.write hgrants.2).grant ⟨v, bytes.length⟩

/-- The slot just filled. -/
theorem hasCopy_stored {k v : Nat} {bytes : ClassBytes} {lvalue : Bool}
    (hk : c.params[k]? = some ⟨.cls bytes, lvalue⟩) (hv : v ≠ 0) :
    HasCopy { s.grant ⟨v, bytes.1.length⟩ with memory := s.memory.write v bytes.1 } c (k, v) := by
  refine ⟨bytes, lvalue, hk, ?_, Memory.read_write_self ..⟩
  simp only [Sandbox.grant, hv, if_false]
  exact List.mem_cons_self ..

end copies
/-! ## Every step keeps the books -/

section kept
variable {s s' : Sandbox} {f g : InvokeFrame} {fs : List InvokeFrame}

theorem kept_newFrame {S : SandboxId} {call : Call} {old : Option SandboxId}
    {retBlock : Option Block} {memory : Memory} : Kept s (newFrame S call old retBlock memory) :=
  ⟨⟨List.Perm.refl _, rfl⟩, fun _ _ hx => (List.not_mem_nil hx).elim, nofun⟩

theorem InvokeFrame.not_serializing {pc : Pc} (h : f.pc = pc)
    (hpc : pc ≠ .start ∧ pc ≠ .serialize ∧ ∀ k, pc ≠ .setArg k) : ¬ f.Serializing := by
  rintro (h' | h' | ⟨k, h'⟩) <;> rw [h] at h'
  · exact hpc.1 h'
  · exact hpc.2.1 h'
  · exact hpc.2.2 k h'

/-- While the guest function runs, neither the copies nor what was freed matter. -/
theorem kept_body (h : f.Booked) (hpc : f.pc = .body) : Kept s f :=
  ⟨h, fun hs => absurd hs (InvokeFrame.not_serializing hpc (by simp)),
    fun i hi => by cases hpc.symm.trans hi⟩

/-- On the path of a class return the books are those of the recursive call. -/
theorem kept_classReturn {n : ClassSize}
    (hpc : f.pc = .mallocSlot n ∨ f.pc = .setSlot n ∨ f.pc = .recurse n ∨ f.pc = .copyOut n) :
    Kept s f := by
  rcases hpc with h | h | h | h <;>
  · refine ⟨?_, fun hs => absurd hs (InvokeFrame.not_serializing h (by simp)),
      fun i hi => by cases h.symm.trans hi⟩
    unfold InvokeFrame.Booked
    rw [h]
    trivial

/-- What is below an invocation that is not malloc or free has no use of the memory. -/
theorem kept_below (hchain : Chain (f :: fs)) (hother : ¬ f.call.Allocates)
    (h : ∀ g ∈ fs, Kept s g) : ∀ g ∈ fs, Kept s' g := by
  intro g hg
  rcases hchain.below hother g hg with hpc | ⟨n, hpc⟩
  · exact kept_body (h g hg).booked hpc
  · exact kept_classReturn (.inr (.inr (.inr hpc)))

theorem Kept.write (h : Kept s f) {a : Nat} {bytes : List UInt8}
    (hdisjoint : ∀ b ∈ s.held, b.Disjoint ⟨a, bytes.length⟩) :
    Kept { s with memory := s.memory.write a bytes } f :=
  ⟨h.booked, fun hserializing x hx => (h.copies hserializing x hx).write hdisjoint, h.released⟩

/-- A call of malloc or free has no class argument. -/
theorem Call.Shaped.classParams_nil {c : Call} (h : c.Shaped) (halloc : c.Allocates) :
    c.classParams = [] := by
  obtain ⟨-, v, hparams⟩ := h halloc
  unfold Call.classParams
  rw [hparams]
  rfl

/-- Nothing is handed to malloc and free. -/
theorem handed_allocator (hchain : Chain (f :: fs)) (hbooked : f.Booked) (hpc : f.pc = .body)
    (halloc : f.call.Allocates) : f.handed = [] := by
  obtain ⟨hwf, hmade, hrest⟩ := hchain
  have hslots : f.slots = [] := by
    unfold InvokeFrame.Booked at hbooked
    rw [hpc, hwf.shaped.classParams_nil halloc] at hbooked
    exact List.map_eq_nil_iff.mp hbooked.1.eq_nil
  have hret : f.retBlock = none := by
    cases fs with
    | nil => exact hmade
    | cons g fs =>
      rcases hmade with hinvoked | ⟨-, hret⟩
      · cases hinvoked with
        | freeSlot _ _ hret | mallocSlot _ _ hret | mallocArg _ _ _ hret | freeArg _ _ hret =>
          exact hret
        | recurse hpc' hcall =>
          -- the function of the recursive call is that of a call that gives a class
          have hfits := hrest.1.fits
          rw [hpc'] at hfits
          rw [hcall] at halloc
          exact absurd halloc (hrest.1.shaped.not_allocates hfits)
      · exact hret
  unfold InvokeFrame.handed
  rw [hslots, hret]
  rfl

/-- A store of the guest function on top changes no copy that is still needed. -/
theorem kept_store {a : Nat} {bytes : List UInt8} (hchain : Chain (f :: fs)) (hpc : f.pc = .body)
    (hmay : MayStore s f a bytes.length) (h : ∀ g ∈ f :: fs, Kept s g) :
    ∀ g ∈ fs, Kept { s with memory := s.memory.write a bytes } g := by
  have hfs : ∀ g ∈ fs, Kept s g := fun g hg => h g (List.mem_cons_of_mem _ hg)
  by_cases halloc : f.call.Allocates
  · intro g hg
    have hnone := handed_allocator hchain (h f (List.mem_cons_self ..)).booked hpc halloc
    refine (hfs g hg).write fun b hb => ?_
    have hb' := hmay b hb
    rw [hnone] at hb'
    exact hb'.resolve_left List.not_mem_nil
  · exact kept_below hchain halloc hfs

theorem recorded_head (h : ∀ n, f.pc ≠ .copyOut n) :
    ∀ g ∈ (f :: fs).head?, ∀ n, g.pc = .copyOut n → g.Recorded := by
  intro g hg n hn
  cases hg
  exact absurd hn (h n)

theorem not_allocates_of_allocLength (hwf : f.WellFormed) (h : 0 < f.call.allocLength) :
    ¬ f.call.Allocates := by
  intro halloc
  have hle := f.call.allocLength_le
  rw [hwf.shaped.classParams_nil halloc, List.length_nil] at hle
  omega

/-- The guest function is passed the copies made. -/
theorem booked_enterBody (hpc : f.pc = .serialize) (hpending : f.pending = []) (h : Kept s f) :
    InvokeFrame.Booked
      { f with
        pc := .body
        passed := f.call.params.mapIdx fun k p => passedValue s.memory f.slots p k } := by
  have hbooked := h.booked
  unfold InvokeFrame.Booked at hbooked
  rw [hpc, hpending, List.append_nil] at hbooked
  refine ⟨hbooked.1, hbooked.2, ?_⟩
  refine List.mapIdx_eq_mapIdx_iff.mpr fun k hk => ?_
  cases harg : f.call.params[k].arg with
  | scalar v =>
    unfold passedValue exactCopy
    rw [harg]
  | cls bytes =>
    have hk' : f.call.params[k]? = some ⟨.cls bytes, f.call.params[k].lvalue⟩ := by
      rw [List.getElem?_eq_getElem hk, ← harg]
    -- argument `k` was evaluated, and what its slot holds are its bytes
    have hmem : k ∈ f.slots.map Prod.fst :=
      hbooked.1.mem_iff.mpr (f.call.mem_classParams.mpr ⟨bytes, _, hk'⟩)
    obtain ⟨x, hx, hxk⟩ := List.mem_map.mp hmem
    obtain ⟨a, ha⟩ := Option.isSome_iff_exists.mp
      (List.lookup_isSome_iff.mpr ⟨x, hx, beq_iff_eq.mpr hxk.symm⟩)
    obtain ⟨l₁, l₂, hsplit, -⟩ := List.lookup_eq_some_iff.mp ha
    have hka : (k, a) ∈ f.slots := by
      rw [hsplit]
      exact List.mem_append_right _ (List.mem_cons_self ..)
    obtain ⟨bytes', lvalue, hcls, -, hread⟩ := h.copies (.inr (.inl hpc)) (k, a) hka
    rw [hk'] at hcls
    cases hcls
    unfold passedValue exactCopy
    rw [harg]
    dsimp only
    rw [ha, Option.getD_some, hread]

/-- Only slots entered are freed. -/
theorem InvokeFrame.Booked.allocLength_le {i : Nat} (h : f.Booked) (hpc : f.pc = .freeArgs i) :
    f.call.allocLength ≤ f.slots.length := by
  unfold InvokeFrame.Booked at h
  rw [hpc] at h
  have hlength := h.1.length_eq
  have hle := f.call.allocLength_le
  rw [List.length_map] at hlength
  omega

/-- The slot freed is held no longer, nor are those freed before. -/
theorem kept_freeArg {i : Nat} (hpc : f.pc = .freeArgs i) (hi : i < f.call.allocLength)
    (h : Kept s f) :
    Kept (s.release (((f.slots.map Prod.snd)[i]?).getD 0))
      { f with
        pc := .freeArgs (i + 1)
        freed := f.freed ++ [((f.slots.map Prod.snd)[i]?).getD 0] } := by
  have hbooked := h.booked
  unfold InvokeFrame.Booked at hbooked
  rw [hpc] at hbooked
  obtain ⟨hperm, hfreed, -, hcopied⟩ := hbooked
  have hlen : i < (f.slots.map Prod.snd).length := by
    rw [List.length_map]
    exact Nat.lt_of_lt_of_le hi (h.booked.allocLength_le hpc)
  refine ⟨⟨hperm, ?_, hi, hcopied⟩, by nofun, fun _ _ a ha b hb => ?_⟩
  · dsimp only
    rw [hfreed, List.getElem?_eq_getElem hlen, Option.getD_some,
      List.take_append_getElem hlen]
  · obtain ⟨hb, hne⟩ := mem_freed.mp hb
    rcases List.mem_append.mp ha with ha | ha
    · exact h.released i hpc a ha b hb
    · rw [List.mem_singleton.mp ha]
      exact hne

theorem lookup_map_pred {slots : List (Nat × Nat)} (h : ∀ x ∈ slots, 0 < x.1) (k : Nat) :
    (slots.map fun x => (x.1 - 1, x.2)).lookup k = slots.lookup (k + 1) := by
  induction slots with
  | nil => rfl
  | cons x slots ih =>
    have hx := h x (List.mem_cons_self ..)
    have hbeq : (k == x.1 - 1) = (k + 1 == x.1) := by
      rw [Bool.eq_iff_iff, beq_iff_eq, beq_iff_eq]
      omega
    rw [List.map_cons, List.lookup_cons, List.lookup_cons, hbeq,
      ih fun y hy => h y (List.mem_cons_of_mem _ hy)]

/-- The books of the recursive call, for the call it was made for. -/
theorem recorded_of_promoted {a i : Nat} (hcall : f.call = g.call.promoted a)
    (hpc : f.pc = .freeArgs i) (h : f.Booked) (inner : Option (Block × Memory)) :
    InvokeFrame.Recorded
      { g with
        slots := f.slots.map fun s => (s.1 - 1, s.2)
        passed := f.passed.tail
        freed := f.freed
        inner := inner } := by
  unfold InvokeFrame.Booked at h
  rw [hpc] at h
  obtain ⟨hperm, hfreed, hi, hcopied⟩ := h
  rw [hcall, Call.classParams_promoted] at hperm
  rw [hcall, Call.allocLength_promoted] at hi
  have hpos : ∀ x ∈ f.slots, 0 < x.1 := by
    intro x hx
    have hmem := hperm.mem_iff.mp (List.mem_map_of_mem hx)
    obtain ⟨k, -, hk⟩ := List.mem_map.mp hmem
    omega
  refine ⟨?_, ?_, ?_⟩
  -- the arguments lie one place further on in the recursive call
  · have hpred := hperm.map Nat.pred
    rw [List.map_map, List.map_map] at hpred
    dsimp only
    rw [List.map_map]
    have hid : Nat.pred ∘ Nat.succ = id := by
      funext k
      rfl
    rw [hid, List.map_id] at hpred
    exact hpred
  · dsimp only
    rw [hfreed, Nat.le_zero.mp hi, List.take_zero]
  · unfold InvokeFrame.Copied at hcopied ⊢
    dsimp only
    rw [hcopied, hcall, Call.promoted, List.mapIdx_cons, List.tail_cons]
    refine List.mapIdx_eq_iff.mpr fun k => ?_
    rw [List.getElem?_mapIdx, List.getElem?_map, Option.map_map]
    congr 1
    funext p
    unfold exactCopy
    rw [lookup_map_pred hpos]
    rfl

theorem kept_argEvaluated {k : Nat} (hpc : f.pc = .serialize) (hpending : k ∈ f.pending)
    (h : Kept s f) : Kept s { f with pc := .setArg k, pending := f.pending.erase k } := by
  have hbooked := h.booked
  unfold InvokeFrame.Booked at hbooked
  rw [hpc] at hbooked
  have herase := (List.perm_cons_erase hpending).symm.append_left (f.slots.map Prod.fst)
  exact ⟨⟨herase.trans hbooked.1, hbooked.2⟩, fun _ => h.copies (.inr (.inl hpc)), nofun⟩

theorem kept_argStored {k v : Nat} {bytes : ClassBytes} {lvalue : Bool} (hpc : f.pc = .setArg k)
    (hk : f.call.params[k]? = some ⟨.cls bytes, lvalue⟩) (hgrants : Grants s bytes.1.length v)
    (h : Kept s f) :
    Kept { s.grant ⟨v, bytes.1.length⟩ with memory := s.memory.write v bytes.1 }
      { f with pc := .serialize, slots := f.slots ++ [(k, v)] } := by
  have hbooked := h.booked
  unfold InvokeFrame.Booked at hbooked
  rw [hpc] at hbooked
  refine ⟨⟨?_, hbooked.2⟩, fun _ x hx => ?_, nofun⟩
  · rw [List.map_append, List.append_assoc]
    exact hbooked.1
  · rcases List.mem_append.mp hx with hx | hx
    · exact (h.copies (.inr (.inr ⟨k, hpc⟩)) x hx).stored hgrants
    · rw [List.mem_singleton.mp hx]
      exact hasCopy_stored hk hgrants.1

theorem created_temporaries (s : Sandbox) : Temporaries ⟨s, [], false⟩ :=
  ⟨fun _ hf => (List.not_mem_nil hf).elim, fun _ f hf => (Option.not_mem_none f hf).elim⟩

/-- The invocation on top is not one whose recursive call has returned. -/
theorem Temporaries.top {r : Bool} (hf : Kept s f) (hfs : ∀ g ∈ fs, Kept s g)
    (hpc : ∀ n, f.pc ≠ .copyOut n) : Temporaries ⟨s, f :: fs, r⟩ :=
  ⟨List.forall_mem_cons.mpr ⟨hf, hfs⟩, fun _ => recorded_head hpc⟩

/-- The invocation `f` has made another. -/
theorem Temporaries.made {S : SandboxId} {call : Call} {old : Option SandboxId}
    {retBlock : Option Block} {memory : Memory} (hf : Kept s f) (hfs : ∀ g ∈ fs, Kept s g) :
    Temporaries ⟨s, newFrame S call old retBlock memory :: f :: fs, false⟩ :=
  .top kept_newFrame (List.forall_mem_cons.mpr ⟨hf, hfs⟩) nofun

theorem step_temporaries {P : List InvokeFrame → ClassSize → Prop} {S : SandboxId} {L L' : Local}
    (hchain : Chain L.frames) (h : Temporaries L) (hs : LocalStep P S L L') :
    Temporaries L' := by
  obtain ⟨hkept, hrec⟩ := h
  cases hs with
  | same => exact ⟨hkept, hrec⟩
  | table => exact ⟨fun f hf =>
      ⟨(hkept f hf).booked, (hkept f hf).copies, (hkept f hf).released⟩, hrec⟩
  | raise | copyOutBad => exact ⟨hkept, nofun⟩
  | unwind => exact ⟨(List.forall_mem_cons.mp hkept).2, nofun⟩
  | caught hruns =>
    refine ⟨hkept, fun _ f hf n hn => ?_⟩
    have hbody := (hruns f hf).1
    rw [hn] at hbody
    cases hbody
  | invoke => exact .top kept_newFrame hkept nofun
  | store hpc hmay =>
    have hf := (List.forall_mem_cons.mp hkept).1
    refine .top (kept_body hf.booked hpc) (kept_store hchain hpc hmay hkept) fun n hn => ?_
    cases hpc.symm.trans hn
  | ret hpc =>
    obtain ⟨hf, hfs⟩ := List.forall_mem_cons.mp hkept
    have hbooked := hf.booked
    unfold InvokeFrame.Booked at hbooked
    rw [hpc] at hbooked
    refine .top ⟨?_, by nofun, fun _ _ a ha => ?_⟩ hfs nofun
    · exact ⟨hbooked.1, hbooked.2.1, Nat.zero_le _, hbooked.2.2⟩
    · rw [hbooked.2.1] at ha
      cases ha
  | plainReturn hpc hret =>
    obtain ⟨hf, hfs⟩ := List.forall_mem_cons.mp hkept
    refine .top ⟨?_, fun _ => hf.copies (.inl hpc), nofun⟩ hfs nofun
    have hbooked := hf.booked
    unfold InvokeFrame.Booked at hbooked
    rw [hpc] at hbooked
    exact hbooked
  | freeSlot hpc hret =>
    have hother := hchain.1.shaped.not_allocates hret
    exact .made (kept_classReturn (.inl rfl))
      (kept_below hchain hother (List.forall_mem_cons.mp hkept).2)
  | noSlot hpc hret =>
    exact .top (kept_classReturn (.inl rfl)) (List.forall_mem_cons.mp hkept).2 nofun
  | slotFits hpc hret =>
    exact .top (kept_classReturn (.inr (.inr (.inl rfl)))) (List.forall_mem_cons.mp hkept).2 nofun
  | mallocSlot hpc =>
    exact .made (kept_classReturn (.inr (.inl rfl))) (List.forall_mem_cons.mp hkept).2
  | slotTooBig hpc =>
    exact .top (kept_classReturn (.inr (.inl rfl))) (List.forall_mem_cons.mp hkept).2 nofun
  | slotGranted hfree hpc hgrants =>
    obtain ⟨-, hfs⟩ := List.forall_mem_cons.mp (List.forall_mem_cons.mp hkept).2
    have hfits := hchain.2.2.1.fits
    rw [hpc] at hfits
    have hother := hchain.2.2.1.shaped.not_allocates hfits
    exact .top (kept_classReturn (.inr (.inr (.inl rfl)))) (kept_below hchain.2.2 hother hfs) nofun
  | recurse hpc =>
    exact .made (kept_classReturn (.inr (.inr (.inr rfl)))) (List.forall_mem_cons.mp hkept).2
  -- the books of the recursive call become those of the call it was made for
  | recorded hfree hpc hcall hret =>
    obtain ⟨hf, hgs⟩ := List.forall_mem_cons.mp hkept
    refine ⟨List.forall_mem_cons.mpr ⟨kept_classReturn (.inr (.inr (.inr hpc))),
      (List.forall_mem_cons.mp hgs).2⟩, fun _ k hk _ _ => ?_⟩
    cases hk
    exact recorded_of_promoted hcall hfree hf.booked _
  | serializeArg hpc hpending hk =>
    obtain ⟨hf, hfs⟩ := List.forall_mem_cons.mp hkept
    exact .made (kept_argEvaluated hpc hpending hf) hfs
  | argTooBig hpc hpending hk =>
    obtain ⟨hf, hfs⟩ := List.forall_mem_cons.mp hkept
    exact .top (kept_argEvaluated hpc hpending hf) hfs nofun
  | argStored hfree hpc hk hgrants =>
    obtain ⟨hg, hfs⟩ := List.forall_mem_cons.mp (List.forall_mem_cons.mp hkept).2
    have hother := hchain.2.2.1.shaped.not_allocates_of_class hk
    exact .top (kept_argStored hpc hk hgrants hg) (kept_below hchain.2.2 hother hfs) nofun
  -- the block is granted and left: the copy was refused
  | argBad hfree hpc hk hgrants =>
    obtain ⟨hg, hfs⟩ := List.forall_mem_cons.mp (List.forall_mem_cons.mp hkept).2
    refine ⟨List.forall_mem_cons.mpr ⟨⟨hg.booked, ?_, ?_⟩, ?_⟩, nofun⟩
    · exact fun hserializing x hx => (hg.copies hserializing x hx).grant _
    · exact fun i hi => by cases hpc.symm.trans hi
    · exact kept_below hchain.2.2 (hchain.2.2.1.shaped.not_allocates_of_class hk) hfs
  | enterBody hpc hpending =>
    obtain ⟨hf, hfs⟩ := List.forall_mem_cons.mp hkept
    exact .top (kept_body (booked_enterBody hpc hpending hf) rfl) hfs nofun
  | freeArg hpc hi =>
    obtain ⟨hf, hfs⟩ := List.forall_mem_cons.mp hkept
    have hother := not_allocates_of_allocLength hchain.1 (Nat.zero_lt_of_lt hi)
    exact .made (kept_freeArg hpc hi hf) (kept_below hchain hother hfs)
  | exited hexit htop =>
    exact ⟨(List.forall_mem_cons.mp hkept).2, fun _ g hg n hn => absurd hn (htop g hg n)⟩

end kept

/-! ## When an invocation is balanced -/

/-- The invocation is about to return. -/
def InvokeFrame.Completes (f : InvokeFrame) : Prop :=
  (∃ n, f.pc = .copyOut n) ∨ ∃ i, f.pc = .freeArgs i ∧ f.call.allocLength ≤ i

/-- The length of the buffer the slots of a call are entered in: for a class return that of
    the recursive call, whose argument types the return slot does not change. -/
def Call.slotsBuffLength (c : Call) : Nat :=
  match c.retClass with
  | none => c.buffLength
  | some _ => (c.promoted 0).buffLength

/-- One block for each class argument, entered in the buffer, passed with an exact copy,
    freed once, and held no longer. -/
structure Balanced (s : Sandbox) (f : InvokeFrame) : Prop where
  allocated : (f.slots.map Prod.fst).Perm f.call.classParams
  inBuffer : f.slots.length ≤ f.call.slotsBuffLength
  copied : f.Copied
  freed : f.freed.Perm (f.slots.map Prod.snd)
  released : ∀ x ∈ f.slots, ∀ b ∈ s.held, b.addr ≠ x.2

section balanced
variable {grow : GrowFuncrefTable} {is : List Input} {w : World} {f : InvokeFrame}
  {rest : List Frame} {s : Sandbox}

theorem balanced_freeArgs {i : Nat} (hwf : f.WellFormed) (hkept : Kept s f)
    (hpc : f.pc = .freeArgs i) (hi : f.call.allocLength ≤ i)
    (hprvalue : ∀ p ∈ f.call.params, p.lvalue = false) : Balanced s f := by
  have hbooked := hkept.booked
  unfold InvokeFrame.Booked at hbooked
  rw [hpc] at hbooked
  obtain ⟨hperm, hfreed, -, hcopied⟩ := hbooked
  have hlength : f.slots.length = f.call.allocLength := by
    rw [f.call.allocLength_eq hprvalue, ← hperm.length_eq, List.length_map]
  have hall : f.freed = f.slots.map Prod.snd := by
    rw [hfreed, List.take_of_length_le]
    rw [List.length_map]
    omega
  have hret := hwf.fits
  rw [hpc] at hret
  refine ⟨hperm, ?_, hcopied, hall ▸ .refl _, fun x hx => ?_⟩
  · have hbuff : f.call.slotsBuffLength = f.call.buffLength := by
      rw [Call.slotsBuffLength, show f.call.retClass = none from hret]
    rw [hbuff, hlength, Call.buffLength]
    split <;> omega
  · apply hkept.released i hpc
    rw [hall]
    exact List.mem_map_of_mem hx

/-- A class return without a class argument has no slots. -/
theorem balanced_copyOut (h : f.Recorded) (hnone : f.call.classParams = []) : Balanced s f := by
  have hslots : f.slots = [] := by
    have hperm := h.allocated
    rw [hnone] at hperm
    exact List.map_eq_nil_iff.mp hperm.eq_nil
  refine ⟨h.allocated, ?_, h.copied, ?_, ?_⟩
  · rw [hslots]
    exact Nat.zero_le _
  · rw [h.freed, hslots]
    exact .refl _
  · rw [hslots]
    nofun

/-- In every reached world an invocation about to return, with temporaries as arguments, is
    balanced if and only if it gives no class or has no class argument. -/
theorem temporaries_balanced_iff (h : WorldReached grow GuestContract is w)
    (hraising : w.raising = none) (hstack : w.stack = .invoke f :: rest) (hcompletes : f.Completes)
    (hprvalue : ∀ p ∈ f.call.params, p.lvalue = false) :
    Balanced (w.sandboxes f.sandbox) f ↔ f.call.retClass = none ∨ f.call.classParams = [] := by
  obtain ⟨hnested, hlocal⟩ := h.local_invariant (P := fun _ _ => True) (I := Temporaries)
    (fun _ _ hC => hC) (fun _ _ _ _ _ _ _ _ => trivial) (fun s _ _ => created_temporaries s)
    fun _ _ _ => step_temporaries
  have htemps := hlocal f.sandbox
  rw [seenBy_invoke hstack rfl hraising] at htemps
  rw [hstack] at hnested
  have hkept := htemps.kept f (List.mem_cons_self ..)
  rcases hcompletes with ⟨n, hpc⟩ | ⟨i, hpc, hi⟩
  · have hrecorded := htemps.recorded rfl f rfl n hpc
    refine ⟨fun hbalanced => .inr ?_, fun hcond => ?_⟩
    · -- nothing was freed, so there was nothing to free
      have hslots := hbalanced.freed
      rw [hrecorded.freed] at hslots
      have hperm := hbalanced.allocated
      rw [List.map_eq_nil_iff.mp hslots.nil_eq.symm] at hperm
      exact hperm.nil_eq.symm
    · have hret := hnested.1.fits
      rw [hpc] at hret
      refine balanced_copyOut hrecorded (hcond.resolve_left fun hnone => ?_)
      rw [show f.call.retClass = some n from hret] at hnone
      cases hnone
  · refine ⟨fun _ => .inl ?_, fun _ => balanced_freeArgs hnested.1 hkept hpc hi hprvalue⟩
    have hret := hnested.1.fits
    rw [hpc] at hret
    exact hret

end balanced

/-- A guest malloc that returns `a`. -/
def mallocReturns (a : Nat) : List Input := [.tick, .tick, .guest (.ret a), .tick]

/-- A temporary of class type of one byte. -/
def byteClass : Param := ⟨.cls ⟨[1], by decide⟩, false⟩

/-- A guest function with one class argument and no result. -/
def passClass : List Input :=
  [.host (.invoke 0 7 none [byteClass]), .tick, .serializeArg 0] ++ mallocReturns 1024 ++
    [.tick, .guest (.ret 0), .tick, .tick, .tick, .guest (.ret 0), .tick]

theorem temporaries_balanced_one :
    ∃ w f rest, WorldReached growWithinMax GuestContract passClass w ∧
      w.stack = .invoke f :: rest ∧ f.call.classParams = [0] ∧
      Balanced (w.sandboxes f.sandbox) f := by
  have hw : WorldReached growWithinMax GuestContract passClass _ :=
    ⟨smallWorld, smallWorld_created, by decide, rfl⟩
  exact ⟨_, _, _, hw, rfl, rfl,
    (temporaries_balanced_iff hw rfl rfl (.inr ⟨1, rfl, by decide⟩) (by decide)).mpr (.inl rfl)⟩

/-- The same with a class result: the block of the argument is not freed. -/
def passAndReturnClass : List Input :=
  [.host (.invoke 0 7 (some ⟨4, by decide⟩) [byteClass]), .tick, .tick] ++ mallocReturns 1024 ++
    [.tick, .tick, .serializeArg 1] ++ mallocReturns 2048 ++ [.tick, .guest (.ret 0), .tick]

theorem class_return_leaks :
    ∃ w f rest, WorldReached growWithinMax GuestContract passAndReturnClass w ∧
      w.raising = none ∧ w.stack = .invoke f :: rest ∧ f.Completes ∧
      (∀ p ∈ f.call.params, p.lvalue = false) ∧ f.slots = [(0, 2048)] ∧ f.freed = [] ∧
      ¬ Balanced (w.sandboxes f.sandbox) f := by
  refine ⟨_, _, _, ⟨smallWorld, smallWorld_created, by decide, rfl⟩, rfl, rfl,
    .inl ⟨⟨4, by decide⟩, rfl⟩, by decide, rfl, rfl, fun hbalanced => ?_⟩
  exact absurd hbalanced.freed.length_eq (by decide)

end RlboxWasm2c

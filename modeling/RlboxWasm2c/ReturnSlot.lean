import Mathlib.Data.List.Pairwise
import RlboxWasm2c.Temporaries

/- The return slot. A sandbox has one slot for class values; an invocation that gives a
   class passes its address to the guest function and reads it back afterwards. Three
   invariants of a sandbox hold over the runs in which class returns do not nest
   (`NoNestedReturn`):

     `OneReturn`   at most one invocation gives a class;
     `Owned`       the argument blocks and the return slot are different held blocks;
     `Returns`     the slot passed is still the slot, and has the bytes its guest function
                   left there.

   With a class return inside another one the inner guest function writes over the slot of
   the outer one, or the slot is freed (`nested_return_overwrites`). -/
namespace RlboxWasm2c
open Blocks
open MinWasi (Memory)

/-! ## One class return at a time -/

/-- The class sizes the invocations return, if they do. -/
def classes (fs : List InvokeFrame) : List (Option ClassSize) := fs.map fun f => f.call.retClass

/-- A class of `n` bytes may be asked for: none is, and malloc takes the size. -/
def OneClassReturn (fs : List InvokeFrame) (n : ClassSize) : Prop :=
  n.1 < 2 ^ 32 ∧ ∀ c ∈ classes fs, c = none

instance (fs : List InvokeFrame) (n : ClassSize) : Decidable (OneClassReturn fs n) :=
  inferInstanceAs (Decidable (n.1 < 2 ^ 32 ∧ ∀ c ∈ classes fs, c = none))

/-- Host code asks for no class while another one is to be returned. -/
def NoNestedReturn (w : World) : Input → Prop
  | .host (.invoke S _ retClass _) => ∀ n ∈ retClass, OneClassReturn (framesOn S w.stack) n
  | _ => True

instance (w : World) : DecidablePred (NoNestedReturn w)
  | .host (.invoke S _ retClass _) =>
    inferInstanceAs (Decidable (∀ n ∈ retClass, OneClassReturn (framesOn S w.stack) n))
  | .host (.mallocInSandbox ..) | .host (.freeInSandbox ..) | .host (.table ..) | .host (.ret _)
  | .host .throw | .guest _ | .serializeArg _ | .tick | .unwind | .catch => .isTrue trivial

/-- The sandbox has no return slot for the moment: the invocation `f` gets it a new one. -/
def InvokeFrame.Limbo (f : InvokeFrame) : Prop := ∃ n, f.pc = .mallocSlot n ∨ f.pc = .setSlot n

structure OneReturn (L : Local) : Prop where
  one : (classes L.frames).Pairwise fun c d => c = none ∨ d = none
  sizes : ∀ c ∈ classes L.frames, ∀ n ∈ c, n.1 < 2 ^ 32
  settled : L.raising = true → ∀ f ∈ L.frames, ¬ f.Limbo

section one
variable {s s' : Sandbox} {f g : InvokeFrame} {fs fs' : List InvokeFrame}

theorem Chain.wellFormed (h : Chain fs) : ∀ f ∈ fs, f.WellFormed := by
  induction fs with
  | nil => exact List.forall_mem_nil _
  | cons f fs ih => exact List.forall_mem_cons.mpr ⟨h.1, ih h.2.2⟩

theorem InvokeFrame.not_limbo {pc : Pc} (h : f.pc = pc)
    (hpc : ∀ n, pc ≠ .mallocSlot n ∧ pc ≠ .setSlot n) : ¬ f.Limbo := by
  rintro ⟨n, hn | hn⟩ <;> rw [h] at hn
  · exact (hpc n).1 hn
  · exact (hpc n).2 hn

/-- An invocation in limbo gives a class. -/
theorem InvokeFrame.Limbo.retClass (h : f.Limbo) (hwf : f.WellFormed) :
    f.call.retClass ≠ none := by
  have hfits := hwf.fits
  obtain ⟨n, hpc | hpc⟩ := h <;>
  · rw [hpc] at hfits
    rw [show f.call.retClass = some n from hfits]
    nofun

theorem not_limbo_below (hchain : Chain (f :: fs)) (hother : ¬ f.call.Allocates) :
    ∀ g ∈ fs, ¬ g.Limbo := by
  intro g hg
  rcases hchain.below hother g hg with hpc | ⟨n, hpc⟩
  · exact InvokeFrame.not_limbo hpc (by simp)
  · exact InvokeFrame.not_limbo hpc (by simp)

/-- The other invocations give no class. -/
theorem OneReturn.others {r : Bool} (h : OneReturn ⟨s, f :: fs, r⟩) {n : ClassSize}
    (hret : f.call.retClass = some n) : ∀ c ∈ classes fs, c = none := by
  intro c hc
  refine ((List.pairwise_cons.mp h.one).1 c hc).resolve_left fun hnone => ?_
  cases hret.symm.trans hnone

theorem OneReturn.keep {r : Bool} (h : OneReturn ⟨s, fs, r⟩) (hclasses : classes fs' = classes fs) :
    OneReturn ⟨s', fs', false⟩ := by
  refine ⟨?_, ?_, nofun⟩ <;> dsimp only <;> rw [hclasses]
  · exact h.one
  · exact h.sizes

theorem OneReturn.push {r : Bool} (h : OneReturn ⟨s, fs, r⟩)
    (hclasses : classes fs' = none :: classes fs) : OneReturn ⟨s', fs', false⟩ := by
  refine ⟨?_, ?_, nofun⟩ <;> dsimp only <;> rw [hclasses]
  · exact List.pairwise_cons.mpr ⟨fun _ _ => .inl rfl, h.one⟩
  · exact List.forall_mem_cons.mpr ⟨nofun, h.sizes⟩

theorem OneReturn.pop {r : Bool} {c : Option ClassSize} (h : OneReturn ⟨s, fs, r⟩)
    (hclasses : classes fs = c :: classes fs') : OneReturn ⟨s', fs', false⟩ := by
  have hone := h.one
  have hsizes := h.sizes
  dsimp only at hone hsizes
  rw [hclasses] at hone hsizes
  exact ⟨(List.pairwise_cons.mp hone).2, (List.forall_mem_cons.mp hsizes).2, nofun⟩

/-- An exception is raised where nothing is in limbo. -/
theorem OneReturn.raised {r r' : Bool} (h : OneReturn ⟨s, fs, r⟩) (hlimbo : ∀ f ∈ fs, ¬ f.Limbo) :
    OneReturn ⟨s, fs, r'⟩ := ⟨h.one, h.sizes, fun _ => hlimbo⟩

theorem topRuns_not_limbo (hchain : Chain fs) (hruns : TopRuns fs) : ∀ f ∈ fs, ¬ f.Limbo := by
  cases fs with
  | nil => exact List.forall_mem_nil _
  | cons f fs =>
    obtain ⟨hpc, hother⟩ := hruns f rfl
    exact List.forall_mem_cons.mpr
      ⟨InvokeFrame.not_limbo hpc (by simp), not_limbo_below hchain hother⟩

theorem step_oneReturn {S : SandboxId} {L L' : Local} (hchain : Chain L.frames) (h : OneReturn L)
    (hs : LocalStep OneClassReturn S L L') : OneReturn L' := by
  cases hs with
  | same => exact h
  | table => exact ⟨h.one, h.sizes, h.settled⟩
  | raise hruns | caught hruns => exact h.raised (topRuns_not_limbo hchain hruns)
  | @unwind s f fs =>
    have hpop : OneReturn ⟨s, fs, false⟩ := h.pop rfl
    exact ⟨hpop.one, hpop.sizes, fun _ => (List.forall_mem_cons.mp (h.settled rfl)).2⟩
  | @invoke s fs call old hruns hclass =>
    cases hret : call.retClass with
    | none => exact h.push (congrArg (· :: classes fs) hret)
    | some n =>
      -- the host asks for a class only where no invocation of the sandbox returns one
      obtain ⟨hsize, hothers⟩ := hclass n hret
      refine ⟨List.pairwise_cons.mpr ⟨fun c hc => .inr (hothers c hc), h.one⟩,
        List.forall_mem_cons.mpr ⟨fun m hm => ?_, h.sizes⟩, nofun⟩
      change m ∈ call.retClass at hm
      rw [hret] at hm
      cases hm
      exact hsize
  | store | ret | plainReturn | noSlot | slotFits | enterBody => exact h.keep rfl
  | freeSlot | mallocSlot | recurse | serializeArg | freeArg => exact h.push rfl
  | slotGranted | recorded | argStored => exact h.pop rfl
  | exited => exact h.pop rfl
  | slotTooBig hpc hsize =>
    have hfits := hchain.1.fits
    rw [hpc] at hfits
    -- excluded: the sizes asked for fit into 32 bits
    have hlt := h.sizes _ (List.mem_cons_self ..) _ hfits
    omega
  | copyOutBad hpc =>
    have hfits := hchain.1.fits
    rw [hpc] at hfits
    exact h.raised (List.forall_mem_cons.mpr ⟨InvokeFrame.not_limbo hpc (by simp),
      not_limbo_below hchain (hchain.1.shaped.not_allocates hfits)⟩)
  | argTooBig hpc hpending hk =>
    exact OneReturn.raised (h.keep rfl) (List.forall_mem_cons.mpr
      ⟨InvokeFrame.not_limbo rfl (by simp),
        not_limbo_below hchain (hchain.1.shaped.not_allocates_of_class hk)⟩)
  | argBad hfree hpc hk =>
    exact OneReturn.raised (h.pop rfl) (List.forall_mem_cons.mpr
      ⟨InvokeFrame.not_limbo hpc (by simp),
        not_limbo_below hchain.2.2 (hchain.2.2.1.shaped.not_allocates_of_class hk)⟩)

end one

/-! ## What is owned -/

/-- The argument blocks an invocation has not freed yet. Those of a recursive call are
    nobody's once it returned. -/
def InvokeFrame.temps (f : InvokeFrame) : List Nat :=
  match f.pc with
  | .freeArgs i => (f.slots.map Prod.snd).drop i
  | .copyOut _ => []
  | _ => f.slots.map Prod.snd

def tempsOf (fs : List InvokeFrame) : List Nat := fs.flatMap InvokeFrame.temps

/-- The slot of a sandbox that has one. -/
def Sandbox.slotBlock (s : Sandbox) : Block := ⟨s.returnSlot, s.returnSlotSize⟩

structure Owned (L : Local) : Prop where
  temps : Owns L.box.held (tempsOf L.frames)
  slot : (∀ f ∈ L.frames, ¬ f.Limbo) → L.box.returnSlotSize ≠ 0 →
    Owns L.box.held (L.box.returnSlot :: tempsOf L.frames) ∧ L.box.slotBlock ∈ L.box.held

section owned
variable {s s' : Sandbox} {f g : InvokeFrame} {fs fs' : List InvokeFrame} {r r' : Bool}

/-- Blocks are only given up. -/
theorem Owned.drop (h : Owned ⟨s, fs, r⟩) (hheld : s'.held = s.held)
    (hslot : s'.slotBlock = s.slotBlock) (htemps : (tempsOf fs').Sublist (tempsOf fs))
    (hlimbo : (∀ f ∈ fs', ¬ f.Limbo) → ∀ f ∈ fs, ¬ f.Limbo) : Owned ⟨s', fs', r'⟩ := by
  obtain ⟨haddr, hsize⟩ := Block.mk.injEq .. ▸ hslot
  refine ⟨?_, fun hfs' hpos => ?_⟩
  · dsimp only
    rw [hheld]
    exact h.temps.sublist htemps
  · dsimp only at hpos ⊢
    rw [hsize] at hpos
    obtain ⟨howns, hmem⟩ := h.slot (hlimbo hfs') hpos
    rw [hheld, hslot, haddr]
    exact ⟨howns.sublist (htemps.cons_cons _), hmem⟩

theorem tempsOf_cons (f : InvokeFrame) (fs : List InvokeFrame) :
    tempsOf (f :: fs) = f.temps ++ tempsOf fs := List.flatMap_cons

/-- The invocation on top goes on with the same argument blocks. -/
theorem tempsOf_setTop (h : g.temps = f.temps) : tempsOf (g :: fs) = tempsOf (f :: fs) := by
  rw [tempsOf_cons, tempsOf_cons, h]

theorem temps_suffix (f : InvokeFrame) (fs : List InvokeFrame) :
    (tempsOf fs).Sublist (tempsOf (f :: fs)) := by
  rw [tempsOf_cons]
  exact List.sublist_append_right ..

/-- The invocation on top goes on. -/
theorem Owned.setTop (h : Owned ⟨s, f :: fs, r⟩) (hheld : s'.held = s.held)
    (hslot : s'.slotBlock = s.slotBlock) (htemps : g.temps.Sublist f.temps)
    (hlimbo : ¬ g.Limbo → ¬ f.Limbo) : Owned ⟨s', g :: fs, r'⟩ := by
  refine h.drop hheld hslot ?_ fun hnew => ?_
  · rw [tempsOf_cons, tempsOf_cons]
    exact htemps.append_right _
  · exact List.forall_mem_cons.mpr
      ⟨hlimbo (hnew g (List.mem_cons_self ..)), (List.forall_mem_cons.mp hnew).2⟩

theorem Owned.push (h : Owned ⟨s, fs, r⟩) {S : SandboxId} {call : Call} {old : Option SandboxId}
    {retBlock : Option Block} {memory : Memory} :
    Owned ⟨s, newFrame S call old retBlock memory :: fs, r⟩ :=
  h.drop rfl rfl (.refl _) fun hnew => (List.forall_mem_cons.mp hnew).2

/-- The invocation on top is left. -/
theorem Owned.pop (h : Owned ⟨s, f :: fs, r⟩) (hlimbo : ¬ f.Limbo) : Owned ⟨s, fs, r⟩ :=
  h.drop rfl rfl (temps_suffix ..) fun hnew => List.forall_mem_cons.mpr ⟨hlimbo, hnew⟩

/-- A block is granted to nobody. -/
theorem Owned.leak (h : Owned ⟨s, fs, r⟩) {b : Block} (hb : 0 < b.size) :
    Owned ⟨s.grant b, fs, r'⟩ := by
  have hheld : (s.grant b).held = s.held ∨ (s.grant b).held = b :: s.held := by
    unfold Sandbox.grant
    split
    · exact .inl rfl
    · exact .inr rfl
  rcases hheld with heq | heq
  · exact h.drop heq rfl (.refl _) id
  · refine ⟨?_, fun hlimbo hpos => ?_⟩ <;> dsimp only <;> rw [heq]
    · exact h.temps.weaken hb
    · obtain ⟨hslot, hmem⟩ := h.slot hlimbo hpos
      exact ⟨hslot.weaken hb, List.mem_cons_of_mem _ hmem⟩

/-- The slot is freed, and not used until there is a new one. -/
theorem owned_freeSlot (hchain : Chain (f :: fs)) (h : Owned ⟨s, f :: fs, false⟩) {n : ClassSize}
    {old : Option SandboxId} {S : SandboxId} (hpc : f.pc = .start)
    (hret : f.call.retClass = some n) (hpos : s.returnSlotSize ≠ 0) :
    Owned ⟨s.release s.returnSlot,
      newFrame S (freeCall s.returnSlot) old none s.memory :: { f with pc := .mallocSlot n } :: fs,
      false⟩ := by
  have hlimbo : ∀ g ∈ f :: fs, ¬ g.Limbo := List.forall_mem_cons.mpr
    ⟨InvokeFrame.not_limbo hpc (by simp),
      not_limbo_below hchain (hchain.1.shaped.not_allocates hret)⟩
  have htemps : tempsOf ({ f with pc := .mallocSlot n } :: fs) = tempsOf (f :: fs) :=
    tempsOf_setTop (by rw [InvokeFrame.temps, InvokeFrame.temps, hpc])
  refine ⟨?_, fun hnew => absurd ⟨n, .inl rfl⟩ (hnew { f with pc := .mallocSlot n } (by simp))⟩
  change Owns _ (tempsOf ({ f with pc := .mallocSlot n } :: fs))
  rw [htemps]
  exact (h.slot hlimbo hpos).1.free

/-- The new slot is at no address owned. -/
theorem owned_slotGranted (h : Owned ⟨s, f :: g :: fs, false⟩) {n : ClassSize} {v : Nat}
    (hpc : g.pc = .setSlot n) (hgrants : Grants s n.1 v) :
    Owned ⟨{ s.grant ⟨v, n.1⟩ with returnSlot := v, returnSlotSize := n.1 },
      { g with pc := .recurse n } :: fs, false⟩ := by
  have hheld : (s.grant ⟨v, n.1⟩).held = ⟨v, n.1⟩ :: s.held := if_neg hgrants.1
  have htemps : tempsOf ({ g with pc := .recurse n } :: fs) = tempsOf (g :: fs) :=
    tempsOf_setTop (by rw [InvokeFrame.temps, InvokeFrame.temps, hpc])
  have howns : Owns s.held (tempsOf ({ g with pc := .recurse n } :: fs)) := by
    rw [htemps]
    exact h.temps.sublist (temps_suffix ..)
  refine ⟨?_, fun _ _ => ⟨?_, ?_⟩⟩ <;> dsimp only <;> rw [hheld]
  · exact howns.weaken n.2
  · exact howns.grant hgrants.2 n.2
  · exact List.mem_cons_self ..

/-- An argument block is granted. -/
theorem owned_argStored (h : Owned ⟨s, f :: g :: fs, false⟩) {i k v : Nat} {bytes : ClassBytes}
    (hfree : f.pc = .freeArgs i) (hpc : g.pc = .setArg k)
    (hgrants : Grants s bytes.1.length v) :
    Owned ⟨{ s.grant ⟨v, bytes.1.length⟩ with memory := s.memory.write v bytes.1 },
      { g with pc := .serialize, slots := g.slots ++ [(k, v)] } :: fs, false⟩ := by
  have hheld : (s.grant ⟨v, bytes.1.length⟩).held = ⟨v, bytes.1.length⟩ :: s.held :=
    if_neg hgrants.1
  have hsize : 0 < bytes.1.length := List.length_pos_iff.mpr bytes.2
  -- the block comes last among those of its invocation
  have htemps : (tempsOf ({ g with pc := .serialize, slots := g.slots ++ [(k, v)] } :: fs)).Perm
      (v :: tempsOf (g :: fs)) := by
    rw [tempsOf_cons, tempsOf_cons, InvokeFrame.temps, InvokeFrame.temps, hpc]
    dsimp only
    rw [List.map_append, List.append_assoc]
    exact List.perm_middle
  have howns := h.temps.sublist (temps_suffix f (g :: fs))
  refine ⟨?_, fun hlimbo hpos => ⟨?_, ?_⟩⟩ <;> dsimp only <;> rw [hheld]
  · exact (howns.grant hgrants.2 hsize).perm htemps
  all_goals
    have hold : ∀ k ∈ f :: g :: fs, ¬ k.Limbo := List.forall_mem_cons.mpr
      ⟨InvokeFrame.not_limbo hfree (by simp), List.forall_mem_cons.mpr
        ⟨InvokeFrame.not_limbo hpc (by simp), (List.forall_mem_cons.mp hlimbo).2⟩⟩
    obtain ⟨hslot, hmem⟩ := h.slot hold hpos
  · have hslot' := hslot.sublist ((temps_suffix f (g :: fs)).cons_cons _)
    exact (hslot'.grant hgrants.2 hsize).perm
      ((htemps.cons _).trans (List.Perm.swap ..))
  · exact List.mem_cons_of_mem _ hmem

/-- An argument block is freed. -/
theorem owned_freeArg (h : Owned ⟨s, f :: fs, false⟩) {i : Nat} {S : SandboxId}
    {old : Option SandboxId} (hpc : f.pc = .freeArgs i) (hi : i < f.slots.length) :
    Owned ⟨s.release (((f.slots.map Prod.snd)[i]?).getD 0),
      newFrame S (freeCall (((f.slots.map Prod.snd)[i]?).getD 0)) old none s.memory ::
        { f with
          pc := .freeArgs (i + 1)
          freed := f.freed ++ [((f.slots.map Prod.snd)[i]?).getD 0] } :: fs, false⟩ := by
  have hlen : i < (f.slots.map Prod.snd).length := by rwa [List.length_map]
  rw [List.getElem?_eq_getElem hlen, Option.getD_some]
  have hsplit : tempsOf (f :: fs) =
      (f.slots.map Prod.snd)[i] :: ((f.slots.map Prod.snd).drop (i + 1) ++ tempsOf fs) := by
    rw [tempsOf_cons, InvokeFrame.temps, hpc]
    dsimp only
    rw [List.drop_eq_getElem_cons hlen, List.cons_append]
  have htemps := h.temps
  dsimp only at htemps
  rw [hsplit] at htemps
  refine ⟨htemps.free, fun hlimbo hpos => ?_⟩
  have hold : ∀ k ∈ f :: fs, ¬ k.Limbo := List.forall_mem_cons.mpr
    ⟨InvokeFrame.not_limbo hpc (by simp),
      (List.forall_mem_cons.mp (List.forall_mem_cons.mp hlimbo).2).2⟩
  obtain ⟨hslot, hmem⟩ := h.slot hold hpos
  dsimp only at hslot
  rw [hsplit] at hslot
  have hswap := hslot.perm (List.Perm.swap ..)
  refine ⟨hswap.free, mem_freed.mpr ⟨hmem, ?_⟩⟩
  -- the slot is not the argument block
  intro heq
  exact (List.nodup_cons.mp hswap.nodup).1 (heq ▸ List.mem_cons_self ..)

/-- Every step keeps what is owned, if only slots entered are freed and an exception finds a
    sandbox that has a slot with nothing in limbo. -/
theorem step_owned {P : List InvokeFrame → ClassSize → Prop} {S : SandboxId} {L L' : Local}
    (hchain : Chain L.frames)
    (hfilled : ∀ f ∈ L.frames, ∀ i, f.pc = .freeArgs i → f.call.allocLength ≤ f.slots.length)
    (hsettled : L.raising = true → L.box.returnSlotSize ≠ 0 → ∀ f ∈ L.frames, ¬ f.Limbo)
    (h : Owned L) (hs : LocalStep P S L L') : Owned L' := by
  cases hs with
  | same => exact h
  | table => exact h.drop rfl rfl (.refl _) id
  | raise | caught | copyOutBad => exact h.drop rfl rfl (.refl _) id
  | unwind =>
    refine ⟨h.temps.sublist (temps_suffix ..), fun _ hpos => ?_⟩
    obtain ⟨hslot, hmem⟩ := h.slot (hsettled rfl hpos) hpos
    exact ⟨hslot.sublist ((temps_suffix ..).cons_cons _), hmem⟩
  | invoke => exact h.drop rfl rfl (.refl _) fun hnew => (List.forall_mem_cons.mp hnew).2
  | store hpc hmay => exact h.setTop rfl rfl (.refl _) id
  | ret hpc =>
    refine h.setTop rfl rfl ?_ fun _ => InvokeFrame.not_limbo hpc (by simp)
    rw [InvokeFrame.temps, InvokeFrame.temps, hpc]
    exact List.drop_sublist ..
  | plainReturn hpc hret =>
    refine h.setTop rfl rfl ?_ fun _ => InvokeFrame.not_limbo hpc (by simp)
    rw [InvokeFrame.temps, InvokeFrame.temps, hpc]
  | freeSlot hpc hret hpos => exact owned_freeSlot hchain h hpc hret hpos
  | noSlot hpc hret | slotFits hpc hret =>
    refine h.setTop rfl rfl ?_ fun _ => InvokeFrame.not_limbo hpc (by simp)
    rw [InvokeFrame.temps, InvokeFrame.temps, hpc]
  | @mallocSlot s f fs n old hpc =>
    refine Owned.push (h.setTop rfl rfl ?_ fun hnew => absurd ⟨n, .inr rfl⟩ hnew)
    rw [InvokeFrame.temps, InvokeFrame.temps, hpc]
  | @slotTooBig s f fs n hpc =>
    refine h.setTop rfl rfl ?_ fun hnew => absurd ⟨n, .inr rfl⟩ hnew
    rw [InvokeFrame.temps, InvokeFrame.temps, hpc]
  | slotGranted hfree hpc hgrants => exact owned_slotGranted h hpc hgrants
  | recurse hpc =>
    refine Owned.push (h.setTop rfl rfl ?_ fun _ => InvokeFrame.not_limbo hpc (by simp))
    exact List.nil_sublist _
  | recorded hfree hpc =>
    refine Owned.setTop (h.pop (InvokeFrame.not_limbo hfree (by simp))) rfl rfl ?_ id
    rw [InvokeFrame.temps, InvokeFrame.temps, hpc]
  | serializeArg hpc =>
    refine Owned.push (h.setTop rfl rfl ?_ fun _ => InvokeFrame.not_limbo hpc (by simp))
    rw [InvokeFrame.temps, InvokeFrame.temps, hpc]
  | argTooBig hpc | enterBody hpc =>
    refine h.setTop rfl rfl ?_ fun _ => InvokeFrame.not_limbo hpc (by simp)
    rw [InvokeFrame.temps, InvokeFrame.temps, hpc]
  | argStored hfree hpc hk hgrants => exact owned_argStored h hfree hpc hgrants
  | @argBad s f g fs i k v bytes lvalue hfree hpc hk hgrants =>
    have hsize : 0 < (⟨v, bytes.1.length⟩ : Block).size := List.length_pos_iff.mpr bytes.2
    exact Owned.leak (h.pop (InvokeFrame.not_limbo hfree (by simp))) hsize
  | freeArg hpc hi =>
    exact owned_freeArg h hpc (Nat.lt_of_lt_of_le hi (hfilled _ (List.mem_cons_self ..) _ hpc))
  | exited hexit htop =>
    refine h.pop ?_
    rcases hexit with ⟨n, hpc⟩ | ⟨i, hpc⟩ <;> exact InvokeFrame.not_limbo hpc (by simp)

end owned
/-! ## What is in the slot -/

/-- The slot passed as `b` is the slot still, and has there the bytes of `own`. -/
structure Intact (s : Sandbox) (b : Block) (own : Memory) : Prop where
  slot : s.returnSlot = b.addr
  fits : b.size ≤ s.returnSlotSize
  bytes : ∀ a, b.Contains a → s.memory.data a = own.data a

structure Returns (L : Local) : Prop where
  running : ∀ f ∈ L.frames, ∀ b ∈ f.retBlock, Intact L.box b f.own
  returned : L.raising = false → ∀ f ∈ L.frames.head?, ∀ n, f.pc = .copyOut n →
    ∃ b own, f.inner = some (b, own) ∧ b.size = n.1 ∧ Intact L.box b own
  fits : ∀ f ∈ L.frames, ∀ n, f.pc = .recurse n → n.1 ≤ L.box.returnSlotSize

section slots
variable {s s' : Sandbox} {f g : InvokeFrame} {fs : List InvokeFrame}

/-- Directly below a recursive call is the invocation it was made for. -/
theorem below_recursive (hchain : Chain (f :: fs)) {b : Block} (hb : b ∈ f.retBlock) :
    ∃ g fs' n, fs = g :: fs' ∧ g.pc = .copyOut n ∧ g.call.retClass = some n ∧ b.size = n.1 := by
  obtain ⟨-, hmade, hrest⟩ := hchain
  cases fs with
  | nil =>
    rw [show f.retBlock = none from hmade] at hb
    cases hb
  | cons g fs =>
    rcases hmade with hinvoked | ⟨-, hret⟩
    · cases hinvoked with
      | freeSlot _ _ hret | mallocSlot _ _ hret | mallocArg _ _ _ hret | freeArg _ _ hret =>
        rw [hret] at hb
        cases hb
      | @recurse n a hpc hcall hret =>
        have hfits := hrest.1.fits
        rw [hpc] at hfits
        rw [hret] at hb
        cases hb
        exact ⟨g, fs, n, rfl, hpc, hfits, rfl⟩
    · rw [hret] at hb
      cases hb

theorem exists_returning (hchain : Chain (f :: fs)) {R : InvokeFrame} (hR : R ∈ f :: fs)
    {b : Block} (hb : b ∈ R.retBlock) :
    ∃ F ∈ fs, ∃ n, F.pc = .copyOut n ∧ F.call.retClass = some n ∧ b.size = n.1 := by
  induction fs generalizing f with
  | nil =>
    obtain ⟨g, fs', n, hnil, -⟩ := below_recursive hchain (List.mem_singleton.mp hR ▸ hb)
    cases hnil
  | cons g fs ih =>
    rcases List.mem_cons.mp hR with rfl | hR
    · obtain ⟨k, fs', n, hcons, hk⟩ := below_recursive hchain hb
      cases hcons
      exact ⟨g, List.mem_cons_self .., n, hk⟩
    · obtain ⟨F, hF, hn⟩ := ih hchain.2.2 hR
      exact ⟨F, List.mem_cons_of_mem _ hF, hn⟩

/-- From an invocation that gives a class downwards there is no recursive call. -/
theorem no_slot_of_class (hchain : Chain (f :: fs)) {r : Bool} (hone : OneReturn ⟨s, f :: fs, r⟩)
    {n : ClassSize} (hret : f.call.retClass = some n) : ∀ g ∈ f :: fs, g.retBlock = none := by
  intro g hg
  cases hb : g.retBlock with
  | none => rfl
  | some b =>
    obtain ⟨F, hF, m, -, hclass, -⟩ := exists_returning hchain hg hb
    have hnone := hone.others hret _ (List.mem_map_of_mem hF)
    cases hclass.symm.trans hnone

/-- Below a recursive call there is no second one. -/
theorem slot_unique (hchain : Chain (f :: fs)) {r : Bool} (hone : OneReturn ⟨s, f :: fs, r⟩)
    {b : Block} (hb : b ∈ f.retBlock) : ∀ g ∈ fs, g.retBlock = none := by
  obtain ⟨g, fs', n, rfl, -, hret, -⟩ := below_recursive hchain hb
  have hrest : OneReturn ⟨s, g :: fs', false⟩ := hone.pop rfl
  exact no_slot_of_class hchain.2.2 hrest hret

/-- While there is a recursive call nothing is in limbo. -/
theorem not_limbo_of_recursive (hchain : Chain fs) {r : Bool} (hone : OneReturn ⟨s, fs, r⟩)
    {R : InvokeFrame} (hR : R ∈ fs) {b : Block} (hb : b ∈ R.retBlock) : ∀ f ∈ fs, ¬ f.Limbo := by
  cases fs with
  | nil => cases hR
  | cons k fs =>
    obtain ⟨F, hF, n, hpc, hret, -⟩ := exists_returning hchain hR hb
    intro X hX hlimbo
    have hsymm : Std.Symm fun f g : InvokeFrame =>
        f.call.retClass = none ∨ g.call.retClass = none := ⟨fun _ _ h => h.symm⟩
    have hpair := (List.pairwise_map.mp hone.one).forall hX (List.mem_cons_of_mem _ hF)
    by_cases heq : X = F
    · exact InvokeFrame.not_limbo hpc (by simp) (heq ▸ hlimbo)
    · rcases hpair heq with hnone | hnone
      · exact hlimbo.retClass (hchain.wellFormed X hX) hnone
      · cases hret.symm.trans hnone

/-- While there is a recursive call the sandbox owns its slot. -/
theorem owned_slot (hchain : Chain fs) {r : Bool} (hone : OneReturn ⟨s, fs, r⟩)
    (howned : Owned ⟨s, fs, r⟩) (hreturns : Returns ⟨s, fs, r⟩) {R : InvokeFrame} (hR : R ∈ fs)
    {b : Block} (hb : b ∈ R.retBlock) :
    Owns s.held (s.returnSlot :: tempsOf fs) ∧ s.slotBlock ∈ s.held := by
  refine howned.slot (not_limbo_of_recursive hchain hone hR hb) ?_
  have hfits := (hreturns.running R hR b hb).fits
  cases fs with
  | nil => cases hR
  | cons k fs =>
    obtain ⟨F, -, n, -, -, hsize⟩ := exists_returning hchain hR hb
    have hpos := n.2
    dsimp only at hfits ⊢
    omega

/-- Bytes stored outside the slot. -/
theorem Intact.write {b : Block} {own : Memory} (h : Intact s b own) {a : Nat}
    {bytes : List UInt8} (hdisjoint : s.slotBlock.Disjoint ⟨a, bytes.length⟩) :
    Intact { s with memory := s.memory.write a bytes } b own := by
  refine ⟨h.slot, h.fits, fun x hx => (Memory.write_data_of_not ?_).trans (h.bytes x hx)⟩
  have hin : s.slotBlock.Contains x := by
    have hslot := h.slot
    have hfits := h.fits
    unfold Block.Contains at hx ⊢
    unfold Sandbox.slotBlock
    dsimp only
    omega
  exact hdisjoint.outside hin

/-- Bytes stored by the guest function the slot was passed to. -/
theorem Intact.note {b : Block} {own : Memory} (h : Intact s b own) (a : Nat)
    (bytes : List UInt8) :
    Intact { s with memory := s.memory.write a bytes } b (own.write a bytes) := by
  refine ⟨h.slot, h.fits, fun x hx => ?_⟩
  unfold Memory.write
  dsimp only
  rw [h.bytes x hx]

/-- A store of the guest function on top is in the slot it was passed, or in no slot. -/
theorem running_store (hchain : Chain (f :: fs)) (hone : OneReturn ⟨s, f :: fs, false⟩)
    (howned : Owned ⟨s, f :: fs, false⟩) (h : Returns ⟨s, f :: fs, false⟩) {a : Nat}
    {bytes : List UInt8} (hpc : f.pc = .body) (hmay : MayStore s f a bytes.length) :
    ∀ R ∈ f.note a bytes :: fs, ∀ b ∈ R.retBlock,
      Intact { s with memory := s.memory.write a bytes } b R.own := by
  refine List.forall_mem_cons.mpr ⟨fun b hb => ?_, fun R hR b hb => ?_⟩
  · exact (h.running f (List.mem_cons_self ..) b hb).note a bytes
  · have hR' := List.mem_cons_of_mem f hR
    obtain ⟨hslot, hheld⟩ := owned_slot hchain hone howned h hR' hb
    refine (h.running R hR' b hb).write ((hmay _ hheld).resolve_left fun hhanded => ?_)
    -- what is handed to the guest function of `f` are its argument blocks
    have hnone : f.retBlock = none := by
      cases hret : f.retBlock with
      | none => rfl
      | some b' =>
        rw [slot_unique hchain hone hret R hR] at hb
        cases hb
    unfold InvokeFrame.handed at hhanded
    rw [hnone, Option.map_none, Option.toList_none, List.append_nil] at hhanded
    refine (List.nodup_cons.mp hslot.nodup).1 ?_
    rw [tempsOf_cons, InvokeFrame.temps, hpc]
    exact List.mem_append_left _ hhanded

theorem returned_head {P : InvokeFrame → ClassSize → Prop} (h : ∀ n, f.pc ≠ .copyOut n) :
    ∀ g ∈ (f :: fs).head?, ∀ n, g.pc = .copyOut n → P g n := by
  intro g hg n hn
  cases hg
  exact absurd hn (h n)

/-- The slot and the memory are the same. -/
theorem Returns.box {r : Bool} (h : Returns ⟨s, fs, r⟩) (hslot : s'.slotBlock = s.slotBlock)
    (hmemory : s'.memory = s.memory) : Returns ⟨s', fs, r⟩ := by
  obtain ⟨haddr, hsize⟩ := Block.mk.injEq .. ▸ hslot
  have hintact : ∀ b own, Intact s b own → Intact s' b own := fun b own hb =>
    ⟨haddr.trans hb.slot, hsize ▸ hb.fits, hmemory ▸ hb.bytes⟩
  refine ⟨fun f hf b hb => hintact _ _ (h.running f hf b hb), fun hr f hf n hn => ?_,
    fun f hf n hn => hsize ▸ h.fits f hf n hn⟩
  obtain ⟨b, own, hinner, hsize', hb⟩ := h.returned hr f hf n hn
  exact ⟨b, own, hinner, hsize', hintact _ _ hb⟩

theorem Returns.setTop (h : Returns ⟨s, f :: fs, false⟩) {r : Bool} (hret : g.retBlock = f.retBlock)
    (hown : g.own = f.own) (hcopy : ∀ n, g.pc ≠ .copyOut n)
    (hfits : ∀ n, g.pc = .recurse n → n.1 ≤ s.returnSlotSize) : Returns ⟨s, g :: fs, r⟩ := by
  refine ⟨List.forall_mem_cons.mpr ⟨?_, (List.forall_mem_cons.mp h.running).2⟩,
    fun _ => returned_head hcopy,
    List.forall_mem_cons.mpr ⟨hfits, (List.forall_mem_cons.mp h.fits).2⟩⟩
  rw [hret, hown]
  exact (List.forall_mem_cons.mp h.running).1

theorem Returns.push (h : Returns ⟨s, fs, false⟩) {S : SandboxId} {call : Call}
    {old : Option SandboxId} {memory : Memory} :
    Returns ⟨s, newFrame S call old none memory :: fs, false⟩ :=
  ⟨List.forall_mem_cons.mpr ⟨fun _ hb => (Option.not_mem_none _ hb).elim, h.running⟩,
    fun _ => returned_head nofun, List.forall_mem_cons.mpr ⟨nofun, h.fits⟩⟩

/-- The recursive call is passed the slot as it is. -/
theorem returns_recurse (h : Returns ⟨s, f :: fs, false⟩) {n : ClassSize} {S : SandboxId}
    {old : Option SandboxId} (hpc : f.pc = .recurse n) :
    Returns ⟨s,
      newFrame S (f.call.promoted s.returnSlot) old (some ⟨s.returnSlot, n.1⟩) s.memory ::
        { f with pc := .copyOut n } :: fs, false⟩ := by
  obtain ⟨hf, hfs⟩ := List.forall_mem_cons.mp h.running
  refine ⟨List.forall_mem_cons.mpr ⟨fun b hb => ?_, List.forall_mem_cons.mpr ⟨hf, hfs⟩⟩,
    fun _ => returned_head nofun, List.forall_mem_cons.mpr
      ⟨nofun, List.forall_mem_cons.mpr ⟨nofun, (List.forall_mem_cons.mp h.fits).2⟩⟩⟩
  cases hb
  exact ⟨rfl, h.fits f (List.mem_cons_self ..) n hpc, fun _ _ => rfl⟩

/-- Nobody uses the slot that is replaced. -/
theorem returns_slotGranted (hchain : Chain (f :: g :: fs))
    (hone : OneReturn ⟨s, f :: g :: fs, false⟩) {n : ClassSize} (hpc : g.pc = .setSlot n)
    (hslot : s'.returnSlotSize = n.1) : Returns ⟨s', { g with pc := .recurse n } :: fs, false⟩ := by
  have hfits := hchain.2.2.1.fits
  rw [hpc] at hfits
  have hrest : OneReturn ⟨s, g :: fs, false⟩ := hone.pop rfl
  have hnone := no_slot_of_class hchain.2.2 hrest hfits
  have hother := hchain.2.2.1.shaped.not_allocates hfits
  refine ⟨fun R hR b hb => ?_, fun _ => returned_head nofun, fun k hk m hm => ?_⟩
  · have hnoneR : R.retBlock = none := by
      rcases List.mem_cons.mp hR with rfl | hR
      · exact hnone g (List.mem_cons_self ..)
      · exact hnone R (List.mem_cons_of_mem _ hR)
    rw [hnoneR] at hb
    cases hb
  · rcases List.mem_cons.mp hk with rfl | hk
    · cases hm
      exact hslot.ge
    · rcases hchain.2.2.below hother k hk with hpc' | ⟨m', hpc'⟩ <;> cases hpc'.symm.trans hm

theorem returns_argStored (hchain : Chain (f :: g :: fs))
    (hone : OneReturn ⟨s, f :: g :: fs, false⟩) (howned : Owned ⟨s, f :: g :: fs, false⟩)
    (h : Returns ⟨s, f :: g :: fs, false⟩) {k v : Nat}
    {bytes : ClassBytes} (hgrants : Grants s bytes.1.length v) :
    Returns ⟨{ s.grant ⟨v, bytes.1.length⟩ with memory := s.memory.write v bytes.1 },
      { g with pc := .serialize, slots := g.slots ++ [(k, v)] } :: fs, false⟩ := by
  have hwrite : ∀ R ∈ g :: fs, ∀ b ∈ R.retBlock,
      Intact { s with memory := s.memory.write v bytes.1 } b R.own := by
    intro R hR b hb
    have hR' := List.mem_cons_of_mem f hR
    obtain ⟨-, hheld⟩ := owned_slot hchain hone howned h hR' hb
    exact (h.running R hR' b hb).write (hgrants.2 _ hheld)
  have hstored : ∀ b own, Intact { s with memory := s.memory.write v bytes.1 } b own →
      Intact { s.grant ⟨v, bytes.1.length⟩ with memory := s.memory.write v bytes.1 } b own :=
    fun b own hb => ⟨hb.slot, hb.fits, hb.bytes⟩
  obtain ⟨hg, hfs⟩ := List.forall_mem_cons.mp hwrite
  refine ⟨List.forall_mem_cons.mpr ⟨fun b hb => hstored _ _ (hg b hb),
    fun R hR b hb => hstored _ _ (hfs R hR b hb)⟩, fun _ => returned_head nofun,
    List.forall_mem_cons.mpr ⟨nofun, ?_⟩⟩
  exact (List.forall_mem_cons.mp (List.forall_mem_cons.mp h.fits).2).2

theorem step_returns {S : SandboxId} {L L' : Local} (hchain : Chain L.frames) (hone : OneReturn L)
    (howned : Owned L) (h : Returns L) (hs : LocalStep OneClassReturn S L L') : Returns L' := by
  cases hs with
  | same => exact h
  | table => exact h.box rfl rfl
  | raise | copyOutBad => exact ⟨h.running, nofun, h.fits⟩
  | unwind =>
    exact ⟨(List.forall_mem_cons.mp h.running).2, nofun, (List.forall_mem_cons.mp h.fits).2⟩
  | caught hruns =>
    refine ⟨h.running, fun _ f hf n hn => ?_, h.fits⟩
    cases (hruns f hf).1.symm.trans hn
  | invoke => exact h.push
  | store hpc hmay =>
    refine ⟨running_store hchain hone howned h hpc hmay,
      fun _ => returned_head fun n hn => ?_, List.forall_mem_cons.mpr
        ⟨fun n hn => ?_, (List.forall_mem_cons.mp h.fits).2⟩⟩
    · cases hpc.symm.trans hn
    · cases hpc.symm.trans hn
  | ret | plainReturn | noSlot | slotTooBig | argTooBig | enterBody =>
    exact h.setTop rfl rfl nofun nofun
  | slotFits hpc hret hsize =>
    refine h.setTop rfl rfl nofun fun n hn => ?_
    cases hn
    exact hsize
  | mallocSlot | serializeArg =>
    refine Returns.push ?_
    exact h.setTop rfl rfl nofun nofun
  | @freeSlot s f fs n old =>
    have hbox : Returns ⟨s.release s.returnSlot, f :: fs, false⟩ := h.box rfl rfl
    refine Returns.push ?_
    exact hbox.setTop rfl rfl nofun nofun
  | @freeArg s f fs i old =>
    have hbox : Returns ⟨s.release (((f.slots.map Prod.snd)[i]?).getD 0), f :: fs, false⟩ :=
      h.box rfl rfl
    refine Returns.push ?_
    exact hbox.setTop rfl rfl nofun nofun
  -- a slot is replaced only where no running function was passed the old one
  | slotGranted hfree hpc => exact returns_slotGranted hchain hone hpc rfl
  | recurse hpc => exact returns_recurse h hpc
  | @recorded s f g fs n i a hfree hpc hcall hret =>
    obtain ⟨hf, hgs⟩ := List.forall_mem_cons.mp h.running
    obtain ⟨-, hfits⟩ := List.forall_mem_cons.mp h.fits
    refine ⟨List.forall_mem_cons.mpr (List.forall_mem_cons.mp hgs), fun _ k hk m hm => ?_,
      List.forall_mem_cons.mpr (List.forall_mem_cons.mp hfits)⟩
    cases hk
    cases hpc.symm.trans hm
    exact ⟨_, _, rfl, rfl, hf _ hret⟩
  | argStored hfree hpc hk hgrants => exact returns_argStored hchain hone howned h hgrants
  | @argBad s f g fs i k v bytes lvalue hfree hpc hk hgrants =>
    have hbox : Returns ⟨s.grant ⟨v, bytes.1.length⟩, f :: g :: fs, false⟩ := h.box rfl rfl
    exact ⟨(List.forall_mem_cons.mp hbox.running).2, nofun, (List.forall_mem_cons.mp hbox.fits).2⟩
  | exited hexit htop =>
    exact ⟨(List.forall_mem_cons.mp h.running).2, fun _ g hg n hn => absurd hn (htop g hg n),
      (List.forall_mem_cons.mp h.fits).2⟩

end slots
/-! ## Class values survive -/

/-- The slot `b` of a recursive call has not been replaced, freed or overwritten: it is the
    slot still, in a held block, with the bytes of `own`. -/
structure SlotKept (s : Sandbox) (b : Block) (own : Memory) : Prop where
  notReplaced : s.returnSlot = b.addr
  notFreed : ∃ c ∈ s.held, c.addr = b.addr ∧ b.size ≤ c.size
  notOverwritten : s.memory.read b.addr b.size = own.read b.addr b.size

/-- The class value handed to the host is what its guest function left at the address it
    was passed, and until then the slots passed are kept. -/
structure ReturnsSurvive (grow : GrowFuncrefTable) (w : World) : Prop where
  handed : ∀ f rest n w', w.raising = none → w.stack = .invoke f :: rest → f.pc = .copyOut n →
    step grow .tick w = some w' → w'.raising = none →
    ∃ b own, f.inner = some (b, own) ∧ b.size = n.1 ∧ w'.result = own.read b.addr n.1
  kept : ∀ f, .invoke f ∈ w.stack → ∀ b ∈ f.retBlock, SlotKept (w.sandboxes f.sandbox) b f.own

section survive
variable {grow : GrowFuncrefTable} {is : List Input} {w w' : World} {f : InvokeFrame}
  {rest : List Frame}

theorem mem_framesOn {stack : List Frame} (h : .invoke f ∈ stack) :
    f ∈ framesOn f.sandbox stack := by
  induction stack with
  | nil => cases h
  | cons fr stack ih =>
    rcases List.mem_cons.mp h with rfl | hmem
    · rw [framesOn_self rfl]
      exact List.mem_cons_self ..
    · cases fr with
      | callback c => exact ih hmem
      | invoke g =>
        unfold framesOn
        split
        · exact List.mem_cons_of_mem _ (ih hmem)
        · exact ih hmem

theorem Intact.read {s : Sandbox} {b : Block} {own : Memory} (h : Intact s b own) :
    s.memory.read b.addr b.size = own.read b.addr b.size :=
  Memory.read_congr fun i hi => h.bytes (b.addr + i) ⟨Nat.le_add_right .., Nat.add_lt_add_left hi _⟩

/-- What is handed over is read from the slot. -/
theorem tick_copyOut {n : ClassSize} (hmade : MadeBy f rest) (hwf : f.WellFormed)
    (hraising : w.raising = none) (hstack : w.stack = .invoke f :: rest) (hpc : f.pc = .copyOut n)
    (hs : step grow .tick w = some w') (hraising' : w'.raising = none) :
    w'.result = (w.sandboxes f.sandbox).memory.read (w.sandboxes f.sandbox).returnSlot n.1 := by
  have hret := hwf.fits
  rw [hpc] at hret
  unfold step at hs
  rw [hraising, hstack] at hs
  dsimp only at hs
  unfold tickInvoke at hs
  rw [hpc] at hs
  dsimp only at hs
  split at hs
  · cases hs
    rw [exitInvoke_host (hostRuns_of_class hmade hret)]
    rfl
  · cases hs
    cases hraising'

/-- What holds of every sandbox in such a run. -/
structure SlotInvariant (L : Local) : Prop where
  temporaries : Temporaries L
  one : OneReturn L
  owned : Owned L
  returns : Returns L

theorem created_slotInvariant {s : Sandbox} (hsize : s.returnSlotSize = 0) (hheld : s.held = []) :
    SlotInvariant ⟨s, [], false⟩ := by
  refine ⟨created_temporaries s, ⟨.nil, List.forall_mem_nil _, nofun⟩,
    ⟨?_, fun _ hpos => absurd hsize hpos⟩,
    ⟨List.forall_mem_nil _, fun _ f hf => ?_, List.forall_mem_nil _⟩⟩
  · dsimp only
    rw [hheld]
    exact .empty
  · cases hf

theorem step_slotInvariant {S : SandboxId} {L L' : Local} (hchain : Chain L.frames)
    (h : SlotInvariant L) (hs : LocalStep OneClassReturn S L L') : SlotInvariant L' :=
  ⟨step_temporaries hchain h.temporaries hs, step_oneReturn hchain h.one hs,
    step_owned hchain (fun f hf _ hpc => (h.temporaries.kept f hf).booked.allocLength_le hpc)
      (fun hraising _ => h.one.settled hraising) h.owned hs,
    step_returns hchain h.one h.owned h.returns hs⟩

end survive

/-- A callback is registered, and a guest function that gives a class of one byte has
    written it. -/
def returnByte : List Input :=
  [.host (.table 0 (.register unaryInt 11 101)),
    .host (.invoke 0 7 (some oneByte) []), .tick, .tick] ++ mallocReturns 1024 ++
    [.tick, .tick, .tick, .guest (.store 1024 1)]

/-- In the callback a guest function without a class result gets a class argument. -/
def plainNested : List Input :=
  returnByte ++ [.guest (.callSlot 1 0 [5]), .host (.invoke 0 7 none [byteClass]), .tick,
    .serializeArg 0] ++ mallocReturns 2048 ++
    [.tick, .guest (.store 2048 9), .guest (.ret 0), .tick, .tick, .tick, .guest (.ret 0), .tick,
      .tick, .host (.ret []), .guest (.ret 0), .tick]

/-- In the callback another guest function gives a class, and writes it to the same slot. -/
def classNested : List Input :=
  returnByte ++ [.guest (.callSlot 1 0 [5]), .host (.invoke 0 7 (some oneByte) []), .tick,
    .tick, .tick, .tick, .guest (.store 1024 9), .guest (.ret 0), .tick, .tick, .host (.ret []),
    .guest (.ret 0), .tick]

end RlboxWasm2c

import Mathlib.Data.List.Nodup

/- Blocks of memory and who owns them.

   An allocator grants blocks that do not overlap the blocks held, and takes blocks back by
   their address. `Owns held owned` says that the addresses `owned` belong to different
   held blocks. Granting, freeing and forgetting keep it, and a granted block is at none of
   the addresses owned before. `Accounts held owned` says that nothing else is held.

   A block can be cut: `b.SplitsInto parts` when the parts do not overlap and together are
   the bytes of `b`. Around a block inside it, `b` leaves at most two pieces. -/
namespace Blocks

/-- Bytes `[addr, addr + size)`. -/
structure Block where
  addr : Nat
  size : Nat
  deriving DecidableEq

def Block.Contains (b : Block) (a : Nat) : Prop := b.addr ≤ a ∧ a < b.addr + b.size

def Block.Disjoint (b c : Block) : Prop := b.addr + b.size ≤ c.addr ∨ c.addr + c.size ≤ b.addr

instance (b : Block) : DecidablePred b.Disjoint := fun c =>
  inferInstanceAs (Decidable (b.addr + b.size ≤ c.addr ∨ c.addr + c.size ≤ b.addr))

theorem Block.Disjoint.outside {b c : Block} (h : b.Disjoint c) {a : Nat} (ha : b.Contains a) :
    a < c.addr ∨ c.addr + c.size ≤ a := by
  unfold Block.Contains at ha
  unfold Block.Disjoint at h
  omega

/-! ## Cutting a block -/

/-- `c` lies inside `b`. -/
def Block.Within (c b : Block) : Prop := b.addr ≤ c.addr ∧ c.addr + c.size ≤ b.addr + b.size

structure Block.SplitsInto (b : Block) (parts : List Block) : Prop where
  disjoint : parts.Pairwise Block.Disjoint
  cover : ∀ x, b.Contains x ↔ ∃ p ∈ parts, p.Contains x

/-- The block alone; nothing when it is empty. -/
def Block.unlessEmpty (b : Block) : List Block := if b.size ≠ 0 then [b] else []

/-- The bytes of `b` before `c`. -/
def Block.front (b c : Block) : Block := ⟨b.addr, c.addr - b.addr⟩

/-- The bytes of `b` behind `c`. -/
def Block.back (b c : Block) : Block := ⟨c.addr + c.size, b.addr + b.size - (c.addr + c.size)⟩

/-- What `b` leaves around `c`. -/
def Block.around (b c : Block) : List Block := (b.front c).unlessEmpty ++ (b.back c).unlessEmpty

section Cut
variable {b c p : Block} {x : Nat}

theorem Block.eq_of_mem_unlessEmpty (h : p ∈ b.unlessEmpty) : p = b := by
  unfold Block.unlessEmpty at h
  split at h
  · exact List.mem_singleton.mp h
  · cases h

/-- A block with a byte is not left out. -/
theorem Block.Contains.mem_unlessEmpty (h : b.Contains x) : b ∈ b.unlessEmpty := by
  have hne : b.size ≠ 0 := by
    unfold Block.Contains at h
    omega
  unfold Block.unlessEmpty
  rw [if_pos hne]
  exact List.mem_singleton_self b

theorem Block.unlessEmpty_pairwise : b.unlessEmpty.Pairwise Block.Disjoint := by
  unfold Block.unlessEmpty
  split
  · exact List.pairwise_singleton ..
  · exact .nil

theorem Block.mem_around (h : p ∈ b.around c) : p = b.front c ∨ p = b.back c :=
  (List.mem_append.mp h).imp Block.eq_of_mem_unlessEmpty Block.eq_of_mem_unlessEmpty

/-- A block inside another and what the other leaves around it split the other. -/
theorem Block.splitsInto_around (h : c.Within b) : b.SplitsInto (c :: b.around c) where
  disjoint := by
    obtain ⟨hlo, hhi⟩ := h
    refine List.pairwise_cons.mpr ⟨?_, List.pairwise_append.mpr
      ⟨Block.unlessEmpty_pairwise, Block.unlessEmpty_pairwise, ?_⟩⟩
    · intro p hp
      rcases Block.mem_around hp with rfl | rfl
      · exact Or.inr (by show b.addr + (c.addr - b.addr) ≤ c.addr; omega)
      · exact Or.inl (Nat.le_refl _)
    · intro p hp q hq
      rw [Block.eq_of_mem_unlessEmpty hp, Block.eq_of_mem_unlessEmpty hq]
      exact Or.inl (by show b.addr + (c.addr - b.addr) ≤ c.addr + c.size; omega)
  cover x := by
    obtain ⟨hlo, hhi⟩ := h
    have hiff : b.Contains x ↔ c.Contains x ∨ (b.front c).Contains x ∨ (b.back c).Contains x := by
      unfold Block.Contains Block.front Block.back
      simp only
      omega
    rw [hiff]
    constructor
    · intro hx
      rcases hx with hc | hf | hb
      · exact ⟨c, List.mem_cons_self .., hc⟩
      · exact ⟨b.front c, List.mem_cons_of_mem _ (List.mem_append_left _ hf.mem_unlessEmpty), hf⟩
      · exact ⟨b.back c, List.mem_cons_of_mem _ (List.mem_append_right _ hb.mem_unlessEmpty), hb⟩
    · intro ⟨p, hp, hx⟩
      rcases List.mem_cons.mp hp with rfl | hp
      · exact Or.inl hx
      · rcases Block.mem_around hp with rfl | rfl
        · exact Or.inr (Or.inl hx)
        · exact Or.inr (Or.inr hx)

end Cut

/-! ## Owners -/

/-- What is held after the blocks at `a` are freed. -/
def freed (held : List Block) (a : Nat) : List Block := held.filter fun b => b.addr ≠ a

theorem mem_freed {held : List Block} {a : Nat} {b : Block} :
    b ∈ freed held a ↔ b ∈ held ∧ b.addr ≠ a := by
  unfold freed
  rw [List.mem_filter, decide_eq_true_iff]

/-- No held block is empty, and each address owned is that of another held block. -/
structure Owns (held : List Block) (owned : List Nat) : Prop where
  positive : ∀ b ∈ held, 0 < b.size
  nodup : owned.Nodup
  held : ∀ a ∈ owned, ∃ b ∈ held, b.addr = a

namespace Owns
variable {held : List Block} {owned owned' : List Nat} {a : Nat} {b : Block}

theorem empty : Owns [] [] := ⟨fun _ hb => (List.not_mem_nil hb).elim, .nil,
  fun _ ha => (List.not_mem_nil ha).elim⟩

/-- Ownership is given up. -/
theorem sublist (h : Owns held owned) (hs : owned'.Sublist owned) : Owns held owned' :=
  ⟨h.positive, h.nodup.sublist hs, fun a ha => h.held a (hs.mem ha)⟩

theorem perm (h : Owns held owned) (hp : owned'.Perm owned) : Owns held owned' :=
  ⟨h.positive, hp.nodup_iff.mpr h.nodup, fun a ha => h.held a (hp.mem_iff.mp ha)⟩

/-- A block that overlaps no held one is at no address owned. -/
theorem not_mem_of_fresh (h : Owns held owned) (hfresh : ∀ c ∈ held, c.Disjoint b)
    (hb : 0 < b.size) : b.addr ∉ owned := by
  intro hmem
  obtain ⟨c, hc, hca⟩ := h.held b.addr hmem
  have hpos := h.positive c hc
  have hdisjoint := hfresh c hc
  unfold Block.Disjoint at hdisjoint
  omega

theorem weaken (h : Owns held owned) (hb : 0 < b.size) : Owns (b :: held) owned := by
  refine ⟨List.forall_mem_cons.mpr ⟨hb, h.positive⟩, h.nodup, fun a ha => ?_⟩
  obtain ⟨c, hc, hca⟩ := h.held a ha
  exact ⟨c, List.mem_cons_of_mem _ hc, hca⟩

/-- A granted block is owned. -/
theorem grant (h : Owns held owned) (hfresh : ∀ c ∈ held, c.Disjoint b) (hb : 0 < b.size) :
    Owns (b :: held) (b.addr :: owned) := by
  refine ⟨(h.weaken hb).positive,
    List.nodup_cons.mpr ⟨h.not_mem_of_fresh hfresh hb, h.nodup⟩, fun a ha => ?_⟩
  rcases List.mem_cons.mp ha with rfl | ha
  · exact ⟨b, List.mem_cons_self .., rfl⟩
  · exact (h.weaken hb).held a ha

/-- The block at an address owned is freed; the others stay. -/
theorem free (h : Owns held (a :: owned)) : Owns (freed held a) owned := by
  obtain ⟨hnot, hnodup⟩ := List.nodup_cons.mp h.nodup
  refine ⟨fun b hb => h.positive b (mem_freed.mp hb).1, hnodup, fun c hc => ?_⟩
  obtain ⟨b, hb, hba⟩ := h.held c (List.mem_cons_of_mem _ hc)
  refine ⟨b, mem_freed.mpr ⟨hb, ?_⟩, hba⟩
  rintro rfl
  rw [hba] at hnot
  exact hnot hc

end Owns

/-! ## The books

    `Owns` says that what is owned is held; `Accounts` also that nothing else is. -/

/-- The blocks held are those at the addresses owned, one at each. -/
structure Accounts (held : List Block) (owned : List Nat) : Prop where
  nodup : owned.Nodup
  all : (held.map Block.addr).Perm owned

namespace Accounts
variable {held : List Block} {owned owned' : List Nat} {a : Nat} {b : Block}

theorem empty : Accounts [] [] := ⟨.nil, .refl _⟩

theorem perm (h : Accounts held owned) (hp : owned'.Perm owned) : Accounts held owned' :=
  ⟨hp.nodup_iff.mpr h.nodup, h.all.trans hp.symm⟩

theorem grant (h : Accounts held owned) (hpos : ∀ c ∈ held, 0 < c.size)
    (hfresh : ∀ c ∈ held, c.Disjoint b) (hb : 0 < b.size) :
    Accounts (b :: held) (b.addr :: owned) := by
  refine ⟨List.nodup_cons.mpr ⟨fun hmem => ?_, h.nodup⟩, h.all.cons b.addr⟩
  obtain ⟨c, hc, hca⟩ := List.mem_map.mp (h.all.mem_iff.mpr hmem)
  have hsize := hpos c hc
  have hdisjoint := hfresh c hc
  unfold Block.Disjoint at hdisjoint
  omega

theorem free (h : Accounts held (a :: owned)) : Accounts (freed held a) owned := by
  obtain ⟨hnot, hnodup⟩ := List.nodup_cons.mp h.nodup
  refine ⟨hnodup, ?_⟩
  have hfilter := h.all.filter fun c => decide (c ≠ a)
  have hkept : ∀ c ∈ owned, decide (c ≠ a) = true := fun c hc =>
    decide_eq_true fun heq => hnot (heq ▸ hc)
  rw [List.filter_cons_of_neg (by simp), List.filter_eq_self.mpr hkept, List.filter_map] at hfilter
  exact hfilter

end Accounts
end Blocks

import RlboxWasm2c.Base.Blocks
import RlboxWasm2c.Base.Words

/- An address space in which a range is reserved and released as a whole, and committed by
   parts. `own` are the regions of the program looked at; `others` those of the rest of the
   process, which changes them between any two calls (`turn`), but not into one that overlaps
   what is reserved.

   A call does not know whose a region is: `release` takes the one that starts at the address,
   `commit` the one that holds the range. In a space that is well formed a program that passes
   its own addresses changes its own regions only (`release_own`, `commit_head`). -/
namespace Regions
open Words Blocks

/-- The protections of committed pages. -/
inductive Protect where
  | noAccess
  | readOnly
  | readWrite
  | executeRead
  | executeReadWrite
  deriving DecidableEq

/-- A reserved range, and the parts of it that were committed, the last one first. -/
structure Region where
  block : Block
  commits : List (Block × Protect)
  deriving DecidableEq

/-- Pages are of `2^shift` bytes; a region starts at a multiple of `2^granShift`. -/
structure Space where
  shift : Nat
  granShift : Nat
  own : List Region
  others : List Region
  deriving DecidableEq

namespace Space

def regions (s : Space) : List Region := s.own ++ s.others

def pageSize (s : Space) : Nat := 2 ^ s.shift

def granularity (s : Space) : Nat := 2 ^ s.granShift

structure WellFormed (s : Space) : Prop where
  disjoint : s.regions.Pairwise fun r r' => r.block.Disjoint r'.block
  positive : ∀ r ∈ s.regions, 0 < r.block.size

instance (s : Space) : Decidable s.WellFormed :=
  decidable_of_iff ((s.regions.Pairwise fun r r' => r.block.Disjoint r'.block) ∧
    ∀ r ∈ s.regions, 0 < r.block.size) ⟨fun h => ⟨h.1, h.2⟩, fun h => ⟨h.disjoint, h.positive⟩⟩

/-- The rest of the process has come to hold `others`, if it can. -/
def turn (s : Space) (others : List Region) : Space :=
  if ({ s with others := others } : Space).WellFormed then { s with others := others } else s

/-! ## The calls -/

/-- What is reserved for `size` bytes at `hint`, or anywhere for no hint, when the region
    starts at `a`. -/
def reserved (s : Space) (hint size a : Nat) : Block :=
  ⟨a, roundUp ((if hint = 0 then a else hint) + size) s.pageSize - a⟩

/-- The addresses that can be answered: a given hint is rounded down. -/
def grants (s : Space) (w hint size a : Nat) : Bool :=
  a != 0 && size != 0 && decide (s.granularity ∣ a) &&
  (hint == 0 || a == hint / s.granularity * s.granularity) &&
  decide (a + (s.reserved hint size a).size ≤ 2 ^ w) &&
  decide (∀ r ∈ s.regions, r.block.Disjoint (s.reserved hint size a))

/-- Reserves a range where the system answers; `none` is a refusal. -/
def reserve (s : Space) (w hint size : Nat) (answer : Option Nat) : Option Nat × Space :=
  match answer with
  | some a =>
    if s.grants w hint size a then
      (some a, { s with own := ⟨s.reserved hint size a, []⟩ :: s.own })
    else (none, s)
  | none => (none, s)

instance (c b : Block) : Decidable (c.Within b) :=
  inferInstanceAs (Decidable (b.addr ≤ c.addr ∧ c.addr + c.size ≤ b.addr + b.size))

/-- The pages that hold a byte of `[addr, addr + size)`. -/
def pagesOf (s : Space) (addr size : Nat) : Block :=
  ⟨addr / s.pageSize * s.pageSize,
    roundUp (addr + size) s.pageSize - addr / s.pageSize * s.pageSize⟩

def commitIn (b : Block) (prot : Protect) (r : Region) : Region :=
  if b.Within r.block then { r with commits := (b, prot) :: r.commits } else r

/-- Fails where the pages are not inside one region, and where the system will not. -/
def commit (s : Space) (addr size : Nat) (prot : Protect) (ok : Bool) : Bool × Space :=
  let b := s.pagesOf addr size
  if ok = true ∧ ∃ r ∈ s.regions, b.Within r.block then
    (true, { s with own := s.own.map (commitIn b prot), others := s.others.map (commitIn b prot) })
  else (false, s)

/-- The region that starts at `addr` is released; fails where none does. -/
def release (s : Space) (addr : Nat) : Bool × Space :=
  if ∃ r ∈ s.regions, r.block.addr = addr then
    (true, { s with
      own := s.own.filter fun r => r.block.addr ≠ addr
      others := s.others.filter fun r => r.block.addr ≠ addr })
  else (false, s)

/-! ## What they do -/

section calls
variable {s s' : Space} {w hint size a : Nat} {r : Region} {l : List Region}

theorem pageSize_pos (s : Space) : 0 < s.pageSize := Nat.two_pow_pos _

@[simp] theorem turn_own (s : Space) (others : List Region) : (s.turn others).own = s.own := by
  unfold turn
  split
  · rfl
  · rfl

@[simp] theorem turn_shift (s : Space) (others : List Region) :
    (s.turn others).shift = s.shift := by
  unfold turn
  split
  · rfl
  · rfl

@[simp] theorem turn_granShift (s : Space) (others : List Region) :
    (s.turn others).granShift = s.granShift := by
  unfold turn
  split
  · rfl
  · rfl

theorem turn_others (s : Space) (others : List Region) :
    (s.turn others).others = s.others ∨ (s.turn others).others = others := by
  unfold turn
  split
  · exact .inr rfl
  · exact .inl rfl

theorem WellFormed.turn (h : s.WellFormed) (others : List Region) : (s.turn others).WellFormed := by
  unfold Space.turn
  split
  · assumption
  · exact h

/-- What a granted reservation did. -/
theorem reserve_some {answer : Option Nat} (h : s.reserve w hint size answer = (some a, s')) :
    a ≠ 0 ∧ size ≠ 0 ∧ s.granularity ∣ a ∧
      (hint = 0 ∨ a = hint / s.granularity * s.granularity) ∧
      a + (s.reserved hint size a).size ≤ 2 ^ w ∧
      (∀ r ∈ s.regions, r.block.Disjoint (s.reserved hint size a)) ∧
      s' = { s with own := ⟨s.reserved hint size a, []⟩ :: s.own } := by
  unfold reserve at h
  split at h
  · split at h
    · next hgrants =>
      obtain ⟨hans, rfl⟩ := Prod.mk.inj h
      obtain rfl := Option.some.inj hans
      simp only [grants, Bool.and_eq_true, Bool.or_eq_true, bne_iff_ne, beq_iff_eq,
        decide_eq_true_eq] at hgrants
      obtain ⟨⟨⟨⟨⟨h0, hsize⟩, hgran⟩, hhint⟩, hend⟩, hfree⟩ := hgrants
      exact ⟨h0, hsize, hgran, hhint, hend, hfree, rfl⟩
    · cases (Prod.mk.inj h).1
  · cases (Prod.mk.inj h).1

theorem reserve_none {answer : Option Nat} (h : s.reserve w hint size answer = (none, s')) :
    s' = s := by
  unfold reserve at h
  split at h
  · split at h
    · cases (Prod.mk.inj h).1
    · exact (Prod.mk.inj h).2.symm
  · exact (Prod.mk.inj h).2.symm

theorem WellFormed.cons (h : s.WellFormed) (hpos : 0 < r.block.size)
    (hfree : ∀ r' ∈ s.regions, r'.block.Disjoint r.block) :
    ({ s with own := r :: s.own } : Space).WellFormed where
  disjoint := List.pairwise_cons.mpr ⟨fun r' hr' => (hfree r' hr').symm, h.disjoint⟩
  positive := List.forall_mem_cons.mpr ⟨hpos, h.positive⟩

/-- Whether a space is well formed is seen from its blocks. -/
theorem WellFormed.of_blocks (h : s.WellFormed)
    (hblocks : s'.regions.map Region.block = s.regions.map Region.block) : s'.WellFormed where
  disjoint := by
    have hdisjoint := h.disjoint
    rw [← List.pairwise_map] at hdisjoint ⊢
    rwa [hblocks]
  positive := by
    intro r hr
    have hmem : r.block ∈ s.regions.map Region.block := hblocks ▸ List.mem_map_of_mem hr
    obtain ⟨r', hr', heq⟩ := List.mem_map.mp hmem
    rw [← heq]
    exact h.positive r' hr'

/-- Regions that differ in their start, one of one's own and one of the others'. -/
theorem WellFormed.addr_ne (h : s.WellFormed) {r' : Region} (hr : r ∈ s.own) (hr' : r' ∈ s.others) :
    r'.block.addr ≠ r.block.addr := by
  have hdisjoint := (List.pairwise_append.mp h.disjoint).2.2 r hr r' hr'
  have hpos := h.positive r (List.mem_append_left _ hr)
  have hpos' := h.positive r' (List.mem_append_right _ hr')
  unfold Block.Disjoint at hdisjoint
  omega

/-- Releasing a region of one's own releases nothing of the others'. -/
theorem release_own (h : s.WellFormed) (hr : r ∈ s.own) :
    s.release r.block.addr =
      (true, { s with own := s.own.filter fun r' => r'.block.addr ≠ r.block.addr }) := by
  have hothers : (s.others.filter fun r' => r'.block.addr ≠ r.block.addr) = s.others :=
    List.filter_eq_self.mpr fun r' hr' => decide_eq_true (h.addr_ne hr hr')
  unfold release
  rw [if_pos ⟨r, List.mem_append_left _ hr, rfl⟩, hothers]

/-- Of one's own regions only the one released starts there. -/
theorem WellFormed.filter_head (h : s.WellFormed) (hown : s.own = r :: l) :
    (s.own.filter fun r' => r'.block.addr ≠ r.block.addr) = l := by
  have hdisjoint := (List.pairwise_append.mp h.disjoint).1
  rw [hown, List.pairwise_cons] at hdisjoint
  have hpos := h.positive r (List.mem_append_left _ (hown ▸ List.mem_cons_self ..))
  rw [hown, List.filter_cons_of_neg (by simp)]
  refine List.filter_eq_self.mpr fun r' hr' => decide_eq_true ?_
  have hapart := hdisjoint.1 r' hr'
  have hpos' := h.positive r' (List.mem_append_left _ (hown ▸ List.mem_cons_of_mem _ hr'))
  unfold Block.Disjoint at hapart
  omega

theorem WellFormed.release (h : s.WellFormed) (addr : Nat) : (s.release addr).2.WellFormed := by
  unfold Space.release
  split
  · have hsublist : ((s.own.filter fun r => r.block.addr ≠ addr) ++
        s.others.filter fun r => r.block.addr ≠ addr).Sublist s.regions :=
      List.filter_sublist.append List.filter_sublist
    exact ⟨h.disjoint.sublist hsublist, fun r hr => h.positive r (hsublist.mem hr)⟩
  · exact h

/-- A range inside the region reserved last is committed there and nowhere else. -/
theorem commit_head {addr : Nat} {prot : Protect} (h : s.WellFormed) (hown : s.own = r :: l)
    (hpos : 0 < (s.pagesOf addr size).size) (hin : (s.pagesOf addr size).Within r.block) :
    s.commit addr size prot true =
      (true, { s with own :=
        { r with commits := (s.pagesOf addr size, prot) :: r.commits } :: l }) := by
  have hdisjoint := h.disjoint
  unfold regions at hdisjoint
  rw [hown, List.cons_append, List.pairwise_cons] at hdisjoint
  have hout : ∀ r' ∈ l ++ s.others, commitIn (s.pagesOf addr size) prot r' = r' := by
    intro r' hr'
    refine if_neg fun hin' => ?_
    have hapart := hdisjoint.1 r' hr'
    unfold Block.Within at hin hin'
    unfold Block.Disjoint at hapart
    omega
  have hothers : s.others.map (commitIn (s.pagesOf addr size) prot) = s.others :=
    (List.map_congr_left fun r' hr' => hout r' (List.mem_append_right _ hr')).trans (List.map_id _)
  have hl : l.map (commitIn (s.pagesOf addr size) prot) = l :=
    (List.map_congr_left fun r' hr' => hout r' (List.mem_append_left _ hr')).trans (List.map_id _)
  have hmem : r ∈ s.regions := List.mem_append_left _ (hown ▸ List.mem_cons_self ..)
  unfold commit
  dsimp only
  rw [if_pos ⟨rfl, r, hmem, hin⟩, hothers, hown, List.map_cons, hl, commitIn, if_pos hin]

/-- A commit that succeeded found a region for its pages. -/
theorem commit_true {addr : Nat} {prot : Protect} {ok : Bool}
    (h : s.commit addr size prot ok = (true, s')) :
    ok = true ∧ ∃ r ∈ s.regions, (s.pagesOf addr size).Within r.block := by
  unfold commit at h
  dsimp only at h
  split at h
  · assumption
  · cases h

theorem commit_false {addr : Nat} {prot : Protect} {ok : Bool}
    (h : s.commit addr size prot ok = (false, s')) : s' = s := by
  unfold commit at h
  dsimp only at h
  split at h
  · cases h
  · exact (Prod.mk.inj h).2.symm

end calls
end Space
end Regions

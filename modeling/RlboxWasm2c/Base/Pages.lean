import RlboxWasm2c.Base.Words

/- The page map of a process as an operating system keeps it: which pages are
   mapped, and the two calls that change it. `mmap` is told by its caller what the
   system answers; an answer the system could not give (an address that is null,
   not page aligned, or whose range wraps or is not free) counts as a failure, so a
   statement for every answer is a statement for every behaviour of the system. -/
namespace Pages
open Words

/-- Mapped pages by number; the page size is `2^shift`. -/
@[ext]
structure PageMap where
  shift : Nat
  mapped : Nat → Bool

namespace PageMap

def pageSize (m : PageMap) : Nat := 2 ^ m.shift

/-- Page `p` starts in `[lo, lo + len)`. -/
def inRange (m : PageMap) (lo len p : Nat) : Bool :=
  decide (lo ≤ p * m.pageSize) && decide (p * m.pageSize < lo + len)

def map (m : PageMap) (lo len : Nat) : PageMap :=
  { m with mapped := fun p => m.mapped p || m.inRange lo len p }

def unmap (m : PageMap) (lo len : Nat) : PageMap :=
  { m with mapped := fun p => m.mapped p && !m.inRange lo len p }

/-- No page from the one at `lo` on that starts in `[lo, lo + len)` is mapped. -/
def free (m : PageMap) (lo len : Nat) : Bool :=
  decide (∀ i < (len + (m.pageSize - 1)) / m.pageSize, m.mapped (lo / m.pageSize + i) = false)

/-- The answers `mmap` of `len` bytes can give in an address space of `w` bits. -/
def grants (m : PageMap) (w len a : Nat) : Bool :=
  a != 0 && len != 0 && decide (m.pageSize ∣ a) && decide (a + len ≤ 2 ^ w) && m.free a len

/-- Maps `len` bytes where the system answers; `none` is `MAP_FAILED`. -/
def mmap (m : PageMap) (w len : Nat) (answer : Option Nat) : Option Nat × PageMap :=
  match answer with
  | some a => if m.grants w len a then (some a, m.map a len) else (none, m)
  | none => (none, m)

/-- Unmaps `[a, a + len)`; fails, changing nothing, on an unaligned start or no length. -/
def munmap (m : PageMap) (a len : Nat) : PageMap :=
  if m.pageSize ∣ a ∧ len ≠ 0 then m.unmap a len else m

/-- Bytes `[a, a + n)` are mapped in `m'` and were all free in `m`. -/
def Reserved (m m' : PageMap) (a n : Nat) : Prop :=
  ∀ x, a ≤ x → x < a + n →
    m.mapped (x / m.pageSize) = false ∧ m'.mapped (x / m.pageSize) = true

theorem pageSize_pos (m : PageMap) : 0 < m.pageSize := Nat.two_pow_pos _

@[simp] theorem map_shift (m : PageMap) (lo len : Nat) : (m.map lo len).shift = m.shift := rfl

@[simp] theorem unmap_shift (m : PageMap) (lo len : Nat) : (m.unmap lo len).shift = m.shift := rfl

@[simp] theorem map_pageSize (m : PageMap) (lo len : Nat) :
    (m.map lo len).pageSize = m.pageSize := rfl

@[simp] theorem unmap_pageSize (m : PageMap) (lo len : Nat) :
    (m.unmap lo len).pageSize = m.pageSize := rfl

@[simp] theorem map_mapped (m : PageMap) (lo len p : Nat) :
    (m.map lo len).mapped p = (m.mapped p || m.inRange lo len p) := rfl

@[simp] theorem unmap_mapped (m : PageMap) (lo len p : Nat) :
    (m.unmap lo len).mapped p = (m.mapped p && !m.inRange lo len p) := rfl

theorem inRange_iff {m : PageMap} {lo len p : Nat} :
    m.inRange lo len p = true ↔ lo ≤ p * m.pageSize ∧ p * m.pageSize < lo + len := by
  simp [inRange]

@[simp] theorem map_inRange (m : PageMap) (lo len lo' len' p : Nat) :
    (m.map lo len).inRange lo' len' p = m.inRange lo' len' p := rfl

@[simp] theorem unmap_inRange (m : PageMap) (lo len lo' len' p : Nat) :
    (m.unmap lo len).inRange lo' len' p = m.inRange lo' len' p := rfl

theorem munmap_eq {m : PageMap} {a len : Nat} (ha : m.pageSize ∣ a) (hl : len ≠ 0) :
    m.munmap a len = m.unmap a len := if_pos ⟨ha, hl⟩

/-- The page of a byte of a range that starts at a page. -/
theorem inRange_of_byte {m : PageMap} {lo len x : Nat} (ha : m.pageSize ∣ lo) (hlo : lo ≤ x)
    (hx : x < lo + len) : m.inRange lo len (x / m.pageSize) = true := by
  obtain ⟨c, rfl⟩ := ha
  rw [inRange_iff]
  have h := Nat.div_mul_le_self x m.pageSize
  refine ⟨?_, by omega⟩
  rw [Nat.mul_comm]
  exact Nat.mul_le_mul_right _ ((Nat.le_div_iff_mul_le m.pageSize_pos).mpr (by rwa [Nat.mul_comm]))

theorem free_page {m : PageMap} {lo len p : Nat} (ha : m.pageSize ∣ lo)
    (hf : m.free lo len = true) (hp : m.inRange lo len p = true) : m.mapped p = false := by
  obtain ⟨c, rfl⟩ := ha
  have hpos := m.pageSize_pos
  simp only [free, decide_eq_true_eq] at hf
  rw [inRange_iff] at hp
  have hcp : c ≤ p := by
    by_contra h
    have := Nat.mul_lt_mul_of_pos_right (show p < c by omega) hpos
    rw [Nat.mul_comm m.pageSize c] at hp
    omega
  have h := hf (p - c) ?_
  · rwa [Nat.mul_div_cancel_left _ hpos, show c + (p - c) = p by omega] at h
  · -- page `p - c` of the range starts below its end
    obtain ⟨d, rfl⟩ : ∃ d, p = c + d := ⟨p - c, by omega⟩
    rw [show c + d - c = d by omega, Nat.lt_div_iff_mul_lt hpos]
    have := hp.2
    rw [Nat.add_mul, Nat.mul_comm m.pageSize c] at this
    have hcomm := Nat.mul_comm m.pageSize d
    omega

/-- What a successful `mmap` did. -/
theorem mmap_some {m m' : PageMap} {w len a : Nat} {answer : Option Nat}
    (h : m.mmap w len answer = (some a, m')) :
    a ≠ 0 ∧ len ≠ 0 ∧ m.pageSize ∣ a ∧ a + len ≤ 2 ^ w ∧
      (∀ p, m.inRange a len p = true → m.mapped p = false) ∧ m' = m.map a len := by
  unfold mmap at h
  split at h
  · next b =>
    split at h
    · next hg =>
      simp only [Prod.mk.injEq, Option.some.injEq] at h
      obtain ⟨rfl, rfl⟩ := h
      simp only [grants, Bool.and_eq_true, bne_iff_ne, decide_eq_true_eq] at hg
      obtain ⟨⟨⟨⟨h0, hl⟩, hd⟩, hw⟩, hf⟩ := hg
      exact ⟨h0, hl, hd, hw, fun p hp => free_page hd hf hp, rfl⟩
    · simp at h
  · simp at h

theorem mmap_none {m m' : PageMap} {w len : Nat} {answer : Option Nat}
    (h : m.mmap w len answer = (none, m')) : m' = m := by
  unfold mmap at h
  split at h
  · split at h
    · simp at h
    · exact (Prod.mk.inj h).2.symm
  · exact (Prod.mk.inj h).2.symm

/-- Rounding the length of a range up to whole pages adds no page. -/
theorem inRange_roundUp {m : PageMap} {lo n p : Nat} (ha : m.pageSize ∣ lo) :
    m.inRange lo (roundUp n m.pageSize) p = m.inRange lo n p := by
  have hpos := m.pageSize_pos
  rw [Bool.eq_iff_iff, inRange_iff, inRange_iff]
  refine and_congr_right fun _ => ⟨fun h => ?_, fun h => ?_⟩
  · by_contra hc
    have hd : m.pageSize ∣ p * m.pageSize - lo := Nat.dvd_sub (Dvd.intro_left p rfl) ha
    have := roundUp_le hpos (show n ≤ p * m.pageSize - lo by omega) hd
    omega
  · have := le_roundUp (x := n) hpos
    omega

theorem map_roundUp {m : PageMap} {lo n : Nat} (ha : m.pageSize ∣ lo) :
    m.map lo (roundUp n m.pageSize) = m.map lo n := by
  ext p
  · rfl
  · simp [inRange_roundUp ha]

/-- Unmapping the two ends of a fresh range leaves its middle. -/
theorem map_carve {m : PageMap} {u len a n : Nat} (hu : u ≤ a) (hn : a + n ≤ u + len)
    (hfree : ∀ p, m.inRange u len p = true → m.mapped p = false) :
    ((m.map u len).unmap u (a - u)).unmap (a + n) (u + len - (a + n)) = m.map a n := by
  ext p
  · rfl
  · have hf := hfree p
    simp only [unmap_mapped, map_mapped, unmap_inRange, map_inRange]
    simp only [inRange] at hf ⊢
    generalize p * m.pageSize = q at hf ⊢
    cases hm : m.mapped p
    · rw [Bool.eq_iff_iff]
      simp only [Bool.false_or, Bool.and_eq_true, Bool.not_eq_true', Bool.and_eq_false_iff,
        decide_eq_true_eq, decide_eq_false_iff_not]
      omega
    · have hout : ¬ (u ≤ q ∧ q < u + len) := by simpa [hm] using hf
      rw [Bool.eq_iff_iff]
      simp only [Bool.true_or, Bool.true_and, Bool.and_eq_true, Bool.not_eq_true',
        Bool.and_eq_false_iff, decide_eq_false_iff_not, iff_true]
      omega

theorem unmap_zero (m : PageMap) (lo : Nat) : m.unmap lo 0 = m := by
  ext p
  · rfl
  · have : m.inRange lo 0 p = false := by
      rw [Bool.eq_false_iff, ne_eq, inRange_iff]
      omega
    simp [this]

/-- Unmapping the whole pages of a fresh range undoes the mapping. -/
theorem unmap_map {m : PageMap} {lo n : Nat} (ha : m.pageSize ∣ lo)
    (hfree : ∀ p, m.inRange lo n p = true → m.mapped p = false) :
    (m.map lo n).unmap lo (roundUp n m.pageSize) = m := by
  ext p
  · rfl
  · have hf := hfree p
    simp only [unmap_mapped, map_mapped, map_inRange, inRange_roundUp ha]
    cases hin : m.inRange lo n p
    · simp
    · simp [hf hin]

/-- A fresh range reserves its bytes up to the end of its last page, and no more. -/
theorem reserved_map_iff {m : PageMap} {lo len n : Nat} (ha : m.pageSize ∣ lo)
    (hfree : ∀ p, m.inRange lo len p = true → m.mapped p = false) :
    Reserved m (m.map lo len) lo n ↔ n ≤ roundUp len m.pageSize := by
  have hpos := m.pageSize_pos
  constructor
  · intro h
    by_contra hc
    -- the first byte after the last page is not mapped by the range
    have hx := h (lo + roundUp len m.pageSize) (by omega) (by omega)
    obtain ⟨hfalse, htrue⟩ := hx
    simp only [map_mapped, hfalse, Bool.false_or] at htrue
    rw [← inRange_roundUp ha, inRange_iff,
      Nat.div_mul_cancel (Nat.dvd_add ha dvd_roundUp)] at htrue
    omega
  · intro h x hlo hx
    have hin := inRange_of_byte ha hlo (show x < lo + roundUp len m.pageSize by omega)
    rw [inRange_roundUp ha] at hin
    simp [hfree _ hin, hin]

end PageMap
end Pages

import RlboxWasm2c.Base.Pages

/- Page maps with protections. `ProtMap` says of each page whether and how it is mapped;
   `pages` forgets how. The calls do to `pages` what those of `PageMap` do (`pages_mmap`,
   `pages_munmap`), and `mprotect` does nothing to it (`pages_mprotect`).

   So what is proved of a `PageMap` holds of a map with protections, and the other way round
   a map that was only added to and taken from is known by its pages (`Since.eq_map`). -/
namespace Pages
open Words

structure Prot where
  read : Bool
  write : Bool
  exec : Bool
  deriving DecidableEq

/-- `PROT_NONE`. -/
def Prot.noAccess : Prot := ⟨false, false, false⟩

def Prot.readWrite : Prot := ⟨true, true, false⟩

/-- The protection of each mapped page; the page size is `2^shift`. -/
@[ext]
structure ProtMap where
  shift : Nat
  prot : Nat → Option Prot

/-- What the system answers an `mprotect`: whether it does it and, where it does not, which
    pages it has changed by then. -/
structure MprotectAnswer where
  ok : Bool
  changed : Nat → Bool

namespace ProtMap

def pages (m : ProtMap) : PageMap := ⟨m.shift, fun p => (m.prot p).isSome⟩

def map (m : ProtMap) (lo len : Nat) (prot : Prot) : ProtMap :=
  { m with prot := fun p => if m.pages.inRange lo len p = true then some prot else m.prot p }

def unmap (m : ProtMap) (lo len : Nat) : ProtMap :=
  { m with prot := fun p => if m.pages.inRange lo len p = true then none else m.prot p }

/-- The mapped pages of `s` get the protection `prot`. -/
def protect (m : ProtMap) (s : Nat → Bool) (prot : Prot) : ProtMap :=
  { m with prot := fun p => if s p = true then (m.prot p).map fun _ => prot else m.prot p }

/-- Maps `len` bytes where the system answers; `none` is `MAP_FAILED`. -/
def mmap (m : ProtMap) (w len : Nat) (prot : Prot) (answer : Option Nat) : Option Nat × ProtMap :=
  match answer with
  | some a => if m.pages.grants w len a then (some a, m.map a len prot) else (none, m)
  | none => (none, m)

/-- Unmaps `[a, a + len)`; fails, changing nothing, on an unaligned start or no length. -/
def munmap (m : ProtMap) (a len : Nat) : ProtMap :=
  if m.pages.pageSize ∣ a ∧ len ≠ 0 then m.unmap a len else m

/-- Every page from the one at `lo` on that starts in `[lo, lo + len)` is mapped. -/
def allMapped (m : ProtMap) (lo len : Nat) : Bool :=
  decide (∀ i < (len + (m.pages.pageSize - 1)) / m.pages.pageSize,
    (m.prot (lo / m.pages.pageSize + i)).isSome = true)

/-- Fails on an unaligned start, on a page that is not mapped, and where the system will not. -/
def mprotect (m : ProtMap) (a len : Nat) (prot : Prot) (answer : MprotectAnswer) :
    Bool × ProtMap :=
  if ¬ m.pages.pageSize ∣ a then (false, m)
  else if answer.ok && m.allMapped a len then (true, m.protect (m.pages.inRange a len) prot)
  else (false, m.protect (fun p => m.pages.inRange a len p && answer.changed p) prot)

/-! ## The pages -/

section pages
variable {m m' : ProtMap} {w lo len a n p : Nat} {prot : Prot} {answer : Option Nat}

@[simp] theorem pages_shift : m.pages.shift = m.shift := rfl

@[simp] theorem pages_mapped : m.pages.mapped p = (m.prot p).isSome := rfl

theorem pages_map : (m.map lo len prot).pages = m.pages.map lo len := by
  ext p
  · rfl
  · by_cases hin : m.pages.inRange lo len p = true
    · simp [map, hin]
    · simp [map, hin]

theorem pages_unmap : (m.unmap lo len).pages = m.pages.unmap lo len := by
  ext p
  · rfl
  · by_cases hin : m.pages.inRange lo len p = true
    · simp [unmap, hin]
    · simp [unmap, hin]

theorem pages_protect {s : Nat → Bool} : (m.protect s prot).pages = m.pages := by
  ext p
  · rfl
  · by_cases hs : s p = true
    · simp [protect, hs]
    · simp [protect, hs]

theorem pages_mmap :
    ((m.mmap w len prot answer).1, (m.mmap w len prot answer).2.pages) =
      m.pages.mmap w len answer := by
  cases answer with
  | none => rfl
  | some a =>
    unfold mmap PageMap.mmap
    dsimp only
    split
    · rw [pages_map]
    · rfl

theorem pages_munmap : (m.munmap a len).pages = m.pages.munmap a len := by
  unfold munmap PageMap.munmap
  split
  · rw [pages_unmap]
  · rfl

theorem pages_mprotect {ans : MprotectAnswer} : (m.mprotect a len prot ans).2.pages = m.pages := by
  unfold mprotect
  split
  · rfl
  · split
    · exact pages_protect
    · exact pages_protect

end pages

/-! ## What was mapped since -/

/-- Since `m` pages were unmapped, and free pages mapped with protection `prot`. -/
structure Since (m m' : ProtMap) (prot : Prot) : Prop where
  shift : m'.shift = m.shift
  page : ∀ p, m'.prot p = none ∨ m'.prot p = m.prot p ∨ m.prot p = none ∧ m'.prot p = some prot

section since
variable {m m' : ProtMap} {w lo len a n : Nat} {prot : Prot} {answer : Option Nat}

theorem Since.refl (m : ProtMap) (prot : Prot) : Since m m prot := ⟨rfl, fun _ => .inr (.inl rfl)⟩

theorem Since.unmap (h : Since m m' prot) : Since m (m'.unmap lo len) prot := by
  refine ⟨h.shift, fun p => ?_⟩
  by_cases hin : m'.pages.inRange lo len p = true
  · exact .inl (if_pos hin)
  · have hsame : (m'.unmap lo len).prot p = m'.prot p := if_neg hin
    rw [hsame]
    exact h.page p

theorem Since.munmap (h : Since m m' prot) : Since m (m'.munmap a len) prot := by
  unfold ProtMap.munmap
  split
  · exact h.unmap
  · exact h

theorem since_mmap : Since m (m.mmap w len prot answer).2 prot := by
  unfold mmap
  cases answer with
  | none => exact .refl m prot
  | some a =>
    dsimp only
    split
    · next hgrants =>
      refine ⟨rfl, fun p => ?_⟩
      by_cases hin : m.pages.inRange a len p = true
      · -- a granted range is free
        simp only [PageMap.grants, Bool.and_eq_true, decide_eq_true_eq] at hgrants
        have hfree := PageMap.free_page hgrants.1.1.2 hgrants.2 hin
        rw [pages_mapped, Option.isSome_eq_false_iff, Option.isNone_iff_eq_none] at hfree
        exact .inr (.inr ⟨hfree, if_pos hin⟩)
      · exact .inr (.inl (if_neg hin))
    · exact .refl m prot

/-- With the pages of `m` and those of a range free in `m`, the range was mapped. -/
theorem Since.eq_map (h : Since m m' prot) (hpages : m'.pages = m.pages.map lo len)
    (hfree : ∀ p, m.pages.inRange lo len p = true → m.pages.mapped p = false) :
    m' = m.map lo len prot := by
  ext1
  · exact h.shift
  · funext p
    have hmapped := congrFun (congrArg PageMap.mapped hpages) p
    rw [PageMap.map_mapped, pages_mapped, pages_mapped] at hmapped
    have hpage := h.page p
    unfold map
    dsimp only
    by_cases hin : m.pages.inRange lo len p = true
    · have hnone := hfree p hin
      rw [pages_mapped] at hnone
      rw [hin, hnone] at hmapped
      rw [if_pos hin]
      rcases hpage with hempty | hsame | ⟨-, hprot⟩
      · rw [hempty] at hmapped
        cases hmapped
      · rw [hsame, hnone] at hmapped
        cases hmapped
      · exact hprot
    · rw [if_neg hin]
      rw [Bool.not_eq_true] at hin
      rw [hin, Bool.or_false] at hmapped
      rcases hpage with hempty | hsame | ⟨hnone, hprot⟩
      · rw [hempty, eq_comm, Option.isSome_none, Option.isSome_eq_false_iff,
          Option.isNone_iff_eq_none] at hmapped
        rw [hempty, hmapped]
      · exact hsame
      · rw [hnone, hprot] at hmapped
        cases hmapped

theorem Since.eq_self (h : Since m m' prot) (hpages : m'.pages = m.pages) : m' = m := by
  have hnone : ∀ p, m.pages.inRange 0 0 p = false := by
    intro p
    rw [Bool.eq_false_iff, ne_eq, PageMap.inRange_iff]
    omega
  have hmap : m.pages.map 0 0 = m.pages := by
    ext p
    · rfl
    · rw [PageMap.map_mapped, hnone, Bool.or_false]
  have hempty := h.eq_map (hpages.trans hmap.symm) fun p hp => by rw [hnone] at hp; cases hp
  rw [hempty]
  ext1
  · rfl
  · funext p
    change (if m.pages.inRange 0 0 p = true then some prot else m.prot p) = m.prot p
    rw [hnone, if_neg Bool.false_ne_true]

end since

/-! ## What mprotect did -/

section mprotect
variable {m m' : ProtMap} {lo len a p : Nat} {prot : Prot} {answer : MprotectAnswer}

theorem allMapped_iff (ha : m.pages.pageSize ∣ lo) :
    m.allMapped lo len = true ↔
      ∀ p, m.pages.inRange lo len p = true → (m.prot p).isSome = true := by
  have hpos := m.pages.pageSize_pos
  simp only [allMapped, decide_eq_true_eq]
  constructor
  · intro h p hp
    -- the pages that are not mapped make up a map in which the range is free
    let others : PageMap := ⟨m.shift, fun q => !(m.prot q).isSome⟩
    have hfree : others.free lo len = true := by
      simp only [PageMap.free, decide_eq_true_eq]
      intro i hi
      rw [Bool.not_eq_false']
      exact h i hi
    have hpage := PageMap.free_page (m := others) ha hfree hp
    rwa [Bool.not_eq_false'] at hpage
  · intro h i hi
    apply h
    have hstart := Nat.div_mul_cancel ha
    have hbefore := (Nat.le_div_iff_mul_le hpos).mp hi
    rw [Nat.succ_mul] at hbefore
    rw [PageMap.inRange_iff, Nat.add_mul, hstart]
    omega

theorem mprotect_ok (ha : m.pages.pageSize ∣ a) (hok : answer.ok = true)
    (h : ∀ p, m.pages.inRange a len p = true → (m.prot p).isSome = true) :
    (m.mprotect a len prot answer).1 = true := by
  unfold mprotect
  rw [if_neg (not_not.mpr ha), hok, (allMapped_iff ha).mpr h]
  rfl

theorem mprotect_true (h : m.mprotect a len prot answer = (true, m')) :
    (∀ p, m.pages.inRange a len p = true → (m.prot p).isSome = true) ∧
      m' = m.protect (m.pages.inRange a len) prot := by
  unfold mprotect at h
  split at h
  · cases h
  · next hdvd =>
    rw [not_not] at hdvd
    split at h
    · next hok =>
      rw [Bool.and_eq_true] at hok
      exact ⟨(allMapped_iff hdvd).mp hok.2, (Prod.mk.inj h).2.symm⟩
    · cases h

theorem mprotect_false (h : m.mprotect a len prot answer = (false, m')) :
    ∃ s : Nat → Bool, (∀ p, s p = true → m.pages.inRange a len p = true) ∧
      m' = m.protect s prot := by
  unfold mprotect at h
  split at h
  · refine ⟨fun _ => false, ?_, (Prod.mk.inj h).2.symm⟩
    rintro p ⟨⟩
  · split at h
    · cases h
    · refine ⟨_, ?_, (Prod.mk.inj h).2.symm⟩
      intro p hp
      rw [Bool.and_eq_true] at hp
      exact hp.1

end mprotect
end ProtMap
end Pages

import Mathlib.Data.List.Pairwise
import RlboxWasm2c.Protections

/- All memories of a process on a POSIX system, with what else the process has mapped, in one
   address space. The calls know nothing of each other: a creation asks for any free range, a
   destruction computes the length of its own again, and what the guest commits is counted from
   the address of its memory.

   `memories_share_space`: over every run the reservations of the live memories lie apart, each
   with its own pages committed and its guard closed, and nobody else's page is changed; when
   all memories are destroyed the map is that of the others.
   `guest_stays_in_memory`: on a 64-bit host an access of a guest, at any index and offset, is
   to a page of its own memory or traps, whatever other memories there are.

   `memory.grow` is the runtime's and not part of these sources: a parameter, of which
   `GrowMemory.Commits` is assumed. What is asked of a creation is `MemOp.Fits`. -/
namespace RlboxWasm2c.Protected
open Words Pages

/-! ## The process -/

/-- `prot` is what the rest of the process has mapped at its last turn. -/
structure Process where
  map : ProtMap
  live : List WasmRtMemory
  others : Nat → Option Prot

inductive MemOp where
  | create (initialPages : Nat) (cap : Option MemCapacity) (ans : OsAnswers)
  | grow (data delta : Nat) (answer : MprotectAnswer)
  | destroy (data : Nat)
  | turn (prot : Nat → Option Prot)

/-- Page `q` is in what is reserved for the memory. -/
def reservedBy (w : Width) (m : ProtMap) (memory : WasmRtMemory) (q : Nat) : Bool :=
  m.pages.inRange memory.data (reserveLength w memory.maxPages) q

/-- The page of byte `x` of the memory. -/
def pageOf (m : ProtMap) (memory : WasmRtMemory) (x : Nat) : Nat :=
  (memory.data + x) / m.pages.pageSize

def Process.reserved (w : Width) (p : Process) (q : Nat) : Bool :=
  p.live.any fun memory => reservedBy w p.map memory q

/-- `wasm_rt_grow_memory` by `delta` pages: the memory and the map after it. -/
abbrev GrowMemory := ProtMap → WasmRtMemory → Nat → MprotectAnswer → WasmRtMemory × ProtMap

/-- Pages of the first `max_pages` were committed: either the memory is as it was, or it has
    `delta` pages more and its size is committed. -/
def Grows (m : ProtMap) (memory : WasmRtMemory) (delta : Nat) (memory' : WasmRtMemory)
    (m' : ProtMap) : Prop :=
  ∃ s : Nat → Bool, m' = m.protect s .readWrite ∧
    (∀ q, s q = true →
      m.pages.inRange memory.data (memory.maxPages * wasmPageSize) q = true) ∧
    (memory' = memory ∨
      memory' = { memory with pages := memory.pages + delta, size := memory'.size } ∧
      memory.pages + delta ≤ memory.maxPages ∧
      memory'.size = (memory.pages + delta) * wasmPageSize ∧
      ∀ q, m.pages.inRange memory.data memory'.size q = true →
        m.pages.inRange memory.data memory.size q = true ∨ s q = true)

/-- A memory whose size is that of its pages grows, or is left as it was. -/
def GrowMemory.Commits (growMemory : GrowMemory) : Prop :=
  ∀ m memory delta answer, memory.size = memory.pages * wasmPageSize →
    Grows m memory delta (growMemory m memory delta answer).1 (growMemory m memory delta answer).2

/-- Growth by one `mprotect`, which may fail with some of the pages committed. -/
def growByMprotect : GrowMemory := fun m memory delta answer =>
  if memory.pages + delta ≤ memory.maxPages then
    match m.mprotect (memory.data + memory.pages * wasmPageSize) (delta * wasmPageSize) .readWrite
        answer with
    | (true, m') =>
      ({ memory with
        pages := memory.pages + delta
        size := (memory.pages + delta) * wasmPageSize }, m')
    | (false, m') => (memory, m')
  else (memory, m)

theorem growByMprotect_commits : GrowMemory.Commits growByMprotect := by
  intro m memory delta answer hsize
  unfold growByMprotect
  split
  · next hle =>
    have hbytes := Nat.mul_le_mul_right wasmPageSize hle
    rw [Nat.add_mul] at hbytes
    have hinside : ∀ q, m.pages.inRange (memory.data + memory.pages * wasmPageSize)
        (delta * wasmPageSize) q = true →
        m.pages.inRange memory.data (memory.maxPages * wasmPageSize) q = true := by
      intro q hq
      rw [PageMap.inRange_iff] at hq ⊢
      omega
    split
    · next m₁ hprotect =>
      obtain ⟨-, hprot⟩ := ProtMap.mprotect_true hprotect
      refine ⟨_, hprot, hinside, .inr ⟨rfl, hle, rfl, fun q hq => ?_⟩⟩
      dsimp only at hq
      rw [Nat.add_mul] at hq
      rw [PageMap.inRange_iff] at hq ⊢
      rw [PageMap.inRange_iff, hsize]
      omega
    · next m₁ hprotect =>
      obtain ⟨s, hs, hprot⟩ := ProtMap.mprotect_false hprotect
      exact ⟨s, hprot, fun q hq => hinside q (hs q hq), .inl rfl⟩
  · exact ⟨fun _ => false, rfl, fun _ hq => (Bool.false_ne_true hq).elim, .inl rfl⟩

/-- A memory is known by its address. The rest of the process keeps off what is reserved. -/
def Process.step (growMemory : GrowMemory) (w : Width) (p : Process) : MemOp → Process
  | .create initialPages cap ans =>
    let r := createWasm2cMemory w p.map initialPages cap ans
    { p with map := r.2, live := if r.1.data ≠ 0 then r.1 :: p.live else p.live }
  | .grow data delta answer =>
    match p.live.find? fun memory => memory.data = data with
    | none => p
    | some memory =>
      let r := growMemory p.map memory delta answer
      { p with
        map := r.2
        live := p.live.map fun other => if other.data = data then r.1 else other }
  | .destroy data =>
    match p.live.find? fun memory => memory.data = data with
    | none => p
    | some memory =>
      { p with
        map := (destroyWasm2cMemory w p.map memory).2
        live := p.live.filter fun other => other.data ≠ data }
  | .turn prot =>
    { p with
      map := { p.map with prot := fun q => if p.reserved w q then p.map.prot q else prot q }
      others := fun q => if p.reserved w q then none else prot q }

def Process.run (growMemory : GrowMemory) (w : Width) (p : Process) (ops : List MemOp) : Process :=
  ops.foldl (Process.step growMemory w) p

/-- What a module declares fits what the host gives it: a capacity that was asked for and can
    be reserved in full, and initial pages within it, fewer than 4 GiB. -/
def MemOp.Fits (w : Width) : MemOp → Prop
  | .create initialPages cap _ => (∀ c ∈ cap, c.isValid = true) →
      (∀ c ∈ cap, ValidCapacity w c) ∧ (w = .w64 ∨ chosenMaxPages w cap < 65536) ∧
      initialPages ≤ chosenMaxPages w cap ∧ initialPages < 65536
  | _ => True

/-- A memory in its reservation: the size can be read and written, the guard cannot be touched,
    and between the two a page is the one or the other. -/
structure Laid (w : Width) (m : ProtMap) (memory : WasmRtMemory) : Prop where
  made : ∃ os initialPages cap ans, SupportedPages os ∧ chosenMaxPages w cap = memory.maxPages ∧
    (RlboxWasm2c.createWasm2cMemory w os initialPages cap ans).1.data = memory.data
  ne_zero : memory.data ≠ 0
  page : m.pages.pageSize ∣ memory.data
  fits : memory.data + roundUp (reserveLength w memory.maxPages) m.pages.pageSize ≤ 2 ^ w.bits
  aligned : w = .w64 → Width.w64.heapAlignment ∣ memory.data ∧ memory.maxPages = 65536
  size : memory.size = memory.pages * wasmPageSize
  within : memory.pages ≤ memory.maxPages
  length : reserveLength w memory.maxPages =
    memory.maxPages * wasmPageSize + w.heapGuardPageSize
  inSize : ∀ q, m.pages.inRange memory.data memory.size q = true → m.prot q = some .readWrite
  mapped : ∀ q, reservedBy w m memory q = true →
    m.prot q = some .readWrite ∨ m.prot q = some .noAccess
  guard : ∀ q, reservedBy w m memory q = true →
    memory.data + memory.maxPages * wasmPageSize ≤ q * m.pages.pageSize →
    m.prot q = some .noAccess

def Apart (w : Width) (m : ProtMap) (a b : WasmRtMemory) : Prop :=
  ∀ q, ¬(reservedBy w m a q = true ∧ reservedBy w m b q = true)

/-- Byte `x` from the start of the memory is on a page reserved for it, for no other memory and
    by nobody else. -/
structure Process.Owns (w : Width) (p : Process) (memory : WasmRtMemory) (x : Nat) : Prop where
  reserved : reservedBy w p.map memory (pageOf p.map memory x) = true
  others : p.others (pageOf p.map memory x) = none
  alone : ∀ other ∈ p.live, other ≠ memory →
    reservedBy w p.map other (pageOf p.map memory x) = false

/-- The address space of a process is shared out between its memories and the others. -/
structure Shared (w : Width) (shift : Nat) (p : Process) : Prop where
  shift : p.map.shift = shift
  laid : ∀ memory ∈ p.live, Laid w p.map memory
  apart : p.live.Pairwise (Apart w p.map)
  others : ∀ q, p.reserved w q = false → p.map.prot q = p.others q
  free : ∀ q, p.reserved w q = true → p.others q = none

section laid
variable {w : Width} {shift : Nat} {m m' : ProtMap} {memory other : WasmRtMemory} {q : Nat}

theorem inRange_congr (h : m'.shift = m.shift) (lo len q : Nat) :
    m'.pages.inRange lo len q = m.pages.inRange lo len q := by
  unfold PageMap.inRange PageMap.pageSize
  rw [ProtMap.pages_shift, ProtMap.pages_shift, h]

theorem reservedBy_congr (h : m'.shift = m.shift) (memory : WasmRtMemory) (q : Nat) :
    reservedBy w m' memory q = reservedBy w m memory q := inRange_congr h ..

theorem apart_congr (h : m'.shift = m.shift) : Apart w m' = Apart w m := by
  funext a b
  unfold Apart
  simp only [reservedBy_congr h]

instance : Std.Symm (Apart w m) := ⟨fun _ _ h q hq => h q hq.symm⟩

theorem Laid.size_le (h : Laid w m memory) : memory.size ≤ memory.maxPages * wasmPageSize := by
  rw [h.size]
  exact Nat.mul_le_mul_right _ h.within

theorem Laid.covers (h : Laid w m memory) :
    memory.maxPages * wasmPageSize ≤ reserveLength w memory.maxPages := by
  rw [h.length]
  exact Nat.le_add_right ..

theorem Laid.isSome (h : Laid w m memory) (hq : reservedBy w m memory q = true) :
    (m.prot q).isSome = true := by
  rcases h.mapped q hq with hprot | hprot
  · rw [hprot]
    rfl
  · rw [hprot]
    rfl

/-- A page of a range inside the reservation. -/
theorem reservedBy_of_inRange {lo len : Nat} (hlo : memory.data ≤ lo)
    (hlen : lo + len ≤ memory.data + reserveLength w memory.maxPages)
    (h : m.pages.inRange lo len q = true) : reservedBy w m memory q = true := by
  unfold reservedBy
  rw [PageMap.inRange_iff] at h ⊢
  omega

/-- How a memory is laid is seen from the pages of its reservation. -/
theorem Laid.congr (h : Laid w m memory) (hshift : m'.shift = m.shift)
    (hsame : ∀ q, reservedBy w m memory q = true → m'.prot q = m.prot q) : Laid w m' memory where
  made := h.made
  ne_zero := h.ne_zero
  page := by
    unfold PageMap.pageSize
    rw [ProtMap.pages_shift, hshift]
    exact h.page
  fits := by
    unfold PageMap.pageSize
    rw [ProtMap.pages_shift, hshift]
    exact h.fits
  aligned := h.aligned
  size := h.size
  within := h.within
  length := h.length
  inSize := by
    intro q hq
    rw [inRange_congr hshift] at hq
    have hle := h.size_le
    have hcovers := h.covers
    rw [hsame q (reservedBy_of_inRange (Nat.le_refl _) (by omega) hq)]
    exact h.inSize q hq
  mapped := by
    intro q hq
    rw [reservedBy_congr hshift] at hq
    rw [hsame q hq]
    exact h.mapped q hq
  guard := by
    intro q hq hend
    rw [reservedBy_congr hshift] at hq
    unfold PageMap.pageSize at hend
    rw [ProtMap.pages_shift, hshift] at hend
    rw [hsame q hq]
    exact h.guard q hq hend

/-- The first page of a reservation. -/
theorem Laid.first (h : Laid w m memory) :
    reservedBy w m memory (memory.data / m.pages.pageSize) = true := by
  have hpos : 0 < reserveLength w memory.maxPages := by
    rw [h.length]
    cases w with
    | w32 => exact Nat.add_pos_right _ (by decide)
    | w64 => exact Nat.add_pos_right _ (by decide)
  exact PageMap.inRange_of_byte h.page (Nat.le_refl _) (Nat.lt_add_of_pos_right hpos)

end laid

section shared
variable {w : Width} {shift : Nat} {p : Process} {memory other : WasmRtMemory} {q : Nat}

theorem Process.reserved_iff :
    p.reserved w q = true ↔ ∃ memory ∈ p.live, reservedBy w p.map memory q = true :=
  List.any_eq_true

theorem Process.reserved_eq_false_iff :
    p.reserved w q = false ↔ ∀ memory ∈ p.live, reservedBy w p.map memory q = false := by
  unfold Process.reserved
  rw [List.any_eq_false]
  simp only [Bool.not_eq_true]

theorem Shared.apart_of_ne (h : Shared w shift p) (hm : memory ∈ p.live) (ho : other ∈ p.live)
    (hne : memory ≠ other) : Apart w p.map memory other :=
  h.apart.forall hm ho hne

/-- Two memories do not start at one address. -/
theorem Shared.eq_of_data (h : Shared w shift p) (hm : memory ∈ p.live) (ho : other ∈ p.live)
    (hdata : other.data = memory.data) : other = memory := by
  by_contra hne
  have hfirst := (h.laid memory hm).first
  have hother := (h.laid other ho).first
  rw [hdata] at hother
  exact h.apart_of_ne hm ho (Ne.symm hne) _ ⟨hfirst, hother⟩

/-- What was reserved for a memory is not free. -/
theorem Shared.not_mapped (h : Shared w shift p) (hq : p.map.pages.mapped q = false) :
    p.reserved w q = false := by
  rw [Process.reserved_eq_false_iff]
  intro memory hm
  by_contra hres
  rw [Bool.not_eq_false] at hres
  rw [ProtMap.pages_mapped, (h.laid memory hm).isSome hres] at hq
  cases hq

end shared

/-! ## What an operation keeps -/

section create
variable {growMemory : GrowMemory} {w : Width} {shift : Nat} {m m' : ProtMap} {p : Process}
  {q : Nat}

/-- A creation touches only what it reserves. -/
theorem committed_other {maxPages a size : Nat} (hsize : size ≤ reserveLength w maxPages)
    (hout : m.pages.inRange a (reserveLength w maxPages) q = false) :
    (committed w m maxPages a size).prot q = m.prot q := by
  have hnot : ¬m.pages.inRange a size q = true := by
    intro hin
    rw [Bool.eq_false_iff, ne_eq, PageMap.inRange_iff] at hout
    rw [PageMap.inRange_iff] at hin
    omega
  rw [committed_outside hnot]
  exact if_neg (Bool.eq_false_iff.mp hout)

/-- How a creation that succeeds lays its memory, and that the pages were free. -/
theorem create_laid {initialPages : Nat} {cap : Option MemCapacity} {ans : OsAnswers}
    (hp : SupportedPages m.pages) (hfits : (MemOp.create initialPages cap ans).Fits w) :
    let r := createWasm2cMemory w m initialPages cap ans
    (r.1.data = 0 ∧ r.2 = m) ∨
    (r.2.shift = m.shift ∧ Laid w r.2 r.1 ∧
      (∀ q, reservedBy w m r.1 q = true → m.prot q = none) ∧
      ∀ q, reservedBy w m r.1 q = false → r.2.prot q = m.prot q) := by
  intro r
  have hr : createWasm2cMemory w m initialPages cap ans = (r.1, r.2) := rfl
  by_cases hvalid : ∀ c ∈ cap, c.isValid = true
  · obtain ⟨hcap, hfull, hle, hlt⟩ := hfits hvalid
    have hpages : r.1.pages = initialPages := by
      change (createWasm2cMemory w m initialPages cap ans).1.pages = initialPages
      rw [createWasm2cMemory_eq hvalid]
    obtain ⟨ok, herase, -⟩ := createWasm2cMemory_erase w ans hp initialPages cap
    have hmade : (RlboxWasm2c.createWasm2cMemory w m.pages initialPages cap
        ⟨ans.mmapAnswer, ok⟩).1.data = r.1.data := by
      rw [← herase]
      rfl
    have hlength := reserveLength_eq (w := w) (chosenMaxPages_le hcap).1
    rw [if_pos hfull] at hlength
    have hbytes : wrap 32 (initialPages * wasmPageSize) = initialPages * wasmPageSize :=
      wrap_eq (by unfold wasmPageSize; omega)
    have hinside : initialPages * wasmPageSize ≤ chosenMaxPages w cap * wasmPageSize :=
      Nat.mul_le_mul_right _ hle
    rcases createWasm2cMemory_commits hp hr with
      ⟨h0, hkept⟩ | ⟨hplaced, hmax, hsize, hprot, hmapped⟩
    · exact .inl ⟨h0, hkept (by omega)⟩
    rw [hbytes] at hsize
    rw [← hmax] at hlength hinside hle
    refine .inr ⟨by rw [hprot]; rfl, ?_, fun q hq => ?_, fun q hq => ?_⟩
    · rw [hprot]
      have houtside : ∀ q, reservedBy w m r.1 q = true →
          ¬m.pages.inRange r.1.data r.1.size q = true →
          (committed w m r.1.maxPages r.1.data r.1.size).prot q = some .noAccess := by
        intro q hq hout
        rw [committed_outside hout]
        exact if_pos hq
      exact
        { made := ⟨m.pages, initialPages, cap, _, hp, hmax.symm, hmade⟩
          ne_zero := hplaced.ne_zero
          page := hplaced.page
          fits := hplaced.fits
          aligned := by
            rintro rfl
            exact ⟨hplaced.aligned rfl, hmax.trans (chosenMaxPages_w64 hcap)⟩
          size := by rw [hsize, hpages]
          within := by rwa [hpages]
          length := hlength
          inSize := fun q hq => committed_inside hq (hmapped q hq)
          mapped := by
            intro q hq
            by_cases hin : m.pages.inRange r.1.data r.1.size q = true
            · exact .inl (committed_inside hin (hmapped q hin))
            · exact .inr (houtside q hq hin)
          guard := by
            intro q hq hend
            refine houtside q hq fun hin => ?_
            have hlast := (PageMap.inRange_iff.mp hin).2
            change _ ≤ q * m.pages.pageSize at hend
            omega }
    · have hfree := hplaced.free q hq
      rwa [ProtMap.pages_mapped, Option.isSome_eq_false_iff, Option.isNone_iff_eq_none] at hfree
    · rw [hprot]
      exact committed_other (by omega) hq
  · push Not at hvalid
    obtain ⟨c, hc, hinvalid⟩ := hvalid
    have hinv : r = (⟨0, 0, 0, 0, 0, false⟩, m) := createWasm2cMemory_invalid hc hinvalid
    rw [hinv]
    exact .inl ⟨rfl, rfl⟩

theorem Shared.create {initialPages : Nat} {cap : Option MemCapacity} {ans : OsAnswers}
    (h : Shared w shift p) (hp : SupportedPages p.map.pages)
    (hfits : (MemOp.create initialPages cap ans).Fits w) :
    Shared w shift (p.step growMemory w (.create initialPages cap ans)) := by
  have hlaid := create_laid hp hfits
  unfold Process.step
  dsimp only at hlaid ⊢
  generalize createWasm2cMemory w p.map initialPages cap ans = r at hlaid ⊢
  rcases hlaid with ⟨h0, hsame⟩ | ⟨hshift, hlaid, hfree, hother⟩
  · rw [if_neg (not_not.mpr h0), hsame]
    exact h
  rw [if_pos hlaid.ne_zero]
  -- what was reserved before is apart from what is reserved now
  have hold : ∀ memory ∈ p.live, ∀ q, reservedBy w p.map memory q = true →
      reservedBy w p.map r.1 q = false := by
    intro memory hm q hq
    by_contra hnew
    have hnone := hfree q (Bool.not_eq_false _ ▸ hnew)
    have hres := h.not_mapped (q := q) (by rw [ProtMap.pages_mapped, hnone]; rfl)
    rw [Process.reserved_eq_false_iff.mp hres memory hm] at hq
    cases hq
  refine ⟨hshift.trans h.shift, ?_, ?_, ?_, ?_⟩
  · refine List.forall_mem_cons.mpr ⟨hlaid, fun memory hm => ?_⟩
    exact (h.laid memory hm).congr hshift fun q hq => hother q (hold memory hm q hq)
  · rw [apart_congr hshift]
    refine List.pairwise_cons.mpr ⟨fun memory hm q hq => ?_, h.apart⟩
    rw [hold memory hm q hq.2] at hq
    exact Bool.false_ne_true hq.1
  · intro q hq
    obtain ⟨hnew, hq⟩ := List.forall_mem_cons.mp (Process.reserved_eq_false_iff.mp hq)
    rw [reservedBy_congr hshift] at hnew
    simp only [reservedBy_congr hshift] at hq
    calc r.2.prot q = p.map.prot q := hother q hnew
      _ = p.others q := h.others q (Process.reserved_eq_false_iff.mpr hq)
  · intro q hq
    obtain ⟨memory, hm, hq⟩ := Process.reserved_iff.mp hq
    rw [reservedBy_congr hshift] at hq
    rcases List.mem_cons.mp hm with rfl | hm
    · have hnone := hfree q hq
      rw [← h.others q (h.not_mapped (by rw [ProtMap.pages_mapped, hnone]; rfl))]
      exact hnone
    · exact h.free q (Process.reserved_iff.mpr ⟨memory, hm, hq⟩)

end create

section grow
variable {growMemory : GrowMemory} {w : Width} {shift : Nat} {m m' : ProtMap} {p : Process}
  {memory memory' : WasmRtMemory} {data delta q : Nat} {answer : MprotectAnswer}

theorem protect_unchanged {s : Nat → Bool} {prot : Prot} (h : ¬s q = true) :
    (m.protect s prot).prot q = m.prot q := if_neg h

theorem protect_changed {s : Nat → Bool} {prot : Prot} (h : s q = true)
    (hmapped : (m.prot q).isSome = true) : (m.protect s prot).prot q = some prot := by
  obtain ⟨old, hold⟩ := Option.isSome_iff_exists.mp hmapped
  unfold ProtMap.protect
  dsimp only
  rw [if_pos h, hold, Option.map_some]

theorem Laid.protect (h : Laid w m memory) {s : Nat → Bool}
    (hs : ∀ q, s q = true →
      m.pages.inRange memory.data (memory.maxPages * wasmPageSize) q = true) :
    Laid w (m.protect s .readWrite) memory := by
  have hwrite : ∀ q, m.prot q = some .readWrite →
      (m.protect s .readWrite).prot q = some .readWrite := by
    intro q hq
    by_cases hin : s q = true
    · exact protect_changed hin (by rw [hq]; rfl)
    · exact (protect_unchanged hin).trans hq
  exact
    { h with
      inSize := fun q hq => hwrite q (h.inSize q hq)
      mapped := by
        intro q hq
        by_cases hin : s q = true
        · exact .inl (protect_changed hin (h.isSome hq))
        · rw [protect_unchanged hin]
          exact h.mapped q hq
      guard := by
        intro q hq hend
        rw [protect_unchanged fun hin => ?_]
        · exact h.guard q hq hend
        · have hlast := (PageMap.inRange_iff.mp (hs q hin)).2
          change _ ≤ q * m.pages.pageSize at hend
          omega }

/-- Growing a memory lays it again, in what is reserved for it, and touches nothing else. -/
theorem Laid.grow (h : Laid w m memory)
    (hgrow : Grows m memory delta memory' m') :
    Laid w m' memory' ∧ GrownFrom memory memory' ∧ m'.shift = m.shift ∧
      ∀ q, reservedBy w m memory q = false → m'.prot q = m.prot q := by
  obtain ⟨s, rfl, hs, hgrown⟩ := hgrow
  have hlaid := h.protect hs
  have hcovers := h.covers
  refine ⟨?_, ?_, rfl, fun q hq => ?_⟩
  · rcases hgrown with rfl | ⟨hmemory, hle, hsize, hnew⟩
    · exact hlaid
    · rw [hmemory]
      exact
        { hlaid with
          size := hsize
          within := hle
          inSize := by
            intro q hq
            by_cases hin : s q = true
            · have hres : reservedBy w m memory q = true :=
                reservedBy_of_inRange (Nat.le_refl _) (by omega) (hs q hin)
              exact protect_changed hin (h.isSome hres)
            · exact hlaid.inSize q ((hnew q hq).resolve_right hin) }
  · rcases hgrown with rfl | ⟨hmemory, -⟩
    · exact ⟨rfl, rfl⟩
    · rw [hmemory]
      exact ⟨rfl, rfl⟩
  · refine protect_unchanged fun hin => ?_
    rw [reservedBy_of_inRange (Nat.le_refl _) (by omega) (hs q hin)] at hq
    cases hq

/-- One memory is replaced by one that is laid in the same reservation. -/
theorem Shared.replace (h : Shared w shift p) (hm : memory ∈ p.live) (hlaid : Laid w m' memory')
    (hgrown : GrownFrom memory memory') (hshift : m'.shift = p.map.shift)
    (hother : ∀ q, reservedBy w p.map memory q = false → m'.prot q = p.map.prot q) :
    Shared w shift { p with
      map := m'
      live := p.live.map fun other => if other.data = memory.data then memory' else other } := by
  have hsame : ∀ other ∈ p.live, ∀ q,
      reservedBy w m' (if other.data = memory.data then memory' else other) q =
        reservedBy w p.map other q := by
    intro other ho q
    rw [reservedBy_congr hshift]
    split
    · next hdata =>
      rw [h.eq_of_data hm ho hdata]
      unfold reservedBy
      rw [hgrown.data, hgrown.maxPages]
    · rfl
  have hreserved : ∀ q, Process.reserved w { p with
      map := m'
      live := p.live.map fun other => if other.data = memory.data then memory' else other } q =
      p.reserved w q := by
    intro q
    rw [Bool.eq_iff_iff, Process.reserved_iff, Process.reserved_iff]
    constructor
    · rintro ⟨_, hmem, hq⟩
      obtain ⟨other, ho, rfl⟩ := List.mem_map.mp hmem
      exact ⟨other, ho, (hsame other ho q).symm.trans hq⟩
    · rintro ⟨other, ho, hq⟩
      exact ⟨_, List.mem_map_of_mem ho, (hsame other ho q).trans hq⟩
  refine ⟨hshift.trans h.shift, ?_, ?_, ?_, ?_⟩
  · intro _ hmem
    obtain ⟨other, ho, rfl⟩ := List.mem_map.mp hmem
    split
    · exact hlaid
    · next hdata =>
      refine (h.laid other ho).congr hshift fun q hq => hother q ?_
      have hapart := h.apart_of_ne hm ho (fun heq => hdata (heq ▸ rfl)) q
      rw [Bool.eq_false_iff]
      exact fun hown => hapart ⟨hown, hq⟩
  · rw [List.pairwise_map]
    refine h.apart.imp_of_mem fun ho ho' hapart q hq => hapart q ?_
    rwa [hsame _ ho, hsame _ ho'] at hq
  · intro q hq
    rw [hreserved] at hq
    rw [← h.others q hq]
    exact hother q (Process.reserved_eq_false_iff.mp hq memory hm)
  · intro q hq
    rw [hreserved] at hq
    exact h.free q hq

theorem Shared.grow (h : Shared w shift p) (hgrow : growMemory.Commits) (data delta : Nat)
    (answer : MprotectAnswer) :
    Shared w shift (p.step growMemory w (.grow data delta answer)) := by
  unfold Process.step
  dsimp only
  split
  · exact h
  · next memory hfound =>
    have hm := List.mem_of_find?_eq_some hfound
    have hdata : memory.data = data := by simpa using List.find?_some hfound
    have hmemory := h.laid memory hm
    obtain ⟨hlaid, hgrown, hshift, hother⟩ :=
      hmemory.grow (hgrow p.map memory delta answer hmemory.size)
    rw [← hdata]
    exact h.replace hm hlaid hgrown hshift hother

end grow

section run
variable {growMemory : GrowMemory} {w : Width} {shift : Nat} {m : ProtMap} {p : Process}
  {memory : WasmRtMemory}

theorem supportedPages_congr {m' : ProtMap} (h : m'.shift = m.shift) (hp : SupportedPages m.pages) :
    SupportedPages m'.pages := by
  unfold SupportedPages
  rwa [ProtMap.pages_shift, h]

/-- Destroying a laid memory unmaps what is reserved for it, and nothing else. -/
theorem Laid.destroy (h : Laid w m memory) (hp : SupportedPages m.pages) :
    destroyWasm2cMemory w m memory =
      ({ memory with data := 0 }, m.unmap memory.data (reserveLength w memory.maxPages)) := by
  unfold destroyWasm2cMemory
  rw [if_pos h.ne_zero]
  refine congrArg (Prod.mk _) ?_
  -- as if the memory had been made in the map without it
  refine osMunmap_restores (m := m.unmap memory.data (reserveLength w memory.maxPages)) hp
    ⟨h.ne_zero, h.page, h.fits, fun hw => (h.aligned hw).1, fun q hq => ?_⟩ rfl fun q hq => ?_
  · rw [ProtMap.pages_unmap, PageMap.unmap_mapped]
    change m.pages.inRange _ _ q = true at hq
    rw [hq, Bool.not_true, Bool.and_false]
  · exact (if_neg hq).symm

theorem Shared.destroy (h : Shared w shift p) (hp : SupportedPages p.map.pages) (data : Nat) :
    Shared w shift (p.step growMemory w (.destroy data)) := by
  unfold Process.step
  dsimp only
  split
  · exact h
  next memory hfound =>
  have hm := List.mem_of_find?_eq_some hfound
  have hdata : memory.data = data := by simpa using List.find?_some hfound
  rw [(h.laid memory hm).destroy hp, ← hdata]
  have hother : ∀ q, reservedBy w p.map memory q = false →
      (p.map.unmap memory.data (reserveLength w memory.maxPages)).prot q = p.map.prot q :=
    fun q hq => if_neg (Bool.eq_false_iff.mp hq)
  have hleft : ∀ other, other ∈ p.live.filter (fun other => other.data ≠ memory.data) →
      other ∈ p.live ∧ other ≠ memory := by
    intro other ho
    obtain ⟨ho, hne⟩ := List.mem_filter.mp ho
    exact ⟨ho, fun heq => of_decide_eq_true hne (heq ▸ rfl)⟩
  refine ⟨h.shift, ?_, ?_, ?_, ?_⟩
  · intro other ho
    obtain ⟨ho, hne⟩ := hleft other ho
    refine (h.laid other ho).congr rfl fun q hq => hother q ?_
    rw [Bool.eq_false_iff]
    exact fun hown => h.apart_of_ne hm ho hne.symm q ⟨hown, hq⟩
  · exact h.apart.sublist List.filter_sublist
  · intro q hq
    by_cases hown : reservedBy w p.map memory q = true
    · rw [h.free q (Process.reserved_iff.mpr ⟨memory, hm, hown⟩)]
      exact if_pos hown
    · rw [Bool.not_eq_true] at hown
      rw [← h.others q ?_]
      · exact hother q hown
      rw [Process.reserved_eq_false_iff] at hq ⊢
      intro other ho
      by_cases hsame : other.data = memory.data
      · rw [h.eq_of_data hm ho hsame]
        exact hown
      · exact hq other (List.mem_filter.mpr ⟨ho, decide_eq_true hsame⟩)
  · intro q hq
    obtain ⟨other, ho, hq⟩ := Process.reserved_iff.mp hq
    exact h.free q (Process.reserved_iff.mpr ⟨other, (hleft other ho).1, hq⟩)

theorem Shared.turn (h : Shared w shift p) (prot : Nat → Option Prot) :
    Shared w shift (p.step growMemory w (.turn prot)) := by
  have hreserved : ∀ q, (p.step growMemory w (.turn prot)).reserved w q = p.reserved w q :=
    fun _ => rfl
  refine ⟨h.shift, fun memory hm => ?_, h.apart, fun q hq => ?_, fun q hq => ?_⟩
  · refine (h.laid memory hm).congr rfl fun q hq => ?_
    exact if_pos (Process.reserved_iff.mpr ⟨memory, hm, hq⟩)
  · rw [hreserved] at hq
    unfold Process.step
    dsimp only
    rw [hq]
    rfl
  · rw [hreserved] at hq
    exact if_pos hq

theorem Shared.step (h : Shared w shift p) (hgrow : growMemory.Commits)
    (hp : SupportedPages p.map.pages) (op : MemOp)
    (hfits : op.Fits w) : Shared w shift (p.step growMemory w op) := by
  cases op with
  | create initialPages cap ans => exact h.create hp hfits
  | grow data delta answer => exact h.grow hgrow data delta answer
  | destroy data => exact h.destroy hp data
  | turn prot => exact h.turn prot

theorem Shared.run (h : Shared w shift p) (hgrow : growMemory.Commits)
    (hp : SupportedPages p.map.pages) (ops : List MemOp)
    (hfits : ∀ op ∈ ops, op.Fits w) : Shared w shift (p.run growMemory w ops) := by
  induction ops generalizing p with
  | nil => exact h
  | cons op ops ih =>
    obtain ⟨hop, hops⟩ := List.forall_mem_cons.mp hfits
    have hstep := h.step hgrow hp op hop
    exact ih hstep (supportedPages_congr (hstep.shift.trans h.shift.symm) hp) hops

theorem Shared.start (m : ProtMap) : Shared w m.shift ⟨m, [], m.prot⟩ where
  shift := rfl
  laid := fun _ hm => (List.not_mem_nil hm).elim
  apart := .nil
  others := fun _ _ => rfl
  free := by
    intro q hq
    cases hq

theorem step_destroy_live (data : Nat) :
    (p.step growMemory w (.destroy data)).live = p.live.filter fun other => other.data ≠ data := by
  unfold Process.step
  dsimp only
  split
  · next hnone =>
    refine (List.filter_eq_self.mpr fun other ho => ?_).symm
    have hne := List.find?_eq_none.mp hnone other ho
    simpa using hne
  · rfl

theorem step_destroy_others (data : Nat) :
    (p.step growMemory w (.destroy data)).others = p.others := by
  unfold Process.step
  dsimp only
  split
  · rfl
  · rfl

theorem run_destroy (addrs : List Nat) :
    (p.run growMemory w (addrs.map .destroy)).live =
        p.live.filter (fun other => other.data ∉ addrs) ∧
      (p.run growMemory w (addrs.map .destroy)).others = p.others := by
  induction addrs generalizing p with
  | nil =>
    refine ⟨(List.filter_eq_self.mpr fun other _ => ?_).symm, rfl⟩
    simp
  | cons data addrs ih =>
    obtain ⟨hlive, hothers⟩ := ih (p := p.step growMemory w (.destroy data))
    change ((p.step growMemory w (.destroy data)).run growMemory w (addrs.map .destroy)).live = _ ∧
      ((p.step growMemory w (.destroy data)).run growMemory w (addrs.map .destroy)).others = _
    rw [hlive, hothers, step_destroy_live, step_destroy_others, List.filter_filter]
    refine ⟨List.filter_congr fun other _ => ?_, rfl⟩
    simp [Bool.and_comm]

end run

/-! ## Two memories -/

/-- A memory of one page at `u`. -/
def pageAt (u : Nat) : WasmRtMemory := ⟨u, wasmPageSize, 1, 65536, 65536, false⟩

/-- A creation of one page that the system answers with free pages at an aligned address. -/
theorem createWasm2cMemory_at {m : ProtMap} {u : Nat} (hshift : m.shift = 16) (h0 : u ≠ 0)
    (hu : 2 ^ 33 ∣ u) (hend : u + 2 ^ 34 ≤ 2 ^ 64)
    (haligned : alignedAddr .w64 u Width.w64.heapAlignment 0 = u)
    (hfree : ∀ q, m.pages.inRange u (2 ^ 34) q = true → m.prot q = none) :
    (createWasm2cMemory .w64 m 1 none (grantAt u)).1 = pageAt u := by
  have hp : SupportedPages m.pages := Nat.le_of_eq hshift
  have hpage : m.pages.pageSize = 65536 := congrArg (2 ^ ·) hshift
  have hpadded : roundUp (reserveLength .w64 (chosenMaxPages .w64 none) +
      Width.w64.heapAlignment + 0) m.pages.pageSize = 2 ^ 34 := by
    rw [hpage]
    decide
  have hdvd : 65536 ∣ u := Nat.dvd_trans (by decide) hu
  have hrange : m.pages.free u (2 ^ 34) = true := by
    simp only [PageMap.free, hpage, ProtMap.pages_mapped, decide_eq_true_eq]
    intro i hi
    rw [hfree]
    · rfl
    · rw [PageMap.inRange_iff, hpage]
      omega
  have hgrant : m.pages.grants Width.w64.bits (roundUp (reserveLength .w64
      (chosenMaxPages .w64 none) + Width.w64.heapAlignment + 0) m.pages.pageSize) u = true := by
    rw [hpadded, PageMap.grants, hrange, hpage]
    simp only [h0, hdvd, Width.bits, bne_iff_ne, ne_eq, not_false_eq_true, decide_true,
      Bool.and_true, Bool.and_eq_true]
    exact ⟨⟨trivial, by decide⟩, decide_eq_true hend⟩
  obtain ⟨ok, herase, hok⟩ := createWasm2cMemory_erase .w64 (grantAt u) hp 1 none
  obtain rfl := hok (by decide) rfl
  have hmade := congrArg Prod.fst herase
  rw [erase_fst, grantAt_erase, createWasm2cMemory_granted hp (by rintro c ⟨⟩) rfl rfl hgrant
    (by rw [hpadded]; decide), haligned] at hmade
  exact hmade

/-- Two memories side by side, and then the rest of the process maps all it can. -/
def sideBySide : List MemOp :=
  [.create 1 none (grantAt (2 ^ 33)), .create 1 none (grantAt (2 ^ 34)),
    .turn fun _ => some .readWrite]

abbrev sideBySideProcess : Process :=
  .run growByMprotect .w64 ⟨noProt, [], noProt.prot⟩ sideBySide

theorem sideBySide_fits : ∀ op ∈ sideBySide, op.Fits .w64 := by
  have hfits : ∀ ans, (MemOp.create 1 none ans).Fits .w64 := by
    intro ans _
    exact ⟨by rintro c ⟨⟩, .inl rfl, by decide, by decide⟩
  simp only [sideBySide, List.forall_mem_cons]
  exact ⟨hfits _, hfits _, trivial, fun _ hop => (List.not_mem_nil hop).elim⟩

theorem step_create (growMemory : GrowMemory) {w : Width} {p : Process} {initialPages : Nat}
    {cap : Option MemCapacity} {ans : OsAnswers} {memory : WasmRtMemory} {m' : ProtMap}
    (h : createWasm2cMemory w p.map initialPages cap ans = (memory, m')) (h0 : memory.data ≠ 0) :
    p.step growMemory w (.create initialPages cap ans) = ⟨m', memory :: p.live, p.others⟩ := by
  unfold Process.step
  dsimp only
  rw [h, if_pos h0]

theorem sideBySide_live : sideBySideProcess.live = [pageAt (2 ^ 34), pageAt (2 ^ 33)] := by
  have hfirst := createWasm2cMemory_at (m := noProt) (u := 2 ^ 33) rfl (by decide) (by decide)
    (by decide) (by decide) fun _ _ => rfl
  have hlaid := create_laid (m := noProt) noPages_supported
    (sideBySide_fits _ (List.mem_cons_self ..))
  rcases hmade : createWasm2cMemory .w64 noProt 1 none (grantAt (2 ^ 33)) with ⟨memory, m₁⟩
  rw [hmade] at hfirst hlaid
  obtain rfl : memory = _ := hfirst
  rcases hlaid with ⟨h0, -⟩ | ⟨hshift, -, -, hother⟩
  · exact absurd (show 2 ^ 33 = 0 from h0) (by decide)
  have hsecond : (createWasm2cMemory .w64 m₁ 1 none (grantAt (2 ^ 34))).1 = pageAt (2 ^ 34) := by
    refine createWasm2cMemory_at hshift (by decide) (by decide) (by decide) (by decide) ?_
    intro q hq
    refine hother q ?_
    -- the second range starts where the first reservation ends
    have hlength : reserveLength .w64 65536 = 2 ^ 33 := by decide
    rw [inRange_congr hshift, PageMap.inRange_iff] at hq
    unfold reservedBy pageAt
    dsimp only
    rw [hlength, Bool.eq_false_iff, ne_eq, PageMap.inRange_iff]
    omega
  rcases hnext : createWasm2cMemory .w64 m₁ 1 none (grantAt (2 ^ 34)) with ⟨memory, m₂⟩
  rw [hnext] at hsecond
  obtain rfl : memory = _ := hsecond
  have hone := step_create growByMprotect (p := ⟨noProt, [], noProt.prot⟩) hmade (by decide)
  have htwo := step_create growByMprotect (p := ⟨m₁, [pageAt (2 ^ 33)], noProt.prot⟩) hnext
    (by decide)
  unfold sideBySideProcess Process.run sideBySide
  rw [List.foldl_cons, hone, List.foldl_cons, htwo]
  rfl

theorem sideBySide_mem :
    pageAt (2 ^ 33) ∈ sideBySideProcess.live ∧ pageAt (2 ^ 34) ∈ sideBySideProcess.live := by
  rw [sideBySide_live]
  exact ⟨List.mem_cons_of_mem _ (List.mem_cons_self ..), List.mem_cons_self ..⟩

section bytes
variable {m : ProtMap} {memory : WasmRtMemory} {x : Nat}

theorem Laid.byte_inSize {w : Width} (h : Laid w m memory) (hx : x < memory.size) :
    m.prot (pageOf m memory x) = some .readWrite :=
  h.inSize _ (PageMap.inRange_of_byte h.page (Nat.le_add_right ..) (Nat.add_lt_add_left hx _))

/-- The reservation of a 64-bit host: 4 GiB of memory and 4 GiB of guard. -/
theorem Laid.length_w64 (h : Laid .w64 m memory) :
    memory.maxPages * wasmPageSize = 2 ^ 32 ∧ reserveLength .w64 memory.maxPages = 2 ^ 33 := by
  rw [(h.aligned rfl).2]
  decide

theorem Laid.byte_reserved (h : Laid .w64 m memory) (hx : x < 2 ^ 33) :
    reservedBy .w64 m memory (pageOf m memory x) = true := by
  rw [← h.length_w64.2] at hx
  exact PageMap.inRange_of_byte h.page (Nat.le_add_right ..) (Nat.add_lt_add_left hx _)

theorem Laid.byte_lt (h : Laid .w64 m memory) (hx : x < 2 ^ 33) : memory.data + x < 2 ^ 64 := by
  have hfits := h.fits
  have hround := le_roundUp (x := reserveLength .w64 memory.maxPages) m.pages.pageSize_pos
  rw [h.length_w64.2] at hfits hround
  exact Nat.lt_of_lt_of_le (by omega) hfits

theorem Laid.byte_guard (h : Laid .w64 m memory) (hp : SupportedPages m.pages)
    (hlo : 2 ^ 32 ≤ x) (hx : x < 2 ^ 33) : m.prot (pageOf m memory x) = some .noAccess := by
  refine h.guard _ (h.byte_reserved hx) ?_
  have hdvd : m.pages.pageSize ∣ memory.data + 2 ^ 32 :=
    Nat.dvd_add h.page (Nat.pow_dvd_pow 2 (Nat.le_trans hp (by decide)))
  calc memory.data + memory.maxPages * wasmPageSize
      = memory.data + 2 ^ 32 := by rw [h.length_w64.1]
    _ = (memory.data + 2 ^ 32) / m.pages.pageSize * m.pages.pageSize :=
      (Nat.div_mul_cancel hdvd).symm
    _ ≤ pageOf m memory x * m.pages.pageSize :=
      Nat.mul_le_mul_right _ (Nat.div_le_div_right (Nat.add_le_add_left hlo _))

end bytes

/-- Memories start at multiples of 8 GiB. -/
theorem Shared.windows_apart {shift : Nat} {p : Process} {memory other : WasmRtMemory}
    (h : Shared .w64 shift p) (hm : memory ∈ p.live) (ho : other ∈ p.live) (hne : memory ≠ other) :
    memory.data + 2 ^ 32 ≤ other.data ∨ other.data + 2 ^ 32 ≤ memory.data := by
  obtain ⟨a, ha⟩ := ((h.laid memory hm).aligned rfl).1
  obtain ⟨b, hb⟩ := ((h.laid other ho).aligned rfl).1
  have hdata : memory.data ≠ other.data := fun heq => hne (h.eq_of_data ho hm heq)
  simp only [Width.heapAlignment] at ha hb
  omega

/-- A byte of the first 4 GiB from the start of a memory is on a page reserved for it. -/
theorem Shared.reserved_of_window {shift : Nat} {p : Process} {memory : WasmRtMemory} {y : Nat}
    (h : Shared .w64 shift p) (hm : memory ∈ p.live) (hlo : memory.data ≤ y)
    (hhi : y < memory.data + 2 ^ 32) :
    p.reserved .w64 (y / p.map.pages.pageSize) = true := by
  have hres := (h.laid memory hm).byte_reserved (x := y - memory.data) (by omega)
  rw [pageOf, Nat.add_sub_cancel' hlo] at hres
  exact Process.reserved_iff.mpr ⟨memory, hm, hres⟩

/-- `n` bytes from `start` on, which is before the end of the guard: one of them cannot be
    touched, or all are within the maximum and the memory's own. -/
theorem Shared.access {shift : Nat} {p : Process} {memory : WasmRtMemory} {start n : Nat}
    (h : Shared .w64 shift p) (hp : SupportedPages p.map.pages) (hm : memory ∈ p.live)
    (hstart : start < 2 ^ 33) (hn : 0 < n) :
    (∃ i < n, p.map.prot (pageOf p.map memory (start + i)) = some .noAccess) ∨
      start + n ≤ memory.maxPages * wasmPageSize ∧
      ∀ i < n, memory.data + (start + i) < 2 ^ 64 ∧ p.Owns .w64 memory (start + i) := by
  have hlaid := h.laid memory hm
  rw [hlaid.length_w64.1]
  by_cases hle : start + n ≤ 2 ^ 32
  · refine .inr ⟨hle, fun i hi => ?_⟩
    have hres := hlaid.byte_reserved (x := start + i) (by omega)
    refine ⟨hlaid.byte_lt (by omega), hres, ?_, fun other ho hne => ?_⟩
    · exact h.free _ (Process.reserved_iff.mpr ⟨memory, hm, hres⟩)
    · rw [Bool.eq_false_iff]
      exact fun hown => h.apart_of_ne hm ho hne.symm _ ⟨hres, hown⟩
  · -- the first byte of the access that is not within 4 GiB is in the guard
    obtain ⟨i, hi, hlo, hhi⟩ : ∃ i < n, 2 ^ 32 ≤ start + i ∧ start + i < 2 ^ 33 := by
      by_cases hbefore : start < 2 ^ 32
      · exact ⟨2 ^ 32 - start, by omega, by omega, by omega⟩
      · exact ⟨0, hn, by omega, by omega⟩
    exact .inl ⟨i, hi, hlaid.byte_guard hp hlo hhi⟩

/-- An access of a guest at `index`, with the constant `offset` of its instruction, to `n`
    bytes of its memory, on a 64-bit host and in any state of the process: within the size it
    can be done; and wherever it is, one of its bytes cannot be touched, or all are within the
    maximum and the memory's own. -/
theorem guest_stays_in_memory {growMemory : GrowMemory} (hgrow : growMemory.Commits) (m : ProtMap)
    (hp : SupportedPages m.pages) (ops : List MemOp)
    (hfits : ∀ op ∈ ops, op.Fits .w64) :
    let p := Process.run growMemory .w64 ⟨m, [], m.prot⟩ ops
    ∀ memory ∈ p.live, ∀ index < 2 ^ 32, ∀ offset < 2 ^ 32, ∀ n, 0 < n →
      (index + offset + n ≤ memory.size → ∀ i < n,
        p.map.prot (pageOf p.map memory (index + offset + i)) = some .readWrite) ∧
      ((∃ i < n, p.map.prot (pageOf p.map memory (index + offset + i)) = some .noAccess) ∨
        index + offset + n ≤ memory.maxPages * wasmPageSize ∧
        ∀ i < n, memory.data + (index + offset + i) < 2 ^ 64 ∧
          p.Owns .w64 memory (index + offset + i)) := by
  intro p memory hm index hindex offset hoffset n hn
  have hshared : Shared .w64 m.shift p := (Shared.start m).run hgrow hp ops hfits
  refine ⟨fun hle i hi => (hshared.laid memory hm).byte_inSize (by omega), ?_⟩
  exact hshared.access (supportedPages_congr hshared.shift hp) hm (by omega) hn

/-- The last possible access from the first of two memories side by side ends in its guard,
    and not in the second memory. -/
theorem sideBySide_guarded :
    let p := Process.run growByMprotect .w64 ⟨noProt, [], noProt.prot⟩ sideBySide
    ∃ i < 4, p.map.prot (pageOf p.map (pageAt (2 ^ 33)) (2 ^ 32 - 1 + (2 ^ 32 - 1) + i)) =
      some .noAccess := by
  have hstays := (guest_stays_in_memory growByMprotect_commits noProt noPages_supported sideBySide
    sideBySide_fits _ sideBySide_mem.1 (2 ^ 32 - 1) (by decide) (2 ^ 32 - 1) (by decide) 4
    (by decide)).2
  exact hstays.resolve_right fun howned => absurd howned.1 (by decide)

end RlboxWasm2c.Protected

import RlboxWasm2c.Base.Regions
import RlboxWasm2c.AlignedBlock
import RlboxWasm2c.Protections

/- The linear memory on Windows. A part of a reservation cannot be given back there, so
   `os_mmap_aligned` releases the padded one and reserves the aligned block again: in between
   the rest of the process can take it, which is what the retries of `create_wasm2c_memory`
   are for. The system is a `Regions.Space`; before each call the rest of the process has a
   turn.

   `create_outcome`: a creation fails exactly when the capacity is not valid, all ten
   reservations are refused, or the commit is; and what it reserved is then released.
   `memories_own_regions`: whatever is created, grown and destroyed, the regions held are those
   of the live memories. -/
namespace RlboxWasm2c.Windows
open Words Blocks Regions

/-! ## The functions of the source -/

/-- `MEM_RESERVE`, `MEM_COMMIT`. -/
inductive AllocFlag where
  | memReserve
  | memCommit
  deriving DecidableEq

/-- The calls of `win_mmap` and `os_munmap`, with what came of them. -/
inductive Event where
  | reserve (hint size result : Nat)
  | commit (addr size result : Nat)
  | release (addr size : Nat) (ok : Bool)
  deriving DecidableEq

structure Sys where
  space : Space
  log : List Event
  deriving DecidableEq

/-- At each position of the log: what the rest of the process holds by then, and what the
    system answers. -/
structure OsAnswers where
  others : Nat → List Region
  reserveAt : Nat → Option Nat
  commitOk : Nat → Bool

/-- `flProtect`, from the bits of `prot`. -/
def flProtect (prot : Nat) : Protect :=
  if prot &&& Protected.mmapProtExec ≠ 0 then
    if prot &&& Protected.mmapProtWrite ≠ 0 then .executeReadWrite else .executeRead
  else if prot &&& Protected.mmapProtWrite ≠ 0 then .readWrite
  else if prot &&& Protected.mmapProtRead ≠ 0 then .readOnly
  else .noAccess

def Sys.turn (s : Sys) (ans : OsAnswers) : Space := s.space.turn (ans.others s.log.length)

/-- `VirtualAlloc` with one of the two flags; 0 stands for the null pointer. -/
def virtualAlloc (w : Width) (ans : OsAnswers) (s : Sys) (hint requestSize : Nat)
    (allocFlag : AllocFlag) (protect : Protect) : Nat × Space :=
  match allocFlag with
  | .memReserve =>
    match (s.turn ans).reserve w.bits hint requestSize (ans.reserveAt s.log.length) with
    | (some addr, space) => (addr, space)
    | (none, space) => (0, space)
  | .memCommit =>
    match (s.turn ans).commit hint requestSize protect (ans.commitOk s.log.length) with
    | (true, space) => (((s.turn ans).pagesOf hint requestSize).addr, space)
    | (false, space) => (0, space)

def AllocFlag.event : AllocFlag → Nat → Nat → Nat → Event
  | .memReserve => .reserve
  | .memCommit => .commit

def winMmap (w : Width) (ans : OsAnswers) (s : Sys) (hint size prot : Nat)
    (allocFlag : AllocFlag) : Nat × Sys :=
  let pageSize := s.space.pageSize
  let requestSize := andNot w.bits (wrap w.bits (size + (pageSize - 1))) (pageSize - 1)
  if requestSize < size then (0, { s with log := s.log ++ [allocFlag.event hint size 0] })
  else
    let requestSize := if requestSize = 0 then pageSize else requestSize
    let r := virtualAlloc w ans s hint requestSize allocFlag (flProtect prot)
    (r.1, ⟨r.2, s.log ++ [allocFlag.event hint size r.1]⟩)

/-- `VirtualFree` with `MEM_RELEASE`: the size is for the message only. -/
def osMunmap (ans : OsAnswers) (s : Sys) (addr size : Nat) : Sys :=
  if addr ≠ 0 then
    let r := (s.turn ans).release addr
    ⟨r.2, s.log ++ [.release addr size r.1]⟩
  else s

/-- Whether the call returns 0. -/
def osMmapCommit (w : Width) (ans : OsAnswers) (s : Sys) (addr size prot : Nat) : Bool × Sys :=
  let r := winMmap w ans s addr size prot .memCommit
  (r.1 != 0, r.2)

def osMmapAligned (w : Width) (ans : OsAnswers) (s : Sys) (addr requestedLength prot alignment
    alignmentOffset : Nat) : Nat × Sys :=
  let paddedLength := wrap w.bits (requestedLength + alignment + alignmentOffset)
  let r := winMmap w ans s addr paddedLength prot .memReserve
  let unaligned := r.1
  if unaligned = 0 then (0, r.2)
  else
    let aligned := alignedAddr w unaligned alignment alignmentOffset
    if aligned = unaligned ∧ paddedLength = requestedLength then (aligned, r.2)
    else if alignedFails w unaligned aligned requestedLength paddedLength alignment
        alignmentOffset then
      (0, osMunmap ans r.2 unaligned paddedLength)
    else
      winMmap w ans (osMunmap ans r.2 unaligned paddedLength) aligned requestedLength prot
        .memReserve

def reserveLoop (w : Width) (ans : OsAnswers) (heapReserveSize byteLength : Nat) :
    Nat → Sys → Nat × Sys
  | 0, s => (0, s)
  | attempts + 1, s =>
    match osMmapAligned w ans s 0 (wrap w.bits heapReserveSize) Protected.mmapProtNone
        w.heapAlignment 0 with
    | (0, s) => reserveLoop w ans heapReserveSize byteLength attempts s
    | (data + 1, s) =>
      match osMmapCommit w ans s (data + 1) byteLength
          (Protected.mmapProtRead ||| Protected.mmapProtWrite) with
      | (true, s) => (data + 1, s)
      | (false, s) => (0, osMunmap ans s (data + 1) (wrap w.bits heapReserveSize))

def createWasm2cMemory (w : Width) (ans : OsAnswers) (s : Sys) (initialPages : Nat)
    (customCapacity : Option MemCapacity) : WasmRtMemory × Sys :=
  if customCapacity.any (fun c => !c.isValid) then (⟨0, 0, 0, 0, 0, false⟩, s)
  else
    let byteLength := wrap 32 (initialPages * wasmPageSize)
    let chosenMaxPages := (customCapacity.map MemCapacity.maxPages).getD w.heapDefaultMaxPages
    let heapReserveSize := computeHeapReserveSpace w chosenMaxPages
    let r := reserveLoop w ans heapReserveSize byteLength 10 s
    (⟨r.1, wasmPageSize, initialPages, chosenMaxPages, byteLength, false⟩, r.2)

def destroyWasm2cMemory (w : Width) (ans : OsAnswers) (s : Sys) (memory : WasmRtMemory) :
    WasmRtMemory × Sys :=
  if memory.data ≠ 0 then
    let heapReserveSize := computeHeapReserveSpace w memory.maxPages
    ({ memory with data := 0 }, osMunmap ans s memory.data (wrap w.bits heapReserveSize))
  else (memory, s)

/-! ## One call -/

/-- The page sizes and granularities of the supported systems. -/
structure Supported (s : Space) : Prop where
  page_le : s.shift ≤ s.granShift
  gran_le : s.granShift ≤ 16

/-- From `s` to `s'` the space stays well formed, and what the rest of the process holds was
    changed by nobody else. -/
structure Continues (ans : OsAnswers) (s s' : Sys) : Prop where
  shift : s'.space.shift = s.space.shift
  granShift : s'.space.granShift = s.space.granShift
  wellFormed : s'.space.WellFormed
  others : s'.space.others = s.space.others ∨ ∃ k, s'.space.others = ans.others k

section calls
variable {w : Width} {ans : OsAnswers} {s s' s'' : Sys} {hint size prot a : Nat}

theorem Continues.refl (ans : OsAnswers) (hwf : s.space.WellFormed) : Continues ans s s :=
  ⟨rfl, rfl, hwf, .inl rfl⟩

theorem Continues.trans (h : Continues ans s s') (h' : Continues ans s' s'') :
    Continues ans s s'' where
  shift := h'.shift.trans h.shift
  granShift := h'.granShift.trans h.granShift
  wellFormed := h'.wellFormed
  others := by
    rcases h'.others with hsame | hturn
    · rw [hsame]
      exact h.others
    · exact .inr hturn

theorem Continues.supported (h : Continues ans s s') (hs : Supported s.space) :
    Supported s'.space := by
  refine ⟨?_, ?_⟩
  · rw [h.shift, h.granShift]
    exact hs.page_le
  · rw [h.granShift]
    exact hs.gran_le

theorem Continues.pageSize (h : Continues ans s s') : s'.space.pageSize = s.space.pageSize :=
  congrArg (2 ^ ·) h.shift

theorem Continues.granularity (h : Continues ans s s') :
    s'.space.granularity = s.space.granularity :=
  congrArg (2 ^ ·) h.granShift

theorem pageSize_dvd (hs : Supported s.space) : s.space.pageSize ∣ s.space.granularity :=
  Nat.pow_dvd_pow 2 hs.page_le

/-- A turn of the rest of the process, and then a change of what is one's own. -/
theorem Continues.turned {log : List Event} {own : List Region}
    (hwf : ({ s.turn ans with own := own } : Space).WellFormed) :
    Continues ans s ⟨{ s.turn ans with own := own }, log⟩ where
  shift := Space.turn_shift ..
  granShift := Space.turn_granShift ..
  wellFormed := hwf
  others := (Space.turn_others ..).imp id fun h => ⟨_, h⟩

/-- The size that is asked of the system; one that wraps is refused. -/
theorem request_eq {pageShift : Nat} (hp : pageShift ≤ 16) (hlt : size < 2 ^ w.bits) :
    (size + (2 ^ pageShift - 1) < 2 ^ w.bits ∧
      andNot w.bits (wrap w.bits (size + (2 ^ pageShift - 1))) (2 ^ pageShift - 1) =
        roundUp size (2 ^ pageShift)) ∨
    andNot w.bits (wrap w.bits (size + (2 ^ pageShift - 1))) (2 ^ pageShift - 1) < size := by
  have hbits := w.le_bits
  rcases Nat.lt_or_ge (size + (2 ^ pageShift - 1)) (2 ^ w.bits) with hfits | hwraps
  · exact .inl ⟨hfits, roundUp_mask (by omega) hfits⟩
  · right
    have hpos := Nat.two_pow_pos pageShift
    have hpage : 2 ^ pageShift ≤ 2 ^ w.bits := Nat.pow_le_pow_right (by decide) (by omega)
    have hwrap : wrap w.bits (size + (2 ^ pageShift - 1)) =
        size + (2 ^ pageShift - 1) - 2 ^ w.bits := by
      unfold wrap
      rw [Nat.mod_eq_sub_mod hwraps]
      exact Nat.mod_eq_of_lt (by omega)
    calc andNot w.bits (wrap w.bits (size + (2 ^ pageShift - 1))) (2 ^ pageShift - 1)
        ≤ wrap w.bits (size + (2 ^ pageShift - 1)) := Nat.and_le_left
      _ < size := by omega

/-- `win_mmap` with `MEM_RESERVE` changes nothing of one's own, or adds a region of whole
    pages, at the hint where there is one. -/
theorem winMmap_reserve (hs : Supported s.space) (hwf : s.space.WellFormed) (hsize : 0 < size)
    (hlt : size < 2 ^ w.bits) (hhint : hint = 0 ∨ s.space.granularity ∣ hint)
    (h : winMmap w ans s hint size prot .memReserve = (a, s')) :
    Continues ans s s' ∧ s'.log = s.log ++ [.reserve hint size a] ∧
    ((a = 0 ∧ s'.space.own = s.space.own) ∨
      (a ≠ 0 ∧ s.space.granularity ∣ a ∧ (hint = 0 ∨ a = hint) ∧
        a + roundUp size s.space.pageSize ≤ 2 ^ w.bits ∧
        s'.space.own = ⟨⟨a, roundUp size s.space.pageSize⟩, []⟩ :: s.space.own)) := by
  have hgran := hs.gran_le
  have hpage := hs.page_le
  unfold winMmap at h
  dsimp only at h
  split at h
  · obtain ⟨rfl, rfl⟩ := Prod.mk.inj h
    exact ⟨⟨rfl, rfl, hwf, .inl rfl⟩, rfl, .inl ⟨rfl, rfl⟩⟩
  next hnot =>
  rcases request_eq (w := w) (show s.space.shift ≤ 16 by omega) hlt with ⟨-, hreq⟩ | hwraps
  swap
  · exact absurd hwraps hnot
  have hround := le_roundUp (x := size) s.space.pageSize_pos
  change andNot w.bits (wrap w.bits (size + (s.space.pageSize - 1))) (s.space.pageSize - 1) =
    roundUp size s.space.pageSize at hreq
  rw [hreq, if_neg (show ¬roundUp size s.space.pageSize = 0 by omega)] at h
  have hwf' : (s.turn ans).WellFormed := hwf.turn _
  unfold virtualAlloc at h
  dsimp only at h
  split at h
  · next addr space hmade =>
    obtain ⟨rfl, rfl⟩ := Prod.mk.inj h
    obtain ⟨h0, -, hdvd, hat, hend, hfree, rfl⟩ := Space.reserve_some hmade
    have hturn : (s.turn ans).granularity = s.space.granularity :=
      congrArg (2 ^ ·) (Space.turn_granShift ..)
    have hturnPage : (s.turn ans).pageSize = s.space.pageSize :=
      congrArg (2 ^ ·) (Space.turn_shift ..)
    rw [hturn] at hdvd hat
    -- a hint is a multiple of the granularity, so it is not rounded
    have hhint' : hint = 0 ∨ addr = hint := by
      rcases hhint with h0 | hgran
      · exact .inl h0
      · refine hat.imp id fun hat => ?_
        rwa [Nat.div_mul_cancel hgran] at hat
    have hstart : (if hint = 0 then addr else hint) = addr := by
      split
      · rfl
      · next hne => exact (hhint'.resolve_left hne).symm
    have hblock : (s.turn ans).reserved hint (roundUp size s.space.pageSize) addr =
        ⟨addr, roundUp size s.space.pageSize⟩ := by
      have hwhole : s.space.pageSize ∣ addr + roundUp size s.space.pageSize :=
        Nat.dvd_add (Nat.dvd_trans (pageSize_dvd hs) hdvd) dvd_roundUp
      unfold Space.reserved
      rw [hstart, hturnPage, roundUp_of_dvd s.space.pageSize_pos hwhole, Nat.add_sub_cancel_left]
    rw [hblock] at hend hfree ⊢
    refine ⟨.turned (hwf'.cons (by dsimp only; omega) hfree), rfl, .inr ⟨h0, hdvd, hhint',
      hend, ?_⟩⟩
    dsimp only
    rw [Sys.turn, Space.turn_own]
  · next space hmade =>
    obtain ⟨rfl, rfl⟩ := Prod.mk.inj h
    obtain rfl := Space.reserve_none hmade
    exact ⟨.turned hwf', rfl, .inl ⟨rfl, Space.turn_own ..⟩⟩

variable (ans size) in
/-- `os_munmap` of a region of one's own releases that region. -/
theorem osMunmap_own {r : Region} (hwf : s.space.WellFormed) (hr : r ∈ s.space.own)
    (haddr : r.block.addr ≠ 0) :
    Continues ans s (osMunmap ans s r.block.addr size) ∧
    (osMunmap ans s r.block.addr size).log = s.log ++ [.release r.block.addr size true] ∧
    (osMunmap ans s r.block.addr size).space.own =
      s.space.own.filter fun r' => r'.block.addr ≠ r.block.addr := by
  have hwf' : (s.turn ans).WellFormed := hwf.turn _
  have hown : (s.turn ans).own = s.space.own := Space.turn_own ..
  have hreleased := Space.release_own hwf' (hown ▸ hr)
  have hwf'' := hwf'.release r.block.addr
  unfold osMunmap
  dsimp only
  rw [hreleased] at hwf''
  rw [if_pos haddr, hreleased]
  refine ⟨.turned hwf'', rfl, ?_⟩
  dsimp only
  rw [hown]

variable (ans size) in
theorem osMunmap_head {r : Region} {l : List Region} (hwf : s.space.WellFormed)
    (hown : s.space.own = r :: l) (haddr : r.block.addr ≠ 0) :
    Continues ans s (osMunmap ans s r.block.addr size) ∧
    (osMunmap ans s r.block.addr size).log = s.log ++ [.release r.block.addr size true] ∧
    (osMunmap ans s r.block.addr size).space.own = l := by
  have hmem : r ∈ s.space.own := hown ▸ List.mem_cons_self ..
  rw [← hwf.filter_head hown]
  exact osMunmap_own ans size hwf hmem haddr

/-- What is committed for `size` bytes: whole pages, and one at the least. -/
def commitLength (pageSize size : Nat) : Nat :=
  if roundUp size pageSize = 0 then pageSize else roundUp size pageSize

theorem commitLength_pos {pageSize : Nat} (hpos : 0 < pageSize) :
    0 < commitLength pageSize size := by
  unfold commitLength
  split
  · exact hpos
  · omega

theorem dvd_commitLength {pageSize : Nat} : pageSize ∣ commitLength pageSize size := by
  unfold commitLength
  split
  · exact Nat.dvd_refl _
  · exact dvd_roundUp

/-- `win_mmap` with `MEM_COMMIT`, at the start of the region reserved last: it commits pages of
    that region, or nothing. -/
theorem winMmap_commit {r : Region} {l : List Region} (hs : Supported s.space)
    (hwf : s.space.WellFormed) (hown : s.space.own = r :: l) (haddr : r.block.addr ≠ 0)
    (hpage : s.space.pageSize ∣ r.block.addr) (hlt : size < 2 ^ w.bits)
    (h : winMmap w ans s r.block.addr size prot .memCommit = (a, s')) :
    Continues ans s s' ∧ s'.log = s.log ++ [.commit r.block.addr size a] ∧
    ((a = 0 ∧ s'.space.own = s.space.own) ∨
      (a = r.block.addr ∧
        (⟨r.block.addr, commitLength s.space.pageSize size⟩ : Block).Within r.block ∧
        s'.space.own = { r with commits :=
          (⟨r.block.addr, commitLength s.space.pageSize size⟩, flProtect prot) :: r.commits } ::
            l)) := by
  have hgran := hs.gran_le
  have hpageLe := hs.page_le
  have hpos := s.space.pageSize_pos
  unfold winMmap at h
  dsimp only at h
  split at h
  · obtain ⟨rfl, rfl⟩ := Prod.mk.inj h
    exact ⟨⟨rfl, rfl, hwf, .inl rfl⟩, rfl, .inl ⟨rfl, rfl⟩⟩
  next hnot =>
  rcases request_eq (w := w) (show s.space.shift ≤ 16 by omega) hlt with ⟨-, hreq⟩ | hwraps
  swap
  · exact absurd hwraps hnot
  change andNot w.bits (wrap w.bits (size + (s.space.pageSize - 1))) (s.space.pageSize - 1) =
    roundUp size s.space.pageSize at hreq
  rw [hreq] at h
  have hlength : (if roundUp size s.space.pageSize = 0 then s.space.pageSize
      else roundUp size s.space.pageSize) = commitLength s.space.pageSize size := rfl
  rw [hlength] at h
  have hwf' : (s.turn ans).WellFormed := hwf.turn _
  have hown' : (s.turn ans).own = r :: l := (Space.turn_own ..).trans hown
  have hturnPage : (s.turn ans).pageSize = s.space.pageSize :=
    congrArg (2 ^ ·) (Space.turn_shift ..)
  have hpages : (s.turn ans).pagesOf r.block.addr (commitLength s.space.pageSize size) =
      ⟨r.block.addr, commitLength s.space.pageSize size⟩ := by
    unfold Space.pagesOf
    rw [hturnPage, Nat.div_mul_cancel hpage,
      roundUp_of_dvd hpos (Nat.dvd_add hpage dvd_commitLength), Nat.add_sub_cancel_left]
  unfold virtualAlloc at h
  dsimp only at h
  split at h
  · next space hmade =>
    obtain ⟨hok, r', hr', hin⟩ := Space.commit_true hmade
    have hlen : 0 < commitLength s.space.pageSize size := commitLength_pos hpos
    rw [hpages] at hin
    -- the region that holds the pages is the one that starts there
    have hwithin : (⟨r.block.addr, commitLength s.space.pageSize size⟩ : Block).Within
        r.block := by
      have hdisjoint := hwf'.disjoint
      unfold Space.regions at hdisjoint hr'
      rw [hown', List.cons_append] at hdisjoint hr'
      rcases List.mem_cons.mp hr' with rfl | hr'
      · exact hin
      · have hapart := (List.pairwise_cons.mp hdisjoint).1 r' hr'
        have hpositive := hwf'.positive r (List.mem_append_left _ (hown' ▸ List.mem_cons_self ..))
        unfold Block.Within at hin
        unfold Block.Disjoint at hapart
        dsimp only at hin
        omega
    rw [hok] at hmade
    have hcommit : (s.turn ans).commit r.block.addr (commitLength s.space.pageSize size)
        (flProtect prot) true = _ :=
      Space.commit_head hwf' hown' (by rw [hpages]; exact hlen) (by rw [hpages]; exact hwithin)
    rw [hcommit] at hmade
    obtain ⟨-, rfl⟩ := Prod.mk.inj hmade
    rw [hpages] at h
    obtain ⟨rfl, rfl⟩ := Prod.mk.inj h
    refine ⟨.turned (hwf'.of_blocks ?_), rfl, .inr ⟨rfl, hwithin, rfl⟩⟩
    unfold Space.regions
    rw [hown']
    rfl
  · next space hmade =>
    obtain ⟨rfl, rfl⟩ := Prod.mk.inj h
    obtain rfl := Space.commit_false hmade
    exact ⟨.turned hwf', rfl, .inl ⟨rfl, Space.turn_own ..⟩⟩

end calls

/-! ## The aligned block -/

def Event.reserveRefused : Event → Bool
  | .reserve _ _ 0 => true
  | _ => false

def Event.commitRefused : Event → Bool
  | .commit _ _ 0 => true
  | _ => false

/-- How many reservations of a log were refused. -/
def reservesRefused (l : List Event) : Nat := l.countP Event.reserveRefused

def commitsRefused (l : List Event) : Nat := l.countP Event.commitRefused

/-- A log that only reserves and releases, with as many refusals. -/
structure Attempts (s s' : Sys) (refused : Nat) : Prop where
  log : ∃ l, s'.log = s.log ++ l ∧ reservesRefused l = refused ∧ commitsRefused l = 0

section aligned
variable {w : Width} {ans : OsAnswers} {s s' s'' : Sys} {prot a req alignment off : Nat}

theorem Attempts.refl (s : Sys) : Attempts s s 0 := ⟨[], (List.append_nil _).symm, rfl, rfl⟩

theorem Attempts.trans {n n' : Nat} (h : Attempts s s' n) (h' : Attempts s' s'' n') :
    Attempts s s'' (n + n') := by
  obtain ⟨l, hl, hn, hc⟩ := h.log
  obtain ⟨l', hl', hn', hc'⟩ := h'.log
  refine ⟨l ++ l', ?_, ?_, ?_⟩
  · rw [hl', hl, List.append_assoc]
  · rw [reservesRefused, List.countP_append]
    exact congrArg₂ (· + ·) hn hn'
  · rw [commitsRefused, List.countP_append]
    exact congrArg₂ (· + ·) hc hc'

theorem Attempts.reserve {hint size : Nat} (h : s'.log = s.log ++ [.reserve hint size a]) :
    Attempts s s' (if a = 0 then 1 else 0) := by
  refine ⟨_, h, ?_, rfl⟩
  cases a with
  | zero => rfl
  | succ a => rfl

theorem Attempts.release {addr size : Nat} {ok : Bool}
    (h : s'.log = s.log ++ [.release addr size ok]) : Attempts s s' 0 := ⟨_, h, rfl, rfl⟩

/-- The region that is reserved for `req` bytes at `a`, in the state `s`. -/
structure Fits (w : Width) (s : Sys) (req a : Nat) : Prop where
  ne_zero : a ≠ 0
  granular : s.space.granularity ∣ a
  fits : a + roundUp req s.space.pageSize ≤ 2 ^ w.bits

/-- `os_mmap_aligned` fails after one refusal and keeps nothing, or reserves the pages of
    `[a, a + requested_length)`, the offset being aligned. -/
theorem osMmapAligned_spec (hs : Supported s.space) (hwf : s.space.WellFormed)
    (hal : AlignArgs alignment off)
    (hgran : alignment = 0 ∨ s.space.granularity ∣ alignment ∧ s.space.granularity ∣ off)
    (hreq : 0 < req) (hfit : req + alignment + off < 2 ^ w.bits)
    (h : osMmapAligned w ans s 0 req prot alignment off = (a, s')) :
    Continues ans s s' ∧
    ((a = 0 ∧ s'.space.own = s.space.own ∧ Attempts s s' 1) ∨
      (Fits w s req a ∧ (a + off) % (if alignment = 0 then 1 else alignment) = 0 ∧
        s'.space.own = ⟨⟨a, roundUp req s.space.pageSize⟩, []⟩ :: s.space.own ∧
        Attempts s s' 0)) := by
  have hoff := hal.off_le
  unfold osMmapAligned at h
  dsimp only at h
  rw [wrap_eq hfit] at h
  rcases hm : winMmap w ans s 0 (req + alignment + off) prot .memReserve with ⟨u, s₁⟩
  rw [hm] at h
  dsimp only at h
  obtain ⟨hcont, hlog, hmade⟩ :=
    winMmap_reserve hs hwf (show 0 < req + alignment + off by omega) hfit (.inl rfl) hm
  have hattempt := Attempts.reserve hlog
  rcases hmade with ⟨rfl, hown⟩ | ⟨hu, hdvd, -, hend, hown⟩
  · rw [if_pos rfl] at h
    obtain ⟨rfl, rfl⟩ := Prod.mk.inj h
    exact ⟨hcont, .inl ⟨rfl, hown, hattempt⟩⟩
  rw [if_neg hu] at hattempt
  have hround := le_roundUp (x := req + alignment + off) s.space.pageSize_pos
  have hfit' : u + (req + alignment + off) ≤ 2 ^ w.bits := by omega
  obtain ⟨hlo, hhi, hmod⟩ := alignedAddr_spec (w := w) hal hu hreq hfit'
  rw [if_neg hu, alignedAddr_sane hal hu hreq hfit'] at h
  simp only [Bool.false_eq_true, if_false] at h
  by_cases hwhole : alignedAddr w u alignment off = u ∧ req + alignment + off = req
  · -- the padding is empty: the range is kept
    rw [if_pos hwhole] at h
    obtain ⟨rfl, rfl⟩ := Prod.mk.inj h
    rw [hwhole.2] at hend hown
    rw [hwhole.1] at hmod ⊢
    exact ⟨hcont, .inr ⟨⟨hu, hdvd, hend⟩, hmod, hown, hattempt⟩⟩
  · rw [if_neg hwhole] at h
    obtain ⟨hcont', hlog', hown'⟩ := osMunmap_head ans (req + alignment + off)
      hcont.wellFormed hown hu
    dsimp only at hcont' hlog' hown'
    have hgranular : s.space.granularity ∣ alignedAddr w u alignment off := by
      rcases hgran with h0 | ⟨hdvdAlign, hdvdOff⟩
      · -- without an alignment the address is the base
        rwa [show alignedAddr w u alignment off = u by omega]
      · by_cases h0 : alignment = 0
        · rwa [show alignedAddr w u alignment off = u by omega]
        · rw [if_neg h0] at hmod
          exact (Nat.dvd_add_left hdvdOff).mp
            (Nat.dvd_trans hdvdAlign (Nat.dvd_of_mod_eq_zero hmod))
    have hboth := hcont.trans hcont'
    obtain ⟨hcont'', hlog'', hmade⟩ := winMmap_reserve (hboth.supported hs) hboth.wellFormed
      hreq (by omega) (.inr (by rwa [hboth.granularity])) h
    rw [hboth.pageSize, hboth.granularity] at hmade
    have hattempts := (hattempt.trans (.release hlog')).trans (.reserve hlog'')
    refine ⟨hboth.trans hcont'', ?_⟩
    rcases hmade with ⟨rfl, hown''⟩ | ⟨ha, hdvd', hat, hend', hown''⟩
    · exact .inl ⟨rfl, hown''.trans hown', hattempts⟩
    · obtain rfl : a = alignedAddr w u alignment off := hat.resolve_left (by omega)
      rw [if_neg ha] at hattempts
      exact .inr ⟨⟨ha, hdvd', hend'⟩, hmod, by rw [hown'', hown'], hattempts⟩

/-- The call as the function of the two answers knows it. -/
def Event.call : Event → WinCall
  | .reserve hint size _ => .winMmap hint size
  | .commit addr size _ => .winMmap addr size
  | .release addr size _ => .osMunmap ⟨addr, size⟩

theorem winMmap_log {hint size : Nat} {flag : AllocFlag} :
    (winMmap w ans s hint size prot flag).2.log =
      s.log ++ [flag.event hint size (winMmap w ans s hint size prot flag).1] := by
  unfold winMmap
  dsimp only
  split
  · rfl
  · rfl

/-- The result and the calls are those of the function that is told what `win_mmap` answers. -/
theorem osMmapAligned_windows (addr : Nat) :
    ∃ unaligned remapped,
      (osMmapAligned w ans s addr req prot alignment off).1 =
        (osMmapAlignedWindows w addr req alignment off unaligned remapped).1 ∧
      (osMmapAligned w ans s addr req prot alignment off).2.log.map Event.call =
        s.log.map Event.call ++
          (osMmapAlignedWindows w addr req alignment off unaligned remapped).2 := by
  have hlog : (winMmap w ans s addr (wrap w.bits (req + alignment + off)) prot
      .memReserve).2.log = _ := winMmap_log
  unfold osMmapAligned osMmapAlignedWindows
  dsimp only
  generalize winMmap w ans s addr (wrap w.bits (req + alignment + off)) prot .memReserve = r
    at hlog ⊢
  by_cases hu : r.1 = 0
  · refine ⟨r.1, 0, ?_⟩
    rw [if_pos hu, if_pos hu, hlog, List.map_append]
    exact ⟨rfl, rfl⟩
  have hreleased : (osMunmap ans r.2 r.1 (wrap w.bits (req + alignment + off))).log.map
      Event.call = s.log.map Event.call ++ [.winMmap addr (wrap w.bits (req + alignment + off)),
        .osMunmap ⟨r.1, wrap w.bits (req + alignment + off)⟩] := by
    unfold osMunmap
    rw [if_pos hu, List.map_append, hlog, List.map_append, List.append_assoc]
    rfl
  by_cases hkept : alignedAddr w r.1 alignment off = r.1 ∧ wrap w.bits (req + alignment + off) = req
  · refine ⟨r.1, 0, ?_⟩
    rw [if_neg hu, if_neg hu, if_pos hkept, if_pos hkept, hlog, List.map_append]
    exact ⟨rfl, rfl⟩
  by_cases hfails : alignedFails w r.1 (alignedAddr w r.1 alignment off) req
      (wrap w.bits (req + alignment + off)) alignment off = true
  · refine ⟨r.1, 0, ?_⟩
    rw [if_neg hu, if_neg hu, if_neg hkept, if_neg hkept, if_pos hfails, if_pos hfails, hreleased]
    exact ⟨rfl, rfl⟩
  · refine ⟨r.1, (winMmap w ans (osMunmap ans r.2 r.1 (wrap w.bits (req + alignment + off)))
      (alignedAddr w r.1 alignment off) req prot .memReserve).1, ?_⟩
    rw [if_neg hu, if_neg hu, if_neg hkept, if_neg hkept, if_neg hfails, if_neg hfails, winMmap_log,
      List.map_append, hreleased, List.append_assoc]
    exact ⟨rfl, rfl⟩

end aligned

/-! ## A created memory -/

section create
variable {w : Width} {ans : OsAnswers} {s s' : Sys} {maxPages byteLength a : Nat}

theorem Attempts.commit {addr size : Nat} (h : s'.log = s.log ++ [.commit addr size a])
    (ha : a ≠ 0) : Attempts s s' 0 := by
  cases a with
  | zero => exact absurd rfl ha
  | succ a => exact ⟨_, h, rfl, rfl⟩

theorem osMmapCommit_spec {size prot : Nat} {r : Region} {l : List Region} {ok : Bool}
    (hs : Supported s.space) (hwf : s.space.WellFormed) (hown : s.space.own = r :: l)
    (haddr : r.block.addr ≠ 0) (hpage : s.space.pageSize ∣ r.block.addr)
    (hlt : size < 2 ^ w.bits) (h : osMmapCommit w ans s r.block.addr size prot = (ok, s')) :
    Continues ans s s' ∧
    ((ok = false ∧ s'.space.own = s.space.own ∧ ∃ l, s'.log = s.log ++ l ∧ commitsRefused l = 1) ∨
      (ok = true ∧ (⟨r.block.addr, commitLength s.space.pageSize size⟩ : Block).Within r.block ∧
        s'.space.own = { r with commits :=
          (⟨r.block.addr, commitLength s.space.pageSize size⟩, flProtect prot) :: r.commits } :: l ∧
        Attempts s s' 0)) := by
  rcases hm : winMmap w ans s r.block.addr size prot .memCommit with ⟨addr, s₁⟩
  unfold osMmapCommit at h
  rw [hm] at h
  obtain ⟨rfl, rfl⟩ := Prod.mk.inj h
  obtain ⟨hcont, hlog, hmade⟩ := winMmap_commit hs hwf hown haddr hpage hlt hm
  refine ⟨hcont, ?_⟩
  rcases hmade with ⟨rfl, hsame⟩ | ⟨rfl, hwithin, hcommitted⟩
  · exact .inl ⟨rfl, hsame, _, hlog, rfl⟩
  · exact .inr ⟨bne_iff_ne.mpr haddr, hwithin, hcommitted, .commit hlog haddr⟩

/-- The region of a memory at `a`, in a system with pages of `pageSize` bytes. -/
def blockOf (w : Width) (pageSize maxPages a : Nat) : Block :=
  ⟨a, roundUp (reserveLength w maxPages) pageSize⟩

/-- A memory was made at `a` in `s`: its region is held as well in `s'`, aligned, and of that
    region the pages of the byte length are committed, or one page for none. -/
structure Made (w : Width) (s s' : Sys) (maxPages byteLength a : Nat) : Prop where
  fits : Fits w s (reserveLength w maxPages) a
  aligned : w = .w64 → Width.w64.heapAlignment ∣ a
  inside : commitLength s.space.pageSize byteLength ≤
    roundUp (reserveLength w maxPages) s.space.pageSize
  own : s'.space.own = ⟨blockOf w s.space.pageSize maxPages a,
    [(⟨a, commitLength s.space.pageSize byteLength⟩, .readWrite)]⟩ :: s.space.own

/-- Attempts that kept nothing come before the one that made the memory. -/
theorem Made.of_continues {s₁ : Sys} (hcont : Continues ans s s₁)
    (hown : s₁.space.own = s.space.own) (h : Made w s₁ s' maxPages byteLength a) :
    Made w s s' maxPages byteLength a where
  fits := by
    obtain ⟨hne, hgran, hfits⟩ := h.fits
    rw [hcont.granularity] at hgran
    rw [hcont.pageSize] at hfits
    exact ⟨hne, hgran, hfits⟩
  aligned := h.aligned
  inside := by
    rw [← hcont.pageSize]
    exact h.inside
  own := by
    rw [← hown, ← hcont.pageSize]
    exact h.own

theorem heapAlignment_granular (hs : Supported s.space) :
    w.heapAlignment = 0 ∨ s.space.granularity ∣ w.heapAlignment ∧ s.space.granularity ∣ 0 := by
  cases w with
  | w32 => exact .inl rfl
  | w64 =>
    have hgran := hs.gran_le
    exact .inr ⟨Nat.pow_dvd_pow 2 (show s.space.granShift ≤ 33 by omega), Nat.dvd_zero _⟩

/-- What became of a loop of `attempts` attempts. -/
theorem reserveLoop_spec (hbyte : byteLength < 2 ^ 32) (attempts : Nat) :
    ∀ s, Supported s.space → s.space.WellFormed →
    reserveLoop w ans (computeHeapReserveSpace w maxPages) byteLength attempts s = (a, s') →
    Continues ans s s' ∧
    ((a = 0 ∧ s'.space.own = s.space.own ∧
        (Attempts s s' attempts ∨ ∃ l, s'.log = s.log ++ l ∧ commitsRefused l = 1)) ∨
      (Made w s s' maxPages byteLength a ∧ ∃ n < attempts, Attempts s s' n)) := by
  have hlt : byteLength < 2 ^ w.bits :=
    Nat.lt_of_lt_of_le hbyte (Nat.pow_le_pow_right (by decide) w.le_bits)
  induction attempts with
  | zero =>
    intro s hs hwf h
    obtain ⟨rfl, rfl⟩ := Prod.mk.inj h
    exact ⟨.refl ans hwf, .inl ⟨rfl, rfl, .inl (.refl s)⟩⟩
  | succ attempts ih =>
    intro s hs hwf h
    have hgranLe := hs.gran_le
    have hpageLe := hs.page_le
    obtain ⟨hreq, hfit, -⟩ := reserveLength_ok w maxPages
      (show SupportedPages ⟨s.space.shift, fun _ => false⟩ from (by omega : s.space.shift ≤ 16))
    have hlength : wrap w.bits (computeHeapReserveSpace w maxPages) =
        reserveLength w maxPages := rfl
    rw [reserveLoop, hlength] at h
    rcases hm : osMmapAligned w ans s 0 (reserveLength w maxPages) Protected.mmapProtNone
      w.heapAlignment 0 with ⟨u, s₁⟩
    rw [hm] at h
    obtain ⟨hcont, hmade⟩ := osMmapAligned_spec hs hwf (heapAlignment_args w)
      (heapAlignment_granular hs) hreq hfit hm
    rcases hmade with ⟨rfl, hown, hattempt⟩ | ⟨hfits, hmod, hown, hattempt⟩
    · -- refused once more
      obtain ⟨hcont', hrest⟩ := ih s₁ (hcont.supported hs) hcont.wellFormed h
      refine ⟨hcont.trans hcont', ?_⟩
      rcases hrest with ⟨h0, hown', hfailed⟩ | ⟨hmade, n, hn, hattempts⟩
      · refine .inl ⟨h0, hown'.trans hown, ?_⟩
        rcases hfailed with hattempts | ⟨l, hl, hcommit⟩
        · left
          have hall := hattempt.trans hattempts
          rwa [Nat.add_comm] at hall
        · right
          obtain ⟨l₁, hl₁, -, hcommit₁⟩ := hattempt.log
          refine ⟨l₁ ++ l, by rw [hl, hl₁, List.append_assoc], ?_⟩
          rw [commitsRefused, List.countP_append]
          exact congrArg₂ (· + ·) hcommit₁ hcommit
      · exact .inr ⟨hmade.of_continues hcont hown, 1 + n, by omega, hattempt.trans hattempts⟩
    · -- reserved: the pages are committed, or the region is released
      obtain ⟨data, rfl⟩ := Nat.exists_eq_succ_of_ne_zero hfits.ne_zero
      dsimp only at h
      have hgranular := hfits.granular
      have hpage : s₁.space.pageSize ∣ data + 1 := by
        rw [hcont.pageSize]
        exact Nat.dvd_trans (pageSize_dvd hs) hgranular
      rcases hc : osMmapCommit w ans s₁ (data + 1) byteLength
        (Protected.mmapProtRead ||| Protected.mmapProtWrite) with ⟨ok, s₂⟩
      rw [hc] at h
      obtain ⟨hcont', hcommit⟩ := osMmapCommit_spec (hcont.supported hs) hcont.wellFormed hown
        hfits.ne_zero hpage hlt hc
      have hboth := hcont.trans hcont'
      rcases hcommit with ⟨rfl, hsame, l, hl, hrefused⟩ | ⟨rfl, hwithin, hcommitted, hattempt'⟩
      · obtain ⟨rfl, rfl⟩ := Prod.mk.inj h
        obtain ⟨hcont'', hlog, hreleased⟩ := osMunmap_head ans
          (reserveLength w maxPages) hboth.wellFormed (hsame.trans hown) hfits.ne_zero
        refine ⟨hboth.trans hcont'', .inl ⟨rfl, hreleased, .inr ?_⟩⟩
        obtain ⟨l₁, hl₁, -, hnone⟩ := hattempt.log
        refine ⟨l₁ ++ l ++ [.release (data + 1) (reserveLength w maxPages) true], ?_, ?_⟩
        · rw [hlog, hl, hl₁]
          simp only [List.append_assoc]
        · rw [commitsRefused, List.countP_append, List.countP_append]
          exact congrArg₂ (· + ·) (congrArg₂ (· + ·) hnone hrefused) rfl
      · obtain ⟨rfl, rfl⟩ := Prod.mk.inj h
        rw [hcont.pageSize] at hwithin hcommitted
        have hinside := hwithin.2
        refine ⟨hboth, .inr ⟨⟨hfits, ?_, ?_, hcommitted⟩, 0, Nat.succ_pos _,
          hattempt.trans hattempt'⟩⟩
        · rintro rfl
          exact Nat.dvd_of_mod_eq_zero hmod
        · dsimp only at hinside
          omega

variable (w ans s) in
theorem createWasm2cMemory_eq (initialPages : Nat) {cap : Option MemCapacity}
    (hvalid : ∀ c ∈ cap, c.isValid = true) :
    createWasm2cMemory w ans s initialPages cap =
      let r := reserveLoop w ans (computeHeapReserveSpace w (chosenMaxPages w cap))
        (wrap 32 (initialPages * wasmPageSize)) 10 s
      (⟨r.1, wasmPageSize, initialPages, chosenMaxPages w cap,
        wrap 32 (initialPages * wasmPageSize), false⟩, r.2) := by
  have hany : ¬(cap.any fun c => !c.isValid) = true := by
    cases cap with
    | none => exact Bool.false_ne_true
    | some c => simp [hvalid c rfl]
  unfold createWasm2cMemory chosenMaxPages
  rw [if_neg hany]

end create

/-- A creation on Windows. It fails exactly when the capacity is not valid, ten reservations
    are refused or the commit is, and then holds nothing new. Otherwise one region is held,
    aligned and of the reserve length, with the pages of the size committed in it. What the
    rest of the process holds is changed by nobody else. -/
theorem create_outcome (w : Width) (ans : OsAnswers) (s : Sys) (hs : Supported s.space)
    (hwf : s.space.WellFormed) (initialPages : Nat) (cap : Option MemCapacity) :
    let r := createWasm2cMemory w ans s initialPages cap
    Continues ans s r.2 ∧ ∃ l, r.2.log = s.log ++ l ∧
    (r.1.data = 0 ↔ (∃ c ∈ cap, c.isValid = false) ∨ reservesRefused l = 10 ∨
      commitsRefused l = 1) ∧
    (r.1.data = 0 → r.2.space.own = s.space.own) ∧
    (r.1.data ≠ 0 → r.1.maxPages = chosenMaxPages w cap ∧
      r.1.size = wrap 32 (initialPages * wasmPageSize) ∧
      Made w s r.2 r.1.maxPages r.1.size r.1.data) := by
  intro r
  by_cases hvalid : ∀ c ∈ cap, c.isValid = true
  · have hnot : ¬∃ c ∈ cap, c.isValid = false := by
      rintro ⟨c, hc, hinvalid⟩
      rw [hvalid c hc] at hinvalid
      cases hinvalid
    rcases hloop : reserveLoop w ans (computeHeapReserveSpace w (chosenMaxPages w cap))
      (wrap 32 (initialPages * wasmPageSize)) 10 s with ⟨data, s'⟩
    have hr : r = (⟨data, wasmPageSize, initialPages, chosenMaxPages w cap,
        wrap 32 (initialPages * wasmPageSize), false⟩, s') := by
      have heq := createWasm2cMemory_eq w ans s initialPages hvalid
      rwa [hloop] at heq
    obtain ⟨hcont, hmade⟩ := reserveLoop_spec (wrap_lt 32 _) 10 s hs hwf hloop
    rw [hr]
    dsimp only
    refine ⟨hcont, ?_⟩
    rcases hmade with ⟨rfl, hown, hfailed⟩ | ⟨hmade, n, hn, hattempts⟩
    · rcases hfailed with hattempts | ⟨l, hl, hcommit⟩
      · obtain ⟨l, hl, hrefused, -⟩ := hattempts.log
        exact ⟨l, hl, iff_of_true rfl (.inr (.inl hrefused)), fun _ => hown,
          fun hne => absurd rfl hne⟩
      · exact ⟨l, hl, iff_of_true rfl (.inr (.inr hcommit)), fun _ => hown,
          fun hne => absurd rfl hne⟩
    · obtain ⟨l, hl, hrefused, hcommit⟩ := hattempts.log
      have hne := hmade.fits.ne_zero
      refine ⟨l, hl, iff_of_false hne ?_, fun h0 => absurd h0 hne, fun _ => ⟨rfl, rfl, hmade⟩⟩
      rintro (hinvalid | hten | hone)
      · exact hnot hinvalid
      · omega
      · omega
  · push Not at hvalid
    obtain ⟨c, hc, hinvalid⟩ := hvalid
    have hr : r = (⟨0, 0, 0, 0, 0, false⟩, s) := by
      change createWasm2cMemory w ans s initialPages cap = _
      unfold createWasm2cMemory
      rw [Option.mem_def.mp hc, Option.any_some, if_pos (by simpa using hinvalid)]
    rw [hr]
    refine ⟨.refl ans hwf, [], (List.append_nil _).symm, iff_of_true rfl (.inl ⟨c, hc, ?_⟩),
      fun _ => rfl, fun hne => absurd rfl hne⟩
    simpa using hinvalid

/-- A system with 4 KiB pages that answers the first padded range and, when the block is
    reserved again, has just given it to somebody else; the second attempt goes through. -/
def takenOnce : OsAnswers where
  others k := if k < 2 then [] else [⟨⟨2 ^ 33, 65536⟩, []⟩]
  reserveAt k := [some 65536, none, some (2 ^ 33), some (2 ^ 35 + 65536), none,
    some (5 * 2 ^ 33)].getD k none
  commitOk _ := true

def emptySys : Sys := ⟨⟨12, 16, [], []⟩, []⟩

theorem emptySys_supported : Supported emptySys.space := ⟨by decide, by decide⟩

theorem emptySys_wellFormed : emptySys.space.WellFormed := by decide

/-- One refusal, and the block of the second attempt, one page of the guest committed. -/
theorem taken_once_outcome :
    let r := createWasm2cMemory .w64 takenOnce emptySys 1 none
    r.1.data = 5 * 2 ^ 33 ∧
    r.2.log = [.reserve 0 (2 ^ 34) 65536, .release 65536 (2 ^ 34) true,
      .reserve (2 ^ 33) (2 ^ 33) 0, .reserve 0 (2 ^ 34) (2 ^ 35 + 65536),
      .release (2 ^ 35 + 65536) (2 ^ 34) true, .reserve (5 * 2 ^ 33) (2 ^ 33) (5 * 2 ^ 33),
      .commit (5 * 2 ^ 33) 65536 (5 * 2 ^ 33)] ∧
    Made .w64 emptySys r.2 65536 65536 (5 * 2 ^ 33) := by
  have hmade : (createWasm2cMemory .w64 takenOnce emptySys 1 none).1 =
      ⟨5 * 2 ^ 33, wasmPageSize, 1, 65536, 65536, false⟩ := by decide +kernel
  have hlog : (createWasm2cMemory .w64 takenOnce emptySys 1 none).2.log =
      [.reserve 0 (2 ^ 34) 65536, .release 65536 (2 ^ 34) true,
        .reserve (2 ^ 33) (2 ^ 33) 0, .reserve 0 (2 ^ 34) (2 ^ 35 + 65536),
        .release (2 ^ 35 + 65536) (2 ^ 34) true, .reserve (5 * 2 ^ 33) (2 ^ 33) (5 * 2 ^ 33),
        .commit (5 * 2 ^ 33) 65536 (5 * 2 ^ 33)] := by decide +kernel
  obtain ⟨-, l, -, -, -, hregion⟩ :=
    create_outcome .w64 takenOnce emptySys emptySys_supported emptySys_wellFormed 1 none
  rw [hmade] at hregion
  exact ⟨by rw [hmade], hlog, (hregion (by decide)).2.2⟩

/-! ## All memories of a process -/

/-- A program's operations on its memories, which it knows by their address; the guest grows
    one and commits what it likes of its region. -/
inductive MemOp where
  | create (initialPages : Nat) (cap : Option MemCapacity)
  | grow (data pages size : Nat) (commits : List (Block × Protect))
  | destroy (data : Nat)

structure Process where
  sys : Sys
  live : List WasmRtMemory

def setCommits (data : Nat) (commits : List (Block × Protect)) (r : Region) : Region :=
  if r.block.addr = data then { r with commits := commits } else r

def setSize (data pages size : Nat) (m : WasmRtMemory) : WasmRtMemory :=
  if m.data = data then { m with pages := pages, size := size } else m

def Process.step (w : Width) (ans : OsAnswers) (p : Process) : MemOp → Process
  | .create initialPages cap =>
    let r := createWasm2cMemory w ans p.sys initialPages cap
    ⟨r.2, if r.1.data ≠ 0 then r.1 :: p.live else p.live⟩
  | .grow data pages size commits =>
    let space := { p.sys.space with own := p.sys.space.own.map (setCommits data commits) }
    ⟨{ p.sys with space := space }, p.live.map (setSize data pages size)⟩
  | .destroy data =>
    match p.live.find? fun m => m.data = data with
    | none => p
    | some m => ⟨(destroyWasm2cMemory w ans p.sys m).2, p.live.filter fun m => m.data ≠ data⟩

def Process.run (w : Width) (ans : OsAnswers) (p : Process) (ops : List MemOp) : Process :=
  ops.foldl (Process.step w ans) p

/-- The books of a process: the regions it holds are those of its memories. -/
structure Books (w : Width) (ans : OsAnswers) (s : Sys) (p : Process) : Prop where
  continues : Continues ans s p.sys
  own : p.sys.space.own.map Region.block =
    p.live.map fun m => blockOf w s.space.pageSize m.maxPages m.data
  live : ∀ m ∈ p.live, m.data ≠ 0 ∧ (w = .w64 → Width.w64.heapAlignment ∣ m.data)

section process
variable {w : Width} {ans : OsAnswers} {s : Sys} {p : Process}

theorem Books.empty (hwf : s.space.WellFormed) (hown : s.space.own = []) :
    Books w ans s ⟨s, []⟩ :=
  ⟨.refl ans hwf, by rw [hown]; rfl, fun _ hm => (List.not_mem_nil hm).elim⟩

theorem Books.create (h : Books w ans s p) (hs : Supported s.space) (initialPages : Nat)
    (cap : Option MemCapacity) : Books w ans s (p.step w ans (.create initialPages cap)) := by
  obtain ⟨hcont, l, -, -, hfailed, hmade⟩ := create_outcome w ans p.sys
    (h.continues.supported hs) h.continues.wellFormed initialPages cap
  unfold Process.step
  dsimp only at hmade hfailed hcont ⊢
  refine ⟨h.continues.trans hcont, ?_, ?_⟩
  · dsimp only
    split
    · next hne =>
      obtain ⟨-, -, hmade⟩ := hmade hne
      rw [hmade.own, List.map_cons, h.own, List.map_cons, h.continues.pageSize]
    · next h0 =>
      rw [hfailed (not_not.mp h0)]
      exact h.own
  · dsimp only
    split
    · next hne =>
      obtain ⟨-, -, hmade⟩ := hmade hne
      exact List.forall_mem_cons.mpr ⟨⟨hne, hmade.aligned⟩, h.live⟩
    · exact h.live

theorem Books.grow (h : Books w ans s p) (data pages size : Nat)
    (commits : List (Block × Protect)) :
    Books w ans s (p.step w ans (.grow data pages size commits)) := by
  have hblock : ∀ r, (setCommits data commits r).block = r.block := by
    intro r
    unfold setCommits
    split
    · rfl
    · rfl
  have hsize : ∀ m, (setSize data pages size m).data = m.data ∧
      (setSize data pages size m).maxPages = m.maxPages := by
    intro m
    unfold setSize
    split
    · exact ⟨rfl, rfl⟩
    · exact ⟨rfl, rfl⟩
  have hblocks : (p.sys.space.own.map (setCommits data commits)).map Region.block =
      p.sys.space.own.map Region.block := by
    rw [List.map_map]
    exact List.map_congr_left fun r _ => hblock r
  unfold Process.step
  dsimp only
  refine ⟨⟨h.continues.shift, h.continues.granShift, ?_, h.continues.others⟩, ?_, ?_⟩
  · apply h.continues.wellFormed.of_blocks
    unfold Space.regions
    rw [List.map_append, List.map_append, hblocks]
  · dsimp only
    rw [hblocks, h.own, List.map_map]
    refine List.map_congr_left fun m _ => ?_
    rw [Function.comp_apply, (hsize m).1, (hsize m).2]
  · intro m hm
    obtain ⟨m', hm', rfl⟩ := List.mem_map.mp hm
    rw [(hsize m').1]
    exact h.live m' hm'

theorem step_destroy_live (data : Nat) :
    (p.step w ans (.destroy data)).live = p.live.filter fun m => m.data ≠ data := by
  unfold Process.step
  dsimp only
  split
  · next hnone =>
    refine (List.filter_eq_self.mpr fun m hm => ?_).symm
    have hne := List.find?_eq_none.mp hnone m hm
    simpa using hne
  · rfl

theorem Books.destroy (h : Books w ans s p) (data : Nat) :
    Books w ans s (p.step w ans (.destroy data)) := by
  have hlive : (p.step w ans (.destroy data)).live = _ := step_destroy_live data
  rcases hfound : p.live.find? fun m => m.data = data with _ | m
  · have hsame : p.step w ans (.destroy data) = p := by
      unfold Process.step
      dsimp only
      rw [hfound]
    rw [hsame]
    exact h
  · have hmem := List.mem_of_find?_eq_some hfound
    have hdata : m.data = data := by simpa using List.find?_some hfound
    have hne := (h.live m hmem).1
    -- the region of the memory is held, and starts where the memory does
    have hregion : blockOf w s.space.pageSize m.maxPages m.data ∈
        p.sys.space.own.map Region.block := by
      rw [h.own]
      exact List.mem_map_of_mem hmem
    obtain ⟨r, hr, hblock⟩ := List.mem_map.mp hregion
    have haddr : r.block.addr = m.data := by rw [hblock]; rfl
    obtain ⟨hcont, -, hown⟩ := osMunmap_own ans
      (wrap w.bits (computeHeapReserveSpace w m.maxPages)) h.continues.wellFormed hr (haddr ▸ hne)
    have hstep : (p.step w ans (.destroy data)).sys =
        osMunmap ans p.sys r.block.addr (wrap w.bits (computeHeapReserveSpace w m.maxPages)) := by
      unfold Process.step
      dsimp only
      rw [hfound]
      dsimp only
      unfold destroyWasm2cMemory
      rw [if_pos hne, haddr]
    refine ⟨hstep ▸ h.continues.trans hcont, ?_, ?_⟩
    · rw [hstep, hown, hlive, haddr, hdata]
      calc (p.sys.space.own.filter fun r => r.block.addr ≠ data).map Region.block
          = (p.sys.space.own.map Region.block).filter fun b => b.addr ≠ data := by
            rw [List.filter_map]
            rfl
        _ = (p.live.filter fun m => m.data ≠ data).map
              fun m => blockOf w s.space.pageSize m.maxPages m.data := by
            rw [h.own, List.filter_map]
            rfl
    · intro m' hm'
      rw [hlive] at hm'
      exact h.live m' (List.mem_of_mem_filter hm')

theorem Books.step (h : Books w ans s p) (hs : Supported s.space) (op : MemOp) :
    Books w ans s (p.step w ans op) := by
  cases op with
  | create initialPages cap => exact h.create hs initialPages cap
  | grow data pages size commits => exact h.grow data pages size commits
  | destroy data => exact h.destroy data

theorem Books.run (h : Books w ans s p) (hs : Supported s.space) (ops : List MemOp) :
    Books w ans s (p.run w ans ops) := by
  induction ops generalizing p with
  | nil => exact h
  | cons op ops ih => exact ih (h.step hs op)

/-- Destroying the memories at some addresses leaves the others. -/
theorem run_destroy_live (addrs : List Nat) :
    (p.run w ans (addrs.map .destroy)).live = p.live.filter fun m => m.data ∉ addrs := by
  induction addrs generalizing p with
  | nil => simp [Process.run]
  | cons data addrs ih =>
    change (Process.run w ans (p.step w ans (.destroy data)) (addrs.map .destroy)).live = _
    rw [ih, step_destroy_live, List.filter_filter]
    refine List.filter_congr fun m _ => ?_
    simp [Bool.and_comm]

theorem run_append (ops ops' : List MemOp) :
    p.run w ans (ops ++ ops') = (p.run w ans ops).run w ans ops' :=
  List.foldl_append ..

end process

/-- Whatever a program creates, grows and destroys, and whatever the rest of the process does
    in between: the regions held are those of the live memories, of the reserve lengths and
    aligned; no two regions overlap; nobody else's region is touched; and when all memories are
    destroyed nothing is held. -/
theorem memories_own_regions (w : Width) (ans : OsAnswers) (s : Sys) (hs : Supported s.space)
    (hwf : s.space.WellFormed) (hown : s.space.own = []) (ops : List MemOp) :
    let p := Process.run w ans ⟨s, []⟩ ops
    let regions := p.live.map fun m => blockOf w s.space.pageSize m.maxPages m.data
    p.sys.space.own.map Region.block = regions ∧
    (regions ++ p.sys.space.others.map Region.block).Pairwise Block.Disjoint ∧
    (∀ m ∈ p.live, m.data ≠ 0 ∧ (w = .w64 → Width.w64.heapAlignment ∣ m.data)) ∧
    (p.sys.space.others = s.space.others ∨ ∃ k, p.sys.space.others = ans.others k) ∧
    (Process.run w ans ⟨s, []⟩
      (ops ++ p.live.map fun m => .destroy m.data)).sys.space.own = [] := by
  intro p regions
  have hbooks : Books w ans s p := (Books.empty hwf hown).run hs ops
  refine ⟨hbooks.own, ?_, hbooks.live, hbooks.continues.others, ?_⟩
  · have hdisjoint := hbooks.continues.wellFormed.disjoint
    rw [← List.pairwise_map, Space.regions, List.map_append, hbooks.own] at hdisjoint
    exact hdisjoint
  · have hall := hbooks.run hs ((p.live.map WasmRtMemory.data).map .destroy)
    have hlive : (p.run w ans ((p.live.map WasmRtMemory.data).map .destroy)).live = [] := by
      rw [run_destroy_live]
      refine List.filter_eq_nil_iff.mpr fun m hm => ?_
      simpa using ⟨m, hm, rfl⟩
    have hempty := hall.own
    rw [hlive, List.map_nil, List.map_eq_nil_iff] at hempty
    rw [run_append]
    rwa [List.map_map] at hempty

/-- A memory that was made at the second attempt and grown, and one that could not be made. -/
theorem one_memory_live :
    let ops : List MemOp := [.create 1 none,
      .grow (5 * 2 ^ 33) 2 131072 [(⟨5 * 2 ^ 33, 131072⟩, .readWrite)], .create 1 none]
    let p := Process.run .w64 takenOnce ⟨emptySys, []⟩ ops
    p.live = [⟨5 * 2 ^ 33, wasmPageSize, 2, 65536, 131072, false⟩] ∧
    p.sys.space.own.map Region.block = [⟨5 * 2 ^ 33, 2 ^ 33⟩] ∧
    (Process.run .w64 takenOnce ⟨emptySys, []⟩ (ops ++ [.destroy (5 * 2 ^ 33)])).sys.space.own =
      [] := by
  intro ops p
  have hlive : p.live = [⟨5 * 2 ^ 33, wasmPageSize, 2, 65536, 131072, false⟩] := by
    decide +kernel
  obtain ⟨hown, -, -, -, hempty⟩ := memories_own_regions .w64 takenOnce emptySys
    emptySys_supported emptySys_wellFormed rfl ops
  have hlength : blockOf .w64 emptySys.space.pageSize 65536 (5 * 2 ^ 33) =
      ⟨5 * 2 ^ 33, 2 ^ 33⟩ := by decide
  change p.sys.space.own.map Region.block = p.live.map _ at hown
  change (Process.run _ _ _ (ops ++ p.live.map _)).sys.space.own = [] at hempty
  rw [hlive, List.map_singleton] at hown hempty
  exact ⟨hlive, hown.trans (congrArg (fun b => [b]) hlength), hempty⟩

end RlboxWasm2c.Windows

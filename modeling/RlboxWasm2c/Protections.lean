import RlboxWasm2c.Base.Protection
import RlboxWasm2c.AddressSpace
import RlboxWasm2c.Descriptor

/- The linear memory with its protections: the functions of `wasm2c_rt_mem.c` once more, over
   a page map that records what each page may be used for. `erase` forgets that, and every
   call then is the one of the page map (`osMmapAligned_erase`, `createWasm2cMemory_erase`).

   `create_protects`: what is committed can be read and written, the rest of the reservation
   cannot be touched, and `destroy_wasm2c_memory` restores the map whatever was made of the
   reservation in between.
   `guest_access_guarded`: on a 64-bit host an access of the guest, at any index and offset,
   is within the size of its memory or traps. -/
namespace RlboxWasm2c.Protected
open Words Pages

/-! ## The functions of the source -/

def mmapProtNone : Nat := 0
def mmapProtRead : Nat := 1
def mmapProtWrite : Nat := 2
def mmapProtExec : Nat := 4

/-- `map_prot`, from the bits of `prot`. -/
def mapProt (prot : Nat) : Prot where
  read := prot &&& mmapProtRead != 0
  write := prot &&& mmapProtWrite != 0
  exec := prot &&& mmapProtExec != 0

def osMmap (w : Width) (m : ProtMap) (size prot : Nat) (answer : Option Nat) : Nat × ProtMap :=
  if wrap w.bits (requestSize m.pages size) < size then (0, m)
  else if requestSize m.pages size > 0x400000000 then (0, m)
  else match m.mmap w.bits (wrap w.bits (requestSize m.pages size)) (mapProt prot) answer with
    | (some addr, m') => (addr, m')
    | (none, m') => (0, m')

def osMunmap (w : Width) (m : ProtMap) (addr size : Nat) : ProtMap :=
  if addr ≠ 0 then m.munmap addr (wrap w.bits (requestSize m.pages size)) else m

/-- Whether the call returns 0. -/
def osMmapCommit (w : Width) (m : ProtMap) (addr size prot : Nat) (answer : MprotectAnswer) :
    Bool × ProtMap :=
  if addr = 0 then (true, m)
  else m.mprotect addr (wrap w.bits (requestSize m.pages size)) (mapProt prot) answer

def osMmapAligned (w : Width) (m : ProtMap) (requestedLength prot alignment alignmentOffset : Nat)
    (answer : Option Nat) : Nat × ProtMap :=
  let paddedLength := wrap w.bits (requestedLength + alignment + alignmentOffset)
  let (unaligned, m) := osMmap w m paddedLength prot answer
  if unaligned = 0 then (0, m)
  else
    let aligned := alignedAddr w unaligned alignment alignmentOffset
    if alignedFails w unaligned aligned requestedLength paddedLength alignment alignmentOffset then
      (0, osMunmap w m unaligned paddedLength)
    else
      let unusedFront := wsub w.bits aligned unaligned
      let m := if unusedFront ≠ 0 then osMunmap w m unaligned unusedFront else m
      let unusedBack := wsub w.bits (wrap w.bits (unaligned + wsub w.bits paddedLength 1))
        (wrap w.bits (aligned + wsub w.bits requestedLength 1))
      let m := if unusedBack ≠ 0 then
        osMunmap w m (wrap w.bits (aligned + requestedLength)) unusedBack else m
      (aligned, m)

/-- What the system answers one `create_wasm2c_memory`. -/
structure OsAnswers where
  mmapAnswer : Nat → Option Nat
  mprotectAnswer : MprotectAnswer

def reserveLoop (w : Width) (heapReserveSize byteLength : Nat) (ans : OsAnswers) :
    Nat → Nat → ProtMap → Nat × ProtMap
  | 0, _, m => (0, m)
  | attempts + 1, i, m =>
    match osMmapAligned w m (wrap w.bits heapReserveSize) mmapProtNone w.heapAlignment 0
        (ans.mmapAnswer i) with
    | (0, m') => reserveLoop w heapReserveSize byteLength ans attempts (i + 1) m'
    | (data + 1, m') =>
      match osMmapCommit w m' (data + 1) byteLength (mmapProtRead ||| mmapProtWrite)
          ans.mprotectAnswer with
      | (true, m') => (data + 1, m')
      | (false, m') => (0, osMunmap w m' (data + 1) (wrap w.bits heapReserveSize))

def createWasm2cMemory (w : Width) (m : ProtMap) (initialPages : Nat)
    (customCapacity : Option MemCapacity) (ans : OsAnswers) : WasmRtMemory × ProtMap :=
  if customCapacity.any (fun c => !c.isValid) then (⟨0, 0, 0, 0, 0, false⟩, m)
  else
    let byteLength := wrap 32 (initialPages * wasmPageSize)
    let chosenMaxPages := (customCapacity.map MemCapacity.maxPages).getD w.heapDefaultMaxPages
    let heapReserveSize := computeHeapReserveSpace w chosenMaxPages
    let r := reserveLoop w heapReserveSize byteLength ans 10 0 m
    (⟨r.1, wasmPageSize, initialPages, chosenMaxPages, byteLength, false⟩, r.2)

def destroyWasm2cMemory (w : Width) (m : ProtMap) (memory : WasmRtMemory) :
    WasmRtMemory × ProtMap :=
  if memory.data ≠ 0 then
    let heapReserveSize := computeHeapReserveSpace w memory.maxPages
    ({ memory with data := 0 }, osMunmap w m memory.data (wrap w.bits heapReserveSize))
  else (memory, m)

/-! ## Without the protections -/

def erase {α : Type} (r : α × ProtMap) : α × PageMap := (r.1, r.2.pages)

theorem erase_fst {α : Type} (r : α × ProtMap) : (erase r).1 = r.1 := rfl

section erase
variable {w : Width} {m m' : ProtMap} {prot : Nat}

theorem osMmap_erase {size : Nat} {answer : Option Nat} :
    erase (osMmap w m size prot answer) = RlboxWasm2c.osMmap w m.pages size answer := by
  unfold osMmap RlboxWasm2c.osMmap
  rw [← ProtMap.pages_mmap]
  split
  · rfl
  · split
    · rfl
    · rcases m.mmap w.bits (wrap w.bits (requestSize m.pages size)) (mapProt prot) answer with
        ⟨addr, m'⟩
      cases addr with
      | none => rfl
      | some addr => rfl

theorem osMunmap_pages {addr size : Nat} :
    (osMunmap w m addr size).pages = RlboxWasm2c.osMunmap w m.pages addr size := by
  unfold osMunmap RlboxWasm2c.osMunmap
  split
  · exact ProtMap.pages_munmap
  · rfl

theorem osMmapCommit_pages {addr size : Nat} {answer : MprotectAnswer} :
    (osMmapCommit w m addr size prot answer).2.pages = m.pages := by
  unfold osMmapCommit
  split
  · rfl
  · exact ProtMap.pages_mprotect

theorem osMmapAligned_erase {req alignment off : Nat} {answer : Option Nat} :
    erase (osMmapAligned w m req prot alignment off answer) =
      RlboxWasm2c.osMmapAligned w m.pages req alignment off answer := by
  unfold osMmapAligned RlboxWasm2c.osMmapAligned
  dsimp only
  rcases hmade : osMmap w m (wrap w.bits (req + alignment + off)) prot answer with ⟨unaligned, m'⟩
  have herase : RlboxWasm2c.osMmap w m.pages (wrap w.bits (req + alignment + off)) answer =
      (unaligned, m'.pages) := by
    rw [← osMmap_erase, hmade, erase]
  rw [herase]
  unfold erase
  dsimp only
  by_cases hfail : unaligned = 0
  · rw [if_pos hfail, if_pos hfail]
  rw [if_neg hfail, if_neg hfail]
  by_cases hsane : alignedFails w unaligned (alignedAddr w unaligned alignment off) req
      (wrap w.bits (req + alignment + off)) alignment off = true
  · rw [if_pos hsane, if_pos hsane, osMunmap_pages]
  · rw [if_neg hsane, if_neg hsane]
    dsimp only
    rw [apply_ite ProtMap.pages, osMunmap_pages, apply_ite ProtMap.pages, osMunmap_pages]

end erase

/-! ## What is mapped, and how -/

section spec
variable {w : Width} {m m' : ProtMap} {prot maxPages a : Nat} {answer : Option Nat}

theorem osMunmap_since {addr size : Nat} {q : Prot} (h : m.Since m' q) :
    m.Since (osMunmap w m' addr size) q := by
  unfold osMunmap
  split
  · exact h.munmap
  · exact h

theorem osMmap_since {size : Nat} : m.Since (osMmap w m size prot answer).2 (mapProt prot) := by
  unfold osMmap
  split
  · exact .refl m _
  · split
    · exact .refl m _
    · have hmmap : m.Since (m.mmap w.bits (wrap w.bits (requestSize m.pages size)) (mapProt prot)
          answer).2 (mapProt prot) := ProtMap.since_mmap
      rcases hm : m.mmap w.bits (wrap w.bits (requestSize m.pages size)) (mapProt prot) answer with
        ⟨addr, m'⟩
      rw [hm] at hmmap
      cases addr with
      | none => exact hmmap
      | some addr => exact hmmap

theorem osMmapAligned_since {req alignment off : Nat} :
    m.Since (osMmapAligned w m req prot alignment off answer).2 (mapProt prot) := by
  unfold osMmapAligned
  dsimp only
  have hmade : m.Since (osMmap w m (wrap w.bits (req + alignment + off)) prot answer).2
      (mapProt prot) := osMmap_since
  split
  · exact hmade
  · split
    · exact osMunmap_since hmade
    · dsimp only
      have hfront : ∀ {c : Prop} [Decidable c] {m₁ : ProtMap} {addr size : Nat},
          m.Since m₁ (mapProt prot) →
          m.Since (if c then osMunmap w m₁ addr size else m₁) (mapProt prot) := by
        intro c _ m₁ addr size h
        split
        · exact osMunmap_since h
        · exact h
      exact hfront (hfront hmade)

/-- An attempt changes nothing, or maps the pages of the reservation. -/
theorem osMmapAligned_reserves (hp : SupportedPages m.pages)
    (h : osMmapAligned w m (reserveLength w maxPages) prot w.heapAlignment 0 answer = (a, m')) :
    (a = 0 ∧ m' = m) ∨
    (Placed w m.pages maxPages a ∧ m' = m.map a (reserveLength w maxPages) (mapProt prot)) := by
  obtain ⟨hreq, hfit, hpage⟩ := reserveLength_ok w maxPages hp
  have hsince : m.Since m' (mapProt prot) := by
    have hsince : m.Since (osMmapAligned w m (reserveLength w maxPages) prot w.heapAlignment 0
        answer).2 (mapProt prot) := osMmapAligned_since
    rwa [h] at hsince
  have herase : RlboxWasm2c.osMmapAligned w m.pages (reserveLength w maxPages) w.heapAlignment 0
      answer = (a, m'.pages) := by
    rw [← osMmapAligned_erase, h, erase]
  rcases osMmapAligned_spec hp (heapAlignment_args w) hpage hreq hfit herase with
    ⟨h0, hpages⟩ | ⟨h0, hd, hw, hmod, hfree, hpages⟩
  · exact .inl ⟨h0, hsince.eq_self hpages⟩
  · refine .inr ⟨⟨h0, hd, hw, ?_, hfree⟩, hsince.eq_map hpages hfree⟩
    rintro rfl
    exact Nat.dvd_of_mod_eq_zero hmod

/-- Unmapping a reservation restores the map it was made in, whatever became of its pages. -/
theorem osMunmap_restores (hp : SupportedPages m.pages) (hplaced : Placed w m.pages maxPages a)
    (hshift : m'.shift = m.shift)
    (hout : ∀ p, ¬m.pages.inRange a (reserveLength w maxPages) p = true → m'.prot p = m.prot p) :
    osMunmap w m' a (reserveLength w maxPages) = m := by
  obtain ⟨hpos, -, -⟩ := reserveLength_ok w maxPages hp
  have hbits := two_pow_bits_le w
  have hround := le_roundUp (x := reserveLength w maxPages) m.pages.pageSize_pos
  have hfits := hplaced.fits
  have hsize : m'.pages.pageSize = m.pages.pageSize := congrArg (2 ^ ·) hshift
  have hin : ∀ lo len p, m'.pages.inRange lo len p = m.pages.inRange lo len p := by
    intro lo len p
    unfold PageMap.inRange
    rw [hsize]
  have hrequest : requestSize m'.pages (reserveLength w maxPages) =
      roundUp (reserveLength w maxPages) m.pages.pageSize := by
    rw [← hsize]
    have hp' : SupportedPages m'.pages := by
      unfold SupportedPages
      rwa [ProtMap.pages_shift, hshift]
    apply requestSize_eq hp'
    have hle : m.pages.pageSize ≤ a :=
      Nat.le_of_dvd (Nat.pos_of_ne_zero hplaced.ne_zero) hplaced.page
    have hpos := m.pages.pageSize_pos
    rw [hsize]
    omega
  have hne := hplaced.ne_zero
  unfold osMunmap
  rw [if_pos hne, hrequest, wrap_eq (by omega)]
  unfold ProtMap.munmap
  rw [hsize, if_pos ⟨hplaced.page, by omega⟩]
  ext1
  · exact hshift
  · funext p
    unfold ProtMap.unmap
    dsimp only
    rw [hin, PageMap.inRange_roundUp hplaced.page]
    split
    · next hcovered =>
      have hfree := hplaced.free p hcovered
      rw [ProtMap.pages_mapped, Option.isSome_eq_false_iff, Option.isNone_iff_eq_none] at hfree
      exact hfree.symm
    · next hcovered => exact hout p hcovered

end spec

/-! ## A created memory -/

section create
variable {w : Width} {m m' : ProtMap} {maxPages byteLength a : Nat} {ans : OsAnswers}

/-- A reservation at `a` whose first `size` bytes are committed. -/
def committed (w : Width) (m : ProtMap) (maxPages a size : Nat) : ProtMap :=
  (m.map a (reserveLength w maxPages) .noAccess).protect (m.pages.inRange a size) .readWrite

theorem osMmapCommit_whole (prot : Nat) {size : Nat} (answer : MprotectAnswer)
    (hp : SupportedPages m.pages) (ha : a ≠ 0) (hsize : size < 2 ^ 32)
    (hround : roundUp size m.pages.pageSize = size) :
    osMmapCommit w m a size prot answer = m.mprotect a size (mapProt prot) answer := by
  have hpage := pageSize_le hp
  have hbits := Nat.pow_le_pow_right (n := 2) (by decide) w.le_bits
  unfold osMmapCommit
  rw [if_neg ha, requestSize_eq hp (by omega), hround, wrap_eq (by omega)]

/-- The loop reserves nothing, or commits the pages of the reservation it made. -/
theorem reserveLoop_commits (hp : SupportedPages m.pages) (hsize : byteLength < 2 ^ 32)
    (hround : roundUp byteLength m.pages.pageSize = byteLength) (attempts : Nat) :
    ∀ i, reserveLoop w (computeHeapReserveSpace w maxPages) byteLength ans attempts i m = (a, m') →
    (a = 0 ∧ (byteLength ≤ reserveLength w maxPages → m' = m)) ∨
    (Placed w m.pages maxPages a ∧ m' = committed w m maxPages a byteLength ∧
      ∀ p, m.pages.inRange a byteLength p = true →
        ((m.map a (reserveLength w maxPages) .noAccess).prot p).isSome = true) := by
  induction attempts with
  | zero =>
    intro i h
    obtain ⟨rfl, rfl⟩ := Prod.mk.inj h
    exact .inl ⟨rfl, fun _ => rfl⟩
  | succ attempts ih =>
    intro i h
    rw [reserveLoop] at h
    split at h
    · next m₁ hmade =>
      rcases osMmapAligned_reserves hp hmade with ⟨-, rfl⟩ | ⟨hplaced, -⟩
      · exact ih (i + 1) h
      · exact absurd rfl hplaced.ne_zero
    · next data m₁ hmade =>
      rcases osMmapAligned_reserves hp hmade with ⟨h0, -⟩ | ⟨hplaced, rfl⟩
      · exact absurd h0 (Nat.succ_ne_zero data)
      have hwhole := osMmapCommit_whole (mmapProtRead ||| mmapProtWrite) ans.mprotectAnswer (w := w)
        (m := m.map (data + 1) (reserveLength w maxPages) (mapProt mmapProtNone))
        hp hplaced.ne_zero hsize hround
      rw [hwhole] at h
      split at h
      · next m₂ hcommit =>
        obtain ⟨rfl, rfl⟩ := Prod.mk.inj h
        obtain ⟨hmapped, hprot⟩ := ProtMap.mprotect_true hcommit
        exact .inr ⟨hplaced, hprot, hmapped⟩
      · next m₂ hcommit =>
        obtain ⟨rfl, rfl⟩ := Prod.mk.inj h
        obtain ⟨s, hs, rfl⟩ := ProtMap.mprotect_false hcommit
        refine .inl ⟨rfl, fun hle => osMunmap_restores hp hplaced rfl ?_⟩
        -- what the failed call changed lies in the reservation
        intro p hout
        have hkept : ¬s p = true := by
          intro hsp
          apply hout
          have hin : m.pages.inRange (data + 1) byteLength p = true := hs p hsp
          rw [PageMap.inRange_iff] at hin ⊢
          omega
        unfold ProtMap.protect ProtMap.map
        dsimp only
        rw [if_neg hkept, if_neg hout]

/-- A system that is willing commits what lies in the reservation. -/
theorem osMmapCommit_granted (prot : Nat) {size : Nat} {q : Prot} {answer : MprotectAnswer}
    (hp : SupportedPages m.pages) (hplaced : Placed w m.pages maxPages a) (hsize : size < 2 ^ 32)
    (hround : roundUp size m.pages.pageSize = size) (hle : size ≤ reserveLength w maxPages)
    (hok : answer.ok = true) :
    (osMmapCommit w (m.map a (reserveLength w maxPages) q) a size prot answer).1 = true := by
  have hwhole := osMmapCommit_whole prot answer (w := w) (m := m.map a (reserveLength w maxPages) q)
    hp hplaced.ne_zero hsize hround
  rw [hwhole]
  refine ProtMap.mprotect_ok hplaced.page hok fun p hp => ?_
  have hin : m.pages.inRange a (reserveLength w maxPages) p = true := by
    have hinside := PageMap.inRange_iff.mp hp
    exact PageMap.inRange_iff.mpr
      ⟨hinside.1, Nat.lt_of_lt_of_le hinside.2 (Nat.add_le_add_left hle a)⟩
  change (if m.pages.inRange a (reserveLength w maxPages) p = true then some q else _).isSome = true
  rw [if_pos hin]
  rfl

variable (w maxPages ans) in
/-- The loop over the page map, the commit being answered as here: done, where the system is
    willing and the range lies in the reservation. -/
theorem reserveLoop_erase (hp : SupportedPages m.pages) (hsize : byteLength < 2 ^ 32)
    (hround : roundUp byteLength m.pages.pageSize = byteLength) (attempts : Nat) :
    ∀ i, ∃ ok,
      erase (reserveLoop w (computeHeapReserveSpace w maxPages) byteLength ans attempts i m) =
        RlboxWasm2c.reserveLoop w (computeHeapReserveSpace w maxPages) byteLength
          ⟨ans.mmapAnswer, ok⟩ attempts i m.pages ∧
      (byteLength ≤ reserveLength w maxPages → ans.mprotectAnswer.ok = true → ok = true) := by
  have hlength : wrap w.bits (computeHeapReserveSpace w maxPages) = reserveLength w maxPages := rfl
  generalize computeHeapReserveSpace w maxPages = n at hlength ⊢
  induction attempts with
  | zero => exact fun i => ⟨true, rfl, fun _ _ => rfl⟩
  | succ attempts ih =>
    intro i
    rcases hmade : osMmapAligned w m (reserveLength w maxPages) mmapProtNone w.heapAlignment 0
      (ans.mmapAnswer i) with ⟨data, m₁⟩
    have herase : ∀ ok, RlboxWasm2c.osMmapAligned w m.pages (reserveLength w maxPages)
        w.heapAlignment 0 ((⟨ans.mmapAnswer, ok⟩ : RlboxWasm2c.OsAnswers).mmapAnswer i) =
        (data, m₁.pages) := by
      intro ok
      rw [← osMmapAligned_erase, hmade, erase]
    rw [reserveLoop, hlength, hmade]
    rcases osMmapAligned_reserves hp hmade with ⟨rfl, rfl⟩ | ⟨hplaced, rfl⟩
    · obtain ⟨ok, hok⟩ := ih (i + 1)
      refine ⟨ok, ?_⟩
      rw [RlboxWasm2c.reserveLoop, hlength, herase]
      exact hok
    · obtain ⟨data, rfl⟩ := Nat.exists_eq_succ_of_ne_zero hplaced.ne_zero
      have hgranted := fun hle (hok : ans.mprotectAnswer.ok = true) =>
        osMmapCommit_granted (mmapProtRead ||| mmapProtWrite) (q := mapProt mmapProtNone)
          hp hplaced hsize hround hle hok
      have hpages : (osMmapCommit w
          (m.map (data + 1) (reserveLength w maxPages) (mapProt mmapProtNone)) (data + 1) byteLength
          (mmapProtRead ||| mmapProtWrite) ans.mprotectAnswer).2.pages = _ := osMmapCommit_pages
      dsimp only
      rcases hcommit : osMmapCommit w
        (m.map (data + 1) (reserveLength w maxPages) (mapProt mmapProtNone)) (data + 1) byteLength
        (mmapProtRead ||| mmapProtWrite) ans.mprotectAnswer with ⟨ok, m₂⟩
      rw [hcommit] at hpages hgranted
      refine ⟨ok, ?_, hgranted⟩
      rw [RlboxWasm2c.reserveLoop, hlength, herase]
      dsimp only at hpages ⊢
      unfold RlboxWasm2c.osMmapCommit
      rw [if_neg (Nat.succ_ne_zero data)]
      cases ok with
      | true => simp [erase, hpages]
      | false => simp [erase, hpages, osMunmap_pages]

theorem createWasm2cMemory_eq {initialPages : Nat} {cap : Option MemCapacity}
    (hvalid : ∀ c ∈ cap, c.isValid = true) :
    createWasm2cMemory w m initialPages cap ans =
      let r := reserveLoop w (computeHeapReserveSpace w (chosenMaxPages w cap))
        (wrap 32 (initialPages * wasmPageSize)) ans 10 0 m
      (⟨r.1, wasmPageSize, initialPages, chosenMaxPages w cap,
        wrap 32 (initialPages * wasmPageSize), false⟩, r.2) := by
  have hany : ¬(cap.any fun c => !c.isValid) = true := by
    cases cap with
    | none => exact Bool.false_ne_true
    | some c => simp [hvalid c rfl]
  unfold createWasm2cMemory chosenMaxPages
  rw [if_neg hany]

theorem createWasm2cMemory_invalid {initialPages : Nat} {cap : Option MemCapacity} {c : MemCapacity}
    (hc : c ∈ cap) (hinvalid : ¬c.isValid = true) :
    createWasm2cMemory w m initialPages cap ans = (⟨0, 0, 0, 0, 0, false⟩, m) := by
  unfold createWasm2cMemory
  rw [Option.mem_def.mp hc, Option.any_some, if_pos (by simpa using hinvalid)]

variable (w ans) in
/-- Without the protections the memory and the pages are those of the page map. -/
theorem createWasm2cMemory_erase (hp : SupportedPages m.pages) (initialPages : Nat)
    (cap : Option MemCapacity) :
    ∃ ok, erase (createWasm2cMemory w m initialPages cap ans) =
        RlboxWasm2c.createWasm2cMemory w m.pages initialPages cap ⟨ans.mmapAnswer, ok⟩ ∧
      (wrap 32 (initialPages * wasmPageSize) ≤ reserveLength w (chosenMaxPages w cap) →
        ans.mprotectAnswer.ok = true → ok = true) := by
  by_cases hvalid : ∀ c ∈ cap, c.isValid = true
  · obtain ⟨ok, herase, hok⟩ := reserveLoop_erase w (chosenMaxPages w cap) ans hp
      (wrap_lt 32 (initialPages * wasmPageSize)) (roundUp_byteLength hp initialPages) 10 0
    rcases hmade : reserveLoop w (computeHeapReserveSpace w (chosenMaxPages w cap))
      (wrap 32 (initialPages * wasmPageSize)) ans 10 0 m with ⟨data, m'⟩
    rw [hmade, erase] at herase
    refine ⟨ok, ?_, hok⟩
    rw [createWasm2cMemory_eq hvalid, hmade, RlboxWasm2c.createWasm2cMemory_eq hvalid, ← herase,
      erase]
  · push Not at hvalid
    obtain ⟨c, hc, hinvalid⟩ := hvalid
    refine ⟨true, ?_, fun _ _ => rfl⟩
    rw [createWasm2cMemory_invalid hc hinvalid]
    unfold RlboxWasm2c.createWasm2cMemory
    rw [Option.mem_def.mp hc, Option.any_some, if_pos (by simpa using hinvalid)]
    rfl

theorem committed_inside {p size : Nat} (hin : m.pages.inRange a size p = true)
    (hmapped : ((m.map a (reserveLength w maxPages) .noAccess).prot p).isSome = true) :
    (committed w m maxPages a size).prot p = some .readWrite := by
  obtain ⟨q, hq⟩ := Option.isSome_iff_exists.mp hmapped
  unfold committed ProtMap.protect
  dsimp only
  rw [if_pos hin, hq, Option.map_some]

theorem committed_outside {p size : Nat} (hout : ¬m.pages.inRange a size p = true) :
    (committed w m maxPages a size).prot p =
      (m.map a (reserveLength w maxPages) .noAccess).prot p :=
  if_neg hout

/-- The protection of a byte of the reservation, the size being whole pages. -/
theorem committed_byte {size x : Nat} (hplaced : Placed w m.pages maxPages a)
    (hround : roundUp size m.pages.pageSize = size) (hx : x < reserveLength w maxPages)
    (hmapped : ∀ p, m.pages.inRange a size p = true →
      ((m.map a (reserveLength w maxPages) .noAccess).prot p).isSome = true) :
    (committed w m maxPages a size).prot ((a + x) / m.pages.pageSize) =
      some (if x < size then .readWrite else .noAccess) := by
  have hpos := m.pages.pageSize_pos
  by_cases hlt : x < size
  · have hin := PageMap.inRange_of_byte hplaced.page (Nat.le_add_right a x)
      (Nat.add_lt_add_left hlt a)
    rw [if_pos hlt]
    exact committed_inside hin (hmapped _ hin)
  · have hin := PageMap.inRange_of_byte hplaced.page (Nat.le_add_right a x)
      (Nat.add_lt_add_left hx a)
    have hout : ¬m.pages.inRange a size ((a + x) / m.pages.pageSize) = true := by
      intro h
      have hlast := (PageMap.inRange_iff.mp h).2
      have hend : m.pages.pageSize ∣ a + size := by
        rw [← hround]
        exact Nat.dvd_add hplaced.page dvd_roundUp
      -- the byte is not before the page the committed range ends at
      have hle : a + size ≤ (a + x) / m.pages.pageSize * m.pages.pageSize := by
        calc a + size = (a + size) / m.pages.pageSize * m.pages.pageSize :=
              (Nat.div_mul_cancel hend).symm
          _ ≤ _ := Nat.mul_le_mul_right _ (Nat.div_le_div_right (by omega))
      omega
    rw [if_neg hlt, committed_outside hout]
    exact if_pos hin

/-- The memory that `create_wasm2c_memory` returns, and the map it leaves. -/
theorem createWasm2cMemory_commits {initialPages : Nat} {cap : Option MemCapacity}
    {mem : WasmRtMemory} (hp : SupportedPages m.pages)
    (h : createWasm2cMemory w m initialPages cap ans = (mem, m')) :
    (mem.data = 0 ∧
      (wrap 32 (initialPages * wasmPageSize) ≤ reserveLength w (chosenMaxPages w cap) → m' = m)) ∨
    (Placed w m.pages mem.maxPages mem.data ∧ mem.maxPages = chosenMaxPages w cap ∧
      mem.size = wrap 32 (initialPages * wasmPageSize) ∧
      m' = committed w m mem.maxPages mem.data mem.size ∧
      ∀ p, m.pages.inRange mem.data mem.size p = true →
        ((m.map mem.data (reserveLength w mem.maxPages) .noAccess).prot p).isSome = true) := by
  by_cases hvalid : ∀ c ∈ cap, c.isValid = true
  · rw [createWasm2cMemory_eq hvalid] at h
    rcases hmade : reserveLoop w (computeHeapReserveSpace w (chosenMaxPages w cap))
      (wrap 32 (initialPages * wasmPageSize)) ans 10 0 m with ⟨data, m₁⟩
    rw [hmade] at h
    obtain ⟨rfl, rfl⟩ := Prod.mk.inj h
    rcases reserveLoop_commits hp (wrap_lt 32 (initialPages * wasmPageSize))
        (roundUp_byteLength hp initialPages) 10 0 hmade with
      ⟨h0, hkept⟩ | ⟨hplaced, hprot, hmapped⟩
    · exact .inl ⟨h0, hkept⟩
    · exact .inr ⟨hplaced, rfl, rfl, hprot, hmapped⟩
  · push Not at hvalid
    obtain ⟨c, hc, hinvalid⟩ := hvalid
    rw [createWasm2cMemory_invalid hc hinvalid] at h
    obtain ⟨rfl, rfl⟩ := Prod.mk.inj h
    exact .inl ⟨rfl, fun _ => rfl⟩

end create

/-- A system with nothing mapped, whose page size is 64 KiB. -/
def noProt : ProtMap := ⟨16, fun _ => none⟩

/-- A system that maps at `a` and does every `mprotect`. -/
def grantAt (a : Nat) : OsAnswers := ⟨fun _ => some a, ⟨true, fun _ => false⟩⟩

theorem noProt_pages : noProt.pages = noPages := rfl

theorem grantAt_erase (a : Nat) :
    (⟨(grantAt a).mmapAnswer, true⟩ : RlboxWasm2c.OsAnswers) = RlboxWasm2c.grantAt a := rfl

/-- A 64-bit host gives every capacity it accepts the default. -/
theorem chosenMaxPages_w64 {cap : Option MemCapacity} (hcap : ∀ c ∈ cap, ValidCapacity .w64 c) :
    chosenMaxPages .w64 cap = 65536 := by
  cases cap with
  | none => rfl
  | some c =>
    obtain ⟨hvalid, minCapacity, isMem32, rfl⟩ := hcap c rfl
    change (getValidWasm2cMemoryCapacity .w64 minCapacity isMem32).maxPages = 65536
    cases isMem32 with
    | false => cases hvalid
    | true =>
      rcases getValid_cases hvalid with ⟨-, hmax⟩ | ⟨hgt, hle, -⟩
      · exact hmax
      · cases w32_of_above hgt hle

/-- An access of the guest at `index`, with the constant `offset` of its instruction: `n`
    bytes from `index + offset` on. On a 64-bit host all of them can be read and written, or
    one of them is on a page without access. -/
theorem guest_access_guarded (m : ProtMap) (hp : SupportedPages m.pages) (initialPages : Nat)
    (cap : Option MemCapacity) (hcap : ∀ c ∈ cap, ValidCapacity .w64 c) (ans : OsAnswers)
    (hdata : (createWasm2cMemory .w64 m initialPages cap ans).1.data ≠ 0) (index offset n : Nat)
    (hindex : index < 2 ^ 32) (hoffset : offset < 2 ^ 32) (hn : 0 < n) :
    let r := createWasm2cMemory .w64 m initialPages cap ans
    let byteProt := fun x => r.2.prot ((r.1.data + x) / m.pages.pageSize)
    (index + offset + n ≤ r.1.size → ∀ i < n,
      r.1.data + (index + offset + i) < 2 ^ 64 ∧
      byteProt (index + offset + i) = some .readWrite) ∧
    (r.1.size < index + offset + n → ∃ i < n,
      r.1.data + (index + offset + i) < 2 ^ 64 ∧
      byteProt (index + offset + i) = some .noAccess) := by
  intro r byteProt
  have hr : createWasm2cMemory .w64 m initialPages cap ans = (r.1, r.2) := rfl
  rcases createWasm2cMemory_commits hp hr with ⟨h0, -⟩ | ⟨hplaced, hmax, hsize, hprot, hmapped⟩
  · exact absurd h0 hdata
  have hround : roundUp r.1.size m.pages.pageSize = r.1.size := by
    rw [hsize]
    exact roundUp_byteLength hp initialPages
  have hlt : r.1.size < 2 ^ 32 := hsize ▸ wrap_lt ..
  -- a valid capacity of a 64-bit host is its default, so 8 GiB are reserved
  have hlength : reserveLength .w64 r.1.maxPages = 2 ^ 33 := by
    rw [hmax, chosenMaxPages_w64 hcap]
    decide
  have hbyte : ∀ x < 2 ^ 33, r.1.data + x < 2 ^ 64 ∧
      byteProt x = some (if x < r.1.size then .readWrite else .noAccess) := by
    intro x hx
    rw [← hlength] at hx
    have hfits := hplaced.fits
    have hle := le_roundUp (x := reserveLength .w64 r.1.maxPages) m.pages.pageSize_pos
    refine ⟨Nat.lt_of_lt_of_le (by omega) hfits, ?_⟩
    change r.2.prot _ = _
    rw [hprot]
    exact committed_byte hplaced hround hx hmapped
  constructor
  · intro hle i hi
    obtain ⟨hend, hbyte⟩ := hbyte (index + offset + i) (by omega)
    rw [if_pos (by omega)] at hbyte
    exact ⟨hend, hbyte⟩
  · intro hgt
    -- the first byte of the access that is not in the size
    obtain ⟨i, hi, hin, hout⟩ : ∃ i < n, index + offset + i < 2 ^ 33 ∧
        ¬index + offset + i < r.1.size := by
      by_cases hstart : index + offset < r.1.size
      · exact ⟨r.1.size - (index + offset), by omega, by omega, by omega⟩
      · exact ⟨0, hn, by omega, by omega⟩
    obtain ⟨hend, hbyte⟩ := hbyte (index + offset + i) hin
    rw [if_neg hout] at hbyte
    exact ⟨i, hi, hend, hbyte⟩

/-- Four bytes at the end of a memory of one page: two in the page, two behind it. -/
theorem guarded_last_page :
    ∃ i < 4, (createWasm2cMemory .w64 noProt 1 none (grantAt (2 ^ 33))).2.prot
      ((2 ^ 33 + (65000 + 534 + i)) / 65536) = some .noAccess := by
  have hpages := createWasm2cMemory_noPages (a := 2 ^ 33) (by decide) 1
  obtain ⟨ok, herase, hok⟩ := createWasm2cMemory_erase .w64 (grantAt (2 ^ 33))
    (m := noProt) noPages_supported 1 none
  obtain rfl := hok (by decide) rfl
  rw [noProt_pages, grantAt_erase] at herase
  have hmade := congrArg Prod.fst herase
  have haligned : alignedAddr .w64 (2 ^ 33) (2 ^ 33) 0 = 2 ^ 33 := by decide
  rw [erase_fst, hpages, haligned] at hmade
  have hguarded := (guest_access_guarded noProt noPages_supported 1 none (by rintro c ⟨⟩)
    (grantAt (2 ^ 33)) (by rw [hmade]; decide) 65000 534 4 (by decide) (by decide) (by decide)).2
  have hpage : noProt.pages.pageSize = 65536 := rfl
  rw [hmade, hpage] at hguarded
  dsimp only at hguarded
  obtain ⟨i, hi, -, hprot⟩ := hguarded (by decide)
  exact ⟨i, hi, hprot⟩

end RlboxWasm2c.Protected

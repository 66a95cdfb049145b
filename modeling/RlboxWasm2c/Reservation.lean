import RlboxWasm2c.RtMem

/- What `create_wasm2c_memory` reserves from the system, exactly, and whether that is
   the capacity it records. -/
namespace RlboxWasm2c
open Words Pages

variable {w : Width} {os os' : PageMap}

/-- The page sizes of the supported systems: at most 64 KiB. -/
def SupportedPages (os : PageMap) : Prop := os.shift ≤ 16

theorem Width.le_bits (w : Width) : 32 ≤ w.bits := by cases w <;> decide

theorem Width.bits_le (w : Width) : w.bits ≤ 64 := by cases w <;> decide

theorem two_pow_bits_le (w : Width) : 2 ^ w.bits ≤ 2 ^ 64 :=
  Nat.pow_le_pow_right (by decide) w.bits_le

theorem pageSize_le (hp : SupportedPages os) : os.pageSize ≤ 65536 :=
  Nat.pow_le_pow_right (by decide) hp

theorem pageSize_dvd_bits (hp : SupportedPages os) : os.pageSize ∣ 2 ^ w.bits :=
  Nat.pow_dvd_pow 2 (Nat.le_trans hp (Nat.le_trans (by decide) w.le_bits))

/-! ## The page rounding of each call -/

theorem requestSize_eq {size : Nat} (hp : SupportedPages os)
    (h : size + (os.pageSize - 1) < 2 ^ 64) : requestSize os size = roundUp size os.pageSize :=
  roundUp_mask (Nat.le_trans hp (by decide)) h

/-- A length whose rounding wraps is refused: the rounded length is the smaller. -/
theorem requestSize_lt {size : Nat} (hp : SupportedPages os) (hs : size < 2 ^ 64)
    (h : 2 ^ 64 ≤ size + (os.pageSize - 1)) : requestSize os size < size := by
  have hle := pageSize_le hp
  have hw : wrap 64 (size + (os.pageSize - 1)) = size + (os.pageSize - 1) - 2 ^ 64 := by
    unfold wrap
    rw [Nat.mod_eq_sub_mod h]
    exact Nat.mod_eq_of_lt (by omega)
  have := Nat.and_le_left (n := wrap 64 (size + (os.pageSize - 1)))
    (m := 2 ^ 64 - (os.pageSize - 1 + 1))
  unfold requestSize andNot
  omega

/-- `os_mmap` fails and changes nothing, or maps the whole pages of `size` bytes. -/
theorem osMmap_spec {size a : Nat} {answer : Option Nat} (hp : SupportedPages os)
    (hs : size < 2 ^ w.bits) (h : osMmap w os size answer = (a, os')) :
    (a = 0 ∧ os' = os) ∨
    (a ≠ 0 ∧ os.pageSize ∣ a ∧ a + roundUp size os.pageSize ≤ 2 ^ w.bits ∧
      (∀ p, os.inRange a size p = true → os.mapped p = false) ∧ os' = os.map a size) := by
  have hbits := two_pow_bits_le w
  unfold osMmap at h
  split at h
  · exact Or.inl ⟨(Prod.mk.inj h).1.symm, (Prod.mk.inj h).2.symm⟩
  next hlt =>
  split at h
  · exact Or.inl ⟨(Prod.mk.inj h).1.symm, (Prod.mk.inj h).2.symm⟩
  -- past the check the rounding cannot have wrapped
  have hnowrap : size + (os.pageSize - 1) < 2 ^ 64 := by
    by_contra hc
    have := requestSize_lt hp (by omega) (Nat.le_of_not_lt hc)
    have := Nat.mod_le (requestSize os size) (2 ^ w.bits)
    unfold wrap at hlt
    omega
  rw [requestSize_eq hp hnowrap] at h hlt
  have hround : wrap w.bits (roundUp size os.pageSize) = roundUp size os.pageSize := by
    have hle := roundUp_le os.pageSize_pos (Nat.le_of_lt hs) (pageSize_dvd_bits (w := w) hp)
    rcases Nat.lt_or_ge (roundUp size os.pageSize) (2 ^ w.bits) with hl | hl
    · exact wrap_eq hl
    · -- a rounding that reaches the end of the address space wraps to nothing
      have he : roundUp size os.pageSize = 2 ^ w.bits := by omega
      rw [he, wrap, Nat.mod_self] at hlt
      have h0 : size = 0 := by omega
      rw [h0, roundUp_of_dvd os.pageSize_pos (Nat.dvd_zero _)]
      rfl
  rw [hround] at h
  split at h
  · next addr os₁ hm =>
    obtain ⟨rfl, rfl⟩ := Prod.mk.inj h
    obtain ⟨h0, -, hd, hw, hf, rfl⟩ := PageMap.mmap_some hm
    refine Or.inr ⟨h0, hd, hw, ?_, PageMap.map_roundUp hd⟩
    intro p hin
    exact hf p (by rwa [PageMap.inRange_roundUp hd])
  · next os₁ hm =>
    obtain ⟨rfl, rfl⟩ := Prod.mk.inj h
    exact Or.inl ⟨rfl, PageMap.mmap_none hm⟩

/-- Unmapping a piece of whole pages; an empty piece is skipped. -/
theorem osMunmap_piece (os : PageMap) {addr size : Nat} (hp : SupportedPages os) (ha : addr ≠ 0)
    (hd : os.pageSize ∣ addr) (hs : os.pageSize ∣ size) (hlt : size < 2 ^ w.bits) :
    (if size ≠ 0 then osMunmap w os addr size else os) = os.unmap addr size := by
  split
  · next hne =>
    have hround : requestSize os size = size := by
      have h1 := two_pow_bits_le w
      have h2 : size + os.pageSize ≤ 2 ^ w.bits := by
        obtain ⟨c, hc⟩ := hs
        obtain ⟨d, hd'⟩ := pageSize_dvd_bits (w := w) hp
        rw [hc, hd'] at hlt ⊢
        have := Nat.lt_of_mul_lt_mul_left hlt
        calc os.pageSize * c + os.pageSize = os.pageSize * (c + 1) := by ring
          _ ≤ os.pageSize * d := Nat.mul_le_mul_left _ this
      have := os.pageSize_pos
      rw [requestSize_eq hp (by omega), roundUp_of_dvd os.pageSize_pos hs]
    unfold osMunmap
    rw [if_pos ha, hround, wrap_eq hlt, PageMap.munmap_eq hd hne]
  · next hne =>
    rw [show size = 0 by omega, PageMap.unmap_zero]

/-! ## The aligned block -/

section Aligned
variable {u req alignment off : Nat}

/-- The alignments `os_mmap_aligned` is meant for: none, or a power of two; the
    offset that is to be aligned is at most one alignment. -/
structure AlignArgs (alignment off : Nat) : Prop where
  pow : alignment = 0 ∨ ∃ k, alignment = 2 ^ k
  off_le : off ≤ alignment

/-- The alignment the address is rounded to: 1 when none is asked for. -/
theorem AlignArgs.corrected (h : AlignArgs alignment off) :
    ∃ k, (if alignment = 0 then 1 else alignment) = 2 ^ k ∧
      (alignment = 0 ∧ 2 ^ k = 1 ∨ alignment = 2 ^ k) := by
  rcases h.pow with h0 | ⟨k, hk⟩
  · exact ⟨0, by rw [if_pos h0, Nat.pow_zero], Or.inl ⟨h0, rfl⟩⟩
  · have := Nat.two_pow_pos k
    exact ⟨k, by rw [if_neg (by omega), hk], Or.inr hk⟩

/-- Rounding the base up does not wrap, and leaves room to take the offset off: a
    non-null base rounds up to at least one alignment. -/
theorem alignedNonoffset_spec (hal : AlignArgs alignment off) (hu : u ≠ 0) (hreq : 0 < req)
    (hfit : u + (req + alignment + off) ≤ 2 ^ w.bits) {A : Nat}
    (hA : (if alignment = 0 then 1 else alignment) = A) :
    u + (A - 1) < 2 ^ w.bits ∧ andNot w.bits (u + (A - 1)) (A - 1) = roundUp u A ∧
    off ≤ roundUp u A ∧ u ≤ roundUp u A ∧ roundUp u A < u + A := by
  obtain ⟨k, hk, hcases⟩ := hal.corrected
  obtain rfl : A = 2 ^ k := hA.symm.trans hk
  have hoff := hal.off_le
  have hpos := Nat.two_pow_pos k
  have hkw : k ≤ w.bits := by
    by_contra hc
    have := Nat.pow_lt_pow_right (a := 2) (by decide) (show w.bits < k by omega)
    rcases hcases with ⟨h0, h1⟩ | h0 <;> omega
  have hsum : u + (2 ^ k - 1) < 2 ^ w.bits := by
    rcases hcases with ⟨h0, h1⟩ | h0 <;> omega
  have hround := roundUp_mask hkw hsum
  rw [wrap_eq hsum] at hround
  have hlo : u ≤ roundUp u (2 ^ k) := le_roundUp hpos
  refine ⟨hsum, hround, ?_, hlo, roundUp_lt hpos⟩
  have := Nat.le_of_dvd (by omega) (dvd_roundUp (x := u) (a := 2 ^ k))
  rcases hcases with ⟨h0, h1⟩ | h0 <;> omega

/-- The chosen address without wrapping. -/
theorem alignedAddr_eq (hal : AlignArgs alignment off) (hu : u ≠ 0) (hreq : 0 < req)
    (hfit : u + (req + alignment + off) ≤ 2 ^ w.bits) {A : Nat}
    (hA : (if alignment = 0 then 1 else alignment) = A) :
    alignedAddr w u alignment off =
      if roundUp u A - off ≥ u then roundUp u A - off else roundUp u A - off + alignment := by
  obtain ⟨hsum, hround, hge, hlo, hhi⟩ := alignedNonoffset_spec hal hu hreq hfit hA
  have hA' : A ≤ alignment + 1 := by
    rw [← hA]
    split <;> omega
  have hsub : wsub w.bits (roundUp u A) off = roundUp u A - off := wsub_eq (by omega) hge
  unfold alignedAddr
  simp only [hA, wrap_eq hsum, hround, hsub]
  split
  · rfl
  · exact wrap_eq (by omega)

/-- The chosen address: not below the base, at most one alignment above it, with the
    offset aligned. -/
theorem alignedAddr_spec (hal : AlignArgs alignment off) (hu : u ≠ 0) (hreq : 0 < req)
    (hfit : u + (req + alignment + off) ≤ 2 ^ w.bits) :
    u ≤ alignedAddr w u alignment off ∧ alignedAddr w u alignment off ≤ u + alignment ∧
    (alignedAddr w u alignment off + off) % (if alignment = 0 then 1 else alignment) = 0 := by
  obtain ⟨k, hA, hcases⟩ := hal.corrected
  obtain ⟨-, -, hge, hlo, hhi⟩ := alignedNonoffset_spec hal hu hreq hfit hA
  have hoff := hal.off_le
  have hmod : roundUp u (2 ^ k) % 2 ^ k = 0 := Nat.mod_eq_zero_of_dvd dvd_roundUp
  rw [alignedAddr_eq hal hu hreq hfit hA, hA]
  split
  · next hcond =>
    refine ⟨hcond, ?_, ?_⟩
    · rcases hcases with ⟨h0, h1⟩ | h0 <;> omega
    · rw [Nat.sub_add_cancel hge, hmod]
  · next hcond =>
    rcases hcases with ⟨h0, h1⟩ | h0
    · omega
    · refine ⟨by omega, by omega, ?_⟩
      rw [show roundUp u (2 ^ k) - off + alignment + off = roundUp u (2 ^ k) + 2 ^ k by omega,
        Nat.add_mod_right, hmod]

/-- The sanity check never fires on the chosen address. -/
theorem alignedAddr_sane (hal : AlignArgs alignment off) (hu : u ≠ 0) (hreq : 0 < req)
    (hfit : u + (req + alignment + off) ≤ 2 ^ w.bits) :
    alignedFails w u (alignedAddr w u alignment off) req (req + alignment + off) alignment off =
      false := by
  obtain ⟨hlo, hhi, hmod⟩ := alignedAddr_spec hal hu hreq hfit
  have hoff := hal.off_le
  unfold alignedFails
  simp only
  rw [wrap_last (by omega) hreq (by omega), wrap_last (by omega) (by omega) hfit]
  have h3 : wrap w.bits (alignedAddr w u alignment off + off) %
      (if alignment = 0 then 1 else alignment) = 0 := by
    rcases Nat.eq_zero_or_pos alignment with h0 | h0
    · simp [h0, Nat.mod_one]
    · rw [wrap_eq (by omega), hmod]
  simp only [h3, ne_eq, not_true_eq_false, decide_false, Bool.or_false, Bool.or_eq_false_iff,
    decide_eq_false_iff_not]
  omega

/-- The bytes behind the block, from the two inclusive ends. -/
theorem unusedBack_eq {al len : Nat} (hu : u ≠ 0) (hlo : u ≤ al) (hreq : 0 < req)
    (hhi : al + req ≤ u + len) (hfit : u + len ≤ 2 ^ w.bits) :
    wsub w.bits (wrap w.bits (u + wsub w.bits len 1)) (wrap w.bits (al + wsub w.bits req 1)) =
      u + len - (al + req) := by
  rw [wrap_last (by omega) (show 0 < len by omega) hfit, wrap_last (by omega) hreq (by omega),
    wsub_eq (by omega) (by omega)]
  omega

/-- Of a range just mapped, the pages before and behind `[al, al + req)` are given back. -/
theorem osMunmap_carve {al len : Nat} (hp : SupportedPages os) (hu : u ≠ 0) (hlo : u ≤ al)
    (hreq : 0 < req) (hhi : al + req ≤ u + len) (hfit : u + len ≤ 2 ^ w.bits)
    (hdu : os.pageSize ∣ u) (hda : os.pageSize ∣ al)
    (hback : u + len = al + req ∨ os.pageSize ∣ al + req ∧ os.pageSize ∣ u + len)
    (hfree : ∀ p, os.inRange u len p = true → os.mapped p = false) :
    (if u + len - (al + req) ≠ 0 then
      osMunmap w (if al - u ≠ 0 then osMunmap w (os.map u len) u (al - u) else os.map u len)
        (wrap w.bits (al + req)) (u + len - (al + req))
      else if al - u ≠ 0 then osMunmap w (os.map u len) u (al - u) else os.map u len) =
      os.map al req := by
  have hfront := osMunmap_piece (os.map u len) hp hu hdu (Nat.dvd_sub hda hdu)
    (show al - u < 2 ^ w.bits by omega)
  rw [hfront, ← PageMap.map_carve hlo hhi hfree]
  rcases hback with heq | ⟨hdr, hdlen⟩
  · rw [if_neg (by omega), heq, Nat.sub_self, PageMap.unmap_zero]
  · by_cases hz : u + len - (al + req) = 0
    · rw [if_neg (by omega), hz, PageMap.unmap_zero]
    · rw [wrap_eq (by omega)]
      exact osMunmap_piece ((os.map u len).unmap u (al - u)) hp (by omega) hdr
        (Nat.dvd_sub hdlen hdr) (by omega)

end Aligned

/-- `os_mmap_aligned` fails and maps nothing, or maps exactly the pages of
    `[a, a + requested_length)`, all free before, with the offset aligned. -/
theorem osMmapAligned_spec {req alignment off a : Nat} {answer : Option Nat}
    (hp : SupportedPages os) (hal : AlignArgs alignment off)
    (hpage : alignment = 0 ∨ os.pageSize ∣ alignment ∧ os.pageSize ∣ off ∧ os.pageSize ∣ req)
    (hreq : 0 < req) (hfit : req + alignment + off < 2 ^ w.bits)
    (h : osMmapAligned w os req alignment off answer = (a, os')) :
    (a = 0 ∧ os' = os) ∨
    (a ≠ 0 ∧ os.pageSize ∣ a ∧ a + roundUp req os.pageSize ≤ 2 ^ w.bits ∧
      (a + off) % (if alignment = 0 then 1 else alignment) = 0 ∧
      (∀ p, os.inRange a req p = true → os.mapped p = false) ∧ os' = os.map a req) := by
  unfold osMmapAligned at h
  rw [wrap_eq hfit] at h
  rcases hm : osMmap w os (req + alignment + off) answer with ⟨u, os₁⟩
  simp only [hm] at h
  rcases osMmap_spec hp hfit hm with ⟨rfl, rfl⟩ | ⟨hu, hdu, hwu, hfree, rfl⟩
  · exact Or.inl ⟨(Prod.mk.inj h).1.symm, (Prod.mk.inj h).2.symm⟩
  have hfit' : u + (req + alignment + off) ≤ 2 ^ w.bits := by
    have := le_roundUp (x := req + alignment + off) os.pageSize_pos
    omega
  obtain ⟨hlo, hhi, hmod⟩ := alignedAddr_spec hal hu hreq hfit'
  rw [if_neg hu, alignedAddr_sane hal hu hreq hfit'] at h
  simp only [Bool.false_eq_true, if_false] at h
  generalize alignedAddr w u alignment off = al at h hlo hhi hmod
  have hoff := hal.off_le
  -- the pieces cut off are whole pages
  have hda : os.pageSize ∣ al := by
    rcases hpage with h0 | ⟨hdA, hdo, -⟩
    · rwa [show al = u by omega]
    · by_cases h0 : alignment = 0
      · rwa [show al = u by omega]
      · rw [if_neg h0] at hmod
        exact (Nat.dvd_add_left hdo).mp (Nat.dvd_trans hdA (Nat.dvd_of_mod_eq_zero hmod))
  have hpieces : u + (req + alignment + off) = al + req ∨
      os.pageSize ∣ al + req ∧ os.pageSize ∣ u + (req + alignment + off) := by
    rcases hpage with h0 | ⟨hdA, hdo, hdr⟩
    · exact .inl (by omega)
    · exact .inr ⟨Nat.dvd_add hda hdr, Nat.dvd_add hdu (Nat.dvd_add (Nat.dvd_add hdr hdA) hdo)⟩
  have hfront : wsub w.bits al u = al - u := wsub_eq (by omega) hlo
  have hback := unusedBack_eq hu hlo hreq
    (show al + req ≤ u + (req + alignment + off) by omega) hfit'
  rw [hfront, hback, osMunmap_carve hp hu hlo hreq (by omega) hfit' hdu hda hpieces hfree] at h
  obtain ⟨rfl, rfl⟩ := Prod.mk.inj h
  refine Or.inr ⟨by omega, hda, ?_, hmod, ?_, rfl⟩
  · rcases hpage with h0 | ⟨-, -, hdr⟩
    · rw [show req + alignment + off = req by omega] at hwu
      rwa [show al = u by omega]
    · rw [roundUp_of_dvd os.pageSize_pos hdr]
      omega
  · intro p hin
    apply hfree p
    rw [PageMap.inRange_iff] at hin ⊢
    omega

/-! ## The reservation of a created memory -/

/-- The length handed to `os_mmap_aligned`: the reserve length as a `size_t`. -/
def reserveLength (w : Width) (maxPages : Nat) : Nat :=
  wrap w.bits (computeHeapReserveSpace w maxPages)

theorem computeHeapReserveSpace_eq (w : Width) {maxPages : Nat} (h : maxPages < 2 ^ 32) :
    computeHeapReserveSpace w maxPages = maxPages * wasmPageSize + w.heapGuardPageSize := by
  have hg : w.heapGuardPageSize ≤ 2 ^ 32 := by cases w <;> decide
  unfold computeHeapReserveSpace
  rw [wrap_eq h, wrap_eq (x := maxPages * wasmPageSize) (by unfold wasmPageSize; omega)]
  exact wrap_eq (by unfold wasmPageSize; omega)

theorem computeHeapReserveSpace_wrap (w : Width) (maxPages : Nat) :
    computeHeapReserveSpace w maxPages = computeHeapReserveSpace w (wrap 32 maxPages) := by
  unfold computeHeapReserveSpace
  rw [wrap_eq (wrap_lt 32 maxPages)]

/-- Every reserve length is a length `osMmapAligned_spec` applies to. -/
theorem reserveLength_ok (w : Width) (maxPages : Nat) (hp : SupportedPages os) :
    0 < reserveLength w maxPages ∧ reserveLength w maxPages + w.heapAlignment + 0 < 2 ^ w.bits ∧
    (w.heapAlignment = 0 ∨ os.pageSize ∣ w.heapAlignment ∧ os.pageSize ∣ 0 ∧
      os.pageSize ∣ reserveLength w maxPages) := by
  have hlt := wrap_lt 32 maxPages
  unfold reserveLength
  rw [computeHeapReserveSpace_wrap, computeHeapReserveSpace_eq w hlt]
  generalize wrap 32 maxPages = n at hlt
  cases w
  · simp only [wrap, wasmPageSize, Width.heapGuardPageSize, Width.heapAlignment, Width.bits]
    exact ⟨by omega, by omega, Or.inl trivial⟩
  · have hw : wrap Width.w64.bits (n * wasmPageSize + Width.w64.heapGuardPageSize) =
        n * wasmPageSize + Width.w64.heapGuardPageSize :=
      wrap_eq (by simp only [wasmPageSize, Width.heapGuardPageSize, Width.bits]; omega)
    have hd16 : os.pageSize ∣ 2 ^ 16 := Nat.pow_dvd_pow 2 hp
    rw [hw]
    simp only [wasmPageSize, Width.heapGuardPageSize, Width.heapAlignment, Width.bits]
    refine ⟨by omega, by omega, Or.inr ⟨?_, Nat.dvd_zero _, ?_⟩⟩
    · exact Nat.dvd_trans hd16 (by decide)
    · exact Nat.dvd_add (Nat.dvd_trans hd16 (Dvd.intro_left n rfl)) (Nat.dvd_trans hd16 (by decide))

theorem heapAlignment_args (w : Width) : AlignArgs w.heapAlignment 0 :=
  ⟨by cases w; exacts [Or.inl rfl, Or.inr ⟨33, rfl⟩], Nat.zero_le _⟩

/-- Unmapping a whole reservation restores the map it was made in. -/
theorem osMunmap_reservation {a n : Nat} (hp : SupportedPages os) (ha : a ≠ 0) (hn : 0 < n)
    (hd : os.pageSize ∣ a) (hfit : a + roundUp n os.pageSize ≤ 2 ^ w.bits)
    (hfree : ∀ p, os.inRange a n p = true → os.mapped p = false) :
    osMunmap w (os.map a n) a n = os := by
  have hbits := two_pow_bits_le w
  have hle := le_roundUp (x := n) os.pageSize_pos
  have hround : requestSize (os.map a n) n = roundUp n os.pageSize := by
    apply requestSize_eq hp
    have := le_roundUp (x := n) os.pageSize_pos
    have h2 : n + (os.pageSize - 1) < roundUp n os.pageSize + os.pageSize := by
      have := os.pageSize_pos
      omega
    have h3 := pageSize_le hp
    have h4 : os.pageSize ≤ a := Nat.le_of_dvd (by omega) hd
    change n + (os.pageSize - 1) < 2 ^ 64
    omega
  unfold osMunmap
  rw [if_pos ha, hround, wrap_eq (by omega),
    PageMap.munmap_eq (m := os.map a n) hd (by omega)]
  exact PageMap.unmap_map hd hfree

/-- Address `a` begins a reservation that `create_wasm2c_memory` made in `os`. -/
structure Placed (w : Width) (os : PageMap) (maxPages a : Nat) : Prop where
  ne_zero : a ≠ 0
  page : os.pageSize ∣ a
  fits : a + roundUp (reserveLength w maxPages) os.pageSize ≤ 2 ^ w.bits
  aligned : w = .w64 → Width.w64.heapAlignment ∣ a
  free : ∀ p, os.inRange a (reserveLength w maxPages) p = true → os.mapped p = false

/-- The retry loop reserves nothing, or exactly the asked length, and commits its pages. -/
theorem reserveLoop_spec {maxPages byteLength a : Nat} {ans : OsAnswers} (hp : SupportedPages os) :
    ∀ (attempts i : Nat),
    reserveLoop w (computeHeapReserveSpace w maxPages) byteLength ans attempts i os = (a, os') →
    (a = 0 ∧ os' = os) ∨
    (Placed w os maxPages a ∧ os' = os.map a (reserveLength w maxPages) ∧
      ∃ range, osMmapCommit w os' a byteLength ans.mprotectOk = some range) := by
  obtain ⟨hreq, hfit, hpage⟩ := reserveLength_ok w maxPages hp
  intro attempts
  -- the attempts that fail leave the map as it was, so the hypotheses apply to each
  induction attempts with
  | zero =>
    intro i h
    exact Or.inl ⟨(Prod.mk.inj h).1.symm, (Prod.mk.inj h).2.symm⟩
  | succ n ih =>
    intro i h
    rw [reserveLoop] at h
    split at h
    · next os₁ hm =>
      rcases osMmapAligned_spec hp (heapAlignment_args w) hpage hreq hfit hm with ⟨-, rfl⟩ | ⟨h0, -⟩
      · exact ih (i + 1) h
      · exact absurd rfl h0
    · next data os₁ hm =>
      rcases osMmapAligned_spec hp (heapAlignment_args w) hpage hreq hfit hm with
        ⟨h0, -⟩ | ⟨h0, hd, hw, hmod, hfree, rfl⟩
      · exact absurd h0 (Nat.succ_ne_zero data)
      split at h
      · next hcommit =>
        obtain ⟨rfl, rfl⟩ := Prod.mk.inj h
        refine Or.inr ⟨⟨h0, hd, hw, ?_, hfree⟩, rfl, Option.isSome_iff_exists.mp hcommit⟩
        rintro rfl
        exact Nat.dvd_of_mod_eq_zero hmod
      · -- the pages could not be committed: the reservation is given back
        obtain ⟨rfl, rfl⟩ := Prod.mk.inj h
        exact Or.inl ⟨rfl, osMunmap_reservation hp h0 hreq hd hw hfree⟩

/-- `chosen_max_pages`. -/
def chosenMaxPages (w : Width) (cap : Option MemCapacity) : Nat :=
  (cap.map MemCapacity.maxPages).getD w.heapDefaultMaxPages

theorem createWasm2cMemory_eq {initialPages : Nat} {cap : Option MemCapacity} {ans : OsAnswers}
    (hvalid : ∀ c ∈ cap, c.isValid = true) :
    createWasm2cMemory w os initialPages cap ans =
      let r := reserveLoop w (computeHeapReserveSpace w (chosenMaxPages w cap))
        (wrap 32 (initialPages * wasmPageSize)) ans 10 0 os
      (⟨r.1, wasmPageSize, initialPages, chosenMaxPages w cap,
        wrap 32 (initialPages * wasmPageSize), false⟩, r.2) := by
  have hany : (cap.any fun c => !c.isValid) = false := by
    cases cap with
    | none => rfl
    | some c => simp [hvalid c rfl]
  unfold createWasm2cMemory chosenMaxPages
  rw [if_neg (by rw [hany]; exact Bool.false_ne_true)]

/-- A created memory has reserved exactly the pages of the reserve length of the
    `max_pages` it records, and committed those of its size; without one nothing is mapped. -/
theorem createWasm2cMemory_reserved {initialPages : Nat} {cap : Option MemCapacity}
    {ans : OsAnswers} {mem : WasmRtMemory} (hp : SupportedPages os)
    (h : createWasm2cMemory w os initialPages cap ans = (mem, os')) :
    (mem.data = 0 ∧ os' = os) ∨
    (Placed w os mem.maxPages mem.data ∧ os' = os.map mem.data (reserveLength w mem.maxPages) ∧
      mem.maxPages = chosenMaxPages w cap ∧ mem.pages = initialPages ∧
      mem.size = wrap 32 (initialPages * wasmPageSize) ∧
      ∃ range, osMmapCommit w os' mem.data mem.size ans.mprotectOk = some range) := by
  by_cases hvalid : ∀ c ∈ cap, c.isValid = true
  · rw [createWasm2cMemory_eq hvalid] at h
    obtain ⟨rfl, rfl⟩ := Prod.mk.inj h
    rcases reserveLoop_spec hp 10 0 (Prod.eta _).symm with ⟨h0, hos⟩ | ⟨hplaced, hos, hcommit⟩
    · exact Or.inl ⟨h0, hos⟩
    · exact Or.inr ⟨hplaced, hos, rfl, rfl, rfl, hcommit⟩
  · push Not at hvalid
    obtain ⟨c, hc, hinvalid⟩ := hvalid
    unfold createWasm2cMemory at h
    rw [Option.mem_def.mp hc, Option.any_some, if_pos (by simpa using hinvalid)] at h
    obtain ⟨rfl, rfl⟩ := Prod.mk.inj h
    exact Or.inl ⟨rfl, rfl⟩

/-- A mapping that the system grants is made. -/
theorem osMmap_granted {size u : Nat} (hp : SupportedPages os)
    (hgrant : os.grants w.bits (roundUp size os.pageSize) u = true)
    (hlimit : roundUp size os.pageSize ≤ 0x400000000) :
    osMmap w os size (some u) = (u, os.map u (roundUp size os.pageSize)) := by
  have hround := le_roundUp (x := size) os.pageSize_pos
  have hlt : roundUp size os.pageSize < 2 ^ w.bits := by
    have hg := hgrant
    simp only [PageMap.grants, Bool.and_eq_true, bne_iff_ne, decide_eq_true_eq] at hg
    omega
  have hpage := pageSize_le hp
  unfold osMmap
  rw [requestSize_eq hp (by omega), wrap_eq hlt, if_neg (Nat.not_lt_of_ge hround),
    if_neg (Nat.not_lt_of_ge hlimit)]
  unfold PageMap.mmap
  simp only [hgrant, if_true]

/-- The first reservation whose pages can be committed ends the loop. -/
theorem reserveLoop_first {heapReserveSize byteLength data attempts i : Nat} {ans : OsAnswers}
    (hdata : data ≠ 0) (hok : ans.mprotectOk = true)
    (h : osMmapAligned w os (wrap w.bits heapReserveSize) w.heapAlignment 0 (ans.mmapAnswer i) =
      (data, os')) :
    reserveLoop w heapReserveSize byteLength ans (attempts + 1) i os = (data, os') := by
  rw [reserveLoop, h]
  cases data with
  | zero => exact absurd rfl hdata
  | succ data =>
    dsimp only
    rw [osMmapCommit, if_neg hdata, hok]
    rfl

/-- Where the system maps the padded length and commits the pages, the memory is made, at the
    aligned address. -/
theorem createWasm2cMemory_granted {initialPages u : Nat} {cap : Option MemCapacity}
    {ans : OsAnswers} (hp : SupportedPages os) (hvalid : ∀ c ∈ cap, c.isValid = true)
    (hanswer : ans.mmapAnswer 0 = some u) (hok : ans.mprotectOk = true)
    (hgrant : os.grants w.bits
      (roundUp (reserveLength w (chosenMaxPages w cap) + w.heapAlignment + 0) os.pageSize) u = true)
    (hlimit : roundUp (reserveLength w (chosenMaxPages w cap) + w.heapAlignment + 0) os.pageSize ≤
      0x400000000) :
    (createWasm2cMemory w os initialPages cap ans).1 =
      ⟨alignedAddr w u w.heapAlignment 0, wasmPageSize, initialPages, chosenMaxPages w cap,
        wrap 32 (initialPages * wasmPageSize), false⟩ := by
  obtain ⟨hreq, hfit, -⟩ := reserveLength_ok w (chosenMaxPages w cap) hp
  have hrange := hgrant
  simp only [PageMap.grants, Bool.and_eq_true, bne_iff_ne, decide_eq_true_eq] at hrange
  obtain ⟨⟨⟨⟨hu, -⟩, -⟩, hend⟩, -⟩ := hrange
  have hround := le_roundUp (x := reserveLength w (chosenMaxPages w cap) + w.heapAlignment + 0)
    os.pageSize_pos
  have halign := heapAlignment_args w
  obtain ⟨hlo, -, -⟩ := alignedAddr_spec (w := w) halign hu hreq (by omega)
  have hmapped : ∃ os', osMmapAligned w os (reserveLength w (chosenMaxPages w cap))
      w.heapAlignment 0 (some u) = (alignedAddr w u w.heapAlignment 0, os') := by
    unfold osMmapAligned
    rw [wrap_eq hfit]
    dsimp only
    rw [osMmap_granted hp hgrant hlimit]
    dsimp only
    rw [if_neg hu, alignedAddr_sane halign hu hreq (by omega)]
    exact ⟨_, rfl⟩
  obtain ⟨os', hos'⟩ := hmapped
  rw [← hanswer] at hos'
  rw [createWasm2cMemory_eq hvalid, reserveLoop_first (by omega) hok hos']

/-! ## The promised capacity -/

/-- The converted length covers the pages and the guard exactly when it did not wrap:
    a wrapped length never reaches the end of the address space by page rounding. -/
theorem reserveLength_covers_iff {maxPages : Nat} (h : maxPages < 2 ^ 32)
    (hp : SupportedPages os) :
    maxPages * wasmPageSize + w.heapGuardPageSize ≤ roundUp (reserveLength w maxPages) os.pageSize ↔
      maxPages * wasmPageSize + w.heapGuardPageSize < 2 ^ w.bits := by
  unfold reserveLength
  rw [computeHeapReserveSpace_eq w h]
  constructor
  · intro hle
    by_contra hc
    have hround := roundUp_le os.pageSize_pos
      (Nat.le_of_lt (wrap_lt w.bits (maxPages * wasmPageSize + w.heapGuardPageSize)))
      (pageSize_dvd_bits (w := w) hp)
    cases w
    · -- the sum is 4096 modulo 65536, so it is not 2^32 itself
      simp only [wasmPageSize, Width.heapGuardPageSize, Width.bits] at hc hle hround
      omega
    · simp only [wasmPageSize, Width.heapGuardPageSize, Width.bits] at hc
      omega
  · intro hlt
    rw [wrap_eq hlt]
    exact le_roundUp os.pageSize_pos

theorem defaultCapacity_eq (w : Width) :
    wrap 64 (w.heapDefaultMaxPages * wasmPageSize) = w.heapDefaultMaxPages * wasmPageSize := by
  cases w <;> decide

section Capacity
variable {minCapacity : Nat}

theorem getValid_default (h : minCapacity ≤ w.heapDefaultMaxPages * wasmPageSize) :
    getValidWasm2cMemoryCapacity w minCapacity true =
      ⟨true, true, w.heapDefaultMaxPages, w.heapDefaultMaxPages * wasmPageSize⟩ := by
  simp only [getValidWasm2cMemoryCapacity, defaultCapacity_eq, Bool.not_true, Bool.false_eq_true,
    if_false, if_pos h]

/-- Only a 32-bit host divides: the default of a 64-bit host is all that 32 bits can ask for. -/
theorem w32_of_above (h : w.heapDefaultMaxPages * wasmPageSize < minCapacity)
    (hle : minCapacity ≤ 2 ^ 32 - 1) : w = .w32 := by
  cases w
  · rfl
  · simp only [Width.heapDefaultMaxPages, wasmPageSize] at h
    omega

/-- A request above the default that fits 32 bits is divided by one less than the page size. -/
theorem getValid_above (h : w.heapDefaultMaxPages * wasmPageSize < minCapacity)
    (hle : minCapacity ≤ 2 ^ 32 - 1) :
    getValidWasm2cMemoryCapacity w minCapacity true =
      ⟨true, true, (minCapacity - 1) / (wasmPageSize - 1) + 1,
        ((minCapacity - 1) / (wasmPageSize - 1) + 1) * wasmPageSize⟩ := by
  have hsize : ((minCapacity - 1) / (wasmPageSize - 1) + 1) * wasmPageSize < 2 ^ 64 := by
    unfold wasmPageSize
    omega
  simp only [getValidWasm2cMemoryCapacity, defaultCapacity_eq, Bool.not_true, Bool.false_eq_true,
    if_false, if_neg (Nat.not_le.mpr h), if_neg (Nat.not_lt.mpr hle), wrap_eq hsize]

theorem getValid_refused (h : w.heapDefaultMaxPages * wasmPageSize < minCapacity)
    (hlt : 2 ^ 32 - 1 < minCapacity) :
    getValidWasm2cMemoryCapacity w minCapacity true = ⟨false, false, 0, 0⟩ := by
  simp only [getValidWasm2cMemoryCapacity, defaultCapacity_eq, Bool.not_true, Bool.false_eq_true,
    if_false, if_neg (Nat.not_le.mpr h), if_pos hlt]

/-- A valid capacity is the default one, or the page count of a request above it. -/
theorem getValid_cases
    (hv : (getValidWasm2cMemoryCapacity w minCapacity true).isValid = true) :
    (minCapacity ≤ w.heapDefaultMaxPages * wasmPageSize ∧
      (getValidWasm2cMemoryCapacity w minCapacity true).maxPages = w.heapDefaultMaxPages) ∨
    (w.heapDefaultMaxPages * wasmPageSize < minCapacity ∧ minCapacity ≤ 2 ^ 32 - 1 ∧
      (getValidWasm2cMemoryCapacity w minCapacity true).maxPages =
        (minCapacity - 1) / (wasmPageSize - 1) + 1) := by
  rcases Nat.lt_or_ge (w.heapDefaultMaxPages * wasmPageSize) minCapacity with hgt | hle
  · rcases Nat.lt_or_ge (2 ^ 32 - 1) minCapacity with hout | hfits
    · rw [getValid_refused hgt hout] at hv
      cases hv
    · exact Or.inr ⟨hgt, hfits, by rw [getValid_above hgt hfits]⟩
  · exact Or.inl ⟨hle, by rw [getValid_default hle]⟩

/-- The page counts of valid capacities. -/
theorem getValid_maxPages
    (hv : (getValidWasm2cMemoryCapacity w minCapacity true).isValid = true) :
    (getValidWasm2cMemoryCapacity w minCapacity true).maxPages < 2 ^ 32 ∧
    ((getValidWasm2cMemoryCapacity w minCapacity true).maxPages * wasmPageSize +
      w.heapGuardPageSize < 2 ^ w.bits ↔ w = .w64 ∨ minCapacity ≤ 65535 * 65535) := by
  rcases getValid_cases hv with ⟨hle, hm⟩ | ⟨hgt, hle, hm⟩
  · rw [hm]
    cases w
    · simp only [Width.heapDefaultMaxPages, wasmPageSize] at hle
      exact ⟨by decide, iff_of_true (by decide) (Or.inr (by omega))⟩
    · exact ⟨by decide, iff_of_true (by decide) (Or.inl rfl)⟩
  · obtain rfl := w32_of_above hgt hle
    rw [hm]
    simp only [Width.heapGuardPageSize, Width.bits, wasmPageSize, reduceCtorEq, false_or]
    exact ⟨by omega, by omega⟩

end Capacity

/-- For a valid capacity, a created memory reserves its `max_pages` and the guard
    from the system exactly when the host has 64-bit pointers or the requested
    capacity is at most 65535². -/
theorem reservation_covers_iff (w : Width) (os : PageMap) (hp : SupportedPages os)
    (minCapacity : Nat)
    (hv : (getValidWasm2cMemoryCapacity w minCapacity true).isValid = true)
    (initialPages : Nat) (ans : OsAnswers)
    (hdata : (createWasm2cMemory w os initialPages
      (some (getValidWasm2cMemoryCapacity w minCapacity true)) ans).1.data ≠ 0) :
    let r := createWasm2cMemory w os initialPages
      (some (getValidWasm2cMemoryCapacity w minCapacity true)) ans
    os.Reserved r.2 r.1.data (r.1.maxPages * wasmPageSize + w.heapGuardPageSize) ↔
      w = .w64 ∨ minCapacity ≤ 65535 * 65535 := by
  intro r
  obtain ⟨hmax, hiff⟩ := getValid_maxPages hv
  have hr : r = (r.1, r.2) := rfl
  rcases createWasm2cMemory_reserved hp hr with ⟨h0, -⟩ | ⟨⟨-, hd, -, -, hfree⟩, hos, hm, -⟩
  · exact absurd h0 hdata
  have hm' : r.1.maxPages = (getValidWasm2cMemoryCapacity w minCapacity true).maxPages := hm
  rw [hos, PageMap.reserved_map_iff hd hfree, hm', reserveLength_covers_iff hmax hp]
  exact hiff

/-- A process with nothing mapped and 64 KiB pages. -/
def noPages : PageMap := ⟨16, fun _ => false⟩

theorem noPages_supported : SupportedPages noPages := Nat.le_refl 16

theorem noPages_free (lo len : Nat) : noPages.free lo len = true := by
  simp [PageMap.free, noPages]

/-- A system that maps at the second page and commits. -/
def grantSecondPage : OsAnswers := ⟨fun _ => some 65536, true⟩

/-- The default capacity of a 32-bit host is reserved in full. -/
theorem default_capacity_reserved :
    noPages.Reserved
      (createWasm2cMemory .w32 noPages 1
        (some (getValidWasm2cMemoryCapacity .w32 0 true)) grantSecondPage).2
      (createWasm2cMemory .w32 noPages 1
        (some (getValidWasm2cMemoryCapacity .w32 0 true)) grantSecondPage).1.data
      ((createWasm2cMemory .w32 noPages 1
        (some (getValidWasm2cMemoryCapacity .w32 0 true)) grantSecondPage).1.maxPages *
        wasmPageSize + Width.w32.heapGuardPageSize) :=
  (reservation_covers_iff .w32 noPages noPages_supported 0 (by decide) 1 grantSecondPage
    (by decide +kernel)).mpr (Or.inr (by decide))

/-- The least failing request: 65536 pages are recorded, one 4096 byte guard reserved. -/
theorem capacity_above_not_reserved :
    (getValidWasm2cMemoryCapacity .w32 4294836226 true).isValid = true ∧
    (createWasm2cMemory .w32 noPages 1
      (some (getValidWasm2cMemoryCapacity .w32 4294836226 true)) grantSecondPage).1.data ≠ 0 ∧
    ¬ noPages.Reserved
      (createWasm2cMemory .w32 noPages 1
        (some (getValidWasm2cMemoryCapacity .w32 4294836226 true)) grantSecondPage).2
      (createWasm2cMemory .w32 noPages 1
        (some (getValidWasm2cMemoryCapacity .w32 4294836226 true)) grantSecondPage).1.data
      ((createWasm2cMemory .w32 noPages 1
        (some (getValidWasm2cMemoryCapacity .w32 4294836226 true)) grantSecondPage).1.maxPages *
        wasmPageSize + Width.w32.heapGuardPageSize) := by
  refine ⟨by decide, by decide +kernel, ?_⟩
  intro h
  -- the second 64 KiB page after the base
  have hx := h 131072 (by decide +kernel) (by decide +kernel)
  exact absurd hx.2 (by decide +kernel)

end RlboxWasm2c

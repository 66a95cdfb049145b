import RlboxWasm2c.Reservation

/- The descriptor that `create_wasm2c_memory` returns: when its fields describe the memory
   that was made.

   `byte_length` is a product in `uint32_t`, while the page count is kept as it was given;
   the maximum comes from the capacity or the platform, and nothing compares the two.
   `descriptor_consistent_iff` says for which page counts that does no harm. -/
namespace RlboxWasm2c
open Words Pages

/-- A capacity that `get_valid_wasm2c_memory_capacity` returns as valid. -/
structure ValidCapacity (w : Width) (c : MemCapacity) : Prop where
  valid : c.isValid = true
  returned : ∃ minCapacity isMem32, c = getValidWasm2cMemoryCapacity w minCapacity isMem32

/-- A memory made for `initialPages` in `os`, which is `os'` afterwards: the size is that of
    the pages, they are within the maximum, and the range committed lies inside the first
    `max_pages` pages of what was reserved. -/
structure ConsistentDescriptor (w : Width) (os os' : PageMap) (initialPages : Nat)
    (ans : OsAnswers) (mem : WasmRtMemory) : Prop where
  size : mem.size = mem.pages * wasmPageSize
  pages : mem.pages = initialPages
  le_max : mem.pages ≤ mem.maxPages
  committed : osMmapCommit w os' mem.data mem.size ans.mprotectOk =
    some (mem.data, roundUp mem.size os.pageSize)
  inside : roundUp mem.size os.pageSize ≤ mem.maxPages * wasmPageSize
  reserved : os.Reserved os' mem.data (roundUp mem.size os.pageSize)

/-- The page count fits the 32-bit byte length and the chosen maximum; and where that is the
    whole of a 32-bit address space, what is left of the reserve length is enough. -/
def PagesFit (w : Width) (os : PageMap) (initialPages maxPages : Nat) : Prop :=
  initialPages < 65536 ∧ initialPages ≤ maxPages ∧
  (w = .w64 ∨ maxPages < 65536 ∨
    initialPages * wasmPageSize ≤
      roundUp ((maxPages - 65536) * wasmPageSize + w.heapGuardPageSize) os.pageSize)

section descriptor
variable {w : Width} {os os' : PageMap}

/-- The page counts of valid capacities, and of none. -/
theorem chosenMaxPages_le {cap : Option MemCapacity} (hcap : ∀ c ∈ cap, ValidCapacity w c) :
    chosenMaxPages w cap ≤ 65537 ∧ (w = .w64 → chosenMaxPages w cap ≤ 65536) := by
  cases cap with
  | none =>
    change w.heapDefaultMaxPages ≤ 65537 ∧ (w = .w64 → w.heapDefaultMaxPages ≤ 65536)
    cases w <;> decide
  | some c =>
    obtain ⟨hvalid, minCapacity, isMem32, rfl⟩ := hcap c rfl
    change (getValidWasm2cMemoryCapacity w minCapacity isMem32).maxPages ≤ 65537 ∧
      (w = .w64 → (getValidWasm2cMemoryCapacity w minCapacity isMem32).maxPages ≤ 65536)
    cases isMem32 with
    | false => cases hvalid
    | true =>
      rcases getValid_cases hvalid with ⟨-, hmax⟩ | ⟨hgt, hle, hmax⟩
      · rw [hmax]
        cases w <;> decide
      · obtain rfl := w32_of_above hgt hle
        rw [hmax]
        simp only [wasmPageSize]
        exact ⟨by omega, by rintro ⟨⟩⟩

/-- The length reserved for a maximum of at most 65537 pages. -/
theorem reserveLength_eq {maxPages : Nat} (hmax : maxPages ≤ 65537) :
    reserveLength w maxPages =
      if w = .w64 ∨ maxPages < 65536 then maxPages * wasmPageSize + w.heapGuardPageSize
      else (maxPages - 65536) * wasmPageSize + w.heapGuardPageSize := by
  unfold reserveLength
  rw [computeHeapReserveSpace_eq w (by omega)]
  cases w
  · simp only [wrap, wasmPageSize, Width.heapGuardPageSize, Width.bits, reduceCtorEq, false_or]
    split <;> omega
  · rw [if_pos (.inl rfl)]
    apply wrap_eq
    simp only [wasmPageSize, Width.heapGuardPageSize, Width.bits]
    omega

/-- The committed range is in the reservation exactly when what is reserved covers it. -/
theorem committed_reserved_iff {initialPages maxPages : Nat}
    (hle : initialPages ≤ maxPages) (hmax : maxPages ≤ 65537) :
    initialPages * wasmPageSize ≤ roundUp (reserveLength w maxPages) os.pageSize ↔
      (w = .w64 ∨ maxPages < 65536 ∨
        initialPages * wasmPageSize ≤
          roundUp ((maxPages - 65536) * wasmPageSize + w.heapGuardPageSize) os.pageSize) := by
  rw [reserveLength_eq hmax, ← or_assoc]
  by_cases hcover : w = .w64 ∨ maxPages < 65536
  · rw [if_pos hcover]
    refine iff_of_true ?_ (.inl hcover)
    calc initialPages * wasmPageSize
        ≤ maxPages * wasmPageSize := Nat.mul_le_mul_right _ hle
      _ ≤ maxPages * wasmPageSize + w.heapGuardPageSize := Nat.le_add_right ..
      _ ≤ _ := le_roundUp os.pageSize_pos
  · rw [if_neg hcover, or_iff_right hcover]

/-- The size is whole pages of the system, whether the product wrapped or not. -/
theorem roundUp_byteLength (hp : SupportedPages os) (initialPages : Nat) :
    roundUp (wrap 32 (initialPages * wasmPageSize)) os.pageSize =
      wrap 32 (initialPages * wasmPageSize) := by
  apply roundUp_of_dvd os.pageSize_pos
  have hpage : os.pageSize ∣ wasmPageSize := Nat.pow_dvd_pow 2 hp
  refine Nat.dvd_trans hpage ((Nat.dvd_mod_iff ?_).mpr (Dvd.intro_left _ rfl))
  decide

/-- A range that is committed is committed in full: its length does not wrap. -/
theorem osMmapCommit_eq {addr size : Nat} {ok : Bool} {range : Nat × Nat}
    (hp : SupportedPages os) (haddr : addr ≠ 0) (hsize : size < 2 ^ 32)
    (hround : roundUp size os.pageSize = size)
    (h : osMmapCommit w os addr size ok = some range) : range = (addr, size) := by
  have hpage := pageSize_le hp
  have hbits := Nat.pow_le_pow_right (n := 2) (by decide) w.le_bits
  unfold osMmapCommit at h
  rw [if_neg haddr, requestSize_eq hp (by omega), hround, wrap_eq (by omega)] at h
  split at h
  · exact (Option.some.inj h).symm
  · cases h

end descriptor

/-- A memory that was made has a consistent descriptor if and only if its page count is
    below 65536 and at most the chosen maximum, and, for a capacity of 65536 pages or more
    on a 32-bit host, within what is reserved for it. -/
theorem descriptor_consistent_iff (w : Width) (os : PageMap) (hp : SupportedPages os)
    (initialPages : Nat) (hinitial : initialPages ≤ 65536) (cap : Option MemCapacity)
    (hcap : ∀ c ∈ cap, ValidCapacity w c) (ans : OsAnswers)
    (hdata : (createWasm2cMemory w os initialPages cap ans).1.data ≠ 0) :
    let r := createWasm2cMemory w os initialPages cap ans
    ConsistentDescriptor w os r.2 initialPages ans r.1 ↔
      PagesFit w os initialPages (chosenMaxPages w cap) := by
  intro r
  have hr : r = (r.1, r.2) := rfl
  obtain ⟨hmaxle, -⟩ := chosenMaxPages_le hcap
  rcases createWasm2cMemory_reserved hp hr with
    ⟨h0, -⟩ | ⟨hplaced, hos, hmax, hpages, hsize, range, hcommit⟩
  · exact absurd h0 hdata
  have hround : roundUp r.1.size os.pageSize = r.1.size := by
    rw [hsize]
    exact roundUp_byteLength hp initialPages
  have hlt : r.1.size < 2 ^ 32 := hsize ▸ wrap_lt ..
  have hreserved : ∀ n, os.Reserved r.2 r.1.data n ↔
      n ≤ roundUp (reserveLength w (chosenMaxPages w cap)) os.pageSize := by
    intro n
    rw [hos, PageMap.reserved_map_iff hplaced.page hplaced.free, hmax]
  constructor
  · intro h
    -- the size is below 2^32, so the pages are below 65536 and the product did not wrap
    have hbytes : r.1.size = initialPages * wasmPageSize := by rw [h.size, hpages]
    have hfit : initialPages < 65536 := by
      rw [hbytes] at hlt
      unfold wasmPageSize at hlt
      omega
    have hle : initialPages ≤ chosenMaxPages w cap := by
      have hle := h.le_max
      rwa [hpages, hmax] at hle
    refine ⟨hfit, hle, (committed_reserved_iff hle hmaxle).mp ?_⟩
    have hcovered := (hreserved _).mp h.reserved
    rwa [hround, hbytes] at hcovered
  · rintro ⟨hfit, hle, hcovered⟩
    have hbytes : r.1.size = initialPages * wasmPageSize := by
      rw [hsize]
      apply wrap_eq
      unfold wasmPageSize
      omega
    have hpage : SupportedPages r.2 := by
      rw [hos]
      exact hp
    have hpageSize : r.2.pageSize = os.pageSize := by rw [hos, PageMap.map_pageSize]
    exact {
      size := by rw [hbytes, hpages]
      pages := hpages
      le_max := by rwa [hpages, hmax]
      committed := by
        rw [hcommit, hround]
        exact congrArg some
          (osMmapCommit_eq hpage hplaced.ne_zero hlt (by rwa [hpageSize]) hcommit)
      inside := by
        rw [hround, hbytes, hmax]
        exact Nat.mul_le_mul_right _ hle
      reserved := by
        rw [hreserved, hround, hbytes]
        exact (committed_reserved_iff hle hmaxle).mpr hcovered }

/-- A system that maps at `a` and commits. -/
def grantAt (a : Nat) : OsAnswers := ⟨fun _ => some a, true⟩

/-- The memory of a 64-bit host with nothing else mapped. -/
theorem createWasm2cMemory_noPages {a : Nat} (ha : a ≠ 0 ∧ 65536 ∣ a ∧ a + 2 ^ 34 ≤ 2 ^ 64)
    (initialPages : Nat) :
    (createWasm2cMemory .w64 noPages initialPages none (grantAt a)).1 =
      ⟨alignedAddr .w64 a (2 ^ 33) 0, wasmPageSize, initialPages, 65536,
        wrap 32 (initialPages * wasmPageSize), false⟩ := by
  have hnone : ∀ c ∈ (none : Option MemCapacity), c.isValid = true := by rintro c ⟨⟩
  have hpadded : roundUp (reserveLength .w64 (chosenMaxPages .w64 none) +
      Width.w64.heapAlignment + 0) noPages.pageSize = 2 ^ 34 := by decide
  have hgrant : noPages.grants Width.w64.bits (roundUp (reserveLength .w64
      (chosenMaxPages .w64 none) + Width.w64.heapAlignment + 0) noPages.pageSize) a = true := by
    rw [hpadded, PageMap.grants, noPages_free]
    have hpage : noPages.pageSize = 65536 := rfl
    rw [hpage]
    obtain ⟨h0, hdvd, hend⟩ := ha
    simp only [h0, hdvd, Width.bits, bne_iff_ne, ne_eq, not_false_eq_true, decide_true,
      Bool.and_true, Bool.and_eq_true]
    exact ⟨⟨trivial, by decide⟩, decide_eq_true hend⟩
  exact createWasm2cMemory_granted noPages_supported hnone rfl rfl hgrant (by decide)

/-- One page of the default 256 on a 32-bit host. -/
theorem one_page_consistent :
    ConsistentDescriptor .w32 noPages (createWasm2cMemory .w32 noPages 1 none grantSecondPage).2 1
      grantSecondPage (createWasm2cMemory .w32 noPages 1 none grantSecondPage).1 :=
  (descriptor_consistent_iff .w32 noPages noPages_supported 1 (by decide) none
    (by rintro c ⟨⟩) grantSecondPage (by decide +kernel)).mpr
    ⟨by decide, by decide, .inr (.inl (by decide))⟩

/-- 65536 pages, the wasm32 limit: the byte length wraps to 0. And 257 pages on a 32-bit
    host: one more than the default maximum. -/
theorem descriptor_not_consistent :
    ((createWasm2cMemory .w64 noPages 65536 none (grantAt (2 ^ 33))).1 =
        ⟨2 ^ 33, wasmPageSize, 65536, 65536, 0, false⟩ ∧
      ¬ConsistentDescriptor .w64 noPages
        (createWasm2cMemory .w64 noPages 65536 none (grantAt (2 ^ 33))).2 65536
        (grantAt (2 ^ 33)) (createWasm2cMemory .w64 noPages 65536 none (grantAt (2 ^ 33))).1) ∧
    ((createWasm2cMemory .w32 noPages 257 none grantSecondPage).1 =
        ⟨65536, wasmPageSize, 257, 256, 257 * wasmPageSize, false⟩ ∧
      ¬ConsistentDescriptor .w32 noPages
        (createWasm2cMemory .w32 noPages 257 none grantSecondPage).2
        257 grantSecondPage (createWasm2cMemory .w32 noPages 257 none grantSecondPage).1) := by
  have hmade : (createWasm2cMemory .w64 noPages 65536 none (grantAt (2 ^ 33))).1 =
      ⟨2 ^ 33, wasmPageSize, 65536, 65536, 0, false⟩ :=
    (createWasm2cMemory_noPages (by decide) 65536).trans (by decide)
  refine ⟨⟨hmade, ?_⟩, by decide +kernel, ?_⟩
  · intro h
    have hsize := h.size
    rw [hmade] at hsize
    exact absurd hsize (by decide)
  · intro h
    exact absurd h.le_max (by decide +kernel)

end RlboxWasm2c

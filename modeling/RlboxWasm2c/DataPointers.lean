import RlboxWasm2c.Descriptor
import RlboxWasm2c.Invocation

/- Data pointers into and out of a sandbox, in the four configurations: pointer width, and
   whether the module imports its memory.

   With an imported memory on a 64-bit host the conversions without a context mask the
   address instead of subtracting the heap base. `data_pointers_agree`: all of them are one
   mapping, as `create_wasm2c_memory` places such a heap on a multiple of 8 GiB.
   `same_sandbox_iff`: the comparison of the upper halves of two addresses tells whether
   they are in the same sandbox, as the 4 GiB from the heap base on are always reserved.

   Correspondence (C++ ↔ Lean):
     `impl_get_unsandboxed_pointer<T>`,
     `impl_get_sandboxed_pointer<T>`, where T
     is not a function type                  ↔ `implGetUnsandboxedDataPointer`,
                                               `implGetSandboxedDataPointer`
     the same with `_no_ctx`                 ↔ the same with `NoCtx`
     `impl_is_in_same_sandbox`,
     `impl_is_pointer_in_sandbox_memory`,
     `impl_get_total_memory`                 ↔ the same in camel case
   Addresses are naturals below `2^w.bits`; `none` is the use of a null sandbox. -/
namespace RlboxWasm2c
open Words Pages
open MinWasi (Memory)

/-- What the header selects its code by. -/
structure Config where
  width : Width
  isImportedMemoryAndTable : Bool
  deriving DecidableEq

/-- `is_imported_memory_and_table && sizeof(uintptr_t) != sizeof(uint32_t)`: "we can assume
    that the heap is aligned". -/
def Config.heapAligned (c : Config) : Bool :=
  c.isImportedMemoryAndTable && decide (c.width ≠ .w32)

/-- `heap_base` and `sandbox_memory_info->size` of a sandbox. -/
structure Heap where
  heapBase : Nat
  size : Nat
  deriving DecidableEq

/-- The bytes of the memory. -/
def Heap.contains (h : Heap) (q : Nat) : Prop := h.heapBase ≤ q ∧ q < h.heapBase + h.size

def implGetTotalMemory (w : Width) (h : Heap) : Nat := wrap w.bits h.size

def implIsPointerInSandboxMemory (w : Width) (h : Heap) (p : Nat) : Bool :=
  decide (p ≥ h.heapBase) && decide (p < wrap w.bits (h.heapBase + implGetTotalMemory w h))

/-- "In 32-bit environments, this must be checked." -/
def implGetUnsandboxedDataPointer (w : Width) (h : Heap) (p : Nat) : Except DynamicCheck HostPtr :=
  let ret := wrap w.bits (h.heapBase + p)
  if w = .w32 ∧ implIsPointerInSandboxMemory w h ret = false then .error .invalidPointer
  else .ok ret

def implGetSandboxedDataPointer (c : Config) (h : Heap) (p : Nat) : Nat :=
  if c.heapAligned then wrap 32 p else wrap 32 (wsub c.width.bits p h.heapBase)

/-- `std::numeric_limits<uintptr_t>::max() & ~std::numeric_limits<T_PointerType>::max()`. -/
def heapBaseMask (w : Width) : Nat := andNot w.bits (2 ^ w.bits - 1) (2 ^ 32 - 1)

section nocontext
variable (c : Config) (heaps : SandboxId → Heap)
  (expensiveSandboxFinder : HostPtr → Option SandboxId)

def implGetUnsandboxedDataPointerNoCtx (p : Nat) (exampleUnsandboxedPtr : HostPtr) :
    Option (Except DynamicCheck HostPtr) :=
  if c.heapAligned then some (.ok ((exampleUnsandboxedPtr &&& heapBaseMask c.width) ||| p))
  else (expensiveSandboxFinder exampleUnsandboxedPtr).map fun S =>
    implGetUnsandboxedDataPointer c.width (heaps S) p

def implGetSandboxedDataPointerNoCtx (p exampleUnsandboxedPtr : HostPtr) : Option Nat :=
  if c.heapAligned then some (wrap 32 (p &&& (2 ^ 32 - 1)))
  else (expensiveSandboxFinder exampleUnsandboxedPtr).map fun S =>
    implGetSandboxedDataPointer c (heaps S) p

def implIsInSameSandbox (p1 p2 : HostPtr) : Bool :=
  if p1 = nullptr ∨ p2 = nullptr then true
  else if c.heapAligned then decide (p1 &&& heapBaseMask c.width = p2 &&& heapBaseMask c.width)
  else decide (expensiveSandboxFinder p1 = expensiveSandboxFinder p2)

end nocontext

/-! ## Heaps -/

/-- The heap of a memory that `create_wasm2c_memory` made with capacity `cap`. -/
def MadeWith (w : Width) (cap : Option MemCapacity) (h : Heap) : Prop :=
  h.heapBase ≠ nullptr ∧ ∃ os initialPages ans, SupportedPages os ∧
    (createWasm2cMemory w os initialPages cap ans).1.data = h.heapBase

section heaps
variable {w : Width} {c : Config} {cap : Option MemCapacity} {h : Heap}

theorem MadeWith.placed (hmade : MadeWith w cap h) :
    ∃ os, SupportedPages os ∧ Placed w os (chosenMaxPages w cap) h.heapBase := by
  obtain ⟨hbase, os, initialPages, ans, hp, hdata⟩ := hmade
  have hcreated : createWasm2cMemory w os initialPages cap ans =
      ((createWasm2cMemory w os initialPages cap ans).1,
        (createWasm2cMemory w os initialPages cap ans).2) := rfl
  rcases createWasm2cMemory_reserved hp hcreated with ⟨h0, -⟩ | ⟨hplaced, -, hmax, -⟩
  · exact absurd (hdata.symm.trans h0) hbase
  · rw [hdata, hmax] at hplaced
    exact ⟨os, hp, hplaced⟩

/-- A heap on a 64-bit host is aligned to more than the 4 GiB a guest pointer can address. -/
theorem MadeWith.aligned (hmade : MadeWith .w64 cap h) : 2 ^ 32 ∣ h.heapBase := by
  obtain ⟨os, -, hplaced⟩ := hmade.placed
  exact Nat.dvd_trans (by decide) (hplaced.aligned rfl)

/-- A sandbox in use: a wasm32 memory whose host range does not wrap, placed by
    `create_wasm2c_memory` where the code relies on it. -/
structure LiveHeap (c : Config) (h : Heap) : Prop where
  size_le : h.size ≤ 2 ^ 32
  noWrap : h.heapBase + h.size < 2 ^ c.width.bits
  made : c.heapAligned = true → ∃ cap, MadeWith c.width cap h

theorem Config.width_of_heapAligned (hc : c.heapAligned = true) : c.width = .w64 := by
  unfold Config.heapAligned at hc
  cases hw : c.width with
  | w32 => simp [hw] at hc
  | w64 => rfl

theorem LiveHeap.aligned (hlive : LiveHeap c h) (hc : c.heapAligned = true) :
    2 ^ 32 ∣ h.heapBase := by
  obtain ⟨cap, hmade⟩ := hlive.made hc
  rw [Config.width_of_heapAligned hc] at hmade
  exact hmade.aligned

/-- The upper half of an address in the 4 GiB from an aligned base on. -/
theorem high_of_aligned {base x : Nat} (hbase : 2 ^ 32 ∣ base) (hlo : base ≤ x)
    (hhi : x < base + 2 ^ 32) : x / 2 ^ 32 * 2 ^ 32 = base := by
  obtain ⟨k, rfl⟩ := hbase
  have hdiv : x / 2 ^ 32 = k := by omega
  rw [hdiv, Nat.mul_comm]

theorem and_heapBaseMask (w : Width) {x : Nat} (hx : x < 2 ^ w.bits) :
    x &&& heapBaseMask w = x / 2 ^ 32 * 2 ^ 32 := and_highMask w.le_bits hx

end heaps

/-! ## One mapping -/

section conversions
variable {c : Config} {h : Heap} {p q : Nat}

theorem implIsPointerInSandboxMemory_iff (hlive : LiveHeap c h) :
    implIsPointerInSandboxMemory c.width h q = true ↔ h.contains q := by
  have hnowrap := hlive.noWrap
  unfold implIsPointerInSandboxMemory implGetTotalMemory Heap.contains
  rw [wrap_eq (x := h.size) (by omega), wrap_eq hnowrap]
  simp

/-- A guest pointer is mapped to its offset from the heap base; a 32-bit host refuses
    those beyond the memory. -/
theorem implGetUnsandboxedDataPointer_eq (hlive : LiveHeap c h) (hp : p < 2 ^ 32) :
    implGetUnsandboxedDataPointer c.width h p =
      if c.width = .w32 ∧ h.size ≤ p then .error .invalidPointer
      else .ok (wrap c.width.bits (h.heapBase + p)) := by
  have hinside := implIsPointerInSandboxMemory_iff (q := wrap c.width.bits (h.heapBase + p)) hlive
  have hnowrap := hlive.noWrap
  unfold implGetUnsandboxedDataPointer
  dsimp only
  refine if_congr (and_congr_right fun hw => ?_) rfl rfl
  rw [← Bool.not_eq_true, hinside, hw]
  rw [hw] at hnowrap
  unfold Heap.contains wrap
  simp only [Width.bits] at hnowrap ⊢
  omega

/-- A host pointer into the memory is mapped to its offset. -/
theorem implGetSandboxedDataPointer_eq (hlive : LiveHeap c h) (hq : h.contains q) :
    implGetSandboxedDataPointer c h q = q - h.heapBase := by
  obtain ⟨hlo, hhi⟩ := hq
  have hsize := hlive.size_le
  have hnowrap := hlive.noWrap
  unfold implGetSandboxedDataPointer
  split
  · next hc =>
    obtain ⟨k, hk⟩ := hlive.aligned hc
    unfold wrap
    omega
  · rw [wsub_eq (by omega) hlo]
    exact wrap_eq (by omega)

/-- The offset of what a guest pointer is mapped to is that pointer. -/
theorem implGetSandboxedDataPointer_wrap (hlive : LiveHeap c h) (hp : p < 2 ^ 32) :
    implGetSandboxedDataPointer c h (wrap c.width.bits (h.heapBase + p)) = p := by
  have hnowrap := hlive.noWrap
  have hbits := Nat.pow_le_pow_right (n := 2) (by decide) c.width.le_bits
  unfold implGetSandboxedDataPointer
  split
  · next hc =>
    obtain ⟨k, hk⟩ := hlive.aligned hc
    rw [Config.width_of_heapAligned hc] at hnowrap ⊢
    simp only [wrap, Width.bits] at hnowrap ⊢
    omega
  · rw [wsub_wrap_add (by omega) (by omega)]
    exact wrap_eq hp

variable {heaps : SandboxId → Heap} {expensiveSandboxFinder : HostPtr → Option SandboxId}
  {S : SandboxId} {exampleUnsandboxedPtr : HostPtr}

/-- Masking the example gives the heap base. -/
theorem example_and_heapBaseMask (hlive : LiveHeap c h) (hc : c.heapAligned = true)
    (hexample : h.contains exampleUnsandboxedPtr) :
    exampleUnsandboxedPtr &&& heapBaseMask c.width = h.heapBase := by
  obtain ⟨hlo, hhi⟩ := hexample
  have hsize := hlive.size_le
  rw [and_heapBaseMask c.width (Nat.lt_trans hhi hlive.noWrap)]
  exact high_of_aligned (hlive.aligned hc) hlo (by omega)

theorem unsandboxed_noCtx (hlive : LiveHeap c (heaps S)) (hp : p < 2 ^ 32)
    (hexample : (heaps S).contains exampleUnsandboxedPtr)
    (hfinder : expensiveSandboxFinder exampleUnsandboxedPtr = some S) :
    implGetUnsandboxedDataPointerNoCtx c heaps expensiveSandboxFinder p exampleUnsandboxedPtr =
      some (implGetUnsandboxedDataPointer c.width (heaps S) p) := by
  unfold implGetUnsandboxedDataPointerNoCtx
  split
  · next hc =>
    have hwidth := Config.width_of_heapAligned hc
    have hnowrap := hlive.noWrap
    rw [example_and_heapBaseMask hlive hc hexample, implGetUnsandboxedDataPointer_eq hlive hp,
      if_neg (by rw [hwidth]; simp)]
    obtain ⟨k, hk⟩ := hlive.aligned hc
    rw [hwidth] at hnowrap ⊢
    simp only [Width.bits] at hnowrap ⊢
    rw [hk] at hnowrap ⊢
    rw [← Nat.two_pow_add_eq_or_of_lt hp, wrap_eq (by omega)]
  · rw [hfinder]
    rfl

theorem sandboxed_noCtx (hexample : expensiveSandboxFinder exampleUnsandboxedPtr = some S) :
    implGetSandboxedDataPointerNoCtx c heaps expensiveSandboxFinder q exampleUnsandboxedPtr =
      some (implGetSandboxedDataPointer c (heaps S) q) := by
  unfold implGetSandboxedDataPointerNoCtx
  split
  · next hc =>
    unfold implGetSandboxedDataPointer
    rw [if_pos hc, Nat.and_two_pow_sub_one_eq_mod, wrap, Nat.mod_mod, wrap]
  · rw [hexample]
    rfl

/-- The conversions of data pointers are one mapping: host pointers into the memory of a
    live sandbox make the round trip; with an example pointer of the same sandbox the
    conversions without a context give what those with it give, whose result maps back; and
    a 32-bit host refuses exactly the guest pointers from the size of the memory on. -/
theorem data_pointers_agree (c : Config) (heaps : SandboxId → Heap)
    (expensiveSandboxFinder : HostPtr → Option SandboxId) (S : SandboxId)
    (hlive : LiveHeap c (heaps S))
    (hfinder : ∀ q, (heaps S).contains q → expensiveSandboxFinder q = some S) :
    (∀ q, (heaps S).contains q →
      implGetUnsandboxedDataPointer c.width (heaps S)
        (implGetSandboxedDataPointer c (heaps S) q) = .ok q) ∧
    (∀ q exampleUnsandboxedPtr, (heaps S).contains q →
      (heaps S).contains exampleUnsandboxedPtr →
      implGetSandboxedDataPointerNoCtx c heaps expensiveSandboxFinder q exampleUnsandboxedPtr =
        some (implGetSandboxedDataPointer c (heaps S) q)) ∧
    (∀ p exampleUnsandboxedPtr, p < 2 ^ 32 → (heaps S).contains exampleUnsandboxedPtr →
      implGetUnsandboxedDataPointerNoCtx c heaps expensiveSandboxFinder p exampleUnsandboxedPtr =
        some (implGetUnsandboxedDataPointer c.width (heaps S) p) ∧
      ∀ ret, implGetUnsandboxedDataPointer c.width (heaps S) p = .ok ret →
        implGetSandboxedDataPointer c (heaps S) ret = p) ∧
    (c.width = .w32 → ∀ p < 2 ^ 32,
      implGetUnsandboxedDataPointer c.width (heaps S) p = .error .invalidPointer ↔
        (heaps S).size ≤ p) := by
  refine ⟨?_, ?_, ?_, ?_⟩
  -- there and back: the offset is below the size, so it is neither refused nor truncated
  · intro q hq
    have hsize := hlive.size_le
    have hnowrap := hlive.noWrap
    have hoffset : q - (heaps S).heapBase < (heaps S).size := by
      unfold Heap.contains at hq
      omega
    rw [implGetSandboxedDataPointer_eq hlive hq, implGetUnsandboxedDataPointer_eq hlive (by omega),
      if_neg (by omega), Nat.add_sub_cancel' hq.1]
    exact congrArg Except.ok (wrap_eq (Nat.lt_trans hq.2 hnowrap))
  -- from host to guest without a context
  · intro q exampleUnsandboxedPtr _ hexample
    exact sandboxed_noCtx (hfinder _ hexample)
  -- from guest to host without a context, and the way back of what was not refused
  · intro p exampleUnsandboxedPtr hp hexample
    refine ⟨unsandboxed_noCtx hlive hp hexample (hfinder _ hexample), ?_⟩
    intro ret hret
    rw [implGetUnsandboxedDataPointer_eq hlive hp] at hret
    split at hret
    · cases hret
    · cases hret
      exact implGetSandboxedDataPointer_wrap hlive hp
  -- the check of 32-bit hosts; no address in front of the size wraps
  · intro hw p hp
    rw [implGetUnsandboxedDataPointer_eq hlive hp]
    by_cases hle : (heaps S).size ≤ p
    · rw [if_pos ⟨hw, hle⟩]
      exact iff_of_true rfl hle
    · rw [if_neg fun hrefused => hle hrefused.2]
      exact iff_of_false (by rintro ⟨⟩) hle

end conversions

/-- The heap of a memory of one page on a 64-bit host. -/
def highHeap : Heap := ⟨2 ^ 33, 65536⟩

theorem highHeap_made : MadeWith .w64 none highHeap := by
  refine ⟨by decide, noPages, 1, grantAt (2 ^ 33), noPages_supported, ?_⟩
  rw [createWasm2cMemory_noPages (by decide)]
  decide

/-- The last byte of that memory, with the first as example. -/
theorem data_pointers_agree_high :
    implGetUnsandboxedDataPointer .w64 highHeap
      (implGetSandboxedDataPointer ⟨.w64, true⟩ highHeap (2 ^ 33 + 65535)) = .ok (2 ^ 33 + 65535) ∧
    implGetUnsandboxedDataPointerNoCtx ⟨.w64, true⟩ (fun _ => highHeap) (fun _ => some 0) 65535
      (2 ^ 33) = some (implGetUnsandboxedDataPointer .w64 highHeap 65535) := by
  have hlive : LiveHeap ⟨.w64, true⟩ ((fun _ : SandboxId => highHeap) 0) :=
    ⟨by decide, by decide, fun _ => ⟨none, highHeap_made⟩⟩
  have hagree := data_pointers_agree ⟨.w64, true⟩ (fun _ => highHeap) (fun _ => some 0) 0 hlive
    fun _ _ => rfl
  exact ⟨hagree.1 _ ⟨by decide, by decide⟩,
    (hagree.2.2.1 65535 (2 ^ 33) (by decide) ⟨by decide, by decide⟩).1⟩

/-! ## The same sandbox -/

/-- The bytes that `create_wasm2c_memory` is to reserve for `max_pages` and the guard. -/
def Heap.reserves (w : Width) (h : Heap) (maxPages q : Nat) : Prop :=
  h.heapBase ≤ q ∧ q < h.heapBase + (maxPages * wasmPageSize + w.heapGuardPageSize)

/-- The sandboxes in use on a 64-bit host, each with the capacity it was made with: memories
    within their maximum, reserved apart from each other. -/
structure ReservedApart (live : SandboxId → Prop) (cap : SandboxId → Option MemCapacity)
    (heaps : SandboxId → Heap) : Prop where
  made : ∀ S, live S → MadeWith .w64 (cap S) (heaps S)
  maxPages_le : ∀ S, live S → chosenMaxPages .w64 (cap S) ≤ 65536
  size_le : ∀ S, live S → (heaps S).size ≤ chosenMaxPages .w64 (cap S) * wasmPageSize
  disjoint : ∀ S S' q, live S → live S' → (heaps S).reserves .w64 (chosenMaxPages .w64 (cap S)) q →
    (heaps S').reserves .w64 (chosenMaxPages .w64 (cap S')) q → S = S'

section same
variable {live : SandboxId → Prop} {cap : SandboxId → Option MemCapacity}
  {heaps : SandboxId → Heap} {S : SandboxId} {q : Nat}

theorem ReservedApart.reserves_of_contains (h : ReservedApart live cap heaps) (hS : live S)
    (hq : (heaps S).contains q) : (heaps S).reserves .w64 (chosenMaxPages .w64 (cap S)) q := by
  have hsize := h.size_le S hS
  unfold Heap.contains at hq
  unfold Heap.reserves
  omega

/-- The 4 GiB from the base on are reserved, be the maximum ever so small: the guard alone
    is as long. -/
theorem Heap.reserves_of_high {h : Heap} (hq : q / 2 ^ 32 * 2 ^ 32 = h.heapBase)
    (maxPages : Nat) : h.reserves .w64 maxPages q := by
  unfold Heap.reserves
  simp only [Width.heapGuardPageSize]
  omega

theorem ReservedApart.high (h : ReservedApart live cap heaps) (hS : live S)
    (hq : (heaps S).contains q) : q / 2 ^ 32 * 2 ^ 32 = (heaps S).heapBase := by
  have hsize := h.size_le S hS
  have hmax := h.maxPages_le S hS
  obtain ⟨hlo, hhi⟩ := hq
  refine high_of_aligned (h.made S hS).aligned hlo ?_
  unfold wasmPageSize at hsize
  omega

/-- An address in a reservation is an address of the host. -/
theorem ReservedApart.lt_bits (h : ReservedApart live cap heaps) (hS : live S)
    (hq : (heaps S).contains q) : q < 2 ^ 64 := by
  have hsize := h.size_le S hS
  have hmax := h.maxPages_le S hS
  obtain ⟨os, -, hplaced⟩ := (h.made S hS).placed
  have hfits := hplaced.fits
  have hround := le_roundUp (x := reserveLength .w64 (chosenMaxPages .w64 (cap S))) os.pageSize_pos
  have hlength := reserveLength_eq (w := .w64) (Nat.le_trans hmax (by decide))
  rw [if_pos (.inl rfl)] at hlength
  unfold Heap.contains at hq
  simp only [Width.bits] at hfits
  omega

end same

/-- Among live 64-bit sandboxes with imported memories, an address of the application or in
    the memory of a live sandbox is found to be in the same sandbox as an address in the
    memory of `S` if and only if it is in the memory of `S`, in either order. -/
theorem same_sandbox_iff (live : SandboxId → Prop) (cap : SandboxId → Option MemCapacity)
    (heaps : SandboxId → Heap) (hapart : ReservedApart live cap heaps)
    (expensiveSandboxFinder : HostPtr → Option SandboxId) (S : SandboxId) (hS : live S)
    (p1 p2 : Nat) (hp1 : (heaps S).contains p1) (hnull : p2 ≠ nullptr) (hlt : p2 < 2 ^ 64)
    (hp2 : (∀ S', live S' → ¬(heaps S').reserves .w64 (chosenMaxPages .w64 (cap S')) p2) ∨
      ∃ S', live S' ∧ (heaps S').contains p2) :
    (implIsInSameSandbox ⟨.w64, true⟩ expensiveSandboxFinder p1 p2 = true ↔
      (heaps S).contains p2) ∧
    implIsInSameSandbox ⟨.w64, true⟩ expensiveSandboxFinder p2 p1 =
      implIsInSameSandbox ⟨.w64, true⟩ expensiveSandboxFinder p1 p2 := by
  have hbase := (hapart.made S hS).1
  have hnull1 : p1 ≠ nullptr := by
    have hlo := hp1.1
    unfold nullptr at hbase ⊢
    omega
  have haligned : Config.heapAligned ⟨.w64, true⟩ = true := by decide
  -- both orders compare the upper halves
  have hcompare : ∀ q q', q ≠ nullptr → q' ≠ nullptr → q < 2 ^ 64 → q' < 2 ^ 64 →
      implIsInSameSandbox ⟨.w64, true⟩ expensiveSandboxFinder q q' =
        decide (q / 2 ^ 32 * 2 ^ 32 = q' / 2 ^ 32 * 2 ^ 32) := by
    intro q q' hq hq' hqlt hqlt'
    unfold implIsInSameSandbox
    rw [if_neg (by rintro (h0 | h0) <;> contradiction), if_pos haligned,
      and_heapBaseMask .w64 hqlt, and_heapBaseMask .w64 hqlt']
  have hlt1 := hapart.lt_bits hS hp1
  rw [hcompare p1 p2 hnull1 hnull hlt1 hlt, hcompare p2 p1 hnull hnull1 hlt hlt1,
    hapart.high hS hp1]
  refine ⟨?_, by rw [decide_eq_decide]; exact eq_comm⟩
  rw [decide_eq_true_iff]
  constructor
  · intro hsame
    have hreserved := Heap.reserves_of_high hsame.symm (chosenMaxPages .w64 (cap S))
    rcases hp2 with happ | ⟨S', hS', hp2⟩
    · exact absurd hreserved (happ S hS)
    · rwa [hapart.disjoint S S' p2 hS hS' hreserved (hapart.reserves_of_contains hS' hp2)]
  · intro hp2'
    exact (hapart.high hS hp2').symm

/-- The heap of a second sandbox, reserved right behind the first. -/
def nextHeap : Heap := ⟨2 ^ 34, 65536⟩

theorem nextHeap_made : MadeWith .w64 none nextHeap := by
  refine ⟨by decide, noPages, 1, grantAt (2 ^ 34), noPages_supported, ?_⟩
  rw [createWasm2cMemory_noPages (by decide)]
  decide

/-- An address in the first sandbox against the first byte of the second, and against an
    address of the application. -/
theorem same_sandbox_adjacent :
    ¬implIsInSameSandbox ⟨.w64, true⟩ (fun _ => none) (2 ^ 33 + 7) (2 ^ 34) = true ∧
    ¬implIsInSameSandbox ⟨.w64, true⟩ (fun _ => none) (2 ^ 33 + 7) 4096 = true := by
  have hapart : ReservedApart (fun S => S = 0 ∨ S = 1) (fun _ => none)
      (fun S => if S = 0 then highHeap else nextHeap) := by
    refine ⟨?_, ?_, ?_, ?_⟩
    · rintro S (rfl | rfl)
      · exact highHeap_made
      · exact nextHeap_made
    · intro S _
      decide
    · rintro S (rfl | rfl) <;> decide
    · intro S S' q hS hS' hq hq'
      unfold Heap.reserves at hq hq'
      simp only [chosenMaxPages, Option.map_none, Option.getD_none, Width.heapDefaultMaxPages,
        Width.heapGuardPageSize, wasmPageSize, highHeap, nextHeap] at hq hq'
      rcases hS with rfl | rfl <;> rcases hS' with rfl | rfl
      · rfl
      · simp at hq hq'; omega
      · simp at hq hq'; omega
      · rfl
  have hfirst : ((fun S => if S = 0 then highHeap else nextHeap) 0).contains (2 ^ 33 + 7) :=
    ⟨by decide, by decide⟩
  constructor
  · rw [(same_sandbox_iff _ _ _ hapart (fun _ => none) 0 (.inl rfl) _ _ hfirst (by decide)
      (by decide) (.inr ⟨1, .inr rfl, by decide, by decide⟩)).1]
    rintro ⟨-, hhi⟩
    exact absurd hhi (by decide)
  · rw [(same_sandbox_iff _ _ _ hapart (fun _ => none) 0 (.inl rfl) _ _ hfirst (by decide)
      (by decide) (.inl ?_)).1]
    · rintro ⟨hlo, -⟩
      exact absurd hlo (by decide)
    · rintro S (rfl | rfl) ⟨hlo, -⟩
      · exact absurd hlo (by decide)
      · exact absurd hlo (by decide)

end RlboxWasm2c

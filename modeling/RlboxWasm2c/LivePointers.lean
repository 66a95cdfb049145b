import RlboxWasm2c.DataPointers
import RlboxWasm2c.LiveMemories

/- The pointer conversions and tests of a 64-bit host with imported memories, in a process with
   several of them. The conversions check nothing, and without a context there is not even a
   sandbox: what they return is right because of how the memories are reserved.

   `guest_pointers_confined`: a pointer of a guest, whatever its value, becomes an address in
   what is reserved for its memory, and an object there traps or is the guest's.
   `pointers_tell_memories`: the tests tell the live memories apart, and from everything else.
   Both hold for the runs that `LiveMemories` is about. -/
namespace RlboxWasm2c.Protected
open Words Pages

/-- `is_imported_memory_and_table` on a 64-bit host. -/
def imported : Config := ⟨.w64, true⟩

def heapOf (memory : WasmRtMemory) : Heap := ⟨memory.data, memory.size⟩

section heaps
variable {m : ProtMap} {memory : WasmRtMemory} {q : Nat}

/-- A laid memory is where the conversions expect it. -/
theorem Laid.liveHeap (h : Laid .w64 m memory) : LiveHeap imported (heapOf memory) where
  size_le := by
    rw [← h.length_w64.1]
    exact h.size_le
  noWrap := by
    have hsize := h.size_le
    have hend := h.byte_lt (x := memory.size) (by rw [h.length_w64.1] at hsize; omega)
    exact hend
  made := by
    obtain ⟨os, initialPages, cap, ans, hp, -, hdata⟩ := h.made
    exact fun _ => ⟨cap, h.ne_zero, os, initialPages, ans, hp, hdata⟩

theorem Laid.contains (h : Laid .w64 m memory) (hq : (heapOf memory).contains q) :
    memory.data ≤ q ∧ q < memory.data + 2 ^ 32 ∧ q < 2 ^ 64 := by
  obtain ⟨hlo, hhi⟩ := hq
  have hnowrap := h.liveHeap.noWrap
  have hsize := h.liveHeap.size_le
  exact ⟨hlo, Nat.lt_of_lt_of_le hhi (Nat.add_le_add_left hsize _), Nat.lt_trans hhi hnowrap⟩

/-- The upper half of an address in the first 4 GiB of what is reserved is that of the memory. -/
theorem Laid.high (h : Laid .w64 m memory) (hlo : memory.data ≤ q)
    (hhi : q < memory.data + 2 ^ 32) : q &&& heapBaseMask .w64 = memory.data := by
  have hbyte := h.byte_lt (x := q - memory.data) (by omega)
  rw [and_heapBaseMask .w64 (by change q < 2 ^ 64; omega)]
  exact high_of_aligned (h.liveHeap.aligned (by decide)) hlo hhi

/-- Masking the example and adding the offset in. -/
theorem Laid.unsandboxNoCtx (h : Laid .w64 m memory) (heaps : SandboxId → Heap)
    (expensiveSandboxFinder : HostPtr → Option SandboxId) {a exampleUnsandboxedPtr : Nat}
    (ha : a < 2 ^ 32) (hexample : (heapOf memory).contains exampleUnsandboxedPtr) :
    implGetUnsandboxedDataPointerNoCtx imported heaps expensiveSandboxFinder a
      exampleUnsandboxedPtr = some (.ok (memory.data + a)) := by
  obtain ⟨hlo, hhi, -⟩ := h.contains hexample
  obtain ⟨k, hk⟩ := h.liveHeap.aligned (by decide)
  change memory.data = 2 ^ 32 * k at hk
  have hhigh := h.high hlo hhi
  unfold implGetUnsandboxedDataPointerNoCtx
  rw [if_pos (by decide), imported, hhigh, hk, ← Nat.two_pow_add_eq_or_of_lt ha]

theorem Laid.sandboxNoCtx (h : Laid .w64 m memory) (heaps : SandboxId → Heap)
    (expensiveSandboxFinder : HostPtr → Option SandboxId) (exampleUnsandboxedPtr : HostPtr)
    (hq : (heapOf memory).contains q) :
    implGetSandboxedDataPointerNoCtx imported heaps expensiveSandboxFinder q
      exampleUnsandboxedPtr = some (q - memory.data) := by
  obtain ⟨hlo, hhi, -⟩ := h.contains hq
  obtain ⟨k, hk⟩ := h.liveHeap.aligned (by decide)
  change memory.data = 2 ^ 32 * k at hk
  unfold implGetSandboxedDataPointerNoCtx
  rw [if_pos (by decide), Nat.and_two_pow_sub_one_eq_mod]
  refine congrArg some ?_
  unfold wrap
  omega

/-- Two addresses that are not null are compared by their upper halves. -/
theorem implIsInSameSandbox_imported (expensiveSandboxFinder : HostPtr → Option SandboxId)
    {q q' : Nat} (hq : q ≠ nullptr) (hq' : q' ≠ nullptr) :
    implIsInSameSandbox imported expensiveSandboxFinder q q' =
      decide (q &&& heapBaseMask .w64 = q' &&& heapBaseMask .w64) := by
  unfold implIsInSameSandbox
  rw [if_neg (not_or.mpr ⟨hq, hq'⟩), if_pos (by decide), imported]

end heaps

section tests
variable {shift : Nat} {p : Process} {memory other : WasmRtMemory} {q : Nat}

/-- No address is in two memories. -/
theorem Shared.eq_of_contains (h : Shared .w64 shift p) (hm : memory ∈ p.live) (ho : other ∈ p.live)
    (hq : (heapOf memory).contains q) (hq' : (heapOf other).contains q) : other = memory := by
  obtain ⟨hlo, hhi, -⟩ := (h.laid memory hm).contains hq
  obtain ⟨hlo', hhi', -⟩ := (h.laid other ho).contains hq'
  apply h.eq_of_data hm ho
  rw [← (h.laid memory hm).high hlo hhi, (h.laid other ho).high hlo' hhi']

/-- An address with the upper half of a memory is on a page reserved for it. -/
theorem Shared.reserved_of_high (h : Shared .w64 shift p) (hm : memory ∈ p.live) (hlt : q < 2 ^ 64)
    (hq : q &&& heapBaseMask .w64 = memory.data) :
    p.reserved .w64 (q / p.map.pages.pageSize) = true := by
  rw [and_heapBaseMask .w64 hlt] at hq
  exact h.reserved_of_window hm (by omega) (by omega)

end tests

/-- A 64-bit host unsandboxes any 32-bit value of a guest to the address at that offset from
    the heap base, with a context or with an example pointer of the same memory, whatever the
    heaps and the finder are. An object of `n` bytes there is within the size of the memory
    and can be used, or traps, or is otherwise the memory's own. -/
theorem guest_pointers_confined {growMemory : GrowMemory} (hgrow : growMemory.Commits)
    (m : ProtMap) (hp : SupportedPages m.pages) (ops : List MemOp)
    (hfits : ∀ op ∈ ops, op.Fits .w64) (heaps : SandboxId → Heap)
    (expensiveSandboxFinder : HostPtr → Option SandboxId) :
    let p := Process.run growMemory .w64 ⟨m, [], m.prot⟩ ops
    ∀ memory ∈ p.live, ∀ a < 2 ^ 32,
      implGetUnsandboxedDataPointer .w64 (heapOf memory) a = .ok (memory.data + a) ∧
      (∀ exampleUnsandboxedPtr, (heapOf memory).contains exampleUnsandboxedPtr →
        implGetUnsandboxedDataPointerNoCtx imported heaps expensiveSandboxFinder a
          exampleUnsandboxedPtr = some (.ok (memory.data + a))) ∧
      ∀ n, 0 < n →
        (a + n ≤ memory.size → ∀ i < n,
          p.map.prot (pageOf p.map memory (a + i)) = some .readWrite) ∧
        ((∃ i < n, p.map.prot (pageOf p.map memory (a + i)) = some .noAccess) ∨
          a + n ≤ memory.maxPages * wasmPageSize ∧
          ∀ i < n, memory.data + (a + i) < 2 ^ 64 ∧ p.Owns .w64 memory (a + i)) := by
  intro p memory hm a ha
  have hshared : Shared .w64 m.shift p := (Shared.start m).run hgrow hp ops hfits
  have hlaid := hshared.laid memory hm
  have hend := hlaid.byte_lt (x := a) (by omega)
  have haddr : implGetUnsandboxedDataPointer .w64 (heapOf memory) a = .ok (memory.data + a) := by
    have heq := implGetUnsandboxedDataPointer_eq hlaid.liveHeap ha
    rw [if_neg (by simp [imported])] at heq
    exact heq.trans (congrArg Except.ok (wrap_eq hend))
  refine ⟨haddr, fun exampleUnsandboxedPtr hexample => ?_, fun n hn => ⟨fun hle i hi => ?_, ?_⟩⟩
  · exact hlaid.unsandboxNoCtx heaps expensiveSandboxFinder ha hexample
  · exact hlaid.byte_inSize (by omega)
  · exact hshared.access (supportedPages_congr hshared.shift hp) hm (by omega) hn

/-- The first of two memories side by side: an offset behind its only page. -/
theorem sideBySide_pointer :
    implGetUnsandboxedDataPointer .w64 (heapOf (pageAt (2 ^ 33))) 70000 =
        .ok ((pageAt (2 ^ 33)).data + 70000) ∧
      implGetUnsandboxedDataPointerNoCtx imported (fun _ => ⟨0, 0⟩) (fun _ => none) 70000
        (2 ^ 33 + 7) = some (.ok ((pageAt (2 ^ 33)).data + 70000)) := by
  obtain ⟨haddr, hexample, -⟩ := guest_pointers_confined growByMprotect_commits noProt
    noPages_supported sideBySide sideBySide_fits (fun _ => ⟨0, 0⟩) (fun _ => none) _
    sideBySide_mem.1 70000 (by decide)
  exact ⟨haddr, hexample (2 ^ 33 + 7) ⟨by decide, by decide⟩⟩

/-- The tests on an address in a live memory, on a 64-bit host: it is found to be in the memory
    of one sandbox only; without a context it makes the round trip; another address in a live
    memory is in the same sandbox if and only if it is in the same memory, and one that is in
    none, and not null, never is. -/
theorem pointers_tell_memories {growMemory : GrowMemory} (hgrow : growMemory.Commits)
    (m : ProtMap) (hp : SupportedPages m.pages) (ops : List MemOp)
    (hfits : ∀ op ∈ ops, op.Fits .w64) (heaps : SandboxId → Heap)
    (expensiveSandboxFinder : HostPtr → Option SandboxId) :
    let p := Process.run growMemory .w64 ⟨m, [], m.prot⟩ ops
    ∀ memory ∈ p.live, ∀ q, (heapOf memory).contains q →
      (∀ other ∈ p.live,
        implIsPointerInSandboxMemory .w64 (heapOf other) q = true ↔ other = memory) ∧
      (∀ exampleUnsandboxedPtr, (heapOf memory).contains exampleUnsandboxedPtr →
        ∃ a, implGetSandboxedDataPointerNoCtx imported heaps expensiveSandboxFinder q
            exampleUnsandboxedPtr = some a ∧
          implGetUnsandboxedDataPointerNoCtx imported heaps expensiveSandboxFinder a
            exampleUnsandboxedPtr = some (.ok q)) ∧
      (∀ other ∈ p.live, ∀ q', (heapOf other).contains q' →
        (implIsInSameSandbox imported expensiveSandboxFinder q q' = true ↔ other = memory)) ∧
      (∀ q' < 2 ^ 64, q' ≠ nullptr → p.reserved .w64 (q' / m.pages.pageSize) = false →
        implIsInSameSandbox imported expensiveSandboxFinder q q' = false ∧
        implIsInSameSandbox imported expensiveSandboxFinder q' q = false) := by
  intro p memory hm q hq
  have hshared : Shared .w64 m.shift p := (Shared.start m).run hgrow hp ops hfits
  have hlaid := hshared.laid memory hm
  obtain ⟨hlo, hhi, -⟩ := hlaid.contains hq
  have hne : q ≠ nullptr := by
    have hbase := hlaid.ne_zero
    unfold nullptr
    omega
  refine ⟨?_, ?_, ?_, ?_⟩
  · intro other ho
    have hinside := implIsPointerInSandboxMemory_iff (q := q) (hshared.laid other ho).liveHeap
    refine hinside.trans ⟨hshared.eq_of_contains hm ho hq, ?_⟩
    rintro rfl
    exact hq
  · intro exampleUnsandboxedPtr hexample
    refine ⟨q - memory.data, hlaid.sandboxNoCtx heaps expensiveSandboxFinder _ hq, ?_⟩
    rw [hlaid.unsandboxNoCtx heaps expensiveSandboxFinder (by omega) hexample,
      Nat.add_sub_cancel' hlo]
  · intro other ho q' hq'
    obtain ⟨hlo', hhi', -⟩ := (hshared.laid other ho).contains hq'
    have hne' : q' ≠ nullptr := by
      have hbase := (hshared.laid other ho).ne_zero
      unfold nullptr
      omega
    rw [implIsInSameSandbox_imported expensiveSandboxFinder hne hne', decide_eq_true_iff,
      hlaid.high hlo hhi, (hshared.laid other ho).high hlo' hhi']
    refine ⟨fun hdata => hshared.eq_of_data hm ho hdata.symm, ?_⟩
    rintro rfl
    rfl
  · intro q' hlt hne' hnot
    have hpages : p.map.pages.pageSize = m.pages.pageSize := congrArg (2 ^ ·) hshared.shift
    have hhigh : ¬q' &&& heapBaseMask .w64 = memory.data := by
      intro heq
      have hres := hshared.reserved_of_high hm hlt heq
      rw [hpages, hnot] at hres
      cases hres
    rw [implIsInSameSandbox_imported expensiveSandboxFinder hne hne',
      implIsInSameSandbox_imported expensiveSandboxFinder hne' hne, hlaid.high hlo hhi]
    exact ⟨decide_eq_false (Ne.symm hhigh), decide_eq_false hhigh⟩

/-- Two memories side by side: an address in the first, and the start of the second. -/
theorem sideBySide_told :
    implIsPointerInSandboxMemory .w64 (heapOf (pageAt (2 ^ 33))) (2 ^ 33 + 7) = true ∧
      ¬implIsPointerInSandboxMemory .w64 (heapOf (pageAt (2 ^ 34))) (2 ^ 33 + 7) = true ∧
      ¬implIsInSameSandbox imported (fun _ => none) (2 ^ 33 + 7) (2 ^ 34) = true := by
  obtain ⟨hinside, -, hsame, -⟩ := pointers_tell_memories growByMprotect_commits noProt
    noPages_supported sideBySide sideBySide_fits (fun _ => ⟨0, 0⟩) (fun _ => none) _
    sideBySide_mem.1 (2 ^ 33 + 7) ⟨by decide, by decide⟩
  have hother : ¬pageAt (2 ^ 34) = pageAt (2 ^ 33) := by decide
  exact ⟨(hinside _ sideBySide_mem.1).mpr rfl,
    fun h => hother ((hinside _ sideBySide_mem.2).mp h),
    fun h => hother ((hsame _ sideBySide_mem.2 _ ⟨by decide, by decide⟩).mp h)⟩

end RlboxWasm2c.Protected

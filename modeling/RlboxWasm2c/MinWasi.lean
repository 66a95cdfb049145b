import Mathlib.Algebra.GroupWithZero.Nat
import RlboxWasm2c.Base.Traced

/- The WASI entry points of `wasm2c_rt_minwasi.c` that touch the linear memory of a
   sandbox. A run works on the memory, the host streams and the host strings of one
   `w2c_wasi__snapshot__preview1`, and logs every bounds check and every raw access to
   `mem->data`; nothing but the checks of the source guards an access. `u32` and
   `u64` are `UInt32` and `UInt64`, so address arithmetic wraps as in C; an index into
   `mem->data` is a natural.

   What the host does is part of the state: the outcome of each `fread` and `fwrite`,
   and of the clock primitives of the three platform back ends.

   Correspondence (C ↔ Lean): the functions keep their names in camel case, without
   the prefix `w2c_wasi__snapshot__preview1_`; `WASI_MEMCHECK_SIZE`, `WASI_CHECK_COPY` and
   `WASI_RET_ERR_ON_FAIL` are `memcheckSize`, `checkCopy` and `retErrOnFail`. Left out: the
   texts printed when strings are truncated, and `assert(result <= len)`, which restates
   what `fread` and `fwrite` guarantee. -/
namespace RlboxWasm2c.MinWasi
open Traced

/-- `wasm_rt_memory_t` as these functions use it; a linear memory has at most 2^32 bytes. -/
structure Memory where
  data : Nat → UInt8
  size : Nat
  size_le : size ≤ 2 ^ 32

/-- Bytes `[a, a + n)`. -/
def Memory.read (m : Memory) (a n : Nat) : List UInt8 := (List.range n).map fun i => m.data (a + i)

def Memory.write (m : Memory) (a : Nat) (bytes : List UInt8) : Memory :=
  { m with
    data := fun x => if a ≤ x ∧ x < a + bytes.length then bytes.getD (x - a) 0 else m.data x }

@[simp] theorem Memory.write_size (m : Memory) (a : Nat) (bytes : List UInt8) :
    (m.write a bytes).size = m.size := rfl

@[simp] theorem Memory.length_read (m : Memory) (a n : Nat) : (m.read a n).length = n := by
  simp [Memory.read]

theorem Memory.read_ne_nil {m : Memory} {a n : Nat} (h : 0 < n) : m.read a n ≠ [] := by
  apply List.ne_nil_of_length_pos
  rwa [Memory.length_read]

/-- Outside the bytes written nothing changes. -/
theorem Memory.write_data_of_not {m : Memory} {a x : Nat} {bytes : List UInt8}
    (h : x < a ∨ a + bytes.length ≤ x) : (m.write a bytes).data x = m.data x := by
  refine if_neg ?_
  rintro ⟨hle, hlt⟩
  omega

theorem Memory.read_congr {m m' : Memory} {a n : Nat}
    (h : ∀ i < n, m.data (a + i) = m'.data (a + i)) : m.read a n = m'.read a n :=
  List.map_congr_left fun i hi => h i (List.mem_range.mp hi)

theorem Memory.read_write_of_disjoint {m : Memory} {a n b : Nat} {bytes : List UInt8}
    (h : a + n ≤ b ∨ b + bytes.length ≤ a) : (m.write b bytes).read a n = m.read a n := by
  refine Memory.read_congr fun i hi => Memory.write_data_of_not ?_
  omega

theorem Memory.read_write_self (m : Memory) (a : Nat) (bytes : List UInt8) :
    (m.write a bytes).read a bytes.length = bytes := by
  apply List.ext_getElem
  · exact Memory.length_read ..
  · intro i _ hi
    simp only [Memory.read, List.getElem_map, List.getElem_range]
    have hin : a ≤ a + i ∧ a + i < a + bytes.length := by omega
    refine (if_pos hin).trans ?_
    rw [Nat.add_sub_cancel_left, List.getD_eq_getElem?_getD, List.getElem?_eq_getElem hi,
      Option.getD_some]

/-- A C string: no byte before the terminator is null. -/
abbrev CString := { l : List UInt8 // 0 ∉ l }

/-- `struct timespec`. -/
structure Timespec where
  tvSec : Int
  tvNsec : Int
  deriving DecidableEq

/-- The `clock_data` of an instance on each back end. -/
inductive ClockData where
  | windows (countsPerSec : Int)
  | mac (numer denom : UInt32) (inittime : Timespec) (initclock : UInt64)
  | posix

/-- The clocks `os_translate_clock_id` selects from. -/
inductive PosixClock where
  | realtime
  | monotonic
  | processCputime
  | threadCputime
  deriving DecidableEq

/-- The outcome of the clock primitives: `none` is a failure that writes nothing. -/
structure ClockOutcome where
  queryPerformanceCounter : Option Int
  machAbsoluteTime : UInt64
  clockGettime : PosixClock → Option Timespec
  clockGetres : PosixClock → Option Timespec

/-- The state of one call: `w2c_wasi__snapshot__preview1` and the host around it.
    `ioResults` are the counts the next `fread` and `fwrite` calls come to, each cut to
    what the call allows; `outStruct` is the `out_struct` local before it is written. -/
structure Wasi where
  instanceMemory : Memory
  mainArgv : List CString
  env : List CString
  clockData : ClockData
  clockOutcome : ClockOutcome
  outStruct : Timespec
  stdin : List UInt8
  stdout : List UInt8
  stderr : List UInt8
  ioResults : List Nat

/-- The kinds of raw access to `mem->data`. -/
inductive AccessKind where
  | load
  | store
  | memcpy
  | fread
  | fwrite
  deriving DecidableEq

/-- A bounds check of `[a, a + sz)` and whether it passed; a raw access to `[a, a + n)`. -/
inductive Event where
  | check (a sz : Nat) (passed : Bool)
  | access (kind : AccessKind) (a n : Nat)
  deriving DecidableEq

/-- How a call ends that does not return: `TRAP(OOB)`, or an integer division by zero, which is
    a signal to the process. -/
inductive Trap where
  | oob
  | divByZero
  deriving DecidableEq

abbrev M (α : Type) := Run Wasi Event Trap α

/-! ## Raw accesses and checks -/

/-- `((u64)(a)) + sz > mem->size` traps. -/
def memcheckSize (a sz : UInt64) : M Unit := do
  let w ← Run.get
  if (a + sz).toNat > w.instanceMemory.size then
    Run.log (.check a.toNat sz.toNat false)
    Run.stop .oob
  else Run.log (.check a.toNat sz.toNat true)

/-- `memcpy` out of `&mem->data[a]`. -/
def rawRead (kind : AccessKind) (a n : Nat) : M (List UInt8) := do
  Run.log (.access kind a n)
  let w ← Run.get
  pure (w.instanceMemory.read a n)

/-- `memcpy` to `&mem->data[a]`. -/
def rawWrite (kind : AccessKind) (a : Nat) (bytes : List UInt8) : M Unit := do
  Run.log (.access kind a bytes.length)
  Run.modify fun w => { w with instanceMemory := w.instanceMemory.write a bytes }

/-- The little endian bytes of a word. -/
def leBytes : Nat → Nat → List UInt8
  | 0, _ => []
  | n + 1, v => UInt8.ofNat v :: leBytes n (v / 256)

def leValue : List UInt8 → Nat
  | [] => 0
  | b :: bs => b.toNat + 256 * leValue bs

def wasmI32Load (addr : UInt64) : M UInt32 := do
  memcheckSize addr 4
  let result ← rawRead .load addr.toNat 4
  pure (UInt32.ofNat (leValue result))

def wasmI32Store (addr : UInt64) (value : UInt32) : M Unit := do
  memcheckSize addr 4
  rawWrite .store addr.toNat (leBytes 4 value.toNat)

def wasmI64Store (addr : UInt64) (value : UInt64) : M Unit := do
  memcheckSize addr 8
  rawWrite .store addr.toNat (leBytes 8 value.toNat)

/-- `WASI_CHECK_COPY` of `len + 1` bytes: the string and its terminator. -/
def checkCopy (a : UInt64) (sz : UInt32) (src : List UInt8) : M Unit := do
  memcheckSize a sz.toUInt64
  rawWrite .memcpy a.toNat (src.take sz.toNat)

/-- `none` is the false return; `*ret` is then 0 and not used. -/
def safeAddU32 (a b : UInt32) : Option UInt32 :=
  if 0xffffffff - a < b then none else some (a + b)

def wasiSuccess : UInt32 := 0
def wasiBadfError : UInt32 := 8
def wasiInvalError : UInt32 := 28
def wasiPermError : UInt32 := 63

/-- `WASI_RET_ERR_ON_FAIL` of an operation that yields a word if it succeeds. -/
def retErrOnFail (exp : Option UInt32) (rest : UInt32 → M UInt32) : M UInt32 :=
  match exp with
  | none => pure wasiInvalError
  | some v => rest v

/-! ## Clock operations -/

def osTranslateClockId (wasmClockId : UInt32) : PosixClock :=
  if wasmClockId = 0 then .realtime
  else if wasmClockId = 1 then .monotonic
  else if wasmClockId = 2 then .processCputime
  else if wasmClockId = 3 then .threadCputime
  else .realtime

def billion : Int := 1000000000

/-- A product of `LONGLONG` operands, in 64 bits. -/
def longlong (v : Int) : Int := v.bmod 18446744073709551616

/-- The return code and `out_struct` after the call, which a failure leaves as it was; `none` is
    a division by zero. -/
def osClockGettime (w : Wasi) (clockId : UInt32) : Option (Int × Timespec) :=
  match w.clockData with
  | .windows countsPerSec =>
    if countsPerSec ≤ 0 then some (-1, w.outStruct)
    else match w.clockOutcome.queryPerformanceCounter with
      | none => some (-1, w.outStruct)
      | some count =>
        let scaled := longlong (count.tmod countsPerSec * billion)
        some (0, ⟨count.tdiv countsPerSec, scaled.tdiv countsPerSec⟩)
  | .mac numer denom inittime initclock =>
    let clock := w.clockOutcome.machAbsoluteTime - initclock
    if denom = 0 then none
    else
      let nano := clock * numer.toUInt64 / denom.toUInt64
      let tvSec := inittime.tvSec + nano.toNat / billion
      let tvNsec := inittime.tvNsec + nano.toNat % billion
      some (0, ⟨tvSec + tvNsec.tdiv billion, tvNsec.tmod billion⟩)
  | .posix =>
    match w.clockOutcome.clockGettime (osTranslateClockId clockId) with
    | none => some (-1, w.outStruct)
    | some t => some (0, t)

def osClockGetres (w : Wasi) (clockId : UInt32) : Option (Int × Timespec) :=
  match w.clockData with
  | .windows _ => some (0, ⟨0, 1000⟩)
  | .mac .. => some (0, ⟨0, 1⟩)
  | .posix =>
    match w.clockOutcome.clockGetres (osTranslateClockId clockId) with
    | none => some (-1, w.outStruct)
    | some t => some (0, t)

def checkClock (clockId : UInt32) : Bool :=
  clockId == 0 || clockId == 1 || clockId == 2 || clockId == 3

/-- `((u64)tv_sec) * 1000 * 1000 * 1000 + ((u64)tv_nsec)`. -/
def timestamp (t : Timespec) : UInt64 :=
  UInt64.ofInt t.tvSec * 1000 * 1000 * 1000 + UInt64.ofInt t.tvNsec

/-- The common body: the timestamp is stored before the status is returned. -/
def clockGet (query : Wasi → UInt32 → Option (Int × Timespec)) (clockId out : UInt32) :
    M UInt32 := do
  if !checkClock clockId then pure wasiInvalError
  else
    let w ← Run.get
    match query w clockId with
    | none => Run.stop .divByZero
    | some ret => do
      wasmI64Store out.toUInt64 (timestamp ret.2)
      pure (UInt32.ofInt ret.1)

/-- `precision` is not read. -/
def clockTimeGet (clockId : UInt32) (_precision : UInt64) (out : UInt32) : M UInt32 :=
  clockGet osClockGettime clockId out

def clockResGet (clockId out : UInt32) : M UInt32 := clockGet osClockGetres clockId out

/-! ## File operations -/

/-- The outcome of the next transfer of at most `limit` bytes. -/
def nextIoResult (limit : Nat) : M Nat := do
  let w ← Run.get
  Run.modify fun w => { w with ioResults := w.ioResults.tail }
  pure (min (w.ioResults.headD limit) limit)

/-- `fwrite` of `[ptr, ptr + len)` to the stream of `fd`: some first part is emitted. -/
def fwrite (fd ptr len : UInt32) : M UInt32 := do
  let bytes ← rawRead .fwrite ptr.toNat len.toNat
  let result ← nextIoResult len.toNat
  Run.modify fun w =>
    if fd = 1 then { w with stdout := w.stdout ++ bytes.take result }
    else { w with stderr := w.stderr ++ bytes.take result }
  pure (UInt32.ofNat result)

/-- `fread` into `[ptr, ptr + len)`: some first part of the stream is delivered. -/
def fread (ptr len : UInt32) : M UInt32 := do
  Run.log (.access .fread ptr.toNat len.toNat)
  let w ← Run.get
  let result ← nextIoResult (min len.toNat w.stdin.length)
  Run.modify fun w =>
    { w with
      instanceMemory := w.instanceMemory.write ptr.toNat (w.stdin.take result)
      stdin := w.stdin.drop result }
  pure (UInt32.ofNat result)

/-- The loop of `fd_write`, with `n` descriptors left and descriptor `i` next. -/
def fdWriteLoop (fd iov pnum : UInt32) : Nat → UInt32 → UInt32 → M UInt32
  | 0, _, num => do
    wasmI32Store pnum.toUInt64 num
    pure wasiSuccess
  | n + 1, i, num => do
    let ptr ← wasmI32Load (iov + i * 8).toUInt64
    let len ← wasmI32Load (iov + i * 8 + 4).toUInt64
    memcheckSize ptr.toUInt64 len.toUInt64
    let result ← fwrite fd ptr len
    retErrOnFail (safeAddU32 num result) fun num =>
      if result ≠ len then do
        wasmI32Store pnum.toUInt64 num
        pure wasiPermError
      else fdWriteLoop fd iov pnum n (i + 1) num

def fdWrite (fd iov iovcnt pnum : UInt32) : M UInt32 :=
  if fd ≠ 1 ∧ fd ≠ 2 then pure wasiBadfError
  else fdWriteLoop fd iov pnum iovcnt.toNat 0 0

/-- The loop of `fd_read`: a short delivery leaves the loop. -/
def fdReadLoop (iov pnum : UInt32) : Nat → UInt32 → UInt32 → M UInt32
  | 0, _, num => do
    wasmI32Store pnum.toUInt64 num
    pure wasiSuccess
  | n + 1, i, num => do
    let ptr ← wasmI32Load (iov + i * 8).toUInt64
    let len ← wasmI32Load (iov + i * 8 + 4).toUInt64
    memcheckSize ptr.toUInt64 len.toUInt64
    let result ← fread ptr len
    retErrOnFail (safeAddU32 num result) fun num =>
      if result ≠ len then do
        wasmI32Store pnum.toUInt64 num
        pure wasiSuccess
      else fdReadLoop iov pnum n (i + 1) num

def fdRead (fd iov iovcnt pnum : UInt32) : M UInt32 :=
  if fd ≠ 0 then pure wasiBadfError else fdReadLoop iov pnum iovcnt.toNat 0 0

/-! ## App environment operations -/

def argvAndEnvLimit : UInt32 := 1000

/-- The strings the loops go over: `string_count` is a `u32`. -/
def chosenStrings (strings : List CString) : List CString :=
  let stringCount := UInt32.ofNat strings.length
  let chosenCount := if stringCount > argvAndEnvLimit then argvAndEnvLimit else stringCount
  strings.take chosenCount.toNat

/-- `len_plus_nullchar`, or `none` for a string too long to count. -/
def lenPlusNullchar (str : CString) : Option UInt32 :=
  if str.1.length < 0xffffffff then some (UInt32.ofNat str.1.length + 1) else none

/-- The size loop; `none` is the return of `WASI_INVAL_ERROR`. -/
def stringsSizesLoop : List CString → UInt32 → Option UInt32
  | [], currBufSize => some currBufSize
  | str :: strings, currBufSize => do
    let len ← lenPlusNullchar str
    let currBufSize ← safeAddU32 currBufSize len
    stringsSizesLoop strings currBufSize

def stringsSizesGet (pStrCount pStrBuffSize : UInt32) (strings : List CString) : M UInt32 :=
  retErrOnFail (stringsSizesLoop (chosenStrings strings) 0) fun currBufSize => do
    wasmI32Store pStrCount.toUInt64 (UInt32.ofNat (chosenStrings strings).length)
    wasmI32Store pStrBuffSize.toUInt64 currBufSize
    pure wasiSuccess

/-- The copy loop, with string `i` next. -/
def stringsGetLoop (pStrArr pStrBuf : UInt32) : List CString → UInt32 → UInt32 → M UInt32
  | [], _, _ => pure wasiSuccess
  | str :: strings, i, currBufLoc =>
    retErrOnFail (safeAddU32 pStrArr (i * 4)) fun targetArgvIRef =>
    retErrOnFail (safeAddU32 pStrBuf currBufLoc) fun targetBufCurrRef => do
      wasmI32Store targetArgvIRef.toUInt64 targetBufCurrRef
      retErrOnFail (lenPlusNullchar str) fun len => do
        checkCopy targetBufCurrRef.toUInt64 len (str.1 ++ [0])
        retErrOnFail (safeAddU32 currBufLoc len) fun currBufLoc =>
          stringsGetLoop pStrArr pStrBuf strings (i + 1) currBufLoc

def stringsGet (pStrArr pStrBuf : UInt32) (strings : List CString) : M UInt32 :=
  stringsGetLoop pStrArr pStrBuf (chosenStrings strings) 0 0

def argsSizesGet (pArgc pArgvBufSize : UInt32) : M UInt32 := do
  let w ← Run.get
  stringsSizesGet pArgc pArgvBufSize w.mainArgv

def argsGet (pArgv pArgvBuf : UInt32) : M UInt32 := do
  let w ← Run.get
  stringsGet pArgv pArgvBuf w.mainArgv

def environSizesGet (pEnvCount pEnvBufSize : UInt32) : M UInt32 := do
  let w ← Run.get
  stringsSizesGet pEnvCount pEnvBufSize w.env

def environGet (pEnv pEnvBuf : UInt32) : M UInt32 := do
  let w ← Run.get
  stringsGet pEnv pEnvBuf w.env

/-- One call of the guest, with its arguments. -/
inductive WasiCall where
  | clockTimeGet (clockId : UInt32) (precision : UInt64) (out : UInt32)
  | clockResGet (clockId out : UInt32)
  | fdWrite (fd iov iovcnt pnum : UInt32)
  | fdRead (fd iov iovcnt pnum : UInt32)
  | argsSizesGet (pArgc pArgvBufSize : UInt32)
  | argsGet (pArgv pArgvBuf : UInt32)
  | environSizesGet (pEnvCount pEnvBufSize : UInt32)
  | environGet (pEnv pEnvBuf : UInt32)

def WasiCall.run : WasiCall → M UInt32
  | .clockTimeGet clockId precision out => MinWasi.clockTimeGet clockId precision out
  | .clockResGet clockId out => MinWasi.clockResGet clockId out
  | .fdWrite fd iov iovcnt pnum => MinWasi.fdWrite fd iov iovcnt pnum
  | .fdRead fd iov iovcnt pnum => MinWasi.fdRead fd iov iovcnt pnum
  | .argsSizesGet pArgc pArgvBufSize => MinWasi.argsSizesGet pArgc pArgvBufSize
  | .argsGet pArgv pArgvBuf => MinWasi.argsGet pArgv pArgvBuf
  | .environSizesGet pEnvCount pEnvBufSize => MinWasi.environSizesGet pEnvCount pEnvBufSize
  | .environGet pEnv pEnvBuf => MinWasi.environGet pEnv pEnvBuf

end RlboxWasm2c.MinWasi

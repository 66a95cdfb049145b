import Mathlib.Data.Fintype.Basic
import RlboxWasm2c.Clocks
import RlboxWasm2c.Resources

/- The clock data of the Windows and macOS back ends: the static data of the process, filled
   by `os_clock_init`, and the copy that `os_clock_init_instance` makes for each sandbox.

   `os_clock_init` runs under the `call_once` of `impl_create_sandbox`, whose result stays in
   a local of the attempt that ran it, and again in `os_clock_init_instance` while the static
   data are not initialized, where its result is discarded. `clock_ready_iff`: every attempt
   that returns true finds the clock initialized, and every created sandbox converts with a
   positive factor, if and only if no create gets through whose second run fails.

   Correspondence (C ↔ Lean):
     `g_wasi_win_clock_info`,
     `g_wasi_mac_clock_info`,
     `g_os_data_initialized`      ↔ `OsData`
     `os_clock_init`              ↔ `osClockInit`
     `os_clock_init_instance`     ↔ `ClockProcess.osClockInitInstance`
     `os_clock_cleanup_instance`  ↔ `ClockProcess.osClockCleanupInstance`
     `std::call_once`             ↔ `ClockProcess.callOnce`
     `impl_create_sandbox`        ↔ `ClockProcess.implCreateSandbox`
     `impl_destroy_sandbox`       ↔ `ClockProcess.implDestroySandbox`
   The fields of an object besides `clock_data` are those of `Holder`. -/
namespace RlboxWasm2c
open MinWasi Runs

/-! ## The static data -/

/-- The back ends with clock data. -/
inductive BackEnd where
  | windows
  | mac
  deriving DecidableEq

/-- `wasi_win_clock_info_t` and `wasi_mac_clock_info_t`. -/
inductive ClockInfo : BackEnd → Type
  | windows (countsPerSec : Int) : ClockInfo .windows
  | mac (numer denom : UInt32) (inittime : Timespec) (initclock : UInt64) : ClockInfo .mac

/-- What `clock_data` points to in a clock call. -/
def ClockInfo.data {b : BackEnd} : ClockInfo b → ClockData
  | .windows countsPerSec => .windows countsPerSec
  | .mac numer denom inittime initclock => .mac numer denom inittime initclock

/-- Static data start as zeros. -/
def ClockInfo.zero : (b : BackEnd) → ClockInfo b
  | .windows => .windows 0
  | .mac => .mac 0 0 ⟨0, 0⟩ 0

/-- One call of `QueryPerformanceFrequency`: what it leaves in the variable, and whether it
    returns non-zero. Then the frequency is positive. -/
structure QueryPerformanceFrequency where
  countsPerSec : Int
  succeeds : Bool
  positive : succeeds = true → 0 < countsPerSec

/-- One call of `mach_timebase_info`: what it leaves in the variable, and whether it returns 0.
    Then both numbers are positive. -/
structure MachTimebaseInfo where
  numer : UInt32
  denom : UInt32
  succeeds : Bool
  positive : succeeds = true → 0 < numer ∧ 0 < denom

/-- What the primitives of one run of `os_clock_init` answer; `gettimeofday` gives seconds
    and microseconds, or fails. -/
inductive InitOutcome : BackEnd → Type
  | windows (frequency : QueryPerformanceFrequency) : InitOutcome .windows
  | mac (timebase : MachTimebaseInfo) (gettimeofday : Option (Int × Int))
      (machAbsoluteTime : UInt64) : InitOutcome .mac

structure OsData (b : BackEnd) where
  clockInfo : ClockInfo b
  osDataInitialized : Bool

def OsData.initial (b : BackEnd) : OsData b := ⟨.zero b, false⟩

/-- The result and the static data after it. On macOS a run that fails at `gettimeofday` has
    already written the timebase. -/
def osClockInit {b : BackEnd} : InitOutcome b → OsData b → Bool × OsData b
  | .windows frequency, d =>
    let d := { d with clockInfo := .windows frequency.countsPerSec }
    if !frequency.succeeds then (false, d) else (true, { d with osDataInitialized := true })
  | .mac timebase gettimeofday machAbsoluteTime, ⟨.mac _ _ inittime initclock, initialized⟩ =>
    let d := ⟨.mac timebase.numer timebase.denom inittime initclock, initialized⟩
    if !timebase.succeeds then (false, d)
    else match gettimeofday with
      | none => (false, d)
      | some (tvSec, tvUsec) =>
        let inittime := ⟨tvSec, tvUsec * 1000⟩
        (true, ⟨.mac timebase.numer timebase.denom inittime machAbsoluteTime, true⟩)

/-- Every primitive of the run succeeds. -/
def InitOutcome.succeeds {b : BackEnd} : InitOutcome b → Bool
  | .windows frequency => frequency.succeeds
  | .mac timebase gettimeofday _ => timebase.succeeds && gettimeofday.isSome

/-! ## The machine -/

/-- The arguments of a create and what its environment answers: the primitives of a run of
    `os_clock_init` under `call_once` and of one in `os_clock_init_instance`, whether `malloc`
    gives a block, and the memory `create_wasm2c_memory` gives. -/
structure ClockCall (b : BackEnd) (m : ModuleType) where
  infallible : Bool
  customCapacity : Option MemCapacity
  onceOutcome : InitOutcome b
  lazyOutcome : InitOutcome b
  malloc : Bool
  heap : WasmRtMemory
  heap_created : m.Creates customCapacity heap

/-- The call as one on a `Holder`, once it is known whether minwasi was initialized. -/
def ClockCall.onHolder {b : BackEnd} {m : ModuleType} (call : ClockCall b m)
    (minwasiInitSucceeded minwasiInitInstSucceeded : Bool) : CreateCall m where
  infallible := call.infallible
  customCapacity := call.customCapacity
  minwasiInitSucceeded := minwasiInitSucceeded
  minwasiInitInstSucceeded := minwasiInitInstSucceeded
  heap := call.heap
  heap_created := call.heap_created

/-- A block of clock data; the number tells one allocation from another. -/
structure ClockBlock (b : BackEnd) where
  number : Nat
  clockInfo : ClockInfo b

/-- The process: the flag of `call_once`, the static data, the allocations of clock data
    (their number, and those freed) and the objects, each with its `clock_data`. `outcome` is
    how the last call ended. -/
structure ClockProcess (b : BackEnd) (ι : Type) where
  initialized : Bool
  osData : OsData b
  allocated : Nat
  freed : List Nat
  holders : ι → Holder
  clockData : ι → Option (ClockBlock b)
  outcome : Option Outcome

namespace ClockProcess
variable {b : BackEnd} {ι : Type} [DecidableEq ι] {modules : ι → ModuleType}

/-- Every object is newly constructed. -/
def initial (b : BackEnd) (ι : Type) : ClockProcess b ι where
  initialized := false
  osData := .initial b
  allocated := 0
  freed := []
  holders := fun _ => .constructed
  clockData := fun _ => none
  outcome := none

def setHolder (s : ClockProcess b ι) (o : ι) (h : Holder) : ClockProcess b ι :=
  { s with holders := Function.update s.holders o h }

def setClockData (s : ClockProcess b ι) (o : ι) (p : Option (ClockBlock b)) : ClockProcess b ι :=
  { s with clockData := Function.update s.clockData o p }

def ended (s : ClockProcess b ι) (outcome : Outcome) : ClockProcess b ι :=
  { s with outcome := some outcome }

/-- `free`, of a null pointer too. -/
def free (s : ClockProcess b ι) : Option (ClockBlock b) → ClockProcess b ι
  | none => s
  | some block => { s with freed := block.number :: s.freed }

/-- The result is that of `minwasi_init` for the attempt that runs it, and true for others. -/
def callOnce (s : ClockProcess b ι) (outcome : InitOutcome b) : Bool × ClockProcess b ι :=
  if s.initialized then (true, s)
  else
    let (succeeded, d) := osClockInit outcome s.osData
    (succeeded, { s with initialized := true, osData := d })

/-- The result of the second run is discarded. -/
def lazyInit (s : ClockProcess b ι) (outcome : InitOutcome b) : ClockProcess b ι :=
  if s.osData.osDataInitialized then s
  else { s with osData := (osClockInit outcome s.osData).2 }

def osClockInitInstance (s : ClockProcess b ι) (o : ι) (outcome : InitOutcome b) (malloc : Bool) :
    Bool × ClockProcess b ι :=
  let s := s.lazyInit outcome
  if !malloc then (false, s)
  else
    (true, { s.setClockData o (some ⟨s.allocated, s.osData.clockInfo⟩) with
      allocated := s.allocated + 1 })

/-- The test is for a pointer that is null. -/
def osClockCleanupInstance (s : ClockProcess b ι) (o : ι) : ClockProcess b ι :=
  if (s.clockData o).isNone then (s.free (s.clockData o)).setClockData o none else s

def implDestroySandbox (modules : ι → ModuleType) (s : ClockProcess b ι) (o : ι) :
    ClockProcess b ι :=
  let destroyed := s.setHolder o ((s.holders o).implDestroySandbox (modules o))
  if (s.holders o).minwasiInitInstSucceeded then destroyed.osClockCleanupInstance o
  else destroyed

def fallibleDynamicCheck (modules : ι → ModuleType) (s : ClockProcess b ι) (o : ι)
    (infallible : Bool) (check : DynamicCheck) : ClockProcess b ι :=
  if infallible then s.ended (.thrown check)
  else (s.implDestroySandbox modules o).ended (.failed check)

/-- The checks behind `minwasi_init_instance` and what they guard are those of the object. -/
def implCreateSandbox (s : ClockProcess b ι) (o : ι) (call : ClockCall b (modules o)) :
    ClockProcess b ι :=
  if (s.holders o).instanceInitialized then
    s.fallibleDynamicCheck modules o call.infallible .alreadyInitialized
  else
    let (minwasiInitSucceeded, s) := s.callOnce call.onceOutcome
    if !minwasiInitSucceeded then
      s.fallibleDynamicCheck modules o call.infallible (.create .minWasi)
    else
      let (minwasiInitInstSucceeded, s) := s.osClockInitInstance o call.lazyOutcome call.malloc
      match (s.holders o).attemptCreate (call.onHolder true minwasiInitInstSucceeded) with
      | (some check, h) => (s.setHolder o h).fallibleDynamicCheck modules o call.infallible check
      | (none, h) => (s.setHolder o h).ended .created

end ClockProcess

inductive ClockInput (b : BackEnd) {ι : Type} (modules : ι → ModuleType) where
  | create (o : ι) (call : ClockCall b (modules o))
  | destroy (o : ι)

def clockStep {b : BackEnd} {ι : Type} [DecidableEq ι] {modules : ι → ModuleType}
    (i : ClockInput b modules) (s : ClockProcess b ι) : Option (ClockProcess b ι) :=
  match i with
  | .create o call => some (s.implCreateSandbox o call)
  | .destroy o => some ((s.implDestroySandbox modules o).ended .destroyed)

/-! ## Clocks that convert -/

/-- What `os_clock_gettime` scales a count by. -/
def ClockInfo.factor {b : BackEnd} : ClockInfo b → Int
  | .windows countsPerSec => countsPerSec
  | .mac _ denom _ _ => denom.toNat

/-- What `os_clock_gettime` divides by, besides `BILLION`. -/
def divisors (w : Wasi) : List Int :=
  match w.clockData with
  | .windows countsPerSec =>
    if countsPerSec ≤ 0 then []
    else match w.clockOutcome.queryPerformanceCounter with
      | none => []
      | some _ => [countsPerSec]
  | .mac _ denom _ _ => [denom.toNat]
  | .posix => []

/-- The factor is not zero, and no clock call on this data divides by zero. -/
structure ClockInfo.Converts {b : BackEnd} (info : ClockInfo b) : Prop where
  factor : info.factor ≠ 0
  divides : ∀ w : Wasi, w.clockData = info.data → 0 ∉ divisors w

/-- The last create returned true only with the static data initialized, and every created
    sandbox converts. -/
structure ClockReady {b : BackEnd} {ι : Type} (s : ClockProcess b ι) : Prop where
  returned : s.outcome = some .created → s.osData.osDataInitialized = true
  converts : ∀ o, (s.holders o).instanceInitialized = true →
    ∃ block, s.clockData o = some block ∧ block.clockInfo.Converts

/-- A check behind `minwasi_init_instance` fails. -/
def ClockCall.LaterFails {b : BackEnd} {m : ModuleType} (call : ClockCall b m) : Prop :=
  (call.customCapacity.any fun c => !c.isValid) = true ∨
    m.config.isImportedMemoryAndTable = true ∧
      (call.heap.data = nullptr ∨ m.isMemory64 = true)

instance {b : BackEnd} {m : ModuleType} (call : ClockCall b m) : Decidable call.LaterFails :=
  inferInstanceAs (Decidable ((call.customCapacity.any fun c => !c.isValid) = true ∨
    m.config.isImportedMemoryAndTable = true ∧
      (call.heap.data = nullptr ∨ m.isMemory64 = true)))

/-- Where a create behind a failed `call_once` gets through, the second run succeeds. -/
def InitializesClock {b : BackEnd} {ι : Type} {modules : ι → ModuleType} (s : ClockProcess b ι) :
    ClockInput b modules → Prop
  | .create o call =>
    (s.holders o).instanceInitialized = false →
    s.initialized = true ∧ s.osData.osDataInitialized = false →
    call.malloc = true ∧ ¬ call.LaterFails →
    call.lazyOutcome.succeeds = true
  | .destroy _ => True

instance {b : BackEnd} {ι : Type} {modules : ι → ModuleType} (s : ClockProcess b ι) :
    DecidablePred fun i : ClockInput b modules => InitializesClock s i
  | .create o call =>
    inferInstanceAs (Decidable ((s.holders o).instanceInitialized = false →
      s.initialized = true ∧ s.osData.osDataInitialized = false →
      call.malloc = true ∧ ¬ call.LaterFails → call.lazyOutcome.succeeds = true))
  | .destroy _ => .isTrue trivial

/-! ## The static data -/

section osData
variable {b : BackEnd}

theorem osClockInit_result (outcome : InitOutcome b) (d : OsData b) :
    (osClockInit outcome d).1 = outcome.succeeds := by
  cases outcome with
  | windows frequency =>
    cases hfrequency : frequency.succeeds <;>
      simp only [osClockInit, InitOutcome.succeeds, hfrequency] <;> rfl
  | mac timebase gettimeofday machAbsoluteTime =>
    obtain ⟨⟨numer, denom, inittime, initclock⟩, initialized⟩ := d
    cases htimebase : timebase.succeeds <;> cases gettimeofday <;>
      simp only [osClockInit, InitOutcome.succeeds, htimebase] <;> rfl

/-- A run marks the static data initialized exactly where it succeeds. -/
theorem osClockInit_initialized (outcome : InitOutcome b) (d : OsData b) :
    (osClockInit outcome d).2.osDataInitialized = (d.osDataInitialized || outcome.succeeds) := by
  cases outcome with
  | windows frequency =>
    cases hfrequency : frequency.succeeds <;>
      simp only [osClockInit, InitOutcome.succeeds, hfrequency] <;> simp
  | mac timebase gettimeofday machAbsoluteTime =>
    obtain ⟨⟨numer, denom, inittime, initclock⟩, initialized⟩ := d
    cases htimebase : timebase.succeeds <;> cases gettimeofday <;>
      simp only [osClockInit, InitOutcome.succeeds, htimebase] <;> simp

theorem ClockInfo.converts_of_pos {info : ClockInfo b} (hpos : 0 < info.factor) :
    info.Converts where
  factor := by omega
  divides := by
    intro w hw
    unfold divisors
    rw [hw]
    cases info with
    | windows countsPerSec =>
      have hnot : ¬ countsPerSec ≤ 0 := Int.not_le.mpr hpos
      simp only [ClockInfo.data, if_neg hnot]
      cases w.clockOutcome.queryPerformanceCounter with
      | none => exact List.not_mem_nil
      | some count => exact fun hmem => hnot (List.mem_singleton.mp hmem).ge
    | mac numer denom inittime initclock =>
      exact fun hmem => absurd (List.mem_singleton.mp hmem) hpos.ne

theorem osClockInit_converts (outcome : InitOutcome b) (d : OsData b)
    (hsucceeds : outcome.succeeds = true) : (osClockInit outcome d).2.clockInfo.Converts := by
  apply ClockInfo.converts_of_pos
  cases outcome with
  | windows frequency =>
    have hfrequency : frequency.succeeds = true := hsucceeds
    simp only [osClockInit, hfrequency]
    exact frequency.positive hfrequency
  | mac timebase gettimeofday machAbsoluteTime =>
    obtain ⟨⟨numer, denom, inittime, initclock⟩, initialized⟩ := d
    obtain ⟨htimebase, hmicro⟩ := Bool.and_eq_true_iff.mp hsucceeds
    obtain ⟨micro, rfl⟩ := Option.isSome_iff_exists.mp hmicro
    simp only [osClockInit, htimebase]
    exact Int.natCast_pos.mpr (UInt32.lt_iff_toNat_lt.mp (timebase.positive htimebase).2)

/-- Data marked initialized convert. -/
def OsData.Sound (d : OsData b) : Prop := d.osDataInitialized = true → d.clockInfo.Converts

theorem osClockInit_sound (outcome : InitOutcome b) {d : OsData b}
    (hd : d.osDataInitialized = false) : (osClockInit outcome d).2.Sound := by
  intro hinit
  rw [osClockInit_initialized, hd, Bool.false_or] at hinit
  exact osClockInit_converts outcome d hinit

end osData

/-! ## What a call does -/

namespace ClockProcess

section calls
variable {b : BackEnd} {ι : Type} {modules : ι → ModuleType} {o : ι}

/-- The static data behind `call_once`. -/
def onceData (s : ClockProcess b ι) (outcome : InitOutcome b) : OsData b :=
  if s.initialized then s.osData else (osClockInit outcome s.osData).2

/-- The process with these static data behind `call_once`. -/
def withOsData (s : ClockProcess b ι) (d : OsData b) : ClockProcess b ι :=
  { s with initialized := true, osData := d }

theorem callOnce_eq (s : ClockProcess b ι) (outcome : InitOutcome b) :
    s.callOnce outcome =
      (s.initialized || outcome.succeeds, s.withOsData (s.onceData outcome)) := by
  unfold callOnce onceData withOsData
  obtain ⟨initialized, _, _, _, _, _, _⟩ := s
  cases initialized with
  | true => rfl
  | false =>
    simp only [Bool.false_eq_true, if_false, Bool.false_or]
    rw [← osClockInit_result outcome]

/-- The static data once `os_clock_init_instance` looked at them. -/
def lazyData (d : OsData b) (outcome : InitOutcome b) : OsData b :=
  if d.osDataInitialized then d else (osClockInit outcome d).2

theorem lazyInit_eq (s : ClockProcess b ι) (d : OsData b) (outcome : InitOutcome b) :
    (s.withOsData d).lazyInit outcome = s.withOsData (lazyData d outcome) := by
  unfold lazyInit lazyData
  show (if d.osDataInitialized = true then _ else _) = _
  split <;> rfl

/-! ### The checks on the object -/

theorem createMemory_flags (h : Holder) (heap : WasmRtMemory) :
    (h.createMemory heap).minwasiInitInstSucceeded = h.minwasiInitInstSucceeded ∧
      (h.createMemory heap).instanceInitialized = h.instanceInitialized := by
  unfold Holder.createMemory
  dsimp only
  split <;> exact ⟨rfl, rfl⟩

/-- What a create does to the two flags from `minwasi_init_instance` on: it gets through, or
    a check behind fails. -/
inductive Rest {m : ModuleType} (call : ClockCall b m) (flag : Bool) :
    Option DynamicCheck × Holder → Prop
  | failed (check : DynamicCheck) (h : Holder) (hflag : h.minwasiInitInstSucceeded = flag)
      (hlive : h.instanceInitialized = false) (hfails : flag = true → call.LaterFails) :
      Rest call flag (some check, h)
  | created (h : Holder) (hflag : h.minwasiInitInstSucceeded = flag)
      (hlive : h.instanceInitialized = true) (hmalloc : flag = true)
      (hpasses : ¬ call.LaterFails) : Rest call flag (none, h)

theorem attemptCreate_rest {m : ModuleType} (call : ClockCall b m) {h : Holder} (flag : Bool)
    (hlive : h.instanceInitialized = false) :
    Rest call flag (h.attemptCreate (call.onHolder true flag)) := by
  unfold Holder.attemptCreate
  dsimp only
  -- the checks in their order
  split
  · next hinit =>
    rw [hlive] at hinit
    cases hinit
  split
  · next hminwasi => cases hminwasi
  have hflags := createMemory_flags { h with minwasiInitInstSucceeded := flag } call.heap
  have hlive' := hflags.2.trans hlive
  split
  · next hinstance =>
    rw [Bool.not_eq_true'] at hinstance
    exact .failed _ _ rfl hlive fun hflag => absurd (hinstance.symm.trans hflag) Bool.false_ne_true
  next hinstance =>
  have hflag : flag = true := by
    rwa [Bool.not_eq_true', Bool.not_eq_false] at hinstance
  split
  · next hcapacity => exact .failed _ _ rfl hlive fun _ => .inl hcapacity
  next hcapacity =>
  split
  · next himported =>
    split
    · next hdata => exact .failed _ _ hflags.1 hlive' fun _ => .inr ⟨himported, .inl hdata⟩
    next hdata =>
    split
    · next hmemory => exact .failed _ _ hflags.1 hlive' fun _ => .inr ⟨himported, .inr hmemory⟩
    next hmemory =>
    split
    · next hmisaligned =>
      obtain ⟨haligned, hbits⟩ := Bool.and_eq_true_iff.mp hmisaligned
      exact absurd (Creates.aligned call.heap_created hdata haligned) (of_decide_eq_true hbits)
    · refine .created _ hflags.1 rfl hflag ?_
      rintro (hinvalid | ⟨-, hnull | h64⟩)
      · exact hcapacity hinvalid
      · exact hdata hnull
      · exact hmemory h64
  · next hexported =>
    refine .created _ rfl rfl hflag ?_
    rintro (hinvalid | ⟨himported, -⟩)
    · exact hcapacity hinvalid
    · exact hexported himported

variable [DecidableEq ι]

/-! ### Destroying -/

/-- The cleanup frees a null pointer and sets it to null, or does nothing. -/
theorem osClockCleanupInstance_eq (s : ClockProcess b ι) (o : ι) :
    s.osClockCleanupInstance o = s := by
  unfold osClockCleanupInstance
  split
  · next hnull =>
    have hdata := Option.isNone_iff_eq_none.mp hnull
    rw [hdata]
    show ({ s with clockData := Function.update s.clockData o none } : ClockProcess b ι) = s
    rw [← hdata, Function.update_eq_self]
  · rfl

theorem implDestroySandbox_eq (s : ClockProcess b ι) (o : ι) :
    s.implDestroySandbox modules o =
      s.setHolder o ((s.holders o).implDestroySandbox (modules o)) := by
  unfold implDestroySandbox
  split
  · exact osClockCleanupInstance_eq _ o
  · rfl

/-! ### Creating -/

/-- The object gets a new block with a copy of the static data. -/
def copyData (s : ClockProcess b ι) (o : ι) : ClockProcess b ι :=
  { s.setClockData o (some ⟨s.allocated, s.osData.clockInfo⟩) with
    allocated := s.allocated + 1 }

/-- The process behind `minwasi_init_instance`. -/
def afterInit (s : ClockProcess b ι) (o : ι) {m : ModuleType} (call : ClockCall b m) :
    ClockProcess b ι :=
  let s := s.withOsData (lazyData (s.onceData call.onceOutcome) call.lazyOutcome)
  if call.malloc then s.copyData o else s

theorem osClockInitInstance_eq (s : ClockProcess b ι) (o : ι) {m : ModuleType}
    (call : ClockCall b m) :
    (s.withOsData (s.onceData call.onceOutcome)).osClockInitInstance o call.lazyOutcome
        call.malloc = (call.malloc, s.afterInit o call) := by
  unfold osClockInitInstance afterInit
  rw [lazyInit_eq]
  cases call.malloc <;> rfl

theorem afterInit_holders (s : ClockProcess b ι) (o : ι) {m : ModuleType} (call : ClockCall b m) :
    (s.afterInit o call).holders = s.holders := by
  unfold afterInit
  cases call.malloc <;> rfl

/-- How far a create comes. -/
inductive Attempted (s : ClockProcess b ι) (call : ClockCall b (modules o)) :
    ClockProcess b ι → Prop
  | initialized (hlive : (s.holders o).instanceInitialized = true) :
      Attempted s call (s.fallibleDynamicCheck modules o call.infallible .alreadyInitialized)
  | minWasi (hlive : (s.holders o).instanceInitialized = false)
      (hfails : (s.initialized || call.onceOutcome.succeeds) = false) :
      Attempted s call ((s.withOsData (s.onceData call.onceOutcome)).fallibleDynamicCheck modules
        o call.infallible (.create .minWasi))
  | failed (check : DynamicCheck) (h : Holder)
      (hlive : (s.holders o).instanceInitialized = false)
      (honce : (s.initialized || call.onceOutcome.succeeds) = true)
      (hflag : h.minwasiInitInstSucceeded = call.malloc) (hlive' : h.instanceInitialized = false)
      (hfails : call.malloc = true → call.LaterFails) :
      Attempted s call (((s.afterInit o call).setHolder o h).fallibleDynamicCheck modules o
        call.infallible check)
  | created (h : Holder) (hlive : (s.holders o).instanceInitialized = false)
      (honce : (s.initialized || call.onceOutcome.succeeds) = true)
      (hflag : h.minwasiInitInstSucceeded = true) (hlive' : h.instanceInitialized = true)
      (hmalloc : call.malloc = true) (hpasses : ¬ call.LaterFails) :
      Attempted s call (((s.afterInit o call).setHolder o h).ended .created)

theorem implCreateSandbox_cases (s : ClockProcess b ι) (call : ClockCall b (modules o)) :
    Attempted s call (s.implCreateSandbox o call) := by
  unfold implCreateSandbox
  rw [callOnce_eq]
  dsimp only
  split
  · next hlive => exact .initialized hlive
  next hlive =>
  have hlive' : (s.holders o).instanceInitialized = false := by simpa using hlive
  split
  · next hfails => exact .minWasi hlive' (by simpa using hfails)
  next honce =>
  have honce' : (s.initialized || call.onceOutcome.succeeds) = true := by
    rwa [Bool.not_eq_true', Bool.not_eq_false] at honce
  rw [osClockInitInstance_eq]
  dsimp only
  rw [afterInit_holders]
  have hrest := attemptCreate_rest call call.malloc hlive'
  generalize (s.holders o).attemptCreate (call.onHolder true call.malloc) = r at hrest ⊢
  cases hrest with
  | failed check h hflag hlive₁ hfails =>
    exact .failed check h hlive' honce' hflag hlive₁ hfails
  | created h hflag hlive₁ hmalloc hpasses =>
    exact .created h hlive' honce' (hflag.trans hmalloc) hlive₁ hmalloc hpasses

theorem fallibleDynamicCheck_eq (s : ClockProcess b ι) (o : ι) (infallible : Bool)
    (check : DynamicCheck) :
    s.fallibleDynamicCheck modules o infallible check =
      if infallible then s.ended (.thrown check)
      else
        (s.setHolder o ((s.holders o).implDestroySandbox (modules o))).ended (.failed check) := by
  unfold fallibleDynamicCheck
  rw [implDestroySandbox_eq]

end calls

/-! ## The invariant -/

/-- The static data are initialized by a create alone, and convert then. -/
structure Sound {b : BackEnd} {ι : Type} (s : ClockProcess b ι) : Prop where
  once : s.osData.osDataInitialized = true → s.initialized = true
  osData : s.osData.Sound

/-- Every created sandbox converts. -/
def Converting {b : BackEnd} {ι : Type} (s : ClockProcess b ι) : Prop :=
  ∀ o, (s.holders o).instanceInitialized = true →
    ∃ block, s.clockData o = some block ∧ block.clockInfo.Converts

section invariant
variable {b : BackEnd} {ι : Type} {modules : ι → ModuleType} {s : ClockProcess b ι}

theorem initial_sound : (initial b ι).Sound :=
  ⟨fun h => absurd h Bool.false_ne_true, fun h => absurd h Bool.false_ne_true⟩

theorem onceData_initialized (s : ClockProcess b ι) (outcome : InitOutcome b)
    (h : (s.initialized || outcome.succeeds) = true) :
    (s.onceData outcome).osDataInitialized =
      (s.osData.osDataInitialized || !s.initialized) := by
  unfold onceData
  cases hinit : s.initialized with
  | true => simp only [if_true, Bool.not_true, Bool.or_false]
  | false =>
    rw [hinit, Bool.false_or] at h
    simp only [Bool.false_eq_true, if_false, osClockInit_initialized, h, Bool.not_false]

theorem onceData_sound (hs : s.Sound) (outcome : InitOutcome b) : (s.onceData outcome).Sound := by
  unfold onceData
  split
  · exact hs.osData
  · next hinit =>
    refine osClockInit_sound outcome ?_
    by_contra hdata
    exact hinit (hs.once ((Bool.not_eq_false _).mp hdata))

theorem lazyData_initialized (d : OsData b) (outcome : InitOutcome b) :
    (lazyData d outcome).osDataInitialized = (d.osDataInitialized || outcome.succeeds) := by
  unfold lazyData
  split
  · next hinit => rw [hinit, Bool.true_or]
  · exact osClockInit_initialized outcome d

theorem lazyData_sound {d : OsData b} (hd : d.Sound) (outcome : InitOutcome b) :
    (lazyData d outcome).Sound := by
  unfold lazyData
  split
  · exact hd
  · next hinit => exact osClockInit_sound outcome ((Bool.not_eq_true _).mp hinit)

theorem Sound.withOsData {d : OsData b} (hd : d.Sound) : (s.withOsData d).Sound :=
  ⟨fun _ => rfl, hd⟩

theorem Sound.ended (hs : s.Sound) (outcome : Outcome) : (s.ended outcome).Sound :=
  ⟨hs.once, hs.osData⟩

theorem Converting.ended (hs : s.Converting) (outcome : Outcome) : (s.ended outcome).Converting :=
  hs

variable [DecidableEq ι] {o : ι}

theorem afterInit_osData (s : ClockProcess b ι) (o : ι) {m : ModuleType} (call : ClockCall b m) :
    (s.afterInit o call).osData =
      lazyData (s.onceData call.onceOutcome) call.lazyOutcome := by
  unfold afterInit
  cases call.malloc <;> rfl

theorem Sound.afterInit (hs : s.Sound) {m : ModuleType} (call : ClockCall b m) :
    (s.afterInit o call).Sound where
  once := by
    intro _
    unfold ClockProcess.afterInit
    cases call.malloc <;> rfl
  osData := by
    rw [afterInit_osData]
    exact lazyData_sound (onceData_sound hs call.onceOutcome) call.lazyOutcome

theorem Sound.setHolder (hs : s.Sound) (h : Holder) : (s.setHolder o h).Sound :=
  ⟨hs.once, hs.osData⟩

theorem Sound.fallibleDynamicCheck (hs : s.Sound) (infallible : Bool) (check : DynamicCheck) :
    (s.fallibleDynamicCheck modules o infallible check).Sound := by
  rw [fallibleDynamicCheck_eq]
  cases infallible with
  | true => exact hs.ended _
  | false => exact (hs.setHolder _).ended _

theorem setHolder_self (s : ClockProcess b ι) (o : ι) (h : Holder) :
    (s.setHolder o h).holders o = h := Function.update_self ..

theorem setHolder_of_ne (s : ClockProcess b ι) {o o' : ι} (hne : o' ≠ o) (h : Holder) :
    (s.setHolder o h).holders o' = s.holders o' := Function.update_of_ne hne ..

/-- An object that is not created does not need to convert. -/
theorem Converting.setHolder (hs : s.Converting) {h : Holder}
    (hlive : h.instanceInitialized = false) : (s.setHolder o h).Converting := by
  intro o' hlive'
  have hne : o' ≠ o := by
    rintro rfl
    rw [setHolder_self, hlive] at hlive'
    cases hlive'
  rw [setHolder_of_ne s hne] at hlive'
  exact hs o' hlive'

theorem Converting.destroyed (hs : s.Converting) (m : ModuleType) :
    (s.setHolder o ((s.holders o).implDestroySandbox m)).Converting :=
  hs.setHolder (Holder.destroy_initialized m (s.holders o))

theorem Converting.fallibleDynamicCheck (hs : s.Converting) (infallible : Bool)
    (check : DynamicCheck) :
    (s.fallibleDynamicCheck modules o infallible check).Converting := by
  rw [fallibleDynamicCheck_eq]
  cases infallible with
  | true => exact hs.ended _
  | false => exact (hs.destroyed (modules o)).ended _

/-- The other objects keep their clock data. -/
theorem afterInit_clockData_of_ne (s : ClockProcess b ι) {o o' : ι} (hne : o' ≠ o)
    {m : ModuleType} (call : ClockCall b m) :
    (s.afterInit o call).clockData o' = s.clockData o' := by
  unfold ClockProcess.afterInit
  cases call.malloc with
  | true => exact Function.update_of_ne hne ..
  | false => rfl

/-- A create on an object changes the clock data of no other. -/
theorem Converting.afterInit (hs : s.Converting) {m : ModuleType} (call : ClockCall b m)
    {h : Holder} (hsets : h.instanceInitialized = true →
      ∃ block, (s.afterInit o call).clockData o = some block ∧ block.clockInfo.Converts) :
    ((s.afterInit o call).setHolder o h).Converting := by
  intro o' hlive'
  by_cases hne : o' = o
  · subst hne
    rw [setHolder_self] at hlive'
    exact hsets hlive'
  · rw [setHolder_of_ne _ hne, afterInit_holders] at hlive'
    obtain ⟨block, hblock, hconverts⟩ := hs o' hlive'
    exact ⟨block, (afterInit_clockData_of_ne s hne call).trans hblock, hconverts⟩

/-- The copy is made of the static data. -/
theorem afterInit_block (s : ClockProcess b ι) (o : ι) {m : ModuleType} {call : ClockCall b m}
    (hmalloc : call.malloc = true) :
    ∃ block, (s.afterInit o call).clockData o = some block ∧
      block.clockInfo = (s.afterInit o call).osData.clockInfo := by
  unfold ClockProcess.afterInit
  rw [hmalloc]
  exact ⟨_, Function.update_self .., rfl⟩

/-- Whether the static data are initialized behind `minwasi_init_instance`. -/
theorem afterInit_initialized {m : ModuleType} {call : ClockCall b m}
    (honce : (s.initialized || call.onceOutcome.succeeds) = true) :
    (s.afterInit o call).osData.osDataInitialized = true ↔
      (s.initialized = true ∧ s.osData.osDataInitialized = false →
        call.lazyOutcome.succeeds = true) := by
  rw [afterInit_osData, lazyData_initialized, onceData_initialized s _ honce]
  cases s.initialized <;> cases s.osData.osDataInitialized <;> simp

end invariant

end ClockProcess

/-! ## Runs -/

section runs
variable {b : BackEnd} {ι : Type} {modules : ι → ModuleType} {s : ClockProcess b ι} {o : ι}

theorem initial_ready : ClockReady (.initial b ι) where
  returned := fun h => nomatch h
  converts := fun _ hlive => absurd hlive Bool.false_ne_true

variable [DecidableEq ι]

/-- A create that fails returns no true, and leaves the created sandboxes as they are. -/
theorem failed_ready (hs : s.Converting) (infallible : Bool) (check : DynamicCheck) :
    ClockReady (s.fallibleDynamicCheck modules o infallible check) where
  returned := by
    intro houtcome
    rw [ClockProcess.fallibleDynamicCheck_eq] at houtcome
    cases infallible <;> cases houtcome
  converts := hs.fallibleDynamicCheck infallible check

theorem created_ready_iff (hs : s.Sound) (hready : s.Converting) {m : ModuleType}
    {call : ClockCall b m} {h : Holder}
    (honce : (s.initialized || call.onceOutcome.succeeds) = true) (hmalloc : call.malloc = true) :
    ClockReady (((s.afterInit o call).setHolder o h).ended .created) ↔
      (s.initialized = true ∧ s.osData.osDataInitialized = false →
        call.lazyOutcome.succeeds = true) := by
  refine Iff.trans ⟨fun hready' => hready'.returned rfl, fun hinit => ⟨fun _ => hinit, ?_⟩⟩
    (ClockProcess.afterInit_initialized (o := o) honce)
  -- the new sandbox has a copy of static data that convert
  refine hready.afterInit call fun _ => ?_
  obtain ⟨block, hblock, hinfo⟩ := ClockProcess.afterInit_block s o hmalloc
  refine ⟨block, hblock, ?_⟩
  rw [hinfo]
  exact (hs.afterInit call).osData hinit

theorem create_ready_iff (hs : s.Sound) (hready : s.Converting) (call : ClockCall b (modules o)) :
    (s.implCreateSandbox o call).Sound ∧
      (ClockReady (s.implCreateSandbox o call) ↔ InitializesClock s (.create o call)) := by
  have hattempt := ClockProcess.implCreateSandbox_cases s call
  generalize s.implCreateSandbox o call = s' at hattempt
  cases hattempt with
  | initialized hlive =>
    refine ⟨hs.fallibleDynamicCheck _ _, iff_of_true (failed_ready hready _ _) ?_⟩
    intro hdead
    rw [hlive] at hdead
    cases hdead
  | minWasi hlive hfails =>
    have honce := ClockProcess.onceData_sound hs call.onceOutcome
    have hready' : (s.withOsData (s.onceData call.onceOutcome)).Converting := hready
    refine ⟨?_, iff_of_true (failed_ready hready' _ _) ?_⟩
    · exact (ClockProcess.Sound.withOsData honce).fallibleDynamicCheck _ _
    · -- the attempt that ran `call_once` knows its result
      rintro - ⟨hinit, -⟩
      rw [hinit] at hfails
      cases hfails
  | failed check h hlive honce hflag hlive' hfails =>
    refine ⟨((hs.afterInit call).setHolder h).fallibleDynamicCheck _ _,
      iff_of_true (failed_ready ?_ _ _) ?_⟩
    · refine hready.afterInit call fun h' => ?_
      rw [hlive'] at h'
      cases h'
    · rintro - - ⟨hmalloc, hpasses⟩
      exact absurd (hfails hmalloc) hpasses
  | created h hlive honce hflag hlive' hmalloc hpasses =>
    refine ⟨((hs.afterInit call).setHolder h).ended _, ?_⟩
    refine (created_ready_iff hs hready honce hmalloc).trans ?_
    exact ⟨fun hlazy _ hdata _ => hlazy hdata, fun h hdata => h hlive hdata ⟨hmalloc, hpasses⟩⟩

theorem clockStep_ready (s : ClockProcess b ι) (i : ClockInput b modules) (hs : s.Sound)
    (hready : ClockReady s) :
    ∃ s', clockStep i s = some s' ∧ s'.Sound ∧ (ClockReady s' ↔ InitializesClock s i) := by
  cases i with
  | create o call => exact ⟨_, rfl, create_ready_iff hs hready.converts call⟩
  | destroy o =>
    refine ⟨_, rfl, ?_, iff_of_true ?_ trivial⟩
    · rw [ClockProcess.implDestroySandbox_eq]
      exact (hs.setHolder _).ended _
    · refine ⟨fun h => (nomatch h), ?_⟩
      rw [ClockProcess.implDestroySandbox_eq]
      exact ClockProcess.Converting.destroyed hready.converts (modules o)

end runs

/-- Throughout a run of creates and destroys on any objects, every create that returns true
    finds the static data initialized and every created sandbox converts, if and only if no
    create that finds them not initialized behind `call_once` gets through without
    initializing them. -/
theorem clock_ready_iff (b : BackEnd) {ι : Type} [DecidableEq ι] (modules : ι → ModuleType)
    (is : List (ClockInput b modules)) :
    (∀ is₁ s, is₁ <+: is → exec clockStep is₁ (.initial b ι) = some s → ClockReady s) ↔
      Meets clockStep InitializesClock is (.initial b ι) :=
  holds_throughout_iff (fun s i hs hready _ => clockStep_ready s i hs hready)
    ClockProcess.initial_sound initial_ready (meets_true is _)

/-- `mach_timebase_info` fails and leaves zeros. -/
def failingTimebase : InitOutcome .mac := .mac ⟨0, 0, false, nofun⟩ none 0

/-- A fallible create for which everything but the clock works. -/
def createWithoutClock : ClockCall .mac (onePageModule false) :=
  ⟨false, none, failingTimebase, failingTimebase, true, onePageHeap, onePageHeap_created false⟩

/-- Such creates on two objects in turn. -/
def createsWithoutClock : List (ClockInput .mac fun _ : Bool => onePageModule false) :=
  [.create false createWithoutClock, .create true createWithoutClock]

/-- The first create fails for the clock; the second one returns true, and the clock of its
    sandbox divides by zero. -/
theorem created_without_clock :
    (∃ s, exec clockStep (createsWithoutClock.take 1) (.initial .mac Bool) = some s ∧
      s.outcome = some (.failed (.create .minWasi))) ∧
    ∃ s, exec clockStep createsWithoutClock (.initial .mac Bool) = some s ∧
      s.outcome = some .created ∧ s.osData.osDataInitialized = false ∧
      (∃ block, s.clockData true = some block ∧
        ∀ w : Wasi, w.clockData = block.clockInfo.data → 0 ∈ divisors w) ∧
      ¬ ClockReady s := by
  refine ⟨⟨_, rfl, rfl⟩, _, rfl, rfl, rfl, ⟨⟨0, .mac 0 0 ⟨0, 0⟩ 0⟩, rfl, ?_⟩, ?_⟩
  · intro w hw
    unfold divisors
    rw [hw]
    exact List.mem_singleton_self _
  · intro hready
    exact absurd (hready.returned rfl) Bool.false_ne_true

/-- A create that runs into a failing clock first and into a working one in the next attempt. -/
example :
    let working : InitOutcome .windows := .windows ⟨10000000, true, fun _ => by decide⟩
    let failing : InitOutcome .windows := .windows ⟨0, false, nofun⟩
    let call (once lazyOutcome : InitOutcome .windows) : ClockCall .windows (onePageModule false) :=
      ⟨false, none, once, lazyOutcome, true, onePageHeap, onePageHeap_created false⟩
    let is : List (ClockInput .windows fun _ : Unit => onePageModule false) :=
      [.create () (call failing failing), .create () (call failing working), .destroy ()]
    Meets clockStep InitializesClock is (.initial .windows Unit) := by
  decide

end RlboxWasm2c

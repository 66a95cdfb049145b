import RlboxWasm2c.Base.TwoRuns
import RlboxWasm2c.RtMem
import RlboxWasm2c.Transfers

/- All that generated code can call of `wasm2c_rt_minwasi.c`, and runs of generated code.

   `Import` are the entry points: the calls of `WasiCall`, `fd_prestat_get`, `proc_exit` and
   the stubs of `STUB_IMPORT_IMPL`. A `Guest` is any program: it reads and writes its memory,
   asks the runtime for more of it and calls imports, and what it does next may depend on all
   it has learnt so far. `Guest.run` lets it take some number of actions on a host, whose
   clocks, stack and spare memory change from action to action.

   Generated code and `wasm_rt_grow_memory` are not part of these sources. An access of
   generated code outside its memory traps, which is what sandboxed code means; what the
   runtime does for `memory.grow` is a parameter, of which `GrowMemory.AddsZeros` is assumed.

   `guest_run_contained` is about one run: what the guest may do to its host, whatever it is.
   The bound carried along is `Evolved`, from the primitives through every entry point. -/
namespace RlboxWasm2c.MinWasi
open Traced

/-! ## The other entry points -/

def wasiNosysError : UInt32 := 53

/-- `prestat` is not read. -/
def fdPrestatGet (fd _prestat : UInt32) : M UInt32 :=
  if fd = 0 ∨ fd = 1 ∨ fd = 2 then pure wasiPermError else pure wasiBadfError

/-- The functions `STUB_IMPORT_IMPL` defines, with their arguments. -/
inductive Stub where
  | fdAdvise (a : UInt32) (b c : UInt64) (d : UInt32)
  | fdAllocate (a : UInt32) (b c : UInt64)
  | fdClose (fd : UInt32)
  | fdDatasync (a : UInt32)
  | fdFdstatGet (a b : UInt32)
  | fdFdstatSetFlags (a b : UInt32)
  | fdFdstatSetRights (a : UInt32) (b c : UInt64)
  | fdFilestatGet (a b : UInt32)
  | fdFilestatSetSize (a : UInt32) (b : UInt64)
  | fdFilestatSetTimes (a : UInt32) (b c : UInt64) (d : UInt32)
  | fdPread (a b c : UInt32) (d : UInt64) (e : UInt32)
  | fdPrestatDirName (a b c : UInt32)
  | fdPwrite (a b c : UInt32) (d : UInt64) (e : UInt32)
  | fdReaddir (a b c : UInt32) (d : UInt64) (e : UInt32)
  | fdRenumber (a b : UInt32)
  | fdSeek (fd : UInt32) (offset : UInt64) (whence newOffset : UInt32)
  | fdSync (a : UInt32)
  | fdTell (a b : UInt32)
  | pathCreateDirectory (a b c : UInt32)
  | pathFilestatGet (a b c d e : UInt32)
  | pathFilestatSetTimes (a b c d : UInt32) (e f : UInt64) (g : UInt32)
  | pathLink (a b c d e f g : UInt32)
  | pathOpen (a b c d e : UInt32) (f g : UInt64) (h i : UInt32)
  | pathReadlink (a b c d e f : UInt32)
  | pathRemoveDirectory (a b c : UInt32)
  | pathRename (a b c d e f : UInt32)
  | pathSymlink (a b c d e : UInt32)
  | pathUnlinkFile (a b c : UInt32)
  | pollOneoff (a b c d : UInt32)
  | procRaise (a : UInt32)
  | randomGet (a b : UInt32)
  | schedYield
  | sockAccept (a b c : UInt32)
  | sockRecv (a b c d e f : UInt32)
  | sockSend (a b c d e : UInt32)
  | sockShutdown (a b : UInt32)

/-- `STUB_IMPORT_IMPL`: nothing is read and nothing is done. -/
def Stub.run (_ : Stub) : M UInt32 := pure wasiNosysError

/-- How a run is stopped: in an entry point, by an access of the generated code itself, by
    `TRAP(WASI)`, or with the process. -/
inductive Stop where
  | trap (t : Trap)
  | accessTrap
  | trapWasi
  | exit (code : UInt32)
  deriving DecidableEq

/-- `proc_exit`; `trapOnExit` is `WASM2C_WASI_TRAP_ON_EXIT`. -/
def procExit (trapOnExit : Bool) (x : UInt32) : Run Wasi Event Stop UInt32 :=
  if trapOnExit then Run.stop .trapWasi else Run.stop (.exit x)

inductive Import where
  | wasi (c : WasiCall)
  | fdPrestatGet (fd prestat : UInt32)
  | procExit (x : UInt32)
  | stub (f : Stub)

def Import.run (trapOnExit : Bool) : Import → Run Wasi Event Stop UInt32
  | .wasi c => c.run.mapStop .trap
  | .fdPrestatGet fd prestat => (MinWasi.fdPrestatGet fd prestat).mapStop .trap
  | .procExit x => MinWasi.procExit trapOnExit x
  | .stub f => f.run.mapStop .trap

/-! ## Generated code -/

/-- `wasm_rt_grow_memory`: the memory with `delta` pages more, or none where it refuses. The first
    argument is whether the system has memory to spare at that moment. -/
abbrev GrowMemory := Bool → Memory → Nat → Option Memory

/-- The pages are added at the end and are zero, and no other byte changes; whether they are
    depends on the size of the memory and not on what is in it. -/
structure GrowMemory.AddsZeros (grow : GrowMemory) : Prop where
  size : ∀ {spare m delta m'}, grow spare m delta = some m' →
    m'.size = m.size + delta * wasmPageSize
  data : ∀ {spare m delta m'}, grow spare m delta = some m' → ∀ x,
    m'.data x = if m.size ≤ x ∧ x < m'.size then 0 else m.data x
  decides : ∀ spare delta {m m'}, m'.size = m.size →
    ((grow spare m' delta).isSome ↔ (grow spare m delta).isSome)

/-- Growth up to the 2^32 bytes of a linear memory. -/
def growWithinSpace : GrowMemory := fun spare m delta =>
  if h : spare = true ∧ m.size + delta * wasmPageSize ≤ 2 ^ 32 then
    some
      { data := fun x => if m.size ≤ x ∧ x < m.size + delta * wasmPageSize then 0 else m.data x
        size := m.size + delta * wasmPageSize
        size_le := h.2 }
  else none

theorem growWithinSpace_some {spare : Bool} {m m' : Memory} {delta : Nat}
    (h : growWithinSpace spare m delta = some m') :
    m'.size = m.size + delta * wasmPageSize ∧
      ∀ x, m'.data x = if m.size ≤ x ∧ x < m'.size then 0 else m.data x := by
  unfold growWithinSpace at h
  split at h
  · cases h
    exact ⟨rfl, fun _ => rfl⟩
  · cases h

theorem growWithinSpace_addsZeros : GrowMemory.AddsZeros growWithinSpace where
  size h := (growWithinSpace_some h).1
  data h := (growWithinSpace_some h).2
  decides spare delta {m m'} h := by
    unfold growWithinSpace
    by_cases hroom : spare = true ∧ m.size + delta * wasmPageSize ≤ 2 ^ 32
    · have hroom' : spare = true ∧ m'.size + delta * wasmPageSize ≤ 2 ^ 32 := by rwa [h]
      rw [dif_pos hroom, dif_pos hroom']
      exact Iff.rfl
    · have hroom' : ¬(spare = true ∧ m'.size + delta * wasmPageSize ≤ 2 ^ 32) := by rwa [h]
      rw [dif_neg hroom, dif_neg hroom']

inductive Action where
  | load (a n : Nat)
  | store (a : Nat) (bytes : List UInt8)
  | grow (delta : Nat)
  | call (i : Import)

/-- What the guest learns by an action; a memory that grows had `pages` pages before. -/
inductive Reply where
  | loaded (bytes : List UInt8)
  | stored
  | grown (pages : Nat)
  | notGrown
  | returned (errno : UInt32)

/-- A program: what it does next, if anything, and how it goes on with the reply. -/
structure Guest (γ : Type) where
  next : γ → Option Action
  resume : γ → Reply → γ

/-- What the host is like at each moment: its clocks, what lies on its stack, and whether it
    has memory to spare. -/
structure Host where
  clockOutcome : Nat → ClockOutcome
  outStruct : Nat → Timespec
  spare : Nat → Bool

def Host.tick (h : Host) (i : Nat) (w : Wasi) : Wasi :=
  { w with clockOutcome := h.clockOutcome i, outStruct := h.outStruct i }

def guestLoad (a n : Nat) : Run Wasi Event Stop Reply := do
  let w ← Run.get
  if a + n ≤ w.instanceMemory.size then pure (.loaded (w.instanceMemory.read a n))
  else Run.stop .accessTrap

def guestStore (a : Nat) (bytes : List UInt8) : Run Wasi Event Stop Reply := do
  let w ← Run.get
  if a + bytes.length ≤ w.instanceMemory.size then
    Run.modify fun w => w.store a bytes
    pure .stored
  else Run.stop .accessTrap

/-- `memory.grow`: the runtime adds the pages, or refuses. -/
def growMemory (grow : GrowMemory) (spare : Bool) (delta : Nat) : Run Wasi Event Stop Reply := do
  let w ← Run.get
  match grow spare w.instanceMemory delta with
  | none => pure .notGrown
  | some m => do
    Run.modify fun w => w.withMemory m
    pure (.grown (w.instanceMemory.size / wasmPageSize))

def Action.run (grow : GrowMemory) (trapOnExit spare : Bool) :
    Action → Run Wasi Event Stop Reply
  | .load a n => guestLoad a n
  | .store a bytes => guestStore a bytes
  | .grow delta => growMemory grow spare delta
  | .call i => do
    let errno ← i.run trapOnExit
    pure (.returned errno)

/-- At most `n` actions from moment `i` on. -/
def Guest.run {γ : Type} (g : Guest γ) (grow : GrowMemory) (trapOnExit : Bool) (h : Host) :
    Nat → Nat → γ → Run Wasi Event Stop γ
  | 0, _, s => pure s
  | n + 1, i, s =>
    match g.next s with
    | none => pure s
    | some a => do
      let reply ← Run.modify (h.tick i) >>= fun _ => a.run grow trapOnExit (h.spare i)
      g.run grow trapOnExit h n (i + 1) (g.resume s reply)

/-! ## What a call may change -/

/-- `w'` is what a host `w` can become: the memory may have grown and changed inside, bytes were
    taken from the front of the input and added at the end of the outputs. -/
structure Evolved (w w' : Wasi) : Prop where
  size : w.instanceMemory.size ≤ w'.instanceMemory.size
  outside : ∀ x, w'.instanceMemory.size ≤ x →
    w'.instanceMemory.data x = w.instanceMemory.data x
  mainArgv : w'.mainArgv = w.mainArgv
  env : w'.env = w.env
  clockData : w'.clockData = w.clockData
  stdin : w'.stdin <:+ w.stdin
  stdout : w.stdout <+: w'.stdout
  stderr : w.stderr <+: w'.stderr

theorem Evolved.refl (w : Wasi) : Evolved w w :=
  ⟨Nat.le_refl _, fun _ _ => rfl, rfl, rfl, rfl, List.suffix_refl _, List.prefix_refl _,
    List.prefix_refl _⟩

theorem Evolved.trans {w w' w'' : Wasi} (h : Evolved w w') (h' : Evolved w' w'') :
    Evolved w w'' where
  size := Nat.le_trans h.size h'.size
  outside x hx := (h'.outside x hx).trans (h.outside x (Nat.le_trans h'.size hx))
  mainArgv := h'.mainArgv.trans h.mainArgv
  env := h'.env.trans h.env
  clockData := h'.clockData.trans h.clockData
  stdin := h'.stdin.trans h.stdin
  stdout := h.stdout.trans h'.stdout
  stderr := h.stderr.trans h'.stderr

theorem Evolved.withMemory {w : Wasi} {m : Memory} (hsize : w.instanceMemory.size ≤ m.size)
    (houtside : ∀ x, m.size ≤ x → m.data x = w.instanceMemory.data x) :
    Evolved w (w.withMemory m) :=
  ⟨hsize, houtside, rfl, rfl, rfl, List.suffix_refl _, List.prefix_refl _, List.prefix_refl _⟩

theorem Evolved.store {w : Wasi} {a : Nat} {bytes : List UInt8}
    (h : a + bytes.length ≤ w.instanceMemory.size) : Evolved w (w.store a bytes) := by
  apply Evolved.withMemory
  · exact Nat.le_refl _
  · intro x hx
    exact Memory.write_data_of_not (.inr (Nat.le_trans h hx))

section evolves
variable {ε α β : Type}

/-- From every state `x` leaves what its host can become. -/
def Evolves (x : Run Wasi Event ε α) : Prop :=
  ∀ w₀, Obeys .any (Evolved w₀) x fun _ => True

theorem evolves_of {x : Run Wasi Event ε α} (h : ∀ w, Evolved w (x w).2.1) : Evolves x :=
  fun _ => obeys_any_iff.mpr fun w hw => ⟨hw.trans (h w), fun _ _ => trivial⟩

theorem Evolves.evolved {x : Run Wasi Event ε α} (h : Evolves x) (w : Wasi) :
    Evolved w (x w).2.1 :=
  (obeys_any_iff.mp (h w) w (.refl w)).1

theorem Evolves.pure (a : α) : Evolves (Pure.pure a : Run Wasi Event ε α) :=
  fun _ => Obeys.pure' trivial

theorem Evolves.bind {x : Run Wasi Event ε α} {f : α → Run Wasi Event ε β} (hx : Evolves x)
    (hf : ∀ a, Evolves (f a)) : Evolves (x >>= f) :=
  fun w₀ => Obeys.bind' (hx w₀) fun a _ => hf a w₀

theorem Evolves.ite {c : Prop} [Decidable c] {x y : Run Wasi Event ε α} (hx : Evolves x)
    (hy : Evolves y) : Evolves (if c then x else y) :=
  fun w₀ => Obeys.ite' (fun _ => hx w₀) fun _ => hy w₀

theorem Evolves.get : Evolves (Run.get : Run Wasi Event ε Wasi) := evolves_of .refl

/-- A check, and what is run behind it where the range fits. -/
theorem guarded_evolves {x : M α} (a sz : UInt32)
    (hx : ∀ w, a.toNat + sz.toNat ≤ w.instanceMemory.size → Evolved w (x w).2.1) :
    Evolves (memcheckSize a.toUInt64 sz.toUInt64 >>= fun _ => x) := by
  apply evolves_of
  intro w
  by_cases h : a.toNat + sz.toNat ≤ w.instanceMemory.size
  · rw [memcheckSize_pass h]
    exact hx w h
  · rw [memcheckSize_fail (Nat.lt_of_not_le h)]
    exact .refl w

theorem rawWrite_evolved {kind : AccessKind} {a : Nat} {bytes : List UInt8} {w : Wasi}
    (h : a + bytes.length ≤ w.instanceMemory.size) :
    Evolved w (rawWrite kind a bytes w).2.1 := Evolved.store h

theorem wasmI32Load_evolves (a : UInt32) : Evolves (wasmI32Load a.toUInt64) :=
  guarded_evolves a 4 fun w _ => .refl w

theorem wasmI32Store_evolves (a v : UInt32) : Evolves (wasmI32Store a.toUInt64 v) := by
  apply guarded_evolves a 4
  intro w h
  apply rawWrite_evolved
  rw [length_leBytes, UInt32.toNat_toUInt64]
  exact h

theorem wasmI64Store_evolves (a : UInt32) (v : UInt64) : Evolves (wasmI64Store a.toUInt64 v) := by
  apply guarded_evolves a 8
  intro w h
  apply rawWrite_evolved
  rw [length_leBytes, UInt32.toNat_toUInt64]
  exact h

theorem checkCopy_evolves (a sz : UInt32) (src : List UInt8) :
    Evolves (checkCopy a.toUInt64 sz src) := by
  apply guarded_evolves
  intro w h
  apply rawWrite_evolved
  have hle := List.length_take_le sz.toNat src
  rw [UInt32.toNat_toUInt64]
  omega

theorem retErrOnFail_evolves {exp : Option UInt32} {rest : UInt32 → M UInt32}
    (h : ∀ v, Evolves (rest v)) : Evolves (retErrOnFail exp rest) := by
  cases exp with
  | none => exact .pure _
  | some v => exact h v

theorem storeNum_evolves (pnum num status : UInt32) : Evolves (storeNum pnum num status) :=
  (wasmI32Store_evolves pnum num).bind fun _ => .pure status

/-! ### The entry points -/

theorem writer_evolved {fd ptr len : UInt32} {w : Wasi} :
    Evolved w ((writer fd).after w ptr len) := by
  show Evolved w (writeAfter fd w ptr len)
  unfold writeAfter
  split
  · exact ⟨Nat.le_refl _, fun _ _ => rfl, rfl, rfl, rfl, List.suffix_refl _,
      List.prefix_append .., List.prefix_refl _⟩
  · exact ⟨Nat.le_refl _, fun _ _ => rfl, rfl, rfl, rfl, List.suffix_refl _,
      List.prefix_refl _, List.prefix_append ..⟩

theorem reader_evolved {ptr len : UInt32} {w : Wasi}
    (h : ptr.toNat + len.toNat ≤ w.instanceMemory.size) :
    Evolved w (reader.after w ptr len) := by
  have hcount : (w.stdin.take (readCount w len)).length ≤ len.toNat :=
    Nat.le_trans (List.length_take_le ..) (reader.count_le w len)
  have hstored := Evolved.store (w := w) (a := ptr.toNat)
    (show ptr.toNat + (w.stdin.take (readCount w len)).length ≤ w.instanceMemory.size by omega)
  exact ⟨hstored.size, hstored.outside, rfl, rfl, rfl, List.drop_suffix .., List.prefix_refl _,
    List.prefix_refl _⟩

/-- Either loop, by induction on the descriptors left. -/
theorem transferLoop_evolves {x : Mover} {short iov pnum : UInt32}
    (hx : ∀ w ptr len, ptr.toNat + len.toNat ≤ w.instanceMemory.size →
      Evolved w (x.after w ptr len)) (n : Nat) :
    ∀ k num, Evolves (transferLoop x short iov pnum n k num) := by
  induction n with
  | zero => exact fun _ num => storeNum_evolves pnum num wasiSuccess
  | succ n ih =>
    intro k num
    refine (wasmI32Load_evolves _).bind fun ptr => (wasmI32Load_evolves _).bind fun len => ?_
    rw [← Run.bind_assoc']
    refine (guarded_evolves ptr len fun w h => hx w ptr len h).bind fun result => ?_
    apply retErrOnFail_evolves
    intro num'
    exact .ite (storeNum_evolves pnum num' short) (ih (k + 1) num')

theorem stringsSizesGet_evolves (pStrCount pStrBuffSize : UInt32) (strings : List CString) :
    Evolves (stringsSizesGet pStrCount pStrBuffSize strings) := by
  apply retErrOnFail_evolves
  intro currBufSize
  exact Evolves.bind (wasmI32Store_evolves pStrCount _) fun _ =>
    storeNum_evolves pStrBuffSize currBufSize wasiSuccess

theorem stringsGetLoop_evolves (pStrArr pStrBuf : UInt32) (strings : List CString) :
    ∀ i currBufLoc, Evolves (stringsGetLoop pStrArr pStrBuf strings i currBufLoc) := by
  induction strings with
  | nil => exact fun _ _ => .pure _
  | cons str strings ih =>
    intro i currBufLoc
    apply retErrOnFail_evolves
    intro targetArgvIRef
    apply retErrOnFail_evolves
    intro targetBufCurrRef
    refine (wasmI32Store_evolves targetArgvIRef targetBufCurrRef).bind fun _ => ?_
    apply retErrOnFail_evolves
    intro len
    refine (checkCopy_evolves targetBufCurrRef len _).bind fun _ => ?_
    apply retErrOnFail_evolves
    exact fun currBufLoc => ih (i + 1) currBufLoc

theorem clockGet_evolves (query : Wasi → UInt32 → Option (Int × Timespec))
    (clockId out : UInt32) : Evolves (clockGet query clockId out) := by
  refine .ite (.pure _) (Evolves.get.bind fun w => ?_)
  cases query w clockId with
  | none => exact evolves_of .refl
  | some ret => exact (wasmI64Store_evolves out _).bind fun _ => .pure _

theorem WasiCall.run_evolves (c : WasiCall) : Evolves c.run := by
  cases c with
  | clockTimeGet clockId precision out => exact clockGet_evolves osClockGettime clockId out
  | clockResGet clockId out => exact clockGet_evolves osClockGetres clockId out
  | fdWrite fd iov iovcnt pnum =>
    have hloop := fdWriteLoop_eq fd iov pnum iovcnt.toNat 0
    refine .ite (.pure _) ?_
    rw [show fdWriteLoop fd iov pnum iovcnt.toNat 0 = _ from hloop]
    exact transferLoop_evolves (fun _ _ _ _ => writer_evolved) _ 0 0
  | fdRead fd iov iovcnt pnum =>
    have hloop := fdReadLoop_eq iov pnum iovcnt.toNat 0
    refine .ite (.pure _) ?_
    rw [show fdReadLoop iov pnum iovcnt.toNat 0 = _ from hloop]
    exact transferLoop_evolves (fun _ _ _ h => reader_evolved h) _ 0 0
  | argsSizesGet pArgc pArgvBufSize =>
    exact Evolves.get.bind fun w => stringsSizesGet_evolves _ _ w.mainArgv
  | argsGet pArgv pArgvBuf => exact Evolves.get.bind fun w => stringsGetLoop_evolves _ _ _ 0 0
  | environSizesGet pEnvCount pEnvBufSize =>
    exact Evolves.get.bind fun w => stringsSizesGet_evolves _ _ w.env
  | environGet pEnv pEnvBuf => exact Evolves.get.bind fun w => stringsGetLoop_evolves _ _ _ 0 0

end evolves

/-! ## Whole runs -/

theorem Checked.mono {size size' : Nat} {L : List Event} (h : Checked size L)
    (hle : size ≤ size') : Checked size' L := by
  induction h with
  | nil => exact .nil
  | check fits _ ih => exact .check (Nat.le_trans fits hle) ih
  | access fits _ ih => exact .access (Nat.le_trans fits hle) ih

section contained
variable {α β : Type} {trapOnExit : Bool}

/-- The log of a run that ended so, in a memory of `size` bytes. -/
def LogConfined (size : Nat) : Except Stop α → List Event → Prop
  | .error (.trap .oob), L => Trapped size L
  | .error _, L => Checked size L
  | .ok _, L => Checked size L

theorem LogConfined.after {size : Nat} {r : Except Stop α} {L L' : List Event}
    (h : Checked size L) (h' : LogConfined size r L') : LogConfined size r (L ++ L') := by
  rcases r with ⟨(_ | _) | _ | _ | _⟩ | _
  · exact (confined size .posix).stop_append (e := .oob) h h'
  · exact h.append h'
  · exact h.append h'
  · exact h.append h'
  · exact h.append h'
  · exact h.append h'

/-- What holds of every run of `x`: the host evolves, the log is confined to the memory there is
    in the end, and the process goes on where `proc_exit` traps and the clock data convert. -/
structure Contained (trapOnExit : Bool) (x : Run Wasi Event Stop α) : Prop where
  evolves : Evolves x
  log : ∀ w, LogConfined (x w).2.1.instanceMemory.size (x w).1 (x w).2.2
  exits : trapOnExit = true → ∀ w code, (x w).1 ≠ .error (.exit code)
  divides : ∀ w, (x w).1 = .error (.trap .divByZero) → w.clockData.DividesByZero

theorem Contained.bind {x : Run Wasi Event Stop α} {f : α → Run Wasi Event Stop β}
    (hx : Contained trapOnExit x) (hf : ∀ a, Contained trapOnExit (f a)) :
    Contained trapOnExit (x >>= f) where
  evolves := hx.evolves.bind fun a => (hf a).evolves
  log w := by
    have hlog := hx.log w
    rcases hrun : x w with ⟨e | a, w', L⟩
    · rw [hrun] at hlog
      rw [Run.bind_error hrun]
      rcases e with (_ | _) | _ | _ | _ <;> exact hlog
    · rw [hrun] at hlog
      rw [Run.bind_ok hrun]
      have hgrown := ((hf a).evolves.evolved w').size
      exact .after (Checked.mono hlog hgrown) ((hf a).log w')
  exits htrap w code := by
    have hends := hx.exits htrap w code
    rcases hrun : x w with ⟨e | a, w', L⟩
    · rw [hrun] at hends
      rw [Run.bind_error hrun]
      intro heq
      exact hends (congrArg Except.error (Except.error.inj heq))
    · rw [Run.bind_ok hrun]
      exact (hf a).exits htrap w' code
  divides w hdivides := by
    have hdata := (hx.evolves.evolved w).clockData
    rcases hrun : x w with ⟨e | a, w', L⟩
    · rw [Run.bind_error hrun] at hdivides
      refine hx.divides w ?_
      rw [hrun]
      exact congrArg Except.error (Except.error.inj hdivides)
    · rw [Run.bind_ok hrun] at hdivides
      rw [hrun] at hdata
      rw [← hdata]
      exact (hf a).divides w' hdivides

/-- A run that logs nothing, and is stopped by the generated code or `TRAP(WASI)` if at all. -/
theorem contained_of_silent {x : Run Wasi Event Stop α}
    (h : ∀ w, Evolved w (x w).2.1 ∧ (x w).2.2 = [] ∧
      ∀ e, (x w).1 = .error e → e = .accessTrap ∨ e = .trapWasi) :
    Contained trapOnExit x where
  evolves := evolves_of fun w => (h w).1
  log w := by
    obtain ⟨-, hlog, hends⟩ := h w
    rw [hlog]
    cases hend : (x w).1 with
    | ok a => exact .nil
    | error e => rcases hends e hend with rfl | rfl <;> exact .nil
  exits _ w code hcode := by
    rcases (h w).2.2 _ hcode with heq | heq <;> cases heq
  divides w hdivides := by
    rcases (h w).2.2 _ hdivides with heq | heq <;> cases heq

theorem contained_of_confined {x : M α} (hevolves : Evolves x)
    (hconfined : ∀ size c, Confined size c x fun _ => True) :
    Contained trapOnExit (x.mapStop .trap) where
  evolves := evolves_of hevolves.evolved
  log w := by
    obtain ⟨⟨hsize, -⟩, hlog⟩ := hconfined w.instanceMemory.size w.clockData w ⟨rfl, rfl⟩
    show LogConfined (x w).2.1.instanceMemory.size ((x w).1.mapError Stop.trap) (x w).2.2
    rw [show (x w).2.1.instanceMemory.size = w.instanceMemory.size from hsize]
    cases hend : (x w).1 with
    | ok a =>
      rw [hend] at hlog
      exact hlog.2
    | error e =>
      rw [hend] at hlog
      cases e with
      | oob => exact hlog
      | divByZero => exact hlog.2
  exits _ w code := by
    show (x w).1.mapError Stop.trap ≠ _
    cases (x w).1 with
    | ok a => exact nofun
    | error e => exact nofun
  divides w hdivides := by
    obtain ⟨-, hlog⟩ := hconfined w.instanceMemory.size w.clockData w ⟨rfl, rfl⟩
    change (x w).1.mapError Stop.trap = _ at hdivides
    cases hend : (x w).1 with
    | ok a =>
      rw [hend] at hdivides
      cases hdivides
    | error e =>
      rw [hend] at hdivides hlog
      cases e with
      | oob => cases hdivides
      | divByZero => exact hlog.1

theorem fdPrestatGet_eq (fd prestat : UInt32) :
    ∃ errno, fdPrestatGet fd prestat = pure errno := by
  unfold fdPrestatGet
  split
  · exact ⟨_, rfl⟩
  · exact ⟨_, rfl⟩

theorem Import.run_contained (i : Import) : Contained trapOnExit (i.run trapOnExit) := by
  cases i with
  | wasi c => exact contained_of_confined c.run_evolves fun _ _ => c.run_confined
  | fdPrestatGet fd prestat =>
    obtain ⟨errno, heq⟩ := fdPrestatGet_eq fd prestat
    refine contained_of_confined ?_ fun size c => ?_
    · rw [heq]
      exact .pure errno
    · rw [heq]
      exact Obeys.pure' trivial
  | stub f => exact contained_of_confined (.pure _) fun _ _ => Obeys.pure' trivial
  | procExit x =>
    cases trapOnExit with
    | true => exact contained_of_silent fun w => ⟨.refl w, rfl, fun e he => .inr (by cases he; rfl)⟩
    | false => exact ⟨evolves_of .refl, fun _ => .nil, nofun, nofun⟩

theorem growMemory_contained {grow : GrowMemory} (hgrow : grow.AddsZeros) (spare : Bool)
    (delta : Nat) : Contained trapOnExit (growMemory grow spare delta) := by
  apply contained_of_silent
  intro w
  unfold growMemory
  rw [Run.bind_ok (show Run.get w = (.ok w, w, []) from rfl)]
  dsimp only
  cases hgrown : grow spare w.instanceMemory delta with
  | none => exact ⟨.refl w, rfl, nofun⟩
  | some m =>
    refine ⟨.withMemory ?_ fun x hx => ?_, rfl, nofun⟩
    · rw [hgrow.size hgrown]
      exact Nat.le_add_right ..
    · rw [hgrow.data hgrown, if_neg fun hin => Nat.not_le_of_lt hin.2 hx]

theorem guestLoad_contained (a n : Nat) : Contained trapOnExit (guestLoad a n) := by
  apply contained_of_silent
  intro w
  unfold guestLoad
  rw [Run.bind_ok (show Run.get w = (.ok w, w, []) from rfl)]
  split
  · exact ⟨.refl w, rfl, nofun⟩
  · exact ⟨.refl w, rfl, fun e he => .inl (by cases he; rfl)⟩

theorem guestStore_contained (a : Nat) (bytes : List UInt8) :
    Contained trapOnExit (guestStore a bytes) := by
  apply contained_of_silent
  intro w
  unfold guestStore
  rw [Run.bind_ok (show Run.get w = (.ok w, w, []) from rfl)]
  split
  · next hin => exact ⟨.store hin, rfl, nofun⟩
  · exact ⟨.refl w, rfl, fun e he => .inl (by cases he; rfl)⟩

theorem Action.run_contained {grow : GrowMemory} (hgrow : grow.AddsZeros) (spare : Bool)
    (a : Action) : Contained trapOnExit (a.run grow trapOnExit spare) := by
  cases a with
  | load a n => exact guestLoad_contained a n
  | store a bytes => exact guestStore_contained a bytes
  | grow delta => exact growMemory_contained hgrow spare delta
  | call i => exact i.run_contained.bind fun _ => contained_of_silent fun w => ⟨.refl w, rfl, nofun⟩

/-- By induction on the actions; between two of them the clocks and the stack change. -/
theorem Guest.run_contained {γ : Type} (g : Guest γ) {grow : GrowMemory} (hgrow : grow.AddsZeros)
    (h : Host) (n : Nat) : ∀ i s, Contained trapOnExit (g.run grow trapOnExit h n i s) := by
  have hpure : ∀ s, Contained trapOnExit (pure s : Run Wasi Event Stop γ) :=
    fun _ => contained_of_silent fun w => ⟨.refl w, rfl, nofun⟩
  induction n with
  | zero => exact fun _ s => hpure s
  | succ n ih =>
    intro i s
    unfold Guest.run
    split
    · exact hpure s
    · next a _ =>
      have htick : Contained trapOnExit (Run.modify (h.tick i) : Run Wasi Event Stop Unit) :=
        contained_of_silent fun w => ⟨⟨Nat.le_refl _, fun _ _ => rfl, rfl, rfl, rfl,
          List.suffix_refl _, List.prefix_refl _, List.prefix_refl _⟩, rfl, nofun⟩
      exact (htick.bind fun _ => a.run_contained hgrow _).bind fun reply => ih (i + 1) _

end contained

/-- Whatever the program and whatever its host does meanwhile. The bytes outside the memory, the
    arguments, the environment and the clock data stay as they are; input is only consumed
    and output only added. Every access of an entry point lies in the memory, right behind a
    check of its own range, and a failed check is what stops the run, and is its last event,
    where it ends with `TRAP(OOB)`. The process is ended by `proc_exit` only where that does
    not trap, and otherwise only by a clock call on macOS data with a denominator of zero. -/
theorem guest_run_contained {γ : Type} (g : Guest γ) {grow : GrowMemory} (hgrow : grow.AddsZeros)
    (trapOnExit : Bool) (h : Host) (n i : Nat) (s : γ) (w : Wasi) :
    let r := g.run grow trapOnExit h n i s w
    Evolved w r.2.1 ∧
    (∀ k kind a m, r.2.2[k]? = some (.access kind a m) →
      a + m ≤ r.2.1.instanceMemory.size ∧
        ∃ j, k = j + 1 ∧ r.2.2[j]? = some (.check a m true)) ∧
    (r.1 = .error (.trap .oob) ↔ ∃ a m, r.2.2.getLast? = some (.check a m false)) ∧
    (trapOnExit = true → ∀ code, r.1 ≠ .error (.exit code)) ∧
    (r.1 = .error (.trap .divByZero) → w.clockData.DividesByZero) := by
  intro r
  have hrun : Contained trapOnExit (g.run grow trapOnExit h n i s) := g.run_contained hgrow h n i s
  have hlog := hrun.log w
  change LogConfined r.2.1.instanceMemory.size r.1 r.2.2 at hlog
  refine ⟨hrun.evolves.evolved w, ?_, ?_, fun htrap => hrun.exits htrap w, hrun.divides w⟩
  · rcases r with ⟨⟨(_ | _) | _ | _ | _⟩ | _, w', L⟩
    · exact Trapped.access_guarded hlog
    · exact Checked.access_guarded hlog
    · exact Checked.access_guarded hlog
    · exact Checked.access_guarded hlog
    · exact Checked.access_guarded hlog
    · exact Checked.access_guarded hlog
  · rcases r with ⟨⟨(_ | _) | _ | _ | _⟩ | _, w', L⟩
    · exact iff_of_true rfl (Trapped.last_fails hlog)
    · exact iff_of_false nofun (Checked.last_passes hlog)
    · exact iff_of_false nofun (Checked.last_passes hlog)
    · exact iff_of_false nofun (Checked.last_passes hlog)
    · exact iff_of_false nofun (Checked.last_passes hlog)
    · exact iff_of_false nofun (Checked.last_passes hlog)

/-- A program that does one thing after the other and keeps the replies. -/
def script : Guest (List Action × List Reply) where
  next s := s.1.head?
  resume s reply := (s.1.tail, s.2 ++ [reply])

/-- A host with memory to spare whose clocks go, among stack words of its own. -/
def goingClocks (word : Int) : Host where
  clockOutcome i := ⟨none, 0, fun _ => some ⟨i, 0⟩, fun _ => some ⟨0, 1⟩⟩
  outStruct _ := ⟨word, word⟩
  spare _ := true

/-- It adds a page, stores the clock at its start, and then a byte short of its end. -/
theorem clock_at_the_end :
    let r := script.run growWithinSpace true (goingClocks 0) 3 0
      ([.grow 1, .call (.wasi (.clockTimeGet 1 0 65536)),
        .call (.wasi (.clockTimeGet 1 0 131065))], [])
      (hostOf (.zeros 65536 (by decide)))
    r.1 = .error (.trap .oob) ∧ r.2.1.instanceMemory.size = 131072 ∧
      ∃ a m, r.2.2.getLast? = some (.check a m false) := by
  intro r
  obtain ⟨-, -, hlast, -⟩ := guest_run_contained script growWithinSpace_addsZeros true
    (goingClocks 0) 3 0 ([.grow 1, .call (.wasi (.clockTimeGet 1 0 65536)),
      .call (.wasi (.clockTimeGet 1 0 131065))], []) (hostOf (.zeros 65536 (by decide)))
  exact ⟨rfl, rfl, hlast.mp rfl⟩

end RlboxWasm2c.MinWasi

import RlboxWasm2c.MinWasi

/- Confinement of the WASI entry points: whatever the guest passes, whatever the memory
   holds and whatever the host streams and clocks do, a call reaches `mem->data` only
   inside the memory, each access right behind a passed check of the very range it
   touches, and a check passes exactly when its range, added up without wrapping, fits.

   The log of a call is described by `Checked`. The discipline it induces is proved for
   the checks and the accesses, and every entry point inherits it along its code; the
   loops of `fd_write`, `fd_read` and `strings_get` carry it by induction on what is left
   to do, since the words they read next may be ones they have just overwritten. -/
namespace RlboxWasm2c.MinWasi
open Traced

/-! ## The logs of confined runs -/

/-- Logs in which every check passed and fits the memory, and every access follows the
    check of its own range. -/
inductive Checked (size : Nat) : List Event → Prop where
  | nil : Checked size []
  | check {a sz : Nat} {L : List Event} (fits : a + sz ≤ size) (rest : Checked size L) :
    Checked size (.check a sz true :: L)
  | access {kind : AccessKind} {a sz : Nat} {L : List Event} (fits : a + sz ≤ size)
    (rest : Checked size L) : Checked size (.check a sz true :: .access kind a sz :: L)

/-- A trapped run is confined up to the failed check that ends it. -/
def Trapped (size : Nat) (L : List Event) : Prop :=
  ∃ L' a sz, L = L' ++ [.check a sz false] ∧ Checked size L' ∧ size < a + sz

namespace Checked
variable {size : Nat} {L L' : List Event}

theorem append (h : Checked size L) (h' : Checked size L') : Checked size (L ++ L') := by
  induction h with
  | nil => exact h'
  | check fits _ ih => exact .check fits ih
  | access fits _ ih => exact .access fits ih

theorem check_passes (h : Checked size L) :
    ∀ a sz passed, Event.check a sz passed ∈ L → a + sz ≤ size ∧ passed = true := by
  induction h with
  | nil => intro a sz passed hmem; cases hmem
  | check fits _ ih =>
    intro a sz passed hmem
    rcases List.mem_cons.mp hmem with heq | hmem
    · cases heq; exact ⟨fits, rfl⟩
    · exact ih a sz passed hmem
  | access fits _ ih =>
    intro a sz passed hmem
    rcases List.mem_cons.mp hmem with heq | hmem
    · cases heq; exact ⟨fits, rfl⟩
    rcases List.mem_cons.mp hmem with heq | hmem
    · cases heq
    · exact ih a sz passed hmem

/-- An access never comes first, and the event before it is the check of its range. -/
theorem access_guarded (h : Checked size L) :
    ∀ i kind a n, L[i]? = some (.access kind a n) →
      a + n ≤ size ∧ ∃ j, i = j + 1 ∧ L[j]? = some (.check a n true) := by
  induction h with
  | nil => intro i kind a n hi; simp at hi
  | check fits _ ih =>
    intro i kind a n hi
    cases i with
    | zero => simp at hi
    | succ i =>
      obtain ⟨hfits, j, rfl, hj⟩ := ih i kind a n (by simpa using hi)
      exact ⟨hfits, j + 1, rfl, by simpa using hj⟩
  | access fits _ ih =>
    intro i kind a n hi
    match i with
    | 0 => simp at hi
    | 1 =>
      cases Option.some.inj hi
      exact ⟨fits, 0, rfl, rfl⟩
    | i + 2 =>
      obtain ⟨hfits, j, rfl, hj⟩ := ih i kind a n (by simpa using hi)
      exact ⟨hfits, j + 2, rfl, by simpa using hj⟩

/-- A check passes exactly when its range fits. -/
theorem check_iff (h : Checked size L) (a sz : Nat) (passed : Bool)
    (hmem : Event.check a sz passed ∈ L) : passed = true ↔ a + sz ≤ size := by
  obtain ⟨hfits, rfl⟩ := h.check_passes a sz passed hmem
  exact iff_of_true rfl hfits

theorem last_passes (h : Checked size L) : ¬ ∃ a sz, L.getLast? = some (.check a sz false) := by
  rintro ⟨a, sz, hlast⟩
  have hpassed := h.check_passes a sz false (List.mem_of_getLast? hlast)
  exact Bool.false_ne_true hpassed.2

end Checked

namespace Trapped
variable {size : Nat} {L : List Event}

/-- The failed check comes last, so an access is one of those before it. -/
theorem access_guarded (h : Trapped size L) :
    ∀ i kind a n, L[i]? = some (.access kind a n) →
      a + n ≤ size ∧ ∃ j, i = j + 1 ∧ L[j]? = some (.check a n true) := by
  obtain ⟨L', b, sz, rfl, hchecked, -⟩ := h
  intro i kind a n hi
  have hlt : i < L'.length := by
    by_contra hge
    rw [List.getElem?_append_right (by omega)] at hi
    cases hk : i - L'.length with
    | zero => rw [hk] at hi; cases Option.some.inj hi
    | succ k => rw [hk] at hi; cases hi
  rw [List.getElem?_append_left hlt] at hi
  obtain ⟨hfits, j, rfl, hj⟩ := hchecked.access_guarded i kind a n hi
  refine ⟨hfits, j, rfl, ?_⟩
  rw [List.getElem?_append_left (by omega)]
  exact hj

theorem check_iff (h : Trapped size L) (a sz : Nat) (passed : Bool)
    (hmem : Event.check a sz passed ∈ L) : passed = true ↔ a + sz ≤ size := by
  obtain ⟨L', b, n, rfl, hchecked, hover⟩ := h
  rcases List.mem_append.mp hmem with hmem | hmem
  · exact hchecked.check_iff a sz passed hmem
  · cases List.mem_singleton.mp hmem
    exact iff_of_false Bool.false_ne_true (by omega)

theorem last_fails (h : Trapped size L) : ∃ a sz, L.getLast? = some (.check a sz false) := by
  obtain ⟨L', a, sz, rfl, -, -⟩ := h
  exact ⟨a, sz, List.getLast?_concat⟩

end Trapped

/-- macOS data with which `os_clock_gettime` divides by zero. -/
def ClockData.DividesByZero : ClockData → Prop
  | .mac _ denom _ _ => denom = 0
  | _ => False

theorem osClockGettime_none_iff (w : Wasi) (clockId : UInt32) :
    osClockGettime w clockId = none ↔ w.clockData.DividesByZero := by
  unfold osClockGettime
  cases w.clockData with
  | windows countsPerSec =>
    refine iff_of_false ?_ id
    dsimp only
    split
    · exact Option.some_ne_none _
    · split <;> exact Option.some_ne_none _
  | mac numer denom inittime initclock =>
    dsimp only [ClockData.DividesByZero]
    split
    · next hzero => exact iff_of_true rfl hzero
    · next hpos => exact iff_of_false (Option.some_ne_none _) hpos
  | posix =>
    refine iff_of_false ?_ id
    dsimp only
    split <;> exact Option.some_ne_none _

theorem osClockGetres_ne_none (w : Wasi) (clockId : UInt32) : osClockGetres w clockId ≠ none := by
  unfold osClockGetres
  cases w.clockData with
  | windows | mac => exact Option.some_ne_none _
  | posix =>
    dsimp only
    split <;> exact Option.some_ne_none _

/-- The discipline of a memory of `size` bytes and the clock data `c`. A run that divides by zero
    has passed all its checks. -/
def confined (size : Nat) (c : ClockData) : Discipline Event Trap where
  done := Checked size
  stopped
    | .oob, L => Trapped size L
    | .divByZero, L => c.DividesByZero ∧ Checked size L
  nil := .nil
  append := Checked.append
  stop_append := by
    intro L L' e h h'
    cases e with
    | oob =>
      obtain ⟨L', a, sz, rfl, h', hover⟩ := h'
      exact ⟨L ++ L', a, sz, (List.append_assoc ..).symm, h.append h', hover⟩
    | divByZero => exact ⟨h'.1, h.append h'.2⟩

def Keeps (size : Nat) (c : ClockData) (w : Wasi) : Prop :=
  w.instanceMemory.size = size ∧ w.clockData = c

/-- `x` is confined from every state whose memory has `size` bytes and whose clock data are `c`. -/
def Confined (size : Nat) (c : ClockData) {α : Type} (x : M α) (Q : α → Prop) : Prop :=
  Obeys (confined size c) (Keeps size c) x Q

/-- `x` makes one access, to `[a, a + n)`, and leaves the size of the memory and the clock data
    alone. -/
def Accesses {α : Type} (x : M α) (kind : AccessKind) (a n : Nat) : Prop :=
  ∀ w, ∃ r w', x w = (.ok r, w', [.access kind a n]) ∧
    w'.instanceMemory.size = w.instanceMemory.size ∧ w'.clockData = w.clockData

section rules
variable {size : Nat} {c : ClockData} {α β : Type} {Q : α → Prop}

/-! ## The check and the accesses -/

/-- The operands of every check are widened 32-bit words, so their sum does not wrap. -/
theorem toUInt64_add_toNat (a sz : UInt32) :
    (a.toUInt64 + sz.toUInt64).toNat = a.toNat + sz.toNat := by
  have ha := a.toNat_lt
  have hsz := sz.toNat_lt
  rw [UInt64.toNat_add, UInt32.toNat_toUInt64, UInt32.toNat_toUInt64]
  exact Nat.mod_eq_of_lt (by omega)

/-- `WASI_MEMCHECK_SIZE` decides whether the range fits. -/
theorem memcheckSize_run (a sz : UInt32) (w : Wasi) :
    memcheckSize a.toUInt64 sz.toUInt64 w =
      if a.toNat + sz.toNat ≤ w.instanceMemory.size then
        (.ok (), w, [.check a.toNat sz.toNat true])
      else (.error .oob, w, [.check a.toNat sz.toNat false]) := by
  unfold memcheckSize
  rw [Run.bind_ok (show Run.get w = (.ok w, w, []) from rfl), toUInt64_add_toNat]
  by_cases h : a.toNat + sz.toNat ≤ w.instanceMemory.size
  · rw [if_neg (by omega), if_pos h]; rfl
  · rw [if_pos (by omega), if_neg h]; rfl

/-- A check followed by the access it is for. -/
theorem guarded_confined {x : M α} (kind : AccessKind) (a sz : UInt32)
    (hx : Accesses x kind a.toNat sz.toNat) :
    Confined size c (memcheckSize a.toUInt64 sz.toUInt64 >>= fun _ => x) (fun _ => True) := by
  intro w hw
  have hcheck := memcheckSize_run a sz w
  rw [hw.1] at hcheck
  by_cases h : a.toNat + sz.toNat ≤ size
  · rw [if_pos h] at hcheck
    obtain ⟨r, w', hrun, hsize, hdata⟩ := hx w
    rw [Run.bind_ok hcheck, hrun]
    exact ⟨⟨hsize.trans hw.1, hdata.trans hw.2⟩, trivial, .access h .nil⟩
  · rw [if_neg h] at hcheck
    rw [Run.bind_error hcheck]
    exact ⟨hw, [], _, _, rfl, .nil, by omega⟩

theorem rawRead_accesses (kind : AccessKind) (a n : Nat) :
    Accesses (rawRead kind a n) kind a n := fun w => ⟨_, w, rfl, rfl, rfl⟩

theorem rawWrite_accesses (kind : AccessKind) (a : Nat) (bytes : List UInt8) :
    Accesses (rawWrite kind a bytes) kind a bytes.length := fun _ => ⟨_, _, rfl, rfl, rfl⟩

theorem Accesses.bind_pure {x : M α} {kind : AccessKind} {a n : Nat} (f : α → β)
    (hx : Accesses x kind a n) : Accesses (x >>= fun r => pure (f r)) kind a n := by
  intro w
  obtain ⟨r, w', hrun, hkeeps⟩ := hx w
  exact ⟨f r, w', by rw [Run.bind_ok hrun]; rfl, hkeeps⟩

/-! ## Loads, stores and copies -/

theorem length_leBytes (n v : Nat) : (leBytes n v).length = n := by
  induction n generalizing v with
  | zero => rfl
  | succ n ih => simp [leBytes, ih]

theorem wasmI32Load_confined (addr : UInt32) :
    Confined size c (wasmI32Load addr.toUInt64) (fun _ => True) := by
  apply guarded_confined .load addr 4
  rw [UInt32.toNat_toUInt64]
  exact (rawRead_accesses .load addr.toNat 4).bind_pure _

theorem wasmI32Store_confined (addr value : UInt32) :
    Confined size c (wasmI32Store addr.toUInt64 value) (fun _ => True) := by
  apply guarded_confined .store addr 4
  have hwrite := rawWrite_accesses .store addr.toNat (leBytes 4 value.toNat)
  rwa [length_leBytes] at hwrite

theorem wasmI64Store_confined (addr : UInt32) (value : UInt64) :
    Confined size c (wasmI64Store addr.toUInt64 value) (fun _ => True) := by
  apply guarded_confined .store addr 8
  have hwrite := rawWrite_accesses .store addr.toNat (leBytes 8 value.toNat)
  rwa [length_leBytes] at hwrite

/-- `len_plus_nullchar` counts the terminator and never wraps. -/
theorem lenPlusNullchar_eq {str : CString} {len : UInt32} (h : lenPlusNullchar str = some len) :
    len.toNat = (str.1 ++ [0]).length := by
  unfold lenPlusNullchar at h
  split at h
  next hlt =>
    have hone : (1 : UInt32).toNat = 1 := rfl
    cases h
    rw [UInt32.toNat_add, UInt32.toNat_ofNat', List.length_append, List.length_singleton, hone]
    omega
  next => cases h

theorem checkCopy_confined {a sz : UInt32} {src : List UInt8} (h : sz.toNat = src.length) :
    Confined size c (checkCopy a.toUInt64 sz src) (fun _ => True) := by
  apply guarded_confined .memcpy
  have hwrite := rawWrite_accesses .memcpy a.toNat (src.take sz.toNat)
  rw [List.length_take_of_le (by omega)] at hwrite
  exact hwrite

/-! ## Streams -/

theorem fwrite_accesses (fd ptr len : UInt32) :
    Accesses (fwrite fd ptr len) .fwrite ptr.toNat len.toNat := by
  intro w
  refine ⟨_, _, rfl, ?_⟩
  change (if fd = 1 then _ else _ : Wasi).instanceMemory.size = _ ∧
    (if fd = 1 then _ else _ : Wasi).clockData = _
  by_cases h : fd = 1
  · rw [if_pos h]; exact ⟨rfl, rfl⟩
  · rw [if_neg h]; exact ⟨rfl, rfl⟩

theorem fread_accesses (ptr len : UInt32) :
    Accesses (fread ptr len) .fread ptr.toNat len.toNat := fun _ => ⟨_, _, rfl, rfl, rfl⟩

/-- The part of an iteration of either loop up to the transfer. -/
theorem transfer_confined {x : UInt32 → UInt32 → M UInt32} {kind : AccessKind}
    {rest : UInt32 → UInt32 → M β} {R : β → Prop} (iov i : UInt32)
    (hx : ∀ ptr len, Accesses (x ptr len) kind ptr.toNat len.toNat)
    (hrest : ∀ len result, Confined size c (rest len result) R) :
    Confined size c (do
      let ptr ← wasmI32Load (iov + i * 8).toUInt64
      let len ← wasmI32Load (iov + i * 8 + 4).toUInt64
      memcheckSize ptr.toUInt64 len.toUInt64
      let result ← x ptr len
      rest len result) R := by
  refine Obeys.bind' (wasmI32Load_confined _) fun ptr _ => ?_
  refine Obeys.bind' (wasmI32Load_confined _) fun len _ => ?_
  rw [← Run.bind_assoc']
  exact Obeys.bind' (guarded_confined kind ptr len (hx ptr len)) fun result _ => hrest len result

theorem retErrOnFail_confined {exp : Option UInt32} {rest : UInt32 → M UInt32}
    (h : ∀ v, exp = some v → Confined size c (rest v) (fun _ => True)) :
    Confined size c (retErrOnFail exp rest) (fun _ => True) := by
  cases exp with
  | none => exact Obeys.pure' trivial
  | some v => exact h v rfl

/-- `wasm_i32_store(.., pnum, num)` and the return of `status`. -/
theorem storeNum_confined (pnum num status : UInt32) :
    Confined size c (do wasmI32Store pnum.toUInt64 num; pure status) (fun _ => True) :=
  Obeys.bind' (wasmI32Store_confined pnum num) fun _ _ => Obeys.pure' trivial

theorem fdWriteLoop_confined (fd iov pnum : UInt32) (n : Nat) (i num : UInt32) :
    Confined size c (fdWriteLoop fd iov pnum n i num) (fun _ => True) := by
  induction n generalizing i num with
  | zero => exact storeNum_confined pnum num wasiSuccess
  | succ n ih =>
    apply transfer_confined iov i (fwrite_accesses fd)
    intro len result
    apply retErrOnFail_confined
    intro num _
    apply Obeys.ite'
    · intro _; exact storeNum_confined pnum num wasiPermError
    · intro _; exact ih (i + 1) num

theorem fdReadLoop_confined (iov pnum : UInt32) (n : Nat) (i num : UInt32) :
    Confined size c (fdReadLoop iov pnum n i num) (fun _ => True) := by
  induction n generalizing i num with
  | zero => exact storeNum_confined pnum num wasiSuccess
  | succ n ih =>
    apply transfer_confined iov i fread_accesses
    intro len result
    apply retErrOnFail_confined
    intro num _
    apply Obeys.ite'
    · intro _; exact storeNum_confined pnum num wasiSuccess
    · intro _; exact ih (i + 1) num

/-! ## Strings -/

theorem stringsSizesGet_confined (pStrCount pStrBuffSize : UInt32) (strings : List CString) :
    Confined size c (stringsSizesGet pStrCount pStrBuffSize strings) (fun _ => True) := by
  apply retErrOnFail_confined
  intro currBufSize _
  exact Obeys.bind' (wasmI32Store_confined _ _) fun _ _ =>
    storeNum_confined pStrBuffSize currBufSize wasiSuccess

theorem stringsGetLoop_confined (pStrArr pStrBuf : UInt32) (strings : List CString)
    (i currBufLoc : UInt32) :
    Confined size c (stringsGetLoop pStrArr pStrBuf strings i currBufLoc) (fun _ => True) := by
  induction strings generalizing i currBufLoc with
  | nil => exact Obeys.pure' trivial
  | cons str strings ih =>
    apply retErrOnFail_confined
    intro targetArgvIRef _
    apply retErrOnFail_confined
    intro targetBufCurrRef _
    refine Obeys.bind' (wasmI32Store_confined targetArgvIRef targetBufCurrRef) fun _ _ => ?_
    apply retErrOnFail_confined
    intro len hlen
    refine Obeys.bind' (checkCopy_confined (lenPlusNullchar_eq hlen)) fun _ _ => ?_
    apply retErrOnFail_confined
    intro currBufLoc _
    exact ih (i + 1) currBufLoc

/-! ## Clocks -/

theorem clockGet_confined {query : Wasi → UInt32 → Option (Int × Timespec)}
    (clockId out : UInt32)
    (hquery : ∀ w, query w clockId = none → w.clockData.DividesByZero) :
    Confined size c (clockGet query clockId out) (fun _ => True) := by
  apply Obeys.ite'
  · intro _; exact Obeys.pure' trivial
  · intro _
    refine Obeys.bind' Obeys.get' fun w hw => ?_
    cases hret : query w clockId with
    | none =>
      have hdivides := hquery w hret
      rw [hw.2] at hdivides
      exact fun _ hw' => ⟨hw', hdivides, .nil⟩
    | some ret => exact Obeys.bind' (wasmI64Store_confined out _) fun _ _ => Obeys.pure' trivial

/-- Every entry point is confined. -/
theorem WasiCall.run_confined (call : WasiCall) : Confined size c call.run (fun _ => True) := by
  cases call with
  | clockTimeGet clockId precision out =>
    exact clockGet_confined clockId out fun w => (osClockGettime_none_iff w clockId).mp
  | clockResGet clockId out =>
    exact clockGet_confined clockId out fun w hnone =>
      absurd hnone (osClockGetres_ne_none w clockId)
  | fdWrite fd iov iovcnt pnum =>
    apply Obeys.ite'
    · intro _; exact Obeys.pure' trivial
    · intro _; exact fdWriteLoop_confined fd iov pnum iovcnt.toNat 0 0
  | fdRead fd iov iovcnt pnum =>
    apply Obeys.ite'
    · intro _; exact Obeys.pure' trivial
    · intro _; exact fdReadLoop_confined iov pnum iovcnt.toNat 0 0
  | argsSizesGet pArgc pArgvBufSize =>
    exact Obeys.bind' Obeys.get' fun w _ => stringsSizesGet_confined _ _ w.mainArgv
  | argsGet pArgv pArgvBuf =>
    exact Obeys.bind' Obeys.get' fun w _ => stringsGetLoop_confined _ _ _ 0 0
  | environSizesGet pEnvCount pEnvBufSize =>
    exact Obeys.bind' Obeys.get' fun w _ => stringsSizesGet_confined _ _ w.env
  | environGet pEnv pEnvBuf =>
    exact Obeys.bind' Obeys.get' fun w _ => stringsGetLoop_confined _ _ _ 0 0

end rules

/-! ## Confinement -/

/-- No call reaches outside the memory: every access lies inside it and directly follows
    a passed check of its range, a check passes exactly when its range fits, and the call
    is stopped by `TRAP(OOB)` exactly when a check did not pass. -/
theorem wasi_confinement (c : WasiCall) (w : Wasi) :
    (∀ i kind a n, (c.run w).2.2[i]? = some (.access kind a n) →
      a + n ≤ w.instanceMemory.size ∧
        ∃ j, i = j + 1 ∧ (c.run w).2.2[j]? = some (.check a n true)) ∧
    (∀ a sz passed, Event.check a sz passed ∈ (c.run w).2.2 →
      (passed = true ↔ a + sz ≤ w.instanceMemory.size)) ∧
    ((c.run w).1 = .error .oob ↔ ∃ a sz, (c.run w).2.2.getLast? = some (.check a sz false)) ∧
    (c.run w).2.1.instanceMemory.size = w.instanceMemory.size := by
  obtain ⟨⟨hsize, -⟩, hlog⟩ := c.run_confined w ⟨rfl, rfl⟩
  cases hr : (c.run w).1 with
  | error e =>
    rw [hr] at hlog
    cases e with
    | oob =>
      have htrapped : Trapped w.instanceMemory.size (c.run w).2.2 := hlog
      refine ⟨htrapped.access_guarded, htrapped.check_iff, ?_, hsize⟩
      exact iff_of_true rfl htrapped.last_fails
    | divByZero =>
      have hchecked : Checked w.instanceMemory.size (c.run w).2.2 := hlog.2
      refine ⟨hchecked.access_guarded, hchecked.check_iff, ?_, hsize⟩
      exact iff_of_false (by simp) hchecked.last_passes
  | ok r =>
    rw [hr] at hlog
    have hchecked : Checked w.instanceMemory.size (c.run w).2.2 := hlog.2
    refine ⟨hchecked.access_guarded, hchecked.check_iff, ?_, hsize⟩
    exact iff_of_false (by simp) hchecked.last_passes

end RlboxWasm2c.MinWasi

import RlboxWasm2c.Accesses

/- The clock calls. `clock_time_get` and `clock_res_get` store the timestamp made of
   `out_struct` before they look at the status of the clock primitive, so a primitive that
   fails without writing the struct hands what was on the host stack to the guest:
   `clock_calls_leak_free_iff`. -/
namespace RlboxWasm2c.MinWasi
open Traced

variable {query : Wasi → UInt32 → Option (Int × Timespec)} {clockId out : UInt32} {w : Wasi}
  {ret : Int × Timespec}

/-! ## The common body -/

theorem clockGet_invalid (h : checkClock clockId = false) :
    clockGet query clockId out w = (.ok wasiInvalError, w, []) := by
  unfold clockGet
  rw [h]
  rfl

theorem clockGet_valid (h : checkClock clockId = true) :
    clockGet query clockId out w =
      (match query w clockId with
      | none => Run.stop .divByZero
      | some ret =>
        wasmI64Store out.toUInt64 (timestamp ret.2) >>= fun _ =>
          pure (UInt32.ofInt ret.1) : M UInt32) w := by
  unfold clockGet
  rw [h]
  rfl

/-- A query that divides by zero ends the call. -/
theorem clockGet_divByZero (h : checkClock clockId = true) (hquery : query w clockId = none) :
    clockGet query clockId out w = (.error .divByZero, w, []) := by
  rw [clockGet_valid h, hquery]
  rfl

/-- Where the timestamp fits the memory it is stored, whatever the status. -/
theorem clockGet_pass (h : checkClock clockId = true) (hquery : query w clockId = some ret)
    (hfits : out.toNat + 8 ≤ w.instanceMemory.size) :
    clockGet query clockId out w = (.ok (UInt32.ofInt ret.1),
      w.store out.toNat (leBytes 8 (timestamp ret.2).toNat),
      [.check out.toNat 8 true, .access .store out.toNat 8]) := by
  rw [clockGet_valid h, hquery]
  refine Eq.trans (Run.bind_after (wasmI64Store_pass hfits) rfl) ?_
  simp only [Run.after, List.cons_append, List.nil_append]
  rfl

theorem clockGet_fail (h : checkClock clockId = true) (hquery : query w clockId = some ret)
    (houtside : w.instanceMemory.size < out.toNat + 8) :
    clockGet query clockId out w = (.error .oob, w, [.check out.toNat 8 false]) := by
  rw [clockGet_valid h, hquery]
  exact Run.bind_error (wasmI64Store_fail houtside)

/-! ## What a failing primitive leaves -/

/-- `os_clock_gettime` fails: it returns before it writes the struct. -/
def gettimeFails (w : Wasi) (clockId : UInt32) : Prop :=
  match w.clockData with
  | .windows countsPerSec =>
    countsPerSec ≤ 0 ∨ w.clockOutcome.queryPerformanceCounter = none
  | .mac .. => False
  | .posix => w.clockOutcome.clockGettime (osTranslateClockId clockId) = none

/-- `os_clock_getres` fails, which only the POSIX one does. -/
def getresFails (w : Wasi) (clockId : UInt32) : Prop :=
  match w.clockData with
  | .windows _ => False
  | .mac .. => False
  | .posix => w.clockOutcome.clockGetres (osTranslateClockId clockId) = none

def Wasi.withStack (w : Wasi) (outStruct : Timespec) : Wasi := { w with outStruct := outStruct }

/-- A primitive that fails leaves the struct alone; otherwise it writes all of it, or divides by
    zero. -/
structure Primitive (query : Wasi → UInt32 → Option (Int × Timespec))
    (fails : Wasi → UInt32 → Prop) : Prop where
  failure : ∀ w clockId, fails w clockId → query w clockId = some (-1, w.outStruct)
  success : ∀ w clockId, ¬ fails w clockId →
    ∃ t : Option Timespec, ∀ outStruct, query (w.withStack outStruct) clockId = t.map (Prod.mk 0)

theorem gettime_primitive : Primitive osClockGettime gettimeFails := by
  constructor
  · intro w clockId hfails
    unfold gettimeFails at hfails
    unfold osClockGettime
    cases hdata : w.clockData with
    | windows countsPerSec =>
      rw [hdata] at hfails
      dsimp only at hfails ⊢
      split
      · rfl
      · next hpos =>
        rw [hfails.resolve_left hpos]
    | mac numer denom inittime initclock =>
      rw [hdata] at hfails
      exact hfails.elim
    | posix =>
      rw [hdata] at hfails
      dsimp only at hfails ⊢
      rw [hfails]
  · intro w clockId hok
    unfold gettimeFails at hok
    cases hdata : w.clockData with
    | windows countsPerSec =>
      rw [hdata] at hok
      obtain ⟨hpos, hcount⟩ := not_or.mp hok
      obtain ⟨count, hcount⟩ := Option.ne_none_iff_exists'.mp hcount
      refine ⟨some ⟨count.tdiv countsPerSec,
        (longlong (count.tmod countsPerSec * billion)).tdiv countsPerSec⟩, fun outStruct => ?_⟩
      simp only [osClockGettime, Wasi.withStack, hdata, hcount, if_neg hpos, Option.map_some]
    | mac numer denom inittime initclock =>
      -- no timespec with a denominator of zero
      refine ⟨(osClockGettime w clockId).map Prod.snd, fun outStruct => ?_⟩
      simp only [osClockGettime, Wasi.withStack, hdata]
      split <;> rfl
    | posix =>
      rw [hdata] at hok
      obtain ⟨t, ht⟩ := Option.ne_none_iff_exists'.mp hok
      refine ⟨some t, fun outStruct => ?_⟩
      simp only [osClockGettime, Wasi.withStack, hdata, ht, Option.map_some]

theorem getres_primitive : Primitive osClockGetres getresFails := by
  constructor
  · intro w clockId hfails
    unfold getresFails at hfails
    cases hdata : w.clockData with
    | windows countsPerSec =>
      rw [hdata] at hfails
      exact hfails.elim
    | mac numer denom inittime initclock =>
      rw [hdata] at hfails
      exact hfails.elim
    | posix =>
      rw [hdata] at hfails
      simp only [osClockGetres, hdata, hfails]
  · intro w clockId hok
    unfold getresFails at hok
    cases hdata : w.clockData with
    | windows countsPerSec =>
      refine ⟨some ⟨0, 1000⟩, fun outStruct => ?_⟩
      simp only [osClockGetres, Wasi.withStack, hdata, Option.map_some]
    | mac numer denom inittime initclock =>
      refine ⟨some ⟨0, 1⟩, fun outStruct => ?_⟩
      simp only [osClockGetres, Wasi.withStack, hdata, Option.map_some]
    | posix =>
      rw [hdata] at hok
      obtain ⟨t, ht⟩ := Option.ne_none_iff_exists'.mp hok
      refine ⟨some t, fun outStruct => ?_⟩
      simp only [osClockGetres, Wasi.withStack, hdata, ht, Option.map_some]

/-- No host data reaches the guest: what was on the host stack decides neither the status nor
    the memory, and a failing primitive returns a non-zero status and stores nothing. -/
def LeakFree (call : M UInt32) (fails : Prop) (w : Wasi) : Prop :=
  (∀ s₁ s₂, (call (w.withStack s₁)).1 = (call (w.withStack s₂)).1 ∧
    (call (w.withStack s₁)).2.1.instanceMemory = (call (w.withStack s₂)).2.1.instanceMemory) ∧
  (fails → (∃ status, (call w).1 = .ok status ∧ status ≠ 0) ∧
    ∀ a n, .access .store a n ∉ (call w).2.2)

/-- The struct reaches nothing but the timestamp: a call whose primitive does not fail is the
    same whatever was on the stack. -/
theorem clockGet_congr {s₁ s₂ : Timespec} {r : Option (Int × Timespec)}
    (h₁ : query (w.withStack s₁) clockId = r) (h₂ : query (w.withStack s₂) clockId = r) :
    (clockGet query clockId out (w.withStack s₁)).1 =
      (clockGet query clockId out (w.withStack s₂)).1 ∧
    (clockGet query clockId out (w.withStack s₁)).2.1.instanceMemory =
      (clockGet query clockId out (w.withStack s₂)).2.1.instanceMemory := by
  cases hvalid : checkClock clockId with
  | false =>
    rw [clockGet_invalid hvalid, clockGet_invalid hvalid]
    exact ⟨rfl, rfl⟩
  | true =>
    cases r with
    | none =>
      rw [clockGet_divByZero hvalid h₁, clockGet_divByZero hvalid h₂]
      exact ⟨rfl, rfl⟩
    | some ret =>
      by_cases hfits : out.toNat + 8 ≤ w.instanceMemory.size
      · rw [clockGet_pass (w := w.withStack s₁) hvalid h₁ hfits,
          clockGet_pass (w := w.withStack s₂) hvalid h₂ hfits]
        exact ⟨rfl, rfl⟩
      · have houtside := Nat.lt_of_not_le hfits
        rw [clockGet_fail (w := w.withStack s₁) hvalid h₁ houtside,
          clockGet_fail (w := w.withStack s₂) hvalid h₂ houtside]
        exact ⟨rfl, rfl⟩

theorem clockGet_leakFree_iff {fails : Wasi → UInt32 → Prop} (hquery : Primitive query fails) :
    LeakFree (clockGet query clockId out) (fails w clockId) w ↔
      checkClock clockId = false ∨ ¬ fails w clockId := by
  constructor
  · rintro ⟨-, hfailing⟩
    by_contra hcond
    obtain ⟨hvalid, hfails⟩ := not_or.mp hcond
    rw [Bool.not_eq_false] at hvalid
    rw [not_not] at hfails
    obtain ⟨⟨status, hok, -⟩, hstores⟩ := hfailing hfails
    -- the timestamp is stored, or the store traps
    by_cases hfits : out.toNat + 8 ≤ w.instanceMemory.size
    · rw [clockGet_pass hvalid (hquery.failure w clockId hfails) hfits] at hstores
      exact hstores out.toNat 8 (by simp)
    · rw [clockGet_fail hvalid (hquery.failure w clockId hfails) (Nat.lt_of_not_le hfits)] at hok
      cases hok
  · rintro (hinvalid | hok)
    · refine ⟨fun s₁ s₂ => ?_, fun _ => ?_⟩
      · rw [clockGet_invalid hinvalid, clockGet_invalid hinvalid]
        exact ⟨rfl, rfl⟩
      · rw [clockGet_invalid hinvalid]
        exact ⟨⟨wasiInvalError, rfl, by decide⟩, fun a n hmem => by cases hmem⟩
    · obtain ⟨t, ht⟩ := hquery.success w clockId hok
      exact ⟨fun s₁ s₂ => clockGet_congr (ht s₁) (ht s₂), fun hfails => absurd hfails hok⟩

/-- Where the timestamp fits the memory, a failing primitive hands the struct to the guest. -/
theorem clockGet_leaks {fails : Wasi → UInt32 → Prop} (hquery : Primitive query fails)
    (hvalid : checkClock clockId = true) (hfails : fails w clockId)
    (hfits : out.toNat + 8 ≤ w.instanceMemory.size) :
    (clockGet query clockId out w).2.1.instanceMemory.read out.toNat 8 =
      leBytes 8 (timestamp w.outStruct).toNat := by
  have hself := w.instanceMemory.read_write_self out.toNat
    (leBytes 8 (timestamp w.outStruct).toNat)
  rw [length_leBytes] at hself
  rw [clockGet_pass hvalid (hquery.failure w clockId hfails) hfits]
  exact hself

/-- On every back end, the clock calls leak nothing exactly where the clock id is invalid or the
    primitive does not fail. -/
theorem clock_calls_leak_free_iff (w : Wasi) (clockId out : UInt32) (precision : UInt64) :
    (LeakFree (clockTimeGet clockId precision out) (gettimeFails w clockId) w ↔
      checkClock clockId = false ∨ ¬ gettimeFails w clockId) ∧
    (LeakFree (clockResGet clockId out) (getresFails w clockId) w ↔
      checkClock clockId = false ∨ ¬ getresFails w clockId) :=
  ⟨clockGet_leakFree_iff gettime_primitive, clockGet_leakFree_iff getres_primitive⟩

/-- Where `clock_gettime` fails, the guest reads the nanosecond that was on the stack or was
    not. -/
theorem failing_clock_leaks :
    let w := hostOf (.zeros 8 (by decide))
    gettimeFails w 0 ∧
    (clockTimeGet 0 0 0 (w.withStack ⟨0, 0⟩)).2.1.instanceMemory.read 0 8 = leBytes 8 0 ∧
    (clockTimeGet 0 0 0 (w.withStack ⟨0, 1⟩)).2.1.instanceMemory.read 0 8 = leBytes 8 1 ∧
    ¬ LeakFree (clockTimeGet 0 0 0) (gettimeFails w 0) w := by
  intro w
  have hread : ∀ s, (clockTimeGet 0 0 0 (w.withStack s)).2.1.instanceMemory.read 0 8 =
      leBytes 8 (timestamp s).toNat := by
    intro s
    have hfits : (0 : UInt32).toNat + 8 ≤ 8 := by decide
    exact clockGet_leaks (w := w.withStack s) gettime_primitive rfl rfl hfits
  have hzero := hread ⟨0, 0⟩
  have hone := hread ⟨0, 1⟩
  rw [show (timestamp ⟨0, 0⟩).toNat = 0 by decide] at hzero
  rw [show (timestamp ⟨0, 1⟩).toNat = 1 by decide] at hone
  refine ⟨rfl, hzero, hone, ?_⟩
  rintro ⟨hstack, -⟩
  rw [(hstack ⟨0, 0⟩ ⟨0, 1⟩).2, hone] at hzero
  exact absurd hzero (by decide)

end RlboxWasm2c.MinWasi

import RlboxWasm2c.Clocks

/- The conversion of ticks to the nanoseconds of `clock_time_get`, on the back ends that
   convert. Windows splits the count into seconds and a rest before it multiplies, macOS
   multiplies all ticks by `numer` first; each product has 64 bits.

   `gettimeChecked` and `timestampChecked` are the two computations with the machine type
   of every intermediate value, `none` where one does not fit its type.
   `conversion_exact_iff` says that the conversion is exact and monotone exactly where the
   one product fits: the rest of the count times 10^9 on Windows, the ticks times `numer` on
   macOS. -/
namespace RlboxWasm2c.MinWasi
open Traced

/-! ## Machine types -/

/-- A value of a machine type from `lo` up to `hi`. -/
def fitted (lo hi v : Int) : Option Int := if lo ≤ v ∧ v < hi then some v else none

def int32 : Int → Option Int := fitted (-2147483648) 2147483648

def int64 : Int → Option Int := fitted (-9223372036854775808) 9223372036854775808

def uint64 : Int → Option Int := fitted 0 18446744073709551616

theorem fitted_some {lo hi v : Int} (h : lo ≤ v ∧ v < hi) : fitted lo hi v = some v := if_pos h

theorem fitted_bounds {lo hi v u : Int} (h : fitted lo hi v = some u) : lo ≤ v ∧ v < hi := by
  by_contra hc
  rw [fitted, if_neg hc] at h
  cases h

theorem fitted_value {lo hi v u : Int} (h : fitted lo hi v = some u) : u = v := by
  rw [fitted_some (fitted_bounds h)] at h
  exact (Option.some.inj h).symm

theorem int32_nat {v : Nat} (h : v < 2147483648) : int32 v = some (v : Int) :=
  fitted_some (by omega)

theorem int64_nat {v : Nat} (h : v < 9223372036854775808) : int64 v = some (v : Int) :=
  fitted_some (by omega)

theorem longlong_eq {v : Int} (h : -9223372036854775808 ≤ v ∧ v < 9223372036854775808) :
    longlong v = v := by
  unfold longlong
  rw [Int.bmod_eq_of_le (by omega) (by omega)]

theorem uint64_nat {v : Nat} (h : v < 18446744073709551616) : uint64 v = some (v : Int) :=
  fitted_some (by omega)

/-- Windows: `LONGLONG` operands, and a `long` of 32 bits for the nanoseconds. -/
def windowsGettime (countsPerSec count : Int) : Option Timespec := do
  let tvSec ← int64 (count.tdiv countsPerSec)
  let rest ← int64 (count.tmod countsPerSec)
  let scaled ← int64 (rest * billion)
  let tvNsec ← int32 (scaled.tdiv countsPerSec)
  pure ⟨tvSec, tvNsec⟩

/-- macOS: `uint64_t` up to `nano`, then the `time_t` and `long` of the struct. -/
def macGettime (numer denom : UInt32) (inittime : Timespec) (clock : Nat) : Option Timespec := do
  let scaled ← uint64 (clock * numer.toNat)
  let nano ← uint64 (scaled.tdiv denom.toNat)
  let tvSec ← int64 (inittime.tvSec + nano.tdiv billion)
  let tvNsec ← int64 (inittime.tvNsec + nano.tmod billion)
  let tvSec ← int64 (tvSec + tvNsec.tdiv billion)
  pure ⟨tvSec, tvNsec.tmod billion⟩

def gettimeChecked (c : ClockData) (ticks : Nat) : Option Timespec :=
  match c with
  | .windows countsPerSec => windowsGettime countsPerSec ticks
  | .mac numer denom inittime _ => macGettime numer denom inittime ticks
  | .posix => none

/-- The `u64` sums and products of the timestamp. -/
def timestampChecked (t : Timespec) : Option Int := do
  let sec ← uint64 t.tvSec
  let millis ← uint64 (sec * 1000)
  let micros ← uint64 (millis * 1000)
  let nanos ← uint64 (micros * 1000)
  let nsec ← uint64 t.tvNsec
  uint64 (nanos + nsec)

theorem timestampChecked_eq {s n : Nat} (h : s * 1000000000 + n < 2 ^ 64) :
    timestampChecked ⟨s, n⟩ = some (s * 1000000000 + n : Nat) := by
  have hfits : ∀ v : Int, 0 ≤ v → v ≤ (s * 1000000000 + n : Nat) → uint64 v = some v :=
    fun v hpos hle => fitted_some (by omega)
  have hsum : (s : Int) * 1000 * 1000 * 1000 + n = (s * 1000000000 + n : Nat) := by omega
  simp only [timestampChecked, Option.bind_eq_bind]
  rw [hfits s (by omega) (by omega), Option.bind_some]
  rw [hfits (s * 1000) (by omega) (by omega), Option.bind_some]
  rw [hfits (s * 1000 * 1000) (by omega) (by omega), Option.bind_some]
  rw [hfits (s * 1000 * 1000 * 1000) (by omega) (by omega), Option.bind_some]
  rw [hfits n (by omega) (by omega), Option.bind_some, hsum]
  exact hfits _ (by omega) (Int.le_refl _)

/-- A timestamp that fits is what the call computes. -/
theorem timestamp_toNat {s n : Nat} (h : s * 1000000000 + n < 2 ^ 64) :
    (timestamp ⟨s, n⟩).toNat = s * 1000000000 + n := by
  have hofInt : ∀ k : Nat, (UInt64.ofInt (k : Int)).toNat = k % 2 ^ 64 := fun k => by
    rw [UInt64.ofInt, UInt64.toNat_ofNat']
    omega
  have hthousand : (1000 : UInt64).toNat = 1000 := rfl
  unfold timestamp
  simp only [UInt64.toNat_add, UInt64.toNat_mul, hofInt, hthousand]
  omega

/-! ## The exact result -/

/-- The nanoseconds of `ticks` ticks: the ticks at the rate, from the init time on. -/
def nanosAt (c : ClockData) (ticks : Nat) : Nat :=
  match c with
  | .windows countsPerSec => ticks * 1000000000 / countsPerSec.toNat
  | .mac numer denom inittime _ =>
    (inittime.tvSec * billion + inittime.tvNsec).toNat + ticks * numer.toNat / denom.toNat
  | .posix => 0

/-- The factors are positive, of their types, and the init time is normalised. -/
def WellFormed (c : ClockData) : Prop :=
  match c with
  | .windows countsPerSec => 0 < countsPerSec ∧ countsPerSec < 9223372036854775808
  | .mac numer denom inittime _ =>
    0 < numer ∧ 0 < denom ∧ 0 ≤ inittime.tvSec ∧ 0 ≤ inittime.tvNsec ∧ inittime.tvNsec < billion
  | .posix => False

/-- The ticks a counter can show: a non-negative `LONGLONG`, or a `uint64_t`. -/
def TickRange (c : ClockData) (ticks : Nat) : Prop :=
  match c with
  | .windows _ => ticks < 9223372036854775808
  | .mac .. => ticks < 18446744073709551616
  | .posix => False

/-- The one product of the conversion fits its type. -/
def ProductFits (c : ClockData) (ticks : Nat) : Prop :=
  match c with
  | .windows countsPerSec => ticks % countsPerSec.toNat * 1000000000 < 9223372036854775808
  | .mac numer .. => ticks * numer.toNat < 18446744073709551616
  | .posix => False

theorem TickRange.mono {c : ClockData} {t₁ t₂ : Nat} (h : TickRange c t₂) (hle : t₁ ≤ t₂) :
    TickRange c t₁ := by
  cases c with
  | windows countsPerSec => exact Nat.lt_of_le_of_lt hle h
  | mac numer denom inittime initclock => exact Nat.lt_of_le_of_lt hle h
  | posix => exact h.elim

theorem nanosAt_mono (c : ClockData) {t₁ t₂ : Nat} (h : t₁ ≤ t₂) : nanosAt c t₁ ≤ nanosAt c t₂ := by
  cases c with
  | windows countsPerSec => exact Nat.div_le_div_right (Nat.mul_le_mul_right _ h)
  | mac numer denom inittime initclock =>
    exact Nat.add_le_add_left (Nat.div_le_div_right (Nat.mul_le_mul_right _ h)) _
  | posix => exact Nat.le_refl _

/-- The split into seconds and a rest loses nothing. -/
theorem split_exact (ticks rate unit : Nat) :
    ticks / rate * unit + ticks % rate * unit / rate = ticks * unit / rate := by
  rcases Nat.eq_zero_or_pos rate with rfl | hpos
  · simp
  · calc ticks / rate * unit + ticks % rate * unit / rate
        = (ticks % rate * unit + rate * (ticks / rate * unit)) / rate := by
          rw [Nat.add_mul_div_left _ _ hpos, Nat.add_comm]
      _ = (ticks % rate + rate * (ticks / rate)) * unit / rate := by
          rw [Nat.add_mul, Nat.mul_assoc]
      _ = ticks * unit / rate := by rw [Nat.mod_add_div]

/-- What a conversion without overflow comes to: whole seconds and a rest of nanoseconds. -/
def Converts (c : ClockData) (ticks : Nat) : Prop :=
  ∃ s n : Nat, gettimeChecked c ticks = some ⟨s, n⟩ ∧ n < 1000000000 ∧
    s * 1000000000 + n = nanosAt c ticks

theorem windows_converts {countsPerSec : Int} {ticks : Nat}
    (hformed : WellFormed (.windows countsPerSec))
    (hrange : TickRange (.windows countsPerSec) ticks)
    (hfits : ProductFits (.windows countsPerSec) ticks) :
    Converts (.windows countsPerSec) ticks := by
  obtain ⟨hpos, hlt⟩ := hformed
  obtain ⟨rate, rfl⟩ := Int.eq_ofNat_of_zero_le (Int.le_of_lt hpos)
  have hticks : ticks < 9223372036854775808 := hrange
  have hproduct : ticks % rate * 1000000000 < 9223372036854775808 := hfits
  have hrate : 0 < rate := by omega
  have hdiv := Nat.div_le_self ticks rate
  have hmod := Nat.mod_lt ticks hrate
  have hsub : ticks % rate * 1000000000 / rate < 1000000000 := by
    rw [Nat.div_lt_iff_lt_mul hrate, Nat.mul_comm 1000000000]
    exact Nat.mul_lt_mul_of_pos_right hmod (by decide)
  refine ⟨ticks / rate, ticks % rate * 1000000000 / rate, ?_, hsub, split_exact ..⟩
  have hsec := int64_nat (Nat.lt_of_le_of_lt hdiv hticks)
  have hrest := int64_nat (Nat.lt_of_le_of_lt (Nat.mod_le ticks rate) hticks)
  have hscaled := int64_nat hproduct
  have hnsec := int32_nat (Nat.lt_trans hsub (by decide : 1000000000 < 2147483648))
  have hscale : ((ticks % rate : Nat) : Int) * billion = (ticks % rate * 1000000000 : Nat) := by
    rw [Int.natCast_mul]
    rfl
  show windowsGettime rate ticks = _
  unfold windowsGettime
  simp only [Option.bind_eq_bind]
  rw [← Int.ofNat_tdiv, ← Int.ofNat_tmod, hsec, Option.bind_some, hrest, Option.bind_some]
  rw [hscale, hscaled, Option.bind_some, ← Int.ofNat_tdiv, hnsec]
  rfl

theorem mac_converts {numer denom : UInt32} {inittime : Timespec} {initclock : UInt64} {ticks : Nat}
    (hformed : WellFormed (.mac numer denom inittime initclock))
    (hfits : ProductFits (.mac numer denom inittime initclock) ticks)
    (hresult : nanosAt (.mac numer denom inittime initclock) ticks < 2 ^ 64) :
    Converts (.mac numer denom inittime initclock) ticks := by
  obtain ⟨initSec, initNsec⟩ := inittime
  obtain ⟨hnumer, hdenom, hsec0, hnsec0, hnorm⟩ := hformed
  obtain ⟨sec, rfl⟩ := Int.eq_ofNat_of_zero_le hsec0
  obtain ⟨nsec, rfl⟩ := Int.eq_ofNat_of_zero_le hnsec0
  have hproduct : ticks * numer.toNat < 18446744073709551616 := hfits
  have hnano := Nat.div_le_self (ticks * numer.toNat) denom.toNat
  have hbillion : billion = ((1000000000 : Nat) : Int) := rfl
  have hinit : (sec * billion + nsec : Int).toNat = sec * 1000000000 + nsec := by
    rw [hbillion]
    omega
  have hnsec : nsec < 1000000000 := by
    rw [hbillion] at hnorm
    exact Int.ofNat_lt.mp hnorm
  have hexact : nanosAt (.mac numer denom ⟨sec, nsec⟩ initclock) ticks =
      sec * 1000000000 + nsec + ticks * numer.toNat / denom.toNat := by
    show (sec * billion + nsec : Int).toNat + _ = _
    rw [hinit]
  rw [hexact] at hresult
  generalize hq : ticks * numer.toNat / denom.toNat = nano at hnano hexact hresult
  refine ⟨sec + nano / 1000000000 + (nsec + nano % 1000000000) / 1000000000,
    (nsec + nano % 1000000000) % 1000000000, ?_, Nat.mod_lt _ (by decide), by rw [hexact]; omega⟩
  have hscaled := uint64_nat hproduct
  have hnanoFits := uint64_nat (v := nano) (by omega)
  have hsec := int64_nat (v := sec + nano / 1000000000) (by omega)
  have hrest := int64_nat (v := nsec + nano % 1000000000) (by omega)
  have hcarry := int64_nat
    (v := sec + nano / 1000000000 + (nsec + nano % 1000000000) / 1000000000) (by omega)
  rw [Int.natCast_mul] at hscaled
  rw [Int.natCast_add] at hsec hrest
  show macGettime numer denom ⟨sec, nsec⟩ ticks = _
  unfold macGettime
  simp only [Option.bind_eq_bind]
  rw [hscaled, Option.bind_some, ← Int.natCast_mul, ← Int.ofNat_tdiv, hq, hnanoFits,
    Option.bind_some, hbillion, ← Int.ofNat_tdiv, ← Int.ofNat_tmod, hsec, Option.bind_some, hrest,
    Option.bind_some, ← Int.natCast_add, ← Int.natCast_add, ← Int.ofNat_tdiv, ← Int.ofNat_tmod,
    ← Int.natCast_add, hcarry]
  rfl

theorem converts_of_fits {c : ClockData} {ticks : Nat} (hformed : WellFormed c)
    (hrange : TickRange c ticks) (hresult : nanosAt c ticks < 2 ^ 64)
    (hfits : ProductFits c ticks) : Converts c ticks := by
  cases c with
  | windows countsPerSec => exact windows_converts hformed hrange hfits
  | mac numer denom inittime initclock => exact mac_converts hformed hfits hresult
  | posix => exact hformed.elim

/-- A conversion without overflow has a product that fits. -/
theorem fits_of_checked {c : ClockData} {ticks : Nat} {t : Timespec} (hformed : WellFormed c)
    (h : gettimeChecked c ticks = some t) : ProductFits c ticks := by
  cases c with
  | windows countsPerSec =>
    obtain ⟨rate, rfl⟩ := Int.eq_ofNat_of_zero_le (Int.le_of_lt hformed.1)
    change windowsGettime rate ticks = some t at h
    simp only [windowsGettime, Option.bind_eq_bind, Option.bind_eq_some_iff] at h
    obtain ⟨sec, -, rest, hrest, scaled, hscaled, -⟩ := h
    rw [← Int.ofNat_tmod] at hrest
    have hvalue := fitted_value hrest
    have hbounds := fitted_bounds hscaled
    rw [hvalue] at hbounds
    show ticks % rate * 1000000000 < 9223372036854775808
    have hproduct : ((ticks % rate * 1000000000 : Nat) : Int) < 9223372036854775808 := hbounds.2
    omega
  | mac numer denom inittime initclock =>
    change macGettime numer denom inittime ticks = some t at h
    simp only [macGettime, Option.bind_eq_bind, Option.bind_eq_some_iff] at h
    obtain ⟨scaled, hscaled, -⟩ := h
    have hbounds := fitted_bounds hscaled
    rw [← Int.natCast_mul] at hbounds
    show ticks * numer.toNat < 18446744073709551616
    omega
  | posix => cases h

/-! ## What the call stores -/

def initclockOf : ClockData → UInt64
  | .mac _ _ _ initclock => initclock
  | _ => 0

/-- The host when its counter shows `ticks` ticks, on macOS since the init. -/
def Wasi.atTicks (w : Wasi) (ticks : Nat) : Wasi :=
  { w with clockOutcome := { w.clockOutcome with
      queryPerformanceCounter := some ticks
      machAbsoluteTime := initclockOf w.clockData + UInt64.ofNat ticks } }

/-- Where no intermediate value leaves its type, the call computes what the checked conversion
    does. -/
theorem osClockGettime_eq {w : Wasi} {clockId : UInt32} {ticks : Nat} {t : Timespec}
    (hformed : WellFormed w.clockData) (hrange : TickRange w.clockData ticks)
    (h : gettimeChecked w.clockData ticks = some t) :
    osClockGettime (w.atTicks ticks) clockId = some (0, t) := by
  have hfits := fits_of_checked hformed h
  have hdata : (w.atTicks ticks).clockData = w.clockData := rfl
  unfold osClockGettime
  rw [hdata]
  cases hc : w.clockData with
  | windows countsPerSec =>
    rw [hc] at h hformed
    change windowsGettime countsPerSec ticks = some t at h
    simp only [windowsGettime, Option.bind_eq_bind, Option.bind_eq_some_iff] at h
    obtain ⟨sec, hsec, rest, hrest, scaled, hscaled, nsec, hnsec, ht⟩ := h
    have hpos : ¬ countsPerSec ≤ 0 := Int.not_le_of_gt hformed.1
    rw [fitted_value hrest] at hscaled
    have hproduct := longlong_eq (fitted_bounds hscaled)
    rw [fitted_value hscaled, ← hproduct] at hnsec
    rw [fitted_value hsec, fitted_value hnsec] at ht
    dsimp only
    rw [if_neg hpos]
    exact congrArg (fun t => some (0, t)) (Option.some.inj ht)
  | mac numer denom inittime initclock =>
    rw [hc] at h hformed hfits hrange
    change macGettime numer denom inittime ticks = some t at h
    simp only [macGettime, Option.bind_eq_bind, Option.bind_eq_some_iff] at h
    obtain ⟨scaled, hscaled, nano, hnano, sec, hsec, nsec, hnsec, carried, hcarried, ht⟩ := h
    have hclock : (w.atTicks ticks).clockOutcome.machAbsoluteTime - initclock =
        UInt64.ofNat ticks := by
      show initclockOf w.clockData + UInt64.ofNat ticks - initclock = _
      rw [hc, initclockOf, UInt64.add_comm, UInt64.add_sub_cancel]
    have hticks : (UInt64.ofNat ticks).toNat = ticks := UInt64.toNat_ofNat_of_lt' hrange
    have hproduct : (UInt64.ofNat ticks * numer.toUInt64 / denom.toUInt64).toNat =
        ticks * numer.toNat / denom.toNat := by
      rw [UInt64.toNat_div, UInt64.toNat_mul, hticks, UInt32.toNat_toUInt64,
        UInt32.toNat_toUInt64, Nat.mod_eq_of_lt hfits]
    rw [← Int.natCast_mul] at hscaled
    rw [fitted_value hscaled, ← Int.ofNat_tdiv] at hnano
    rw [fitted_value hnano] at hsec hnsec
    rw [fitted_value hsec, fitted_value hnsec] at hcarried
    rw [fitted_value hcarried, fitted_value hnsec] at ht
    have ht' := Option.some.inj ht
    have hdenom : ¬ denom = 0 := fun hzero => absurd hformed.2.1 (by rw [hzero]; decide)
    dsimp only
    rw [if_neg hdenom]
    have hmod : ((ticks * numer.toNat / denom.toNat : Nat) : Int).tmod billion =
        (ticks * numer.toNat / denom.toNat : Nat) % billion :=
      Int.tmod_eq_emod_of_nonneg (Int.natCast_nonneg _)
    rw [hclock, hproduct, ← ht', Int.natCast_tdiv_eq_ediv, hmod]
  | posix =>
    rw [hc] at hformed
    exact hformed.elim

/-- The timestamp that `clock_time_get` leaves at `out`. -/
def storedTimestamp (w : Wasi) (clockId : UInt32) (precision : UInt64) (out : UInt32) : Nat :=
  leValue ((clockTimeGet clockId precision out w).2.1.instanceMemory.read out.toNat 8)

theorem storedTimestamp_eq {w : Wasi} {clockId out : UInt32} {ret : Int × Timespec}
    (precision : UInt64) (hvalid : checkClock clockId = true)
    (hquery : osClockGettime w clockId = some ret)
    (hfits : out.toNat + 8 ≤ w.instanceMemory.size) :
    storedTimestamp w clockId precision out = (timestamp ret.2).toNat := by
  have hrun : clockTimeGet clockId precision out w = _ := clockGet_pass hvalid hquery hfits
  have hself := w.instanceMemory.read_write_self out.toNat (leBytes 8 (timestamp ret.2).toNat)
  rw [length_leBytes] at hself
  unfold storedTimestamp
  rw [hrun]
  refine (congrArg leValue hself).trans ?_
  rw [leValue_leBytes]
  exact Nat.mod_eq_of_lt (UInt64.toNat_lt _)

/-- At `ticks` the conversion is exact: no intermediate value overflows its type, the timespec is
    normalised and the stored timestamp is the exact number of nanoseconds. -/
structure ConvertsExactly (w : Wasi) (clockId : UInt32) (precision : UInt64) (out : UInt32)
    (ticks : Nat) : Prop where
  noOverflow : ∃ t, gettimeChecked w.clockData ticks = some t ∧ (timestampChecked t).isSome = true
  normalised : ∃ ret, osClockGettime (w.atTicks ticks) clockId = some ret ∧
    0 ≤ ret.2.tvNsec ∧ ret.2.tvNsec < billion
  exact : storedTimestamp (w.atTicks ticks) clockId precision out = nanosAt w.clockData ticks

section exactness
variable {w : Wasi} {clockId out : UInt32} {precision : UInt64} {ticks : Nat}

theorem convertsExactly_iff (hformed : WellFormed w.clockData)
    (hvalid : checkClock clockId = true) (hfits : out.toNat + 8 ≤ w.instanceMemory.size)
    (hrange : TickRange w.clockData ticks) (hresult : nanosAt w.clockData ticks < 2 ^ 64) :
    ConvertsExactly w clockId precision out ticks ↔ ProductFits w.clockData ticks := by
  constructor
  · rintro ⟨⟨t, ht, -⟩, -, -⟩
    exact fits_of_checked hformed ht
  · intro hproduct
    obtain ⟨s, n, ht, hn, hvalue⟩ := converts_of_fits hformed hrange hresult hproduct
    have hrun : osClockGettime (w.atTicks ticks) clockId = _ := osClockGettime_eq hformed hrange ht
    rw [← hvalue] at hresult
    refine ⟨⟨_, ht, by rw [timestampChecked_eq hresult]; rfl⟩, ⟨_, hrun, ?_⟩, ?_⟩
    · have hbillion : billion = ((1000000000 : Nat) : Int) := rfl
      rw [hbillion]
      exact ⟨Int.natCast_nonneg _, Int.ofNat_lt.mpr hn⟩
    · have hfits' : out.toNat + 8 ≤ (w.atTicks ticks).instanceMemory.size := hfits
      rw [storedTimestamp_eq precision hvalid hrun hfits', timestamp_toNat hresult, hvalue]

end exactness

/-- For tick counts `t₁ ≤ t₂` whose exact results fit 64 bits, the conversion is exact at both and
    the later timestamp is not smaller, exactly where the product fits its type at both. -/
theorem conversion_exact_iff (w : Wasi) (clockId out : UInt32) (precision : UInt64)
    (hformed : WellFormed w.clockData) (hvalid : checkClock clockId = true)
    (hfits : out.toNat + 8 ≤ w.instanceMemory.size) (t₁ t₂ : Nat) (hle : t₁ ≤ t₂)
    (hrange : TickRange w.clockData t₂) (hresult : nanosAt w.clockData t₂ < 2 ^ 64) :
    (ConvertsExactly w clockId precision out t₁ ∧ ConvertsExactly w clockId precision out t₂ ∧
      storedTimestamp (w.atTicks t₁) clockId precision out ≤
        storedTimestamp (w.atTicks t₂) clockId precision out) ↔
    ProductFits w.clockData t₁ ∧ ProductFits w.clockData t₂ := by
  have hmono := nanosAt_mono w.clockData hle
  have hiff₁ : ConvertsExactly w clockId precision out t₁ ↔ _ :=
    convertsExactly_iff hformed hvalid hfits (hrange.mono hle) (Nat.lt_of_le_of_lt hmono hresult)
  have hiff₂ : ConvertsExactly w clockId precision out t₂ ↔ _ :=
    convertsExactly_iff hformed hvalid hfits hrange hresult
  constructor
  · rintro ⟨hexact₁, hexact₂, -⟩
    exact ⟨hiff₁.mp hexact₁, hiff₂.mp hexact₂⟩
  · rintro ⟨hfits₁, hfits₂⟩
    have hexact₁ := hiff₁.mpr hfits₁
    have hexact₂ := hiff₂.mpr hfits₂
    refine ⟨hexact₁, hexact₂, ?_⟩
    rw [hexact₁.exact, hexact₂.exact]
    exact hmono

/-- A counter of 10 MHz on Windows, a second and a half in. -/
theorem ten_megahertz_exact :
    let w := { hostOf (.zeros 8 (by decide)) with clockData := .windows 10000000 }
    storedTimestamp (w.atTicks 15000000) 0 0 0 = 1500000000 := by
  intro w
  have hformed : WellFormed w.clockData := ⟨by decide, by decide⟩
  have hrange : TickRange w.clockData 15000000 := show 15000000 < 9223372036854775808 by decide
  have hresult : nanosAt w.clockData 15000000 = 1500000000 := by decide
  have hproduct₁ : ProductFits w.clockData 0 := show 0 % 10000000 * 1000000000 < _ by decide
  have hproduct₂ : ProductFits w.clockData 15000000 :=
    show 15000000 % 10000000 * 1000000000 < _ by decide
  have hexact := (conversion_exact_iff w 0 0 0 hformed rfl (by decide) 0 15000000 (by decide)
    hrange (by rw [hresult]; decide)).mpr ⟨hproduct₁, hproduct₂⟩
  exact hexact.2.1.exact.trans hresult

/-- A timebase of 33.3 MHz on macOS: after 18446744074 ticks, nine minutes, the product exceeds
    64 bits, and the clock that showed 553 seconds a tick before shows 8 nanoseconds. -/
theorem timebase_jumps_back :
    let w := { hostOf (.zeros 8 (by decide)) with
      clockData := .mac 1000000000 33333335 ⟨0, 0⟩ 0 }
    nanosAt w.clockData 18446744074 = 553402294549 ∧
    storedTimestamp (w.atTicks 18446744073) 0 0 0 = 553402294519 ∧
    storedTimestamp (w.atTicks 18446744074) 0 0 0 = 8 ∧
    ¬ ConvertsExactly w 0 0 0 18446744074 := by
  intro w
  have hexact : nanosAt w.clockData 18446744074 = 553402294549 := by decide +kernel
  have hlate : storedTimestamp (w.atTicks 18446744074) 0 0 0 = 8 := by decide +kernel
  refine ⟨hexact, by decide +kernel, hlate, fun hconverts => ?_⟩
  have hstored := hconverts.exact
  rw [hlate, hexact] at hstored
  exact absurd hstored (by decide)

end RlboxWasm2c.MinWasi

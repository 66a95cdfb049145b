import RlboxWasm2c.Confinement

/- What one guarded access comes to: the run of a load, a store and a copy from a given
   state, with the words of the memory before and after. `Apart` says that two ranges
   share no byte, which is what a write needs to leave a read alone. -/
namespace RlboxWasm2c.MinWasi
open Traced

/-! ## Ranges and words -/

/-- Ranges `[a, a + n)` and `[b, b + k)` share no byte. -/
def Apart (a n b k : Nat) : Prop := ∀ x, a ≤ x → x < a + n → x < b ∨ b + k ≤ x

theorem Apart.symm {a n b k : Nat} (h : Apart a n b k) : Apart b k a n := by
  intro x hlo hhi
  by_contra hin
  have hout := h x (by omega) (by omega)
  omega

/-- Parts of ranges that share no byte share none. -/
theorem Apart.mono {a n b k a' n' b' k' : Nat} (h : Apart a n b k) (ha : a ≤ a')
    (han : a' + n' ≤ a + n) (hb : b ≤ b') (hbk : b' + k' ≤ b + k) : Apart a' n' b' k' := by
  intro x hlo hhi
  have hout := h x (by omega) (by omega)
  omega

theorem Memory.read_append (m : Memory) (a n k : Nat) :
    m.read a (n + k) = m.read a n ++ m.read (a + n) k := by
  simp only [Memory.read, List.range_add, List.map_append, List.map_map, Function.comp_def,
    Nat.add_assoc]

/-- The little endian `u32` at `a`. -/
def Memory.u32 (m : Memory) (a : Nat) : UInt32 := UInt32.ofNat (leValue (m.read a 4))

theorem leValue_leBytes (n v : Nat) : leValue (leBytes n v) = v % 256 ^ n := by
  induction n generalizing v with
  | zero => rw [Nat.pow_zero, Nat.mod_one]; rfl
  | succ n ih =>
    calc leValue (leBytes (n + 1) v)
        = (UInt8.ofNat v).toNat + 256 * leValue (leBytes n (v / 256)) := rfl
      _ = v % 256 + 256 * (v / 256 % 256 ^ n) := by rw [ih, UInt8.toNat_ofNat']
      _ = v % (256 * 256 ^ n) := Nat.mod_mul.symm
      _ = v % 256 ^ (n + 1) := by rw [Nat.pow_succ']

theorem Memory.read_write_of_apart {m : Memory} {a n b : Nat} {bytes : List UInt8}
    (h : Apart a n b bytes.length) : (m.write b bytes).read a n = m.read a n := by
  refine Memory.read_congr fun i hi => Memory.write_data_of_not ?_
  exact h (a + i) (by omega) (by omega)

theorem Memory.u32_write_leBytes (m : Memory) (a v : Nat) :
    (m.write a (leBytes 4 v)).u32 a = UInt32.ofNat v := by
  have hread := m.read_write_self a (leBytes 4 v)
  rw [length_leBytes] at hread
  unfold Memory.u32
  rw [hread, leValue_leBytes]
  apply UInt32.toNat.inj
  rw [UInt32.toNat_ofNat', UInt32.toNat_ofNat', show 256 ^ 4 = 2 ^ 32 by decide, Nat.mod_mod]

/-- A word that was stored is read back. -/
theorem Memory.u32_write_self (m : Memory) (a : Nat) (v : UInt32) :
    (m.write a (leBytes 4 v.toNat)).u32 a = v := by
  rw [m.u32_write_leBytes, UInt32.ofNat_toNat]

theorem Memory.u32_write_of_apart {m : Memory} {a b : Nat} {bytes : List UInt8}
    (h : Apart a 4 b bytes.length) : (m.write b bytes).u32 a = m.u32 a :=
  congrArg (fun l => UInt32.ofNat (leValue l)) (Memory.read_write_of_apart h)

/-! ## Sums of words -/

theorem toNat_add_of_lt {a b : UInt32} (h : a.toNat + b.toNat < 2 ^ 32) :
    (a + b).toNat = a.toNat + b.toNat := by
  rw [UInt32.toNat_add]
  exact Nat.mod_eq_of_lt h

/-- `safe_add_u32` fails exactly when the sum does not fit. -/
theorem safeAddU32_none_iff {a b : UInt32} :
    safeAddU32 a b = none ↔ 2 ^ 32 ≤ a.toNat + b.toNat := by
  have ha := a.toNat_lt
  have hroom : (0xffffffff - a : UInt32).toNat = 2 ^ 32 - 1 - a.toNat := by
    rw [UInt32.toNat_sub_of_le _ _ (by rw [UInt32.le_iff_toNat_le]; exact Nat.le_pred_of_lt ha)]
    rfl
  unfold safeAddU32
  simp only [UInt32.lt_iff_toNat_lt, hroom]
  split <;> simp only [reduceCtorEq, true_iff, false_iff] <;> omega

theorem safeAddU32_some {a b : UInt32} (h : a.toNat + b.toNat < 2 ^ 32) :
    safeAddU32 a b = some (a + b) := by
  unfold safeAddU32
  refine if_neg fun hlt => ?_
  have hnone : safeAddU32 a b = none := if_pos hlt
  rw [safeAddU32_none_iff] at hnone
  omega

/-- What `safe_add_u32` returns is the exact sum. -/
theorem safeAddU32_eq_some {a b v : UInt32} (h : safeAddU32 a b = some v) :
    v.toNat = a.toNat + b.toNat := by
  have hlt : a.toNat + b.toNat < 2 ^ 32 := by
    by_contra hc
    rw [safeAddU32_none_iff.mpr (by omega)] at h
    cases h
  rw [safeAddU32_some hlt] at h
  cases h
  exact toNat_add_of_lt hlt

/-! ## The run of one access -/

def Wasi.withMemory (w : Wasi) (m : Memory) : Wasi := { w with instanceMemory := m }

@[simp] theorem Wasi.withMemory_instanceMemory (w : Wasi) (m : Memory) :
    (w.withMemory m).instanceMemory = m := rfl

@[simp] theorem Wasi.withMemory_stdin (w : Wasi) (m : Memory) :
    (w.withMemory m).stdin = w.stdin := rfl

@[simp] theorem Wasi.withMemory_stdout (w : Wasi) (m : Memory) :
    (w.withMemory m).stdout = w.stdout := rfl

@[simp] theorem Wasi.withMemory_stderr (w : Wasi) (m : Memory) :
    (w.withMemory m).stderr = w.stderr := rfl

/-- The state after a write to the memory. -/
def Wasi.store (w : Wasi) (a : Nat) (bytes : List UInt8) : Wasi :=
  w.withMemory (w.instanceMemory.write a bytes)

@[simp] theorem retErrOnFail_some (v : UInt32) (rest : UInt32 → M UInt32) :
    retErrOnFail (some v) rest = rest v := rfl

section runs
variable {α : Type}

/-- A check that passes, and what is run behind it. -/
theorem memcheckSize_pass {a sz : UInt32} {w : Wasi} {x : M α}
    (h : a.toNat + sz.toNat ≤ w.instanceMemory.size) :
    (memcheckSize a.toUInt64 sz.toUInt64 >>= fun _ => x) w =
      ((x w).1, (x w).2.1, .check a.toNat sz.toNat true :: (x w).2.2) := by
  have hcheck := memcheckSize_run a sz w
  rw [if_pos h] at hcheck
  exact Run.bind_ok hcheck

/-- A check that fails ends the run. -/
theorem memcheckSize_fail {a sz : UInt32} {w : Wasi} {x : M α}
    (h : w.instanceMemory.size < a.toNat + sz.toNat) :
    (memcheckSize a.toUInt64 sz.toUInt64 >>= fun _ => x) w =
      (.error .oob, w, [.check a.toNat sz.toNat false]) := by
  have hcheck := memcheckSize_run a sz w
  rw [if_neg (Nat.not_le_of_lt h)] at hcheck
  exact Run.bind_error hcheck

theorem wasmI32Load_pass {a : UInt32} {w : Wasi} (h : a.toNat + 4 ≤ w.instanceMemory.size) :
    wasmI32Load a.toUInt64 w = (.ok (w.instanceMemory.u32 a.toNat), w,
      [.check a.toNat 4 true, .access .load a.toNat 4]) := by
  show (memcheckSize a.toUInt64 (4 : UInt32).toUInt64 >>= _) w = _
  rw [memcheckSize_pass h, UInt32.toNat_toUInt64]
  rfl

theorem wasmI32Load_fail {a : UInt32} {w : Wasi} (h : w.instanceMemory.size < a.toNat + 4) :
    wasmI32Load a.toUInt64 w = (.error .oob, w, [.check a.toNat 4 false]) := by
  show (memcheckSize a.toUInt64 (4 : UInt32).toUInt64 >>= _) w = _
  exact memcheckSize_fail h

theorem wasmI32Store_pass {a v : UInt32} {w : Wasi} (h : a.toNat + 4 ≤ w.instanceMemory.size) :
    wasmI32Store a.toUInt64 v w = (.ok (), w.store a.toNat (leBytes 4 v.toNat),
      [.check a.toNat 4 true, .access .store a.toNat 4]) := by
  show (memcheckSize a.toUInt64 (4 : UInt32).toUInt64 >>= _) w = _
  rw [memcheckSize_pass h, UInt32.toNat_toUInt64]
  rfl

theorem wasmI32Store_fail {a v : UInt32} {w : Wasi} (h : w.instanceMemory.size < a.toNat + 4) :
    wasmI32Store a.toUInt64 v w = (.error .oob, w, [.check a.toNat 4 false]) := by
  show (memcheckSize a.toUInt64 (4 : UInt32).toUInt64 >>= _) w = _
  exact memcheckSize_fail h

theorem wasmI64Store_pass {a : UInt32} {v : UInt64} {w : Wasi}
    (h : a.toNat + 8 ≤ w.instanceMemory.size) :
    wasmI64Store a.toUInt64 v w = (.ok (), w.store a.toNat (leBytes 8 v.toNat),
      [.check a.toNat 8 true, .access .store a.toNat 8]) := by
  show (memcheckSize a.toUInt64 (8 : UInt32).toUInt64 >>= _) w = _
  rw [memcheckSize_pass h, UInt32.toNat_toUInt64]
  rfl

theorem wasmI64Store_fail {a : UInt32} {v : UInt64} {w : Wasi}
    (h : w.instanceMemory.size < a.toNat + 8) :
    wasmI64Store a.toUInt64 v w = (.error .oob, w, [.check a.toNat 8 false]) := by
  show (memcheckSize a.toUInt64 (8 : UInt32).toUInt64 >>= _) w = _
  exact memcheckSize_fail h

/-- A copy of all of `src`. -/
theorem checkCopy_pass {a sz : UInt32} {src : List UInt8} {w : Wasi} (hsz : sz.toNat = src.length)
    (h : a.toNat + src.length ≤ w.instanceMemory.size) :
    checkCopy a.toUInt64 sz src w = (.ok (), w.store a.toNat src,
      [.check a.toNat src.length true, .access .memcpy a.toNat src.length]) := by
  have hall : src.take sz.toNat = src := List.take_of_length_le (by omega)
  unfold checkCopy
  rw [memcheckSize_pass (by omega), UInt32.toNat_toUInt64, hall, hsz]
  rfl

end runs

/-! ## A host to run on -/

/-- A memory of zeros. -/
def Memory.zeros (size : Nat) (h : size ≤ 2 ^ 32) : Memory := ⟨fun _ => 0, size, h⟩

/-- An instance on a host without arguments, whose clocks fail, whose stdin is empty and whose
    streams take all that is written. -/
def hostOf (m : Memory) : Wasi :=
  ⟨m, [], [], .posix, ⟨none, 0, fun _ => none, fun _ => none⟩, ⟨0, 0⟩, [], [], [], []⟩

end RlboxWasm2c.MinWasi

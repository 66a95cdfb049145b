import RlboxWasm2c.Accesses

/- The marshalling of `argv` and the environment. `strings_sizes_get` and `strings_get`
   go over the same list with loops of their own: the first adds up what the second
   writes. `marshal` is the memory the copy loop leaves, one string after the other; the
   loop runs to it wherever both ranges fit, and a guest that reads it finds the strings. -/
namespace RlboxWasm2c.MinWasi
open Traced

/-- The bytes of the strings with their terminators. -/
def stringsBytes (strings : List CString) : Nat := (strings.map fun str => str.1.length + 1).sum

@[simp] theorem stringsBytes_nil : stringsBytes [] = 0 := rfl

@[simp] theorem stringsBytes_cons (str : CString) (strings : List CString) :
    stringsBytes (str :: strings) = str.1.length + 1 + stringsBytes strings := rfl

/-- Reading a string with its terminator from `a`, within the memory. -/
def Memory.cString (m : Memory) (a : Nat) : List UInt8 :=
  (m.read a (m.size - a)).takeWhile (· != 0)

theorem Memory.cString_eq {m : Memory} {a : Nat} {str : CString}
    (hread : m.read a (str.1.length + 1) = str.1 ++ [0])
    (hfits : a + (str.1.length + 1) ≤ m.size) : m.cString a = str.1 := by
  have hk : m.size - a = str.1.length + 1 + (m.size - a - (str.1.length + 1)) := by omega
  have hne : ∀ b ∈ str.1, (b != 0) = true := by
    intro b hb
    rw [bne_iff_ne]
    rintro rfl
    exact str.2 hb
  unfold Memory.cString
  rw [hk, Memory.read_append, hread, List.append_assoc, List.takeWhile_append_of_pos hne]
  simp

/-! ## The memory after the copy -/

/-- Each pointer is stored before its string is copied. -/
def marshal : Nat → Nat → List CString → Memory → Memory
  | _, _, [], m => m
  | arr, buf, str :: strings, m =>
    marshal (arr + 4) (buf + (str.1.length + 1)) strings
      ((m.write arr (leBytes 4 buf)).write buf (str.1 ++ [0]))

@[simp] theorem marshal_size (arr buf : Nat) (strings : List CString) (m : Memory) :
    (marshal arr buf strings m).size = m.size := by
  induction strings generalizing arr buf m with
  | nil => rfl
  | cons str strings ih =>
    rw [marshal, ih]
    rfl

/-- Outside the pointers and the strings nothing changes. -/
theorem marshal_data {arr buf x : Nat} {strings : List CString} {m : Memory}
    (harr : x < arr ∨ arr + 4 * strings.length ≤ x)
    (hbuf : x < buf ∨ buf + stringsBytes strings ≤ x) :
    (marshal arr buf strings m).data x = m.data x := by
  induction strings generalizing arr buf m with
  | nil => rfl
  | cons str strings ih =>
    rw [List.length_cons] at harr
    rw [stringsBytes_cons] at hbuf
    rw [marshal, ih (by omega) (by omega)]
    rw [Memory.write_data_of_not (by rw [List.length_append, List.length_singleton]; omega)]
    exact Memory.write_data_of_not (by rw [length_leBytes]; omega)

theorem marshal_read {arr buf a n : Nat} {strings : List CString} {m : Memory}
    (harr : Apart a n arr (4 * strings.length)) (hbuf : Apart a n buf (stringsBytes strings)) :
    (marshal arr buf strings m).read a n = m.read a n := by
  refine Memory.read_congr fun i hi => marshal_data ?_ ?_
  · exact harr (a + i) (by omega) (by omega)
  · exact hbuf (a + i) (by omega) (by omega)

section copied
variable {arr buf : Nat} {strings : List CString} {m : Memory}

/-- The two ranges behind the first string. -/
theorem apart_tail {str : CString}
    (h : Apart arr (4 * (str :: strings).length) buf (stringsBytes (str :: strings))) :
    Apart (arr + 4) (4 * strings.length) (buf + (str.1.length + 1)) (stringsBytes strings) := by
  rw [List.length_cons, stringsBytes_cons] at h
  exact h.mono (by omega) (by omega) (by omega) (by omega)

/-- Pointer `k` is left alone by the strings and by the later pointers. -/
theorem marshal_pointer (h : Apart arr (4 * strings.length) buf (stringsBytes strings))
    {k : Nat} (hk : k < strings.length) :
    (marshal arr buf strings m).u32 (arr + 4 * k) =
      UInt32.ofNat (buf + stringsBytes (strings.take k)) := by
  induction strings generalizing arr buf m k with
  | nil => cases hk
  | cons str strings ih =>
    have htail := apart_tail h
    rw [List.length_cons, stringsBytes_cons] at h
    rw [marshal]
    cases k with
    | zero =>
      have harr : Apart arr 4 (arr + 4) (4 * strings.length) := fun x _ hx => Or.inl hx
      have hbuf : Apart arr 4 (buf + (str.1.length + 1)) (stringsBytes strings) :=
        h.mono (by omega) (by omega) (by omega) (by omega)
      have hstr : Apart arr 4 buf (str.1 ++ [0]).length := by
        rw [List.length_append, List.length_singleton]
        exact h.mono (by omega) (by omega) (by omega) (by omega)
      calc (marshal (arr + 4) (buf + (str.1.length + 1)) strings
            ((m.write arr (leBytes 4 buf)).write buf (str.1 ++ [0]))).u32 (arr + 4 * 0)
          = ((m.write arr (leBytes 4 buf)).write buf (str.1 ++ [0])).u32 arr :=
            congrArg (fun l => UInt32.ofNat (leValue l)) (marshal_read harr hbuf)
        _ = (m.write arr (leBytes 4 buf)).u32 arr := Memory.u32_write_of_apart hstr
        _ = UInt32.ofNat buf := m.u32_write_leBytes arr buf
    | succ k =>
      have hnext := ih (m := (m.write arr (leBytes 4 buf)).write buf (str.1 ++ [0])) htail
        (Nat.lt_of_succ_lt_succ hk)
      rw [List.take_succ_cons, stringsBytes_cons]
      rw [show arr + 4 * (k + 1) = arr + 4 + 4 * k by omega, hnext]
      rw [Nat.add_assoc]

/-- String `k` is left alone by the pointers and by the later strings. -/
theorem marshal_string (h : Apart arr (4 * strings.length) buf (stringsBytes strings))
    {k : Nat} (hk : k < strings.length) :
    (marshal arr buf strings m).read (buf + stringsBytes (strings.take k))
      (strings[k].1.length + 1) = strings[k].1 ++ [0] := by
  induction strings generalizing arr buf m k with
  | nil => cases hk
  | cons str strings ih =>
    have htail := apart_tail h
    rw [List.length_cons, stringsBytes_cons] at h
    rw [marshal]
    cases k with
    | zero =>
      have harr : Apart buf (str.1.length + 1) (arr + 4) (4 * strings.length) :=
        (h.mono (by omega) (by omega) (by omega) (by omega)).symm
      have hbuf : Apart buf (str.1.length + 1) (buf + (str.1.length + 1)) (stringsBytes strings) :=
        fun x _ hx => Or.inl hx
      have hself := (m.write arr (leBytes 4 buf)).read_write_self buf (str.1 ++ [0])
      rw [List.length_append, List.length_singleton] at hself
      exact (marshal_read harr hbuf).trans hself
    | succ k =>
      have hnext := ih (m := (m.write arr (leBytes 4 buf)).write buf (str.1 ++ [0])) htail
        (Nat.lt_of_succ_lt_succ hk)
      have hat : buf + stringsBytes ((str :: strings).take (k + 1)) =
          buf + (str.1.length + 1) + stringsBytes (strings.take k) := by
        rw [List.take_succ_cons, stringsBytes_cons, Nat.add_assoc buf]
      rw [hat]
      exact hnext

theorem stringsBytes_take_succ {k : Nat} (hk : k < strings.length) :
    stringsBytes (strings.take (k + 1)) =
      stringsBytes (strings.take k) + (strings[k].1.length + 1) := by
  unfold stringsBytes
  rw [List.take_succ_eq_append_getElem hk, List.map_append, List.sum_append]
  rfl

theorem stringsBytes_take_le (k : Nat) : stringsBytes (strings.take k) ≤ stringsBytes strings := by
  calc stringsBytes (strings.take k)
      ≤ stringsBytes (strings.take k) + stringsBytes (strings.drop k) := Nat.le_add_right ..
    _ = stringsBytes (strings.take k ++ strings.drop k) := by
      simp only [stringsBytes, List.map_append, List.sum_append]
    _ = stringsBytes strings := by rw [List.take_append_drop]

/-- What the pointers and the strings behind them say, for strings that fit the memory. -/
theorem marshal_decodes (h : Apart arr (4 * strings.length) buf (stringsBytes strings))
    (hfits : buf + stringsBytes strings ≤ m.size) {k : Nat} (hk : k < strings.length) :
    let m' := marshal arr buf strings m
    (m'.u32 (arr + 4 * k)).toNat = buf + stringsBytes (strings.take k) ∧
    m'.cString (buf + stringsBytes (strings.take k)) = strings[k].1 ∧
    m'.data (buf + stringsBytes (strings.take k) + strings[k].1.length) = 0 := by
  intro m'
  have hsize := m.size_le
  have hnext := stringsBytes_take_succ hk
  have hle : stringsBytes (strings.take (k + 1)) ≤ stringsBytes strings :=
    stringsBytes_take_le (k + 1)
  have hread : m'.read (buf + stringsBytes (strings.take k)) (strings[k].1.length + 1) =
      strings[k].1 ++ [0] := marshal_string h hk
  refine ⟨?_, ?_, ?_⟩
  · rw [marshal_pointer h hk]
    exact UInt32.toNat_ofNat_of_lt' (by show _ < 2 ^ 32; omega)
  · refine Memory.cString_eq hread ?_
    show _ ≤ (marshal arr buf strings m).size
    rw [marshal_size]
    omega
  · rw [Memory.read_append] at hread
    have hlast := (List.append_inj hread (Memory.length_read ..)).2
    exact (List.cons.inj hlast).1

end copied

/-! ## The two loops -/

/-- The size loop adds up the bytes exactly. -/
theorem stringsSizesLoop_eq {strings : List CString} {currBufSize v : UInt32}
    (h : stringsSizesLoop strings currBufSize = some v) :
    v.toNat = currBufSize.toNat + stringsBytes strings := by
  induction strings generalizing currBufSize with
  | nil =>
    cases h
    rfl
  | cons str strings ih =>
    obtain ⟨len, hlen, hrest⟩ := Option.bind_eq_some_iff.mp h
    obtain ⟨next, hnext, hrest⟩ := Option.bind_eq_some_iff.mp hrest
    have hstr := lenPlusNullchar_eq hlen
    rw [List.length_append, List.length_singleton] at hstr
    rw [ih hrest, safeAddU32_eq_some hnext, hstr, stringsBytes_cons]
    omega

/-- A string whose bytes can be counted. -/
theorem lenPlusNullchar_some (str : CString) (h : str.1.length + 1 < 2 ^ 32) :
    ∃ len, lenPlusNullchar str = some len ∧ len.toNat = str.1.length + 1 := by
  have hsome : lenPlusNullchar str = some (UInt32.ofNat str.1.length + 1) := if_pos (by omega)
  refine ⟨_, hsome, ?_⟩
  rw [lenPlusNullchar_eq hsome, List.length_append, List.length_singleton]

/-- Where the pointers and the strings fit the memory, no sum of the copy loop fails and no
    check traps. -/
theorem stringsGetLoop_run {pStrArr pStrBuf : UInt32} {strings : List CString}
    {i currBufLoc : UInt32} {w : Wasi} (hi : i.toNat + strings.length < 2 ^ 30)
    (harr : pStrArr.toNat + i.toNat * 4 + 4 * strings.length ≤ w.instanceMemory.size)
    (hbuf : pStrBuf.toNat + currBufLoc.toNat + stringsBytes strings ≤ w.instanceMemory.size)
    (hbytes : currBufLoc.toNat + stringsBytes strings < 2 ^ 32) :
    (stringsGetLoop pStrArr pStrBuf strings i currBufLoc).Ends w (.ok wasiSuccess)
      (w.withMemory (marshal (pStrArr.toNat + i.toNat * 4)
        (pStrBuf.toNat + currBufLoc.toNat) strings w.instanceMemory)) := by
  induction strings generalizing i currBufLoc w with
  | nil => exact ⟨[], rfl⟩
  | cons str strings ih =>
    rw [List.length_cons] at hi harr
    rw [stringsBytes_cons] at hbuf hbytes
    have hsize := w.instanceMemory.size_le
    have hi4 : (i * 4).toNat = i.toNat * 4 := by
      rw [UInt32.toNat_mul]
      exact Nat.mod_eq_of_lt (by show i.toNat * 4 < 2 ^ 32; omega)
    have hi1 : (i + 1).toNat = i.toNat + 1 := toNat_add_of_lt (by show i.toNat + 1 < _; omega)
    have htarget : (pStrArr + i * 4).toNat = pStrArr.toNat + i.toNat * 4 := by
      rw [toNat_add_of_lt (by omega), hi4]
    have hcurr : (pStrBuf + currBufLoc).toNat = pStrBuf.toNat + currBufLoc.toNat :=
      toNat_add_of_lt (by omega)
    obtain ⟨len, hlen, hlenNat⟩ := lenPlusNullchar_some str (by omega)
    have hloc : (currBufLoc + len).toNat = currBufLoc.toNat + (str.1.length + 1) := by
      rw [toNat_add_of_lt (by omega), hlenNat]
    -- the state behind the pointer, and the one behind the string
    let w₁ := w.store (pStrArr + i * 4).toNat (leBytes 4 (pStrBuf + currBufLoc).toNat)
    let w₂ := w₁.store (pStrBuf + currBufLoc).toNat (str.1 ++ [0])
    have hstr : (str.1 ++ [0]).length = str.1.length + 1 := by simp
    have hstore := wasmI32Store_pass (a := pStrArr + i * 4) (v := pStrBuf + currBufLoc) (w := w)
      (by omega)
    have hcopy := checkCopy_pass (a := pStrBuf + currBufLoc) (w := w₁)
      (hlenNat.trans hstr.symm) (by show _ ≤ w.instanceMemory.size; omega)
    have hrest := @ih (i + 1) (currBufLoc + len) w₂ (by omega)
      (by show _ ≤ w.instanceMemory.size; omega) (by show _ ≤ w.instanceMemory.size; omega)
      (by omega)
    have hmarshal : marshal (pStrArr.toNat + (i + 1).toNat * 4)
        (pStrBuf.toNat + (currBufLoc + len).toNat) strings w₂.instanceMemory =
        marshal (pStrArr.toNat + i.toNat * 4) (pStrBuf.toNat + currBufLoc.toNat) (str :: strings)
          w.instanceMemory := by
      show _ = marshal _ _ strings _
      rw [← htarget, ← hcurr, hi1, hloc]
      congr 1 <;> omega
    rw [hmarshal] at hrest
    rw [stringsGetLoop, safeAddU32_some (by omega), retErrOnFail_some,
      safeAddU32_some (by omega), retErrOnFail_some]
    refine Run.Ends.bind ⟨_, hstore⟩ ?_
    rw [hlen, retErrOnFail_some]
    refine Run.Ends.bind ⟨_, hcopy⟩ ?_
    rw [safeAddU32_some (by omega), retErrOnFail_some]
    exact hrest

/-! ## The two entry points -/

theorem chosenStrings_eq {strings : List CString} (h : strings.length < 2 ^ 32) :
    chosenStrings strings = strings.take (min strings.length 1000) := by
  have hcount : (UInt32.ofNat strings.length).toNat = strings.length := UInt32.toNat_ofNat_of_lt' h
  have hlimit : argvAndEnvLimit.toNat = 1000 := rfl
  unfold chosenStrings
  simp only [gt_iff_lt, UInt32.lt_iff_toNat_lt, hcount, hlimit]
  split
  · next hlt => rw [hlimit, Nat.min_eq_right (by omega)]
  · next hle => rw [hcount, Nat.min_eq_left (by omega)]

/-- The size query succeeds only if the bytes of the chosen strings can be counted; it then
    stores their number and their bytes. -/
theorem stringsSizesGet_run {pStrCount pStrBuffSize : UInt32} {strings : List CString} {w : Wasi}
    (hsuccess : (stringsSizesGet pStrCount pStrBuffSize strings w).1 = .ok wasiSuccess)
    (hcount : pStrCount.toNat + 4 ≤ w.instanceMemory.size)
    (hsize : pStrBuffSize.toNat + 4 ≤ w.instanceMemory.size) :
    ∃ v : UInt32, v.toNat = stringsBytes (chosenStrings strings) ∧
      (stringsSizesGet pStrCount pStrBuffSize strings).Ends w (.ok wasiSuccess)
        ((w.store pStrCount.toNat
          (leBytes 4 (UInt32.ofNat (chosenStrings strings).length).toNat)).store
          pStrBuffSize.toNat (leBytes 4 v.toNat)) := by
  unfold stringsSizesGet at hsuccess ⊢
  cases hloop : stringsSizesLoop (chosenStrings strings) 0 with
  | none =>
    rw [hloop] at hsuccess
    have hinval : (Except.ok wasiInvalError : Except Trap UInt32) = .ok wasiSuccess := hsuccess
    exact absurd hinval (by decide)
  | some v =>
    have hbytes := stringsSizesLoop_eq hloop
    refine ⟨v, by rw [hbytes]; exact Nat.zero_add _, ?_⟩
    rw [retErrOnFail_some]
    refine Run.Ends.bind ⟨_, wasmI32Store_pass hcount⟩ ?_
    exact Run.Ends.bind ⟨_, wasmI32Store_pass hsize⟩ ⟨[], rfl⟩

/-- What is read from two cells of their own after both were stored. -/
theorem u32_of_two_stores (m : Memory) {a b : Nat} (u v : UInt32) (hcells : Apart a 4 b 4) :
    ((m.write a (leBytes 4 u.toNat)).write b (leBytes 4 v.toNat)).u32 a = u ∧
      ((m.write a (leBytes 4 u.toNat)).write b (leBytes 4 v.toNat)).u32 b = v := by
  have hkept : Apart a 4 b (leBytes 4 v.toNat).length := by rwa [length_leBytes]
  constructor
  · rw [Memory.u32_write_of_apart hkept]
    exact Memory.u32_write_self ..
  · exact Memory.u32_write_self ..

/-- Where the pointers and the bytes of the chosen strings fit, the copy succeeds. -/
theorem stringsGet_run {pStrArr pStrBuf : UInt32} {strings : List CString} {w : Wasi}
    (hlength : (chosenStrings strings).length ≤ 1000)
    (harr : pStrArr.toNat + 4 * (chosenStrings strings).length ≤ w.instanceMemory.size)
    (hbuf : pStrBuf.toNat + stringsBytes (chosenStrings strings) ≤ w.instanceMemory.size)
    (hbytes : stringsBytes (chosenStrings strings) < 2 ^ 32) :
    (stringsGet pStrArr pStrBuf strings).Ends w (.ok wasiSuccess) (w.withMemory
      (marshal pStrArr.toNat pStrBuf.toNat (chosenStrings strings) w.instanceMemory)) := by
  have hzero : (0 : UInt32).toNat = 0 := rfl
  refine stringsGetLoop_run ?_ harr hbuf ?_
  · rw [hzero]
    omega
  · rw [hzero]
    omega

/-- The strings come back: `strings_sizes_get` stores the number of the first 1000 strings
    and the bytes they take, and wherever that many pointers and bytes fit, `strings_get`
    writes nothing else and leaves, behind the pointers, the strings one after the other. -/
theorem strings_round_trip (strings : List CString) (hlength : strings.length < 2 ^ 32)
    (pStrCount pStrBuffSize : UInt32) (w : Wasi)
    (hsuccess : (stringsSizesGet pStrCount pStrBuffSize strings w).1 = .ok wasiSuccess)
    (hcountFits : pStrCount.toNat + 4 ≤ w.instanceMemory.size)
    (hsizeFits : pStrBuffSize.toNat + 4 ≤ w.instanceMemory.size)
    (hcells : Apart pStrCount.toNat 4 pStrBuffSize.toNat 4) :
    let count := min strings.length 1000
    let bytes := stringsBytes (strings.take count)
    let sized := (stringsSizesGet pStrCount pStrBuffSize strings w).2.1.instanceMemory
    (sized.u32 pStrCount.toNat).toNat = count ∧
    (sized.u32 pStrBuffSize.toNat).toNat = bytes ∧
    ∀ (w' : Wasi) (pStrArr pStrBuf : UInt32),
      pStrArr.toNat + 4 * count ≤ w'.instanceMemory.size →
      pStrBuf.toNat + bytes ≤ w'.instanceMemory.size →
      Apart pStrArr.toNat (4 * count) pStrBuf.toNat bytes →
      let r := stringsGet pStrArr pStrBuf strings w'
      let m := r.2.1.instanceMemory
      let pointer := fun i => (m.u32 (pStrArr.toNat + 4 * i)).toNat
      r.1 = .ok wasiSuccess ∧
      (∀ x, (x < pStrArr.toNat ∨ pStrArr.toNat + 4 * count ≤ x) →
        (x < pStrBuf.toNat ∨ pStrBuf.toNat + bytes ≤ x) →
        m.data x = w'.instanceMemory.data x) ∧
      (0 < count → pointer 0 = pStrBuf.toNat ∧ m.data (pStrBuf.toNat + bytes - 1) = 0) ∧
      ∀ i (hi : i < strings.length), i < count →
        m.cString (pointer i) = strings[i].1 ∧
        m.data (pointer i + strings[i].1.length) = 0 ∧
        (i + 1 < count → pointer (i + 1) = pointer i + strings[i].1.length + 1) := by
  intro count bytes sized
  have hchosen : chosenStrings strings = strings.take count := chosenStrings_eq hlength
  have htake : (strings.take count).length = count := by
    rw [List.length_take]
    exact Nat.min_eq_left (Nat.min_le_left ..)
  have hcount : count ≤ 1000 := Nat.min_le_right ..
  obtain ⟨v, hv, hends⟩ := stringsSizesGet_run hsuccess hcountFits hsizeFits
  rw [hchosen, htake] at hends
  rw [hchosen] at hv
  have hsized : sized = _ := congrArg Wasi.instanceMemory hends.state
  -- the size is stored after the count, in a cell of its own
  obtain ⟨hstored, hstored'⟩ :=
    u32_of_two_stores w.instanceMemory (UInt32.ofNat count) v hcells
  refine ⟨?_, ?_, fun w' pStrArr pStrBuf harr hbuf hapart => ?_⟩
  · rw [hsized]
    refine (congrArg UInt32.toNat hstored).trans ?_
    exact UInt32.toNat_ofNat_of_lt' (by show count < 2 ^ 32; omega)
  · rw [hsized]
    exact (congrArg UInt32.toNat hstored').trans hv
  have hbytes : bytes < 2 ^ 32 := by
    show stringsBytes (strings.take count) < 2 ^ 32
    rw [← hv]
    exact v.toNat_lt
  rw [← htake] at harr hapart
  intro r m pointer
  have hrun : (stringsGet pStrArr pStrBuf strings).Ends w' (.ok wasiSuccess) (w'.withMemory
      (marshal pStrArr.toNat pStrBuf.toNat (strings.take count) w'.instanceMemory)) := by
    rw [← hchosen] at harr htake ⊢
    have hbytes' : stringsBytes (chosenStrings strings) = bytes := by rw [hchosen]
    rw [← hbytes'] at hbuf hbytes
    exact stringsGet_run (Nat.le_trans (Nat.le_of_eq htake) hcount) harr hbuf hbytes
  have hm : m = marshal pStrArr.toNat pStrBuf.toNat (strings.take count) w'.instanceMemory :=
    congrArg Wasi.instanceMemory hrun.state
  have hdecodes : ∀ i (hi : i < (strings.take count).length),
      pointer i = pStrBuf.toNat + stringsBytes ((strings.take count).take i) ∧
      m.cString (pointer i) = (strings.take count)[i].1 ∧
      m.data (pointer i + (strings.take count)[i].1.length) = 0 := by
    intro i hi
    have hdec := marshal_decodes (m := w'.instanceMemory) hapart hbuf hi
    rw [← hm] at hdec
    have hpointer : pointer i = _ := hdec.1
    rw [hpointer]
    exact ⟨rfl, hdec.2⟩
  refine ⟨hrun.value, fun x hx hx' => ?_, fun hpos => ⟨?_, ?_⟩, fun i hi hic => ?_⟩
  · rw [hm]
    exact marshal_data (by rwa [htake]) hx'
  · exact (hdecodes 0 (by omega)).1
  · -- the terminator of the last string is the last byte
    obtain ⟨hpointer, -, hnull⟩ := hdecodes (count - 1) (by omega)
    have hlast := @stringsBytes_take_succ (strings.take count) (count - 1) (by omega)
    rw [Nat.sub_add_cancel hpos, List.take_of_length_le (Nat.le_of_eq htake)] at hlast
    have hend : pStrBuf.toNat + bytes - 1 =
        pointer (count - 1) + (strings.take count)[count - 1].1.length := by
      show pStrBuf.toNat + stringsBytes (strings.take count) - 1 = _
      omega
    rw [hend]
    exact hnull
  · have hi' : i < (strings.take count).length := by omega
    have hstr : (strings.take count)[i] = strings[i] := List.getElem_take ..
    obtain ⟨hpointer, hcString, hnull⟩ := hdecodes i hi'
    rw [hstr] at hcString hnull
    refine ⟨hcString, hnull, fun hnext => ?_⟩
    have hsucc := @stringsBytes_take_succ (strings.take count) i hi'
    rw [hstr] at hsucc
    rw [hpointer, (hdecodes (i + 1) (by omega)).1]
    omega

/-- `a` and the empty string, in a memory of 19 bytes that they fill. -/
theorem two_strings_round_trip :
    let strings : List CString := [⟨[97], by decide⟩, ⟨[], by decide⟩]
    let w := hostOf (.zeros 19 (by decide))
    let m := (stringsGet 8 16 strings w).2.1.instanceMemory
    (stringsGet 8 16 strings w).1 = .ok wasiSuccess ∧
    m.cString (m.u32 8).toNat = [97] ∧ m.cString (m.u32 12).toNat = [] := by
  intro strings w m
  have hround := strings_round_trip strings (by decide) 0 4 w rfl (by decide) (by decide)
    (fun x _ hx => Or.inl hx)
  obtain ⟨-, -, hcopied⟩ := hround
  obtain ⟨hok, -, -, hdecodes⟩ := hcopied w 8 16 (by decide) (by decide) (fun x _ hx => Or.inl hx)
  exact ⟨hok, (hdecodes 0 (by decide) (by decide)).1, (hdecodes 1 (by decide) (by decide)).1⟩

end RlboxWasm2c.MinWasi

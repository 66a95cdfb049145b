import RlboxWasm2c.Accesses

/- The loop `fd_write` and `fd_read` share. Both read descriptor after descriptor, check
   its buffer, move bytes between the buffer and a stream, add up what was moved and stop at
   the first short transfer; they differ in the direction and in the status of that stop.

   `transferLoop` is the loop over either direction (`Mover`). `Transfers` are the
   descriptors that were moved in full one after the other, and `Ending` is how the loop
   ends behind them: with all descriptors done, stuck at a descriptor that does not fit, with
   a total that does not fit 32 bits, or short. `transferLoop_ends` says that every run
   is of this form, `transferLoop_full` that full transfers are run through. -/
namespace RlboxWasm2c.MinWasi
open Traced

/-! ## The two directions -/

/-- A stream call on a buffer of `len` bytes at `ptr`: the bytes it moves and the state it
    leaves. -/
structure Mover where
  kind : AccessKind
  count : Wasi → UInt32 → Nat
  after : Wasi → UInt32 → UInt32 → Wasi
  kind_ne_load : kind ≠ .load
  count_le : ∀ w len, count w len ≤ len.toNat
  after_size : ∀ w ptr len, (after w ptr len).instanceMemory.size = w.instanceMemory.size

def Mover.call (x : Mover) (ptr len : UInt32) : M UInt32 := fun w =>
  (.ok (UInt32.ofNat (x.count w len)), x.after w ptr len, [.access x.kind ptr.toNat len.toNat])

/-- The stream of `fd`. -/
def Wasi.stream (w : Wasi) (fd : UInt32) : List UInt8 := if fd = 1 then w.stdout else w.stderr

def writeCount (w : Wasi) (len : UInt32) : Nat := min (w.ioResults.headD len.toNat) len.toNat

def writeAfter (fd : UInt32) (w : Wasi) (ptr len : UInt32) : Wasi :=
  let bytes := (w.instanceMemory.read ptr.toNat len.toNat).take (writeCount w len)
  if fd = 1 then { w with ioResults := w.ioResults.tail, stdout := w.stdout ++ bytes }
  else { w with ioResults := w.ioResults.tail, stderr := w.stderr ++ bytes }

theorem writeAfter_instanceMemory (fd : UInt32) (w : Wasi) (ptr len : UInt32) :
    (writeAfter fd w ptr len).instanceMemory = w.instanceMemory := by
  unfold writeAfter
  split <;> rfl

def writer (fd : UInt32) : Mover where
  kind := .fwrite
  count := writeCount
  after := writeAfter fd
  kind_ne_load := by decide
  count_le := fun _ _ => Nat.min_le_right ..
  after_size := fun w ptr len => by rw [writeAfter_instanceMemory]

theorem fwrite_eq (fd : UInt32) : fwrite fd = (writer fd).call := by
  funext ptr len w
  show (_, (if fd = 1 then _ else _ : Wasi), _) = (_, writeAfter fd w ptr len, _)
  unfold writeAfter
  split <;> rfl

def readCount (w : Wasi) (len : UInt32) : Nat :=
  min (w.ioResults.headD (min len.toNat w.stdin.length)) (min len.toNat w.stdin.length)

def reader : Mover where
  kind := .fread
  count := readCount
  after := fun w ptr len =>
    { w with
      ioResults := w.ioResults.tail
      instanceMemory := w.instanceMemory.write ptr.toNat (w.stdin.take (readCount w len))
      stdin := w.stdin.drop (readCount w len) }
  kind_ne_load := by decide
  count_le := fun _ _ => Nat.le_trans (Nat.min_le_right ..) (Nat.min_le_left ..)
  after_size := fun _ _ _ => rfl

theorem fread_eq : fread = reader.call := rfl

/-! ## The loop -/

/-- The store of the count and the return. -/
def storeNum (pnum num status : UInt32) : M UInt32 := do
  wasmI32Store pnum.toUInt64 num
  pure status

/-- The address of the first word of descriptor `k`, as the code computes it. -/
def ptrAddr (iov : UInt32) (k : Nat) : UInt32 := iov + UInt32.ofNat k * 8

/-- The address of the second word. -/
def lenAddr (iov : UInt32) (k : Nat) : UInt32 := iov + UInt32.ofNat k * 8 + 4

/-- What a pass does with the count of its transfer; `short` is the status of a short one. -/
def countMoved (short pnum : UInt32) (rest : UInt32 → M UInt32) (num len result : UInt32) :
    M UInt32 :=
  retErrOnFail (safeAddU32 num result) fun num =>
    if result ≠ len then storeNum pnum num short else rest num

/-- One pass, for descriptor `k`, and the `rest` of the loop. -/
def transferPass (call : UInt32 → UInt32 → M UInt32) (short iov pnum : UInt32) (k : Nat)
    (rest : UInt32 → M UInt32) (num : UInt32) : M UInt32 := do
  let ptr ← wasmI32Load (ptrAddr iov k).toUInt64
  let len ← wasmI32Load (lenAddr iov k).toUInt64
  memcheckSize ptr.toUInt64 len.toUInt64
  let result ← call ptr len
  countMoved short pnum rest num len result

/-- The loop with `n` descriptors left and descriptor `k` next. -/
def transferLoop (x : Mover) (short iov pnum : UInt32) : Nat → Nat → UInt32 → M UInt32
  | 0, _, num => storeNum pnum num wasiSuccess
  | n + 1, k, num =>
    transferPass x.call short iov pnum k (transferLoop x short iov pnum n (k + 1)) num

theorem fdWriteLoop_eq (fd iov pnum : UInt32) (n k : Nat) :
    fdWriteLoop fd iov pnum n (UInt32.ofNat k) =
      transferLoop (writer fd) wasiPermError iov pnum n k := by
  induction n generalizing k with
  | zero => rfl
  | succ n ih =>
    funext num
    have hpass : fdWriteLoop fd iov pnum (n + 1) (UInt32.ofNat k) num =
        transferPass (fwrite fd) wasiPermError iov pnum k
          (fdWriteLoop fd iov pnum n (UInt32.ofNat k + 1)) num := rfl
    have hnext : UInt32.ofNat k + 1 = UInt32.ofNat (k + 1) := (UInt32.ofNat_add k 1).symm
    rw [hpass, fwrite_eq, hnext, ih]
    rfl

theorem fdReadLoop_eq (iov pnum : UInt32) (n k : Nat) :
    fdReadLoop iov pnum n (UInt32.ofNat k) = transferLoop reader wasiSuccess iov pnum n k := by
  induction n generalizing k with
  | zero => rfl
  | succ n ih =>
    funext num
    have hpass : fdReadLoop iov pnum (n + 1) (UInt32.ofNat k) num =
        transferPass fread wasiSuccess iov pnum k
          (fdReadLoop iov pnum n (UInt32.ofNat k + 1)) num := rfl
    have hnext : UInt32.ofNat k + 1 = UInt32.ofNat (k + 1) := (UInt32.ofNat_add k 1).symm
    rw [hpass, fread_eq, hnext, ih]
    rfl

/-! ## One descriptor -/

/-- The words of descriptor `k`: its buffer. -/
def Memory.iovPtr (m : Memory) (iov : UInt32) (k : Nat) : UInt32 := m.u32 (ptrAddr iov k).toNat

def Memory.iovLen (m : Memory) (iov : UInt32) (k : Nat) : UInt32 := m.u32 (lenAddr iov k).toNat

/-- A descriptor and the bytes moved for it. -/
structure Transfer where
  ptr : UInt32
  len : UInt32
  moved : Nat

/-- Descriptor `k` and its buffer lie in the memory; `t` is its transfer, from `w` to `w'`. -/
structure Moves (x : Mover) (iov : UInt32) (k : Nat) (w : Wasi) (t : Transfer) (w' : Wasi) :
    Prop where
  ptrFits : (ptrAddr iov k).toNat + 4 ≤ w.instanceMemory.size
  lenFits : (lenAddr iov k).toNat + 4 ≤ w.instanceMemory.size
  ptr : t.ptr = w.instanceMemory.iovPtr iov k
  len : t.len = w.instanceMemory.iovLen iov k
  bufFits : t.ptr.toNat + t.len.toNat ≤ w.instanceMemory.size
  moved : t.moved = x.count w t.len
  after : w' = x.after w t.ptr t.len

def transferLog (kind : AccessKind) (iov : UInt32) (k : Nat) (t : Transfer) : List Event :=
  [.check (ptrAddr iov k).toNat 4 true, .access .load (ptrAddr iov k).toNat 4,
    .check (lenAddr iov k).toNat 4 true, .access .load (lenAddr iov k).toNat 4,
    .check t.ptr.toNat t.len.toNat true, .access kind t.ptr.toNat t.len.toNat]

/-- The loop traps at descriptor `k` of memory `m`: at its first word, at its second or at
    its buffer. -/
inductive Stuck (iov : UInt32) (k : Nat) (m : Memory) : List Event → Prop where
  | ptrWord (outside : m.size < (ptrAddr iov k).toNat + 4) :
    Stuck iov k m [.check (ptrAddr iov k).toNat 4 false]
  | lenWord (ptrFits : (ptrAddr iov k).toNat + 4 ≤ m.size)
    (outside : m.size < (lenAddr iov k).toNat + 4) :
    Stuck iov k m [.check (ptrAddr iov k).toNat 4 true, .access .load (ptrAddr iov k).toNat 4,
      .check (lenAddr iov k).toNat 4 false]
  | buffer (ptrFits : (ptrAddr iov k).toNat + 4 ≤ m.size)
    (lenFits : (lenAddr iov k).toNat + 4 ≤ m.size)
    (outside : m.size < (m.iovPtr iov k).toNat + (m.iovLen iov k).toNat) :
    Stuck iov k m [.check (ptrAddr iov k).toNat 4 true, .access .load (ptrAddr iov k).toNat 4,
      .check (lenAddr iov k).toNat 4 true, .access .load (lenAddr iov k).toNat 4,
      .check (m.iovPtr iov k).toNat (m.iovLen iov k).toNat false]

section loop
variable {x : Mover} {short iov pnum : UInt32} {n k : Nat} {num : UInt32} {w w' : Wasi}
  {t : Transfer}

theorem Moves.moved_le (h : Moves x iov k w t w') : t.moved ≤ t.len.toNat := by
  rw [h.moved]
  exact x.count_le w t.len

theorem Moves.moved_toNat (h : Moves x iov k w t w') :
    (UInt32.ofNat t.moved).toNat = t.moved :=
  UInt32.toNat_ofNat_of_lt' (Nat.lt_of_le_of_lt h.moved_le t.len.toNat_lt)

/-- The word the call returns is the length exactly when the transfer was full. -/
theorem Moves.result_eq_iff (h : Moves x iov k w t w') :
    UInt32.ofNat t.moved = t.len ↔ t.moved = t.len.toNat := by
  rw [← UInt32.toNat_inj, h.moved_toNat]

theorem Moves.size (h : Moves x iov k w t w') :
    w'.instanceMemory.size = w.instanceMemory.size := by
  rw [h.after]
  exact x.after_size w t.ptr t.len

theorem transferPass_moves {rest : UInt32 → M UInt32} (h : Moves x iov k w t w') :
    transferPass x.call short iov pnum k rest num w = Run.after (transferLog x.kind iov k t)
      (countMoved short pnum rest num t.len (UInt32.ofNat t.moved) w') := by
  have hcall : x.call t.ptr t.len w =
      (.ok (UInt32.ofNat t.moved), w', [.access x.kind t.ptr.toNat t.len.toNat]) := by
    rw [h.moved, h.after]
    rfl
  have hptr := wasmI32Load_pass h.ptrFits
  have hlen := wasmI32Load_pass h.lenFits
  have hcheck := memcheckSize_run t.ptr t.len w
  rw [← Memory.iovPtr, ← h.ptr] at hptr
  rw [← Memory.iovLen, ← h.len] at hlen
  rw [if_pos h.bufFits] at hcheck
  refine Eq.trans (Run.bind_after hptr (Run.bind_after hlen (Run.bind_after hcheck
    (Run.bind_after hcall rfl)))) ?_
  simp only [Run.after_after, transferLog, List.cons_append, List.nil_append]

/-- A full transfer whose count fits is run through. -/
theorem transferLoop_full_step (h : Moves x iov k w t w') (hfull : t.moved = t.len.toNat)
    (hfits : num.toNat + t.moved < 2 ^ 32) :
    transferLoop x short iov pnum (n + 1) k num w =
      Run.after (transferLog x.kind iov k t)
        (transferLoop x short iov pnum n (k + 1) (num + UInt32.ofNat t.moved) w') := by
  have hsum : num.toNat + (UInt32.ofNat t.moved).toNat < 2 ^ 32 := by rwa [h.moved_toNat]
  rw [transferLoop, transferPass_moves h, countMoved, safeAddU32_some hsum, retErrOnFail_some,
    if_neg (not_not_intro (h.result_eq_iff.mpr hfull))]

/-- A short transfer whose count fits ends the loop. -/
theorem transferLoop_short_step (h : Moves x iov k w t w') (hshort : t.moved ≠ t.len.toNat)
    (hfits : num.toNat + t.moved < 2 ^ 32) :
    transferLoop x short iov pnum (n + 1) k num w =
      Run.after (transferLog x.kind iov k t)
        (storeNum pnum (num + UInt32.ofNat t.moved) short w') := by
  have hsum : num.toNat + (UInt32.ofNat t.moved).toNat < 2 ^ 32 := by rwa [h.moved_toNat]
  have hne : UInt32.ofNat t.moved ≠ t.len := fun heq => hshort (h.result_eq_iff.mp heq)
  rw [transferLoop, transferPass_moves h, countMoved, safeAddU32_some hsum, retErrOnFail_some,
    if_pos hne]

/-- A count that does not fit ends the loop behind the transfer, and nothing is stored. -/
theorem transferLoop_overflow_step (h : Moves x iov k w t w')
    (hover : 2 ^ 32 ≤ num.toNat + t.moved) :
    transferLoop x short iov pnum (n + 1) k num w =
      (.ok wasiInvalError, w', transferLog x.kind iov k t) := by
  have hnone : safeAddU32 num (UInt32.ofNat t.moved) = none := by
    rw [safeAddU32_none_iff, h.moved_toNat]
    exact hover
  rw [transferLoop, transferPass_moves h, countMoved, hnone]
  show (_, _, transferLog x.kind iov k t ++ []) = _
  rw [List.append_nil]
  rfl

/-- A descriptor that does not fit stops the loop before its transfer. -/
theorem transferLoop_stuck_step {L : List Event} (h : Stuck iov k w.instanceMemory L) :
    transferLoop x short iov pnum (n + 1) k num w = (.error .oob, w, L) := by
  rw [transferLoop]
  cases h with
  | ptrWord outside => exact Run.bind_error (wasmI32Load_fail outside)
  | lenWord ptrFits outside =>
    refine Eq.trans (Run.bind_after (wasmI32Load_pass ptrFits)
      (Run.bind_error (wasmI32Load_fail outside))) ?_
    simp only [Run.after, List.cons_append, List.nil_append]
  | buffer ptrFits lenFits outside =>
    have hcheck := memcheckSize_run (w.instanceMemory.iovPtr iov k)
      (w.instanceMemory.iovLen iov k) w
    rw [if_neg (Nat.not_le_of_lt outside)] at hcheck
    refine Eq.trans (Run.bind_after (wasmI32Load_pass ptrFits)
      (Run.bind_after (wasmI32Load_pass lenFits) (Run.bind_error hcheck))) ?_
    simp only [Run.after, List.cons_append, List.nil_append]

/-- The transfer of descriptor `k`. -/
def transferOf (x : Mover) (iov : UInt32) (k : Nat) (w : Wasi) : Transfer :=
  ⟨w.instanceMemory.iovPtr iov k, w.instanceMemory.iovLen iov k,
    x.count w (w.instanceMemory.iovLen iov k)⟩

/-- A descriptor is moved, or the loop is stuck at it. -/
theorem moves_or_stuck (x : Mover) (iov : UInt32) (k : Nat) (w : Wasi) :
    (∃ t w', Moves x iov k w t w') ∨ ∃ L, Stuck iov k w.instanceMemory L := by
  by_cases hptr : (ptrAddr iov k).toNat + 4 ≤ w.instanceMemory.size
  · by_cases hlen : (lenAddr iov k).toNat + 4 ≤ w.instanceMemory.size
    · by_cases hbuf : (w.instanceMemory.iovPtr iov k).toNat +
          (w.instanceMemory.iovLen iov k).toNat ≤ w.instanceMemory.size
      · exact Or.inl ⟨transferOf x iov k w, _, hptr, hlen, rfl, rfl, hbuf, rfl, rfl⟩
      · exact Or.inr ⟨_, .buffer hptr hlen (Nat.lt_of_not_le hbuf)⟩
    · exact Or.inr ⟨_, .lenWord hptr (Nat.lt_of_not_le hlen)⟩
  · exact Or.inr ⟨_, .ptrWord (Nat.lt_of_not_le hptr)⟩

end loop

/-! ## The whole loop -/

/-- `ts` are the transfers of the descriptors from `k` on, all of them full, from `w` to `w'`. -/
inductive Transfers (x : Mover) (iov : UInt32) : Nat → Wasi → List Transfer → Wasi → Prop where
  | nil {k : Nat} {w : Wasi} : Transfers x iov k w [] w
  | cons {k : Nat} {w w' w'' : Wasi} {t : Transfer} {ts : List Transfer}
    (first : Moves x iov k w t w') (full : t.moved = t.len.toNat)
    (rest : Transfers x iov (k + 1) w' ts w'') : Transfers x iov k w (t :: ts) w''

/-- The bytes moved by all of them. -/
def movedBytes (ts : List Transfer) : Nat := (ts.map Transfer.moved).sum

@[simp] theorem movedBytes_nil : movedBytes [] = 0 := rfl

@[simp] theorem movedBytes_cons (t : Transfer) (ts : List Transfer) :
    movedBytes (t :: ts) = t.moved + movedBytes ts := rfl

@[simp] theorem movedBytes_append (ts us : List Transfer) :
    movedBytes (ts ++ us) = movedBytes ts + movedBytes us := by
  simp only [movedBytes, List.map_append, List.sum_append]

def transfersLog (kind : AccessKind) (iov : UInt32) : Nat → List Transfer → List Event
  | _, [] => []
  | k, t :: ts => transferLog kind iov k t ++ transfersLog kind iov (k + 1) ts

/-- The end of the loop at descriptor `k`, with `n` descriptors left and `num` bytes moved. -/
inductive Ending (x : Mover) (short iov pnum : UInt32) (k : Nat) (num : UInt32) (w : Wasi) :
    Nat → Except Trap UInt32 × Wasi × List Event → Prop where
  | finished : Ending x short iov pnum k num w 0 (storeNum pnum num wasiSuccess w)
  | stuck {n : Nat} {L : List Event} (at_k : Stuck iov k w.instanceMemory L) :
    Ending x short iov pnum k num w (n + 1) (.error .oob, w, L)
  | overflow {n : Nat} {t : Transfer} {w' : Wasi} (last : Moves x iov k w t w')
    (exceeds : 2 ^ 32 ≤ num.toNat + t.moved) :
    Ending x short iov pnum k num w (n + 1) (.ok wasiInvalError, w', transferLog x.kind iov k t)
  | short {n : Nat} {t : Transfer} {w' : Wasi} (last : Moves x iov k w t w')
    (notFull : t.moved ≠ t.len.toNat) (fits : num.toNat + t.moved < 2 ^ 32) :
    Ending x short iov pnum k num w (n + 1) (Run.after (transferLog x.kind iov k t)
      (storeNum pnum (num + UInt32.ofNat t.moved) short w'))

section whole
variable {x : Mover} {short iov pnum : UInt32}

/-- Full transfers whose total fits are run through. -/
theorem transferLoop_full {k : Nat} {w w' : Wasi} {ts : List Transfer}
    (h : Transfers x iov k w ts w') :
    ∀ (n : Nat) (num : UInt32), num.toNat + movedBytes ts < 2 ^ 32 →
      ∃ num' : UInt32, num'.toNat = num.toNat + movedBytes ts ∧
        transferLoop x short iov pnum (ts.length + n) k num w =
          Run.after (transfersLog x.kind iov k ts)
            (transferLoop x short iov pnum n (k + ts.length) num' w') := by
  induction h with
  | nil =>
    intro n num hfits
    refine ⟨num, rfl, ?_⟩
    rw [List.length_nil, Nat.zero_add]
    exact (Run.after_nil _).symm
  | @cons k w w₁ w₂ t ts first full rest ih =>
    intro n num hfits
    rw [movedBytes_cons] at hfits ⊢
    have hsum : (num + UInt32.ofNat t.moved).toNat = num.toNat + t.moved := by
      rw [toNat_add_of_lt (by rw [first.moved_toNat]; omega), first.moved_toNat]
    obtain ⟨num', hnum', hrun⟩ := ih n (num + UInt32.ofNat t.moved) (by omega)
    refine ⟨num', by omega, ?_⟩
    have hlength : (t :: ts).length + n = ts.length + n + 1 := by
      rw [List.length_cons]
      omega
    rw [hlength, transferLoop_full_step first full (by omega), hrun, Run.after_after]
    rw [List.length_cons, transfersLog, Nat.add_assoc k 1, Nat.add_comm 1]

/-- Every run of the loop moves descriptors in full, as many as there are or up to one
    behind which it ends. -/
theorem transferLoop_ends (n : Nat) :
    ∀ (k : Nat) (num : UInt32) (w : Wasi), ∃ ts w' left num' r,
      Transfers x iov k w ts w' ∧ n = ts.length + left ∧
      num'.toNat = num.toNat + movedBytes ts ∧
      Ending x short iov pnum (k + ts.length) num' w' left r ∧
      transferLoop x short iov pnum n k num w = Run.after (transfersLog x.kind iov k ts) r := by
  induction n with
  | zero =>
    intro k num w
    exact ⟨[], w, 0, num, _, .nil, rfl, rfl, .finished, rfl⟩
  | succ n ih =>
    intro k num w
    rcases moves_or_stuck x iov k w with ⟨t, w₁, hmoves⟩ | ⟨L, hstuck⟩
    · by_cases hfits : num.toNat + t.moved < 2 ^ 32
      · by_cases hfull : t.moved = t.len.toNat
        · have hsum : (num + UInt32.ofNat t.moved).toNat = num.toNat + t.moved := by
            rw [toNat_add_of_lt (by rw [hmoves.moved_toNat]; omega), hmoves.moved_toNat]
          obtain ⟨ts, w', left, num', r, hts, hn, hnum', hend, hrun⟩ :=
            ih (k + 1) (num + UInt32.ofNat t.moved) w₁
          refine ⟨t :: ts, w', left, num', r, .cons hmoves hfull hts, ?_, ?_, ?_, ?_⟩
          · rw [List.length_cons]
            omega
          · rw [movedBytes_cons]
            omega
          · rw [List.length_cons]
            rwa [Nat.add_assoc k 1, Nat.add_comm 1] at hend
          · rw [transferLoop_full_step hmoves hfull hfits, hrun, Run.after_after, transfersLog]
        · exact ⟨[], w, n + 1, num, _, .nil, (Nat.zero_add _).symm, rfl,
            .short hmoves hfull hfits, transferLoop_short_step hmoves hfull hfits⟩
      · have hover : 2 ^ 32 ≤ num.toNat + t.moved := Nat.le_of_not_lt hfits
        exact ⟨[], w, n + 1, num, _, .nil, (Nat.zero_add _).symm, rfl,
          .overflow hmoves hover, transferLoop_overflow_step hmoves hover⟩
    · exact ⟨[], w, n + 1, num, _, .nil, (Nat.zero_add _).symm, rfl, .stuck hstuck,
        transferLoop_stuck_step hstuck⟩

/-! ## Calls that return -/

theorem storeNum_pass {num status : UInt32} {w : Wasi}
    (h : pnum.toNat + 4 ≤ w.instanceMemory.size) :
    storeNum pnum num status w = (.ok status, w.store pnum.toNat (leBytes 4 num.toNat),
      [.check pnum.toNat 4 true, .access .store pnum.toNat 4]) := by
  refine Eq.trans (Run.bind_after (wasmI32Store_pass h) rfl) ?_
  simp only [Run.after, List.cons_append, List.nil_append]
  rfl

theorem storeNum_fail {num status : UInt32} {w : Wasi}
    (h : w.instanceMemory.size < pnum.toNat + 4) :
    storeNum pnum num status w = (.error .oob, w, [.check pnum.toNat 4 false]) :=
  Run.bind_error (wasmI32Store_fail h)

/-- How the loop over `n` descriptors came to the status it returned: the state it left and
    the events before the store of the count. -/
inductive Returned (x : Mover) (short iov pnum : UInt32) (n : Nat) (w : Wasi) :
    UInt32 → Wasi → List Event → Prop where
  | finished {ts : List Transfer} {w' : Wasi} {num : UInt32} (transfers : Transfers x iov 0 w ts w')
    (all : ts.length = n) (count : num.toNat = movedBytes ts) :
    Returned x short iov pnum n w wasiSuccess (w'.store pnum.toNat (leBytes 4 num.toNat))
      (transfersLog x.kind iov 0 ts)
  | overflow {ts : List Transfer} {t : Transfer} {w' w'' : Wasi}
    (transfers : Transfers x iov 0 w ts w') (last : Moves x iov ts.length w' t w'')
    (inside : ts.length < n) (exceeds : 2 ^ 32 ≤ movedBytes ts + t.moved) :
    Returned x short iov pnum n w wasiInvalError w'' (transfersLog x.kind iov 0 (ts ++ [t]))
  | short {ts : List Transfer} {t : Transfer} {w' w'' : Wasi} {num : UInt32}
    (transfers : Transfers x iov 0 w ts w') (last : Moves x iov ts.length w' t w'')
    (inside : ts.length < n) (notFull : t.moved ≠ t.len.toNat)
    (count : num.toNat = movedBytes ts + t.moved) :
    Returned x short iov pnum n w short (w''.store pnum.toNat (leBytes 4 num.toNat))
      (transfersLog x.kind iov 0 (ts ++ [t]))

theorem transfersLog_concat (kind : AccessKind) (k : Nat) (ts : List Transfer) (t : Transfer) :
    transfersLog kind iov k (ts ++ [t]) =
      transfersLog kind iov k ts ++ transferLog kind iov (k + ts.length) t := by
  induction ts generalizing k with
  | nil => exact List.append_nil _
  | cons u us ih =>
    rw [List.cons_append, transfersLog, ih, transfersLog, List.append_assoc, List.length_cons,
      Nat.add_assoc k 1, Nat.add_comm 1]

theorem transferLoop_returns {n : Nat} {w : Wasi} {status : UInt32}
    (h : (transferLoop x short iov pnum n 0 0 w).1 = .ok status) :
    ∃ L L', Returned x short iov pnum n w status
        (transferLoop x short iov pnum n 0 0 w).2.1 L ∧
      (transferLoop x short iov pnum n 0 0 w).2.2 = L ++ L' ∧
      (L' = [] ∨ L' = [.check pnum.toNat 4 true, .access .store pnum.toNat 4]) := by
  obtain ⟨ts, w', left, num', r, hts, hn, hnum, hend, hrun⟩ :=
    @transferLoop_ends x short iov pnum n 0 0 w
  rw [Nat.zero_add] at hend
  have hcount : num'.toNat = movedBytes ts := hnum.trans (Nat.zero_add _)
  rw [hrun] at h ⊢
  cases hend with
  | finished =>
    by_cases hfits : pnum.toNat + 4 ≤ w'.instanceMemory.size
    · rw [storeNum_pass hfits] at h ⊢
      cases h
      exact ⟨_, _, .finished hts (by omega) hcount, rfl, Or.inr rfl⟩
    · rw [storeNum_fail (Nat.lt_of_not_le hfits)] at h
      cases h
  | stuck at_k => cases h
  | overflow last exceeds =>
    cases h
    refine ⟨_, [], .overflow hts last (by omega) (by omega), ?_, Or.inl rfl⟩
    rw [transfersLog_concat, Nat.zero_add, List.append_nil]
    rfl
  | @short n t w'' last notFull fits =>
    have hsum : (num' + UInt32.ofNat t.moved).toNat = movedBytes ts + t.moved := by
      rw [toNat_add_of_lt (by rw [last.moved_toNat]; omega), last.moved_toNat]
      omega
    by_cases hfits : pnum.toNat + 4 ≤ w''.instanceMemory.size
    · rw [storeNum_pass hfits] at h ⊢
      cases h
      refine ⟨_, _, .short hts last (by omega) notFull hsum, ?_, Or.inr rfl⟩
      rw [transfersLog_concat, Nat.zero_add, List.append_assoc]
      rfl
    · rw [storeNum_fail (Nat.lt_of_not_le hfits)] at h
      cases h

end whole
end RlboxWasm2c.MinWasi

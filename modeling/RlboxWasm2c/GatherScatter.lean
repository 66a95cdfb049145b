import RlboxWasm2c.Transfers

/- What `fd_write` and `fd_read` transfer. A write never changes the memory until its count
   is stored, so its buffers are those of the memory it was called on. A read delivers into
   the memory it takes its next descriptors from: `scatter` is the memory after a list of
   deliveries, and each descriptor is one of the memory that the deliveries before it left.
   Where buffers, table and count are apart, the descriptors are those of the call and
   the buffers keep what was delivered. -/
namespace RlboxWasm2c.MinWasi
open Traced

variable {iov pnum : UInt32} {k n : Nat} {w w' : Wasi} {t : Transfer} {ts : List Transfer}

/-- The buffer of descriptor `k`. -/
def Memory.buffer (m : Memory) (iov : UInt32) (k : Nat) : List UInt8 :=
  m.read (m.iovPtr iov k).toNat (m.iovLen iov k).toNat

theorem Memory.length_buffer (m : Memory) (iov : UInt32) (k : Nat) :
    (m.buffer iov k).length = (m.iovLen iov k).toNat := Memory.length_read ..

theorem store_stream (w : Wasi) (a : Nat) (bytes : List UInt8) (fd : UInt32) :
    (w.store a bytes).stream fd = w.stream fd := rfl

theorem store_u32 (w : Wasi) (pnum num : UInt32) :
    (w.store pnum.toNat (leBytes 4 num.toNat)).instanceMemory.u32 pnum.toNat = num :=
  Memory.u32_write_self ..

theorem store_data {pnum num : UInt32} {a : Nat} (h : a < pnum.toNat ∨ pnum.toNat + 4 ≤ a) :
    (w.store pnum.toNat (leBytes 4 num.toNat)).instanceMemory.data a = w.instanceMemory.data a :=
  Memory.write_data_of_not (by rwa [length_leBytes])

/-! ## Writing -/

section write
variable {fd fd' : UInt32}

theorem writeAfter_stream (hfd : fd = 1 ∨ fd = 2) (ptr len : UInt32) :
    (writeAfter fd w ptr len).stream fd = w.stream fd ++
      (w.instanceMemory.read ptr.toNat len.toNat).take (writeCount w len) := by
  rcases hfd with rfl | rfl <;> rfl

theorem writeAfter_other (hfd : fd = 1 ∨ fd = 2) (hfd' : fd' = 1 ∨ fd' = 2) (hne : fd' ≠ fd)
    (ptr len : UInt32) : (writeAfter fd w ptr len).stream fd' = w.stream fd' := by
  rcases hfd with rfl | rfl <;> rcases hfd' with rfl | rfl
  · exact absurd rfl hne
  · rfl
  · rfl
  · exact absurd rfl hne

/-- A transfer emits the first bytes of its buffer. -/
theorem writer_moves (hfd : fd = 1 ∨ fd = 2) (h : Moves (writer fd) iov k w t w') :
    w'.instanceMemory = w.instanceMemory ∧
    t.len.toNat = (w.instanceMemory.buffer iov k).length ∧
    w'.stream fd = w.stream fd ++ (w.instanceMemory.buffer iov k).take t.moved := by
  have hafter : w' = writeAfter fd w t.ptr t.len := h.after
  have hmoved : t.moved = writeCount w t.len := h.moved
  refine ⟨?_, ?_, ?_⟩
  · rw [hafter, writeAfter_instanceMemory]
  · rw [Memory.length_buffer, h.len]
  · rw [hafter, writeAfter_stream hfd, ← hmoved, h.ptr, h.len]
    rfl

theorem writer_moves_other (hfd : fd = 1 ∨ fd = 2) (hfd' : fd' = 1 ∨ fd' = 2) (hne : fd' ≠ fd)
    (h : Moves (writer fd) iov k w t w') : w'.stream fd' = w.stream fd' := by
  have hafter : w' = writeAfter fd w t.ptr t.len := h.after
  rw [hafter, writeAfter_other hfd hfd' hne]

/-- Full transfers emit their buffers one after the other. -/
theorem writer_transfers (hfd : fd = 1 ∨ fd = 2) (h : Transfers (writer fd) iov k w ts w') :
    w'.instanceMemory = w.instanceMemory ∧
    w'.stream fd = w.stream fd ++
      (List.range' k ts.length).flatMap (w.instanceMemory.buffer iov) ∧
    movedBytes ts = ((List.range' k ts.length).flatMap (w.instanceMemory.buffer iov)).length := by
  induction h with
  | nil => exact ⟨rfl, (List.append_nil _).symm, rfl⟩
  | @cons k w w₁ w₂ t ts first full rest ih =>
    obtain ⟨hmemory, hlen, hstream⟩ := writer_moves hfd first
    obtain ⟨hmemory', hstream', hmoved'⟩ := ih
    rw [hmemory] at hmemory' hstream' hmoved'
    rw [List.take_of_length_le (by omega)] at hstream
    rw [List.length_cons, List.range'_succ, List.flatMap_cons]
    refine ⟨hmemory', ?_, ?_⟩
    · rw [hstream', hstream, List.append_assoc]
    · rw [movedBytes_cons, List.length_append, hmoved']
      omega

theorem writer_transfers_other (hfd : fd = 1 ∨ fd = 2) (hfd' : fd' = 1 ∨ fd' = 2)
    (hne : fd' ≠ fd) (h : Transfers (writer fd) iov k w ts w') :
    w'.stream fd' = w.stream fd' := by
  induction h with
  | nil => rfl
  | cons first full rest ih => rw [ih, writer_moves_other hfd hfd' hne first]

theorem fdWrite_eq (hfd : fd = 1 ∨ fd = 2) (iov iovcnt pnum : UInt32) :
    fdWrite fd iov iovcnt pnum =
      transferLoop (writer fd) wasiPermError iov pnum iovcnt.toNat 0 0 := by
  have hopen : ¬ (fd ≠ 1 ∧ fd ≠ 2) := by
    rcases hfd with rfl | rfl <;> decide
  exact (if_neg hopen).trans (congrFun (fdWriteLoop_eq fd iov pnum iovcnt.toNat 0) 0)

/-- Another `fd` is turned away. -/
theorem fdWrite_badf (hfd : ¬ (fd = 1 ∨ fd = 2)) (iov iovcnt pnum : UInt32) :
    fdWrite fd iov iovcnt pnum w = (.ok wasiBadfError, w, []) := by
  unfold fdWrite
  rw [if_pos (not_or.mp hfd)]
  rfl

/-- The parts of `fd_write`'s result, from how it came to its status. -/
theorem returned_success {status : UInt32} {s : Wasi} {L : List Event} (hfd : fd = 1 ∨ fd = 2)
    (h : Returned (writer fd) wasiPermError iov pnum n w status s L)
    (hstatus : status = wasiSuccess) :
    s.stream fd = w.stream fd ++ (List.range n).flatMap (w.instanceMemory.buffer iov) ∧
    (s.instanceMemory.u32 pnum.toNat).toNat =
      ((List.range n).flatMap (w.instanceMemory.buffer iov)).length := by
  cases h with
  | finished transfers all count =>
    obtain ⟨-, hstream, hmoved⟩ := writer_transfers hfd transfers
    rw [all, ← List.range_eq_range'] at hstream hmoved
    rw [store_stream, store_u32, count]
    exact ⟨hstream, hmoved⟩
  | overflow transfers last inside exceeds => exact absurd hstatus (by decide)
  | short transfers last inside notFull count => exact absurd hstatus (by decide)

theorem returned_perm {status : UInt32} {s : Wasi} {L : List Event} (hfd : fd = 1 ∨ fd = 2)
    (h : Returned (writer fd) wasiPermError iov pnum n w status s L)
    (hstatus : status = wasiPermError) :
    ∃ k < n, ∃ part, part <+: w.instanceMemory.buffer iov k ∧
      part ≠ w.instanceMemory.buffer iov k ∧
      s.stream fd =
        w.stream fd ++ ((List.range k).flatMap (w.instanceMemory.buffer iov) ++ part) ∧
      (s.instanceMemory.u32 pnum.toNat).toNat =
        ((List.range k).flatMap (w.instanceMemory.buffer iov) ++ part).length := by
  cases h with
  | finished transfers all count => exact absurd hstatus (by decide)
  | overflow transfers last inside exceeds => exact absurd hstatus (by decide)
  | @short ts t w' w'' num transfers last inside notFull count =>
    obtain ⟨hmemory, hstream, hmoved⟩ := writer_transfers hfd transfers
    obtain ⟨-, hlen, hstream'⟩ := writer_moves hfd last
    rw [hmemory] at hlen hstream'
    rw [← List.range_eq_range'] at hstream hmoved
    have hle := last.moved_le
    have hpart : ((w.instanceMemory.buffer iov ts.length).take t.moved).length = t.moved := by
      rw [List.length_take]
      omega
    refine ⟨ts.length, inside, (w.instanceMemory.buffer iov ts.length).take t.moved,
      List.take_prefix .., ?_, ?_, ?_⟩
    · intro heq
      rw [heq] at hpart
      omega
    · rw [store_stream, hstream', hstream, List.append_assoc]
    · rw [store_u32, count, List.length_append, hpart, hmoved]

theorem returned_frame {status : UInt32} {s : Wasi} {L : List Event} (hfd : fd = 1 ∨ fd = 2)
    (h : Returned (writer fd) wasiPermError iov pnum n w status s L)
    (hstatus : status ≠ wasiInvalError) :
    (∀ fd', fd' = 1 ∨ fd' = 2 → fd' ≠ fd → s.stream fd' = w.stream fd') ∧
    ∀ a, (a < pnum.toNat ∨ pnum.toNat + 4 ≤ a) →
      s.instanceMemory.data a = w.instanceMemory.data a := by
  cases h with
  | finished transfers all count =>
    obtain ⟨hmemory, -, -⟩ := writer_transfers hfd transfers
    refine ⟨fun fd' hfd' hne => ?_, fun a ha => ?_⟩
    · rw [store_stream, writer_transfers_other hfd hfd' hne transfers]
    · rw [store_data ha, hmemory]
  | overflow transfers last inside exceeds => exact absurd rfl hstatus
  | short transfers last inside notFull count =>
    obtain ⟨hmemory, -, -⟩ := writer_transfers hfd transfers
    obtain ⟨hmemory', -, -⟩ := writer_moves hfd last
    refine ⟨fun fd' hfd' hne => ?_, fun a ha => ?_⟩
    · rw [store_stream, writer_moves_other hfd hfd' hne last,
        writer_transfers_other hfd hfd' hne transfers]
    · rw [store_data ha, hmemory', hmemory]

end write

/-- `fd_write` gathers: on success its stream has received all buffers in order, on a
    permission error those before some descriptor and a proper first part of that one's
    buffer; the count is that of the bytes the stream received. The other stream and the
    rest of the memory are left alone. -/
theorem fdWrite_gathers (fd iov iovcnt pnum : UInt32) (hfd : fd = 1 ∨ fd = 2) (w : Wasi) :
    let buffer := w.instanceMemory.buffer iov
    let r := fdWrite fd iov iovcnt pnum w
    let count := (r.2.1.instanceMemory.u32 pnum.toNat).toNat
    (r.1 = .ok wasiSuccess →
      r.2.1.stream fd = w.stream fd ++ (List.range iovcnt.toNat).flatMap buffer ∧
      count = ((List.range iovcnt.toNat).flatMap buffer).length) ∧
    (r.1 = .ok wasiPermError → ∃ k < iovcnt.toNat, ∃ part, part <+: buffer k ∧ part ≠ buffer k ∧
      r.2.1.stream fd = w.stream fd ++ ((List.range k).flatMap buffer ++ part) ∧
      count = ((List.range k).flatMap buffer ++ part).length) ∧
    (r.1 = .ok wasiSuccess ∨ r.1 = .ok wasiPermError →
      (∀ fd', fd' = 1 ∨ fd' = 2 → fd' ≠ fd → r.2.1.stream fd' = w.stream fd') ∧
      ∀ a, (a < pnum.toNat ∨ pnum.toNat + 4 ≤ a) →
        r.2.1.instanceMemory.data a = w.instanceMemory.data a) := by
  intro buffer r count
  have hr : r = transferLoop (writer fd) wasiPermError iov pnum iovcnt.toNat 0 0 w :=
    congrFun (fdWrite_eq hfd iov iovcnt pnum) w
  have hreturned : ∀ status, r.1 = .ok status →
      ∃ L, Returned (writer fd) wasiPermError iov pnum iovcnt.toNat w status r.2.1 L := by
    intro status hok
    rw [hr] at hok ⊢
    obtain ⟨L, -, hret, -⟩ := transferLoop_returns hok
    exact ⟨L, hret⟩
  refine ⟨fun hok => ?_, fun hok => ?_, fun hok => ?_⟩
  · obtain ⟨L, hret⟩ := hreturned _ hok
    exact returned_success hfd hret rfl
  · obtain ⟨L, hret⟩ := hreturned _ hok
    exact returned_perm hfd hret rfl
  · rcases hok with hok | hok
    · obtain ⟨L, hret⟩ := hreturned _ hok
      exact returned_frame hfd hret (by decide)
    · obtain ⟨L, hret⟩ := hreturned _ hok
      exact returned_frame hfd hret (by decide)

/-- Two buffers of a memory of 32 bytes, `ab` and `c`, on stdout. -/
def twoBuffers : Memory :=
  (Memory.zeros 32 (by decide)).write 0
    [16, 0, 0, 0, 2, 0, 0, 0, 18, 0, 0, 0, 1, 0, 0, 0, 97, 98, 99]

theorem two_buffers_gathered :
    (fdWrite 1 0 2 24 (hostOf twoBuffers)).1 = .ok wasiSuccess ∧
    (fdWrite 1 0 2 24 (hostOf twoBuffers)).2.1.stdout = [97, 98, 99] := by
  have hok : (fdWrite 1 0 2 24 (hostOf twoBuffers)).1 = .ok wasiSuccess := rfl
  have hgathers := (fdWrite_gathers 1 0 2 24 (Or.inl rfl) (hostOf twoBuffers)).1 hok
  have hbytes : (List.range 2).flatMap (twoBuffers.buffer 0) = [97, 98, 99] := by decide
  exact ⟨hok, hgathers.1.trans hbytes⟩

/-! ## Reading -/

/-- Transfers one after the other, full or not. -/
inductive Chain (x : Mover) (iov : UInt32) : Nat → Wasi → List Transfer → Wasi → Prop where
  | nil {k : Nat} {w : Wasi} : Chain x iov k w [] w
  | cons {k : Nat} {w w' w'' : Wasi} {t : Transfer} {ts : List Transfer}
    (first : Moves x iov k w t w') (rest : Chain x iov (k + 1) w' ts w'') :
    Chain x iov k w (t :: ts) w''

theorem Transfers.chain {x : Mover} (h : Transfers x iov k w ts w') : Chain x iov k w ts w' := by
  induction h with
  | nil => exact .nil
  | cons first full rest ih => exact .cons first ih

theorem Transfers.chain_concat {x : Mover} {w'' : Wasi} (h : Transfers x iov k w ts w')
    (last : Moves x iov (k + ts.length) w' t w'') : Chain x iov k w (ts ++ [t]) w'' := by
  induction h with
  | nil => exact .cons last .nil
  | @cons k w w₁ w₂ u us first full rest ih =>
    refine .cons first (ih ?_)
    rwa [List.length_cons, Nat.add_comm us.length, ← Nat.add_assoc] at last

theorem Transfers.full_of_mem {x : Mover} (h : Transfers x iov k w ts w') :
    ∀ u ∈ ts, u.moved = u.len.toNat := by
  induction h with
  | nil => intro u hu; cases hu
  | cons first full rest ih =>
    intro u hu
    rcases List.mem_cons.mp hu with rfl | hu
    · exact full
    · exact ih u hu

/-- The memory after the deliveries `ts` of the bytes of a stream. -/
def scatter : Memory → List Transfer → List UInt8 → Memory
  | m, [], _ => m
  | m, t :: ts, bytes => scatter (m.write t.ptr.toNat (bytes.take t.moved)) ts (bytes.drop t.moved)

/-- Outside the delivered bytes nothing changes. -/
theorem scatter_data {m : Memory} {bytes : List UInt8} {a : Nat}
    (h : ∀ t ∈ ts, a < t.ptr.toNat ∨ t.ptr.toNat + t.moved ≤ a) :
    (scatter m ts bytes).data a = m.data a := by
  induction ts generalizing m bytes with
  | nil => rfl
  | cons t ts ih =>
    have hfirst := h t List.mem_cons_self
    rw [scatter, ih fun u hu => h u (List.mem_cons_of_mem t hu)]
    apply Memory.write_data_of_not
    rw [List.length_take]
    omega

theorem reader_moves (h : Moves reader iov k w t w') :
    t.moved ≤ w.stdin.length ∧
    w'.instanceMemory = w.instanceMemory.write t.ptr.toNat (w.stdin.take t.moved) ∧
    w'.stdin = w.stdin.drop t.moved := by
  have hmoved : t.moved = readCount w t.len := h.moved
  have hle : readCount w t.len ≤ w.stdin.length :=
    Nat.le_trans (Nat.min_le_right ..) (Nat.min_le_right ..)
  rw [h.after, hmoved]
  exact ⟨hle, rfl, rfl⟩

/-- A chain of reads takes its bytes from the stream in order and scatters them; each
    descriptor is read from the memory the deliveries before it left. -/
theorem reader_chain (h : Chain reader iov k w ts w') :
    movedBytes ts ≤ w.stdin.length ∧ w'.stdin = w.stdin.drop (movedBytes ts) ∧
    w'.instanceMemory = scatter w.instanceMemory ts w.stdin ∧
    ∀ j (hj : j < ts.length), ts[j].moved ≤ ts[j].len.toNat ∧
      ts[j].ptr = (scatter w.instanceMemory (ts.take j) w.stdin).iovPtr iov (k + j) ∧
      ts[j].len = (scatter w.instanceMemory (ts.take j) w.stdin).iovLen iov (k + j) := by
  induction h with
  | nil => exact ⟨Nat.zero_le _, rfl, rfl, fun j hj => absurd hj (Nat.not_lt_zero j)⟩
  | @cons k w w₁ w₂ t ts first rest ih =>
    obtain ⟨hle, hmemory, hstdin⟩ := reader_moves first
    obtain ⟨hle', hstdin', hmemory', hdesc⟩ := ih
    rw [hstdin] at hle' hstdin' hmemory' hdesc
    rw [hmemory] at hmemory' hdesc
    rw [List.length_drop] at hle'
    refine ⟨?_, ?_, hmemory', fun j hj => ?_⟩
    · rw [movedBytes_cons]
      omega
    · rw [hstdin', List.drop_drop, movedBytes_cons]
    · cases j with
      | zero => exact ⟨first.moved_le, first.ptr, first.len⟩
      | succ j =>
        have hnext := hdesc j (Nat.lt_of_succ_lt_succ hj)
        rw [Nat.add_assoc k 1, Nat.add_comm 1] at hnext
        exact hnext

/-- The buffers of `n` descriptors from `k` on are apart from one another and from the
    descriptors. -/
structure TableApart (m : Memory) (iov : UInt32) (k n : Nat) : Prop where
  buffers : ∀ i j, i < n → j < n → i ≠ j →
    Apart (m.iovPtr iov (k + i)).toNat (m.iovLen iov (k + i)).toNat
      (m.iovPtr iov (k + j)).toNat (m.iovLen iov (k + j)).toNat
  table : ∀ i j, i < n → j < n →
    Apart (m.iovPtr iov (k + i)).toNat (m.iovLen iov (k + i)).toNat (ptrAddr iov (k + j)).toNat 4 ∧
    Apart (m.iovPtr iov (k + i)).toNat (m.iovLen iov (k + i)).toNat (lenAddr iov (k + j)).toNat 4

/-- A delivery into the first buffer leaves the other descriptors as they were. -/
theorem TableApart.after_first {m : Memory} {bytes : List UInt8} (h : TableApart m iov k (n + 1))
    (hlen : bytes.length ≤ (m.iovLen iov k).toNat) {j : Nat} (hj : j < n) :
    (m.write (m.iovPtr iov k).toNat bytes).iovPtr iov (k + 1 + j) = m.iovPtr iov (k + 1 + j) ∧
    (m.write (m.iovPtr iov k).toNat bytes).iovLen iov (k + 1 + j) = m.iovLen iov (k + 1 + j) := by
  obtain ⟨hptr, hlenWord⟩ := h.table 0 (j + 1) (Nat.succ_pos n) (Nat.succ_lt_succ hj)
  rw [Nat.add_zero, Nat.add_comm j 1, ← Nat.add_assoc] at hptr hlenWord
  constructor
  · exact Memory.u32_write_of_apart
      (hptr.mono (Nat.le_refl _) (by omega) (Nat.le_refl _) (Nat.le_refl _)).symm
  · exact Memory.u32_write_of_apart
      (hlenWord.mono (Nat.le_refl _) (by omega) (Nat.le_refl _) (Nat.le_refl _)).symm

theorem TableApart.tail {m : Memory} {bytes : List UInt8} (h : TableApart m iov k (n + 1))
    (hlen : bytes.length ≤ (m.iovLen iov k).toNat) :
    TableApart (m.write (m.iovPtr iov k).toNat bytes) iov (k + 1) n := by
  constructor
  · intro i j hi hj hne
    obtain ⟨hptr, hlenWord⟩ := h.after_first hlen hi
    obtain ⟨hptr', hlenWord'⟩ := h.after_first hlen hj
    rw [hptr, hlenWord, hptr', hlenWord', Nat.add_assoc, Nat.add_assoc, Nat.add_comm 1 i,
      Nat.add_comm 1 j]
    exact h.buffers (i + 1) (j + 1) (by omega) (by omega) (by omega)
  · intro i j hi hj
    obtain ⟨hptr, hlenWord⟩ := h.after_first hlen hi
    rw [hptr, hlenWord, Nat.add_assoc, Nat.add_assoc k 1 j, Nat.add_comm 1 i, Nat.add_comm 1 j]
    exact h.table (i + 1) (j + 1) (by omega) (by omega)

/-- Where the buffers are apart, the descriptors are those of the call and the buffers hold
    what was delivered. -/
theorem reader_chain_apart (h : Chain reader iov k w ts w')
    (happart : TableApart w.instanceMemory iov k ts.length) :
    (∀ j (hj : j < ts.length), ts[j].ptr = w.instanceMemory.iovPtr iov (k + j) ∧
      ts[j].len = w.instanceMemory.iovLen iov (k + j)) ∧
    (ts.flatMap fun t => w'.instanceMemory.read t.ptr.toNat t.moved) =
      w.stdin.take (movedBytes ts) := by
  induction h with
  | nil => exact ⟨fun j hj => absurd hj (Nat.not_lt_zero j), rfl⟩
  | @cons k w w₁ w₂ t ts first rest ih =>
    obtain ⟨hle, hmemory, hstdin⟩ := reader_moves first
    obtain ⟨-, -, hmemory', -⟩ := reader_chain rest
    have hdelivered : (w.stdin.take t.moved).length = t.moved := List.length_take_of_le hle
    have hlen : (w.stdin.take t.moved).length ≤ (w.instanceMemory.iovLen iov k).toNat := by
      rw [hdelivered, ← first.len]
      exact first.moved_le
    rw [List.length_cons] at happart
    have htail := happart.tail hlen
    rw [← first.ptr, ← hmemory] at htail
    obtain ⟨hdesc, hbytes⟩ := ih htail
    have hsame : ∀ j (hj : j < ts.length),
        ts[j].ptr = w.instanceMemory.iovPtr iov (k + 1 + j) ∧
        ts[j].len = w.instanceMemory.iovLen iov (k + 1 + j) := by
      intro j hj
      obtain ⟨hptr, hlenWord⟩ := happart.after_first hlen hj
      rw [← first.ptr, ← hmemory] at hptr hlenWord
      rw [← hptr, ← hlenWord]
      exact hdesc j hj
    refine ⟨fun j hj => ?_, ?_⟩
    · cases j with
      | zero => exact ⟨first.ptr, first.len⟩
      | succ j =>
        have hnext := hsame j (Nat.lt_of_succ_lt_succ hj)
        rw [Nat.add_assoc k 1, Nat.add_comm 1] at hnext
        exact hnext
    · -- the later deliveries leave the first buffer alone
      have hkept : w₂.instanceMemory.read t.ptr.toNat t.moved = w.stdin.take t.moved := by
        have hself := w.instanceMemory.read_write_self t.ptr.toNat (w.stdin.take t.moved)
        rw [hdelivered, ← hmemory] at hself
        refine Eq.trans ?_ hself
        refine Memory.read_congr fun i hi => ?_
        rw [hmemory']
        refine scatter_data fun u hu => ?_
        obtain ⟨j, hj, rfl⟩ := List.getElem_of_mem hu
        obtain ⟨hptr, hlenWord⟩ := hsame j hj
        have hmoved := (reader_chain rest).2.2.2 j hj
        have hbuffers := happart.buffers 0 (j + 1) (Nat.succ_pos _) (Nat.succ_lt_succ hj)
          (Nat.succ_ne_zero j).symm
        rw [Nat.add_zero, Nat.add_comm j 1, ← Nat.add_assoc, ← first.ptr, ← first.len, ← hptr,
          ← hlenWord] at hbuffers
        have hle' := first.moved_le
        have hout := hbuffers (t.ptr.toNat + i) (by omega) (by omega)
        omega
      rw [List.flatMap_cons, hkept, hbytes, hstdin, movedBytes_cons, List.take_add]

/-- The `fread` calls of a run: where and how much they may deliver. -/
def readsIn (L : List Event) : List (Nat × Nat) :=
  L.filterMap fun e =>
    match e with
    | .access .fread a n => some (a, n)
    | _ => none

theorem readsIn_transfersLog (k : Nat) (ts : List Transfer) :
    readsIn (transfersLog .fread iov k ts) = ts.map fun t => (t.ptr.toNat, t.len.toNat) := by
  induction ts generalizing k with
  | nil => rfl
  | cons t ts ih =>
    have hfirst : readsIn (transferLog .fread iov k t) = [(t.ptr.toNat, t.len.toNat)] := rfl
    have happend : readsIn (transfersLog .fread iov k (t :: ts)) =
        readsIn (transferLog .fread iov k t) ++ readsIn (transfersLog .fread iov (k + 1) ts) :=
      List.filterMap_append
    rw [happend, hfirst, ih]
    rfl

/-- What a read of at most `n` descriptors did, from `w` to `s` with log `L`: `ts` are the
    deliveries, one for each descriptor up to the first short one. -/
structure ScatterRead (iov pnum : UInt32) (n : Nat) (w s : Wasi) (L : List Event)
    (ts : List Transfer) : Prop where
  /-- There is no other read. -/
  reads : readsIn L = ts.map fun t => (t.ptr.toNat, t.len.toNat)
  /-- Delivery `j` is into the buffer of descriptor `j`, as the deliveries before left it. -/
  descriptors : ∀ j (hj : j < ts.length), ts[j].moved ≤ ts[j].len.toNat ∧
    ts[j].ptr = (scatter w.instanceMemory (ts.take j) w.stdin).iovPtr iov j ∧
    ts[j].len = (scatter w.instanceMemory (ts.take j) w.stdin).iovLen iov j
  full : ∀ j (hj : j < ts.length), j + 1 < ts.length → ts[j].moved = ts[j].len.toNat
  length_le : ts.length ≤ n
  stops : ts.length = n ∨ ∃ t, ts.getLast? = some t ∧ t.moved < t.len.toNat
  available : movedBytes ts ≤ w.stdin.length
  consumed : s.stdin = w.stdin.drop (movedBytes ts)
  count : (s.instanceMemory.u32 pnum.toNat).toNat = movedBytes ts
  frame : ∀ a, (a < pnum.toNat ∨ pnum.toNat + 4 ≤ a) →
    (∀ t ∈ ts, a < t.ptr.toNat ∨ t.ptr.toNat + t.moved ≤ a) →
    s.instanceMemory.data a = w.instanceMemory.data a

theorem fdRead_eq (iov iovcnt pnum : UInt32) :
    fdRead 0 iov iovcnt pnum = transferLoop reader wasiSuccess iov pnum iovcnt.toNat 0 0 :=
  (if_neg (by decide)).trans (congrFun (fdReadLoop_eq iov pnum iovcnt.toNat 0) 0)

theorem fdRead_badf {fd : UInt32} (hfd : fd ≠ 0) (iov iovcnt pnum : UInt32) :
    fdRead fd iov iovcnt pnum w = (.ok wasiBadfError, w, []) := by
  unfold fdRead
  rw [if_pos hfd]
  rfl

/-- How a successful read came to its end: its deliveries are a chain, all of them full but
    for the one that ended it, and their count was stored. -/
theorem returned_chain {status : UInt32} {s : Wasi} {L : List Event}
    (h : Returned reader wasiSuccess iov pnum n w status s L) (hstatus : status = wasiSuccess) :
    ∃ (ts : List Transfer) (w' : Wasi) (num : UInt32),
      Chain reader iov 0 w ts w' ∧ L = transfersLog .fread iov 0 ts ∧
      (∀ j (hj : j < ts.length), j + 1 < ts.length → ts[j].moved = ts[j].len.toNat) ∧
      ts.length ≤ n ∧ (ts.length = n ∨ ∃ t, ts.getLast? = some t ∧ t.moved < t.len.toNat) ∧
      num.toNat = movedBytes ts ∧ s = w'.store pnum.toNat (leBytes 4 num.toNat) := by
  cases h with
  | @finished ts w' num transfers all count =>
    have hfull : ∀ j (hj : j < ts.length), j + 1 < ts.length → ts[j].moved = ts[j].len.toNat :=
      fun j hj _ => transfers.full_of_mem ts[j] (List.getElem_mem hj)
    exact ⟨ts, w', num, transfers.chain, rfl, hfull, Nat.le_of_eq all, Or.inl all, count, rfl⟩
  | overflow transfers last inside exceeds => exact absurd hstatus (by decide)
  | @short ts t w' w'' num transfers last inside notFull count =>
    have hlast := last.moved_le
    have hchain : Chain reader iov 0 w (ts ++ [t]) w'' :=
      transfers.chain_concat (by rwa [Nat.zero_add])
    refine ⟨ts ++ [t], w'', num, hchain, rfl, fun j hj hnext => ?_, ?_, Or.inr ⟨t, ?_, ?_⟩, ?_, rfl⟩
    · rw [List.length_append, List.length_singleton] at hnext
      rw [List.getElem_append_left (by omega)]
      exact transfers.full_of_mem _ (List.getElem_mem _)
    · rw [List.length_append, List.length_singleton]
      omega
    · exact List.getLast?_concat
    · omega
    · rw [count, movedBytes_append, movedBytes_cons, movedBytes_nil, Nat.add_zero]

/-- `fd_read` scatters: what it takes from stdin are the deliveries of its descriptors in
    order, up to the first short one or the last; it makes no other read, stores their total
    and changes nothing else. Where the buffers it delivers to are apart from one another, from
    the descriptors and from the count, they are those of the memory of the call and hold,
    in order, the bytes that were taken. -/
theorem fdRead_scatters (iov iovcnt pnum : UInt32) (w : Wasi)
    (hok : (fdRead 0 iov iovcnt pnum w).1 = .ok wasiSuccess) :
    let r := fdRead 0 iov iovcnt pnum w
    let m := w.instanceMemory
    ∃ ts, ScatterRead iov pnum iovcnt.toNat w r.2.1 r.2.2 ts ∧
      (TableApart m iov 0 ts.length →
        (∀ j < ts.length, Apart (m.iovPtr iov j).toNat (m.iovLen iov j).toNat pnum.toNat 4) →
        (∀ j (hj : j < ts.length), ts[j].ptr = m.iovPtr iov j ∧ ts[j].len = m.iovLen iov j) ∧
        (ts.flatMap fun t => r.2.1.instanceMemory.read t.ptr.toNat t.moved) =
          w.stdin.take (movedBytes ts)) := by
  intro r m
  have hr : r = transferLoop reader wasiSuccess iov pnum iovcnt.toNat 0 0 w :=
    congrFun (fdRead_eq iov iovcnt pnum) w
  change r.1 = _ at hok
  rw [hr] at hok ⊢
  obtain ⟨L, L', hret, hlog, hL'⟩ := transferLoop_returns hok
  obtain ⟨ts, w', num, hchain, hL, hfull, hle, hstops, hcount, hs⟩ := returned_chain hret rfl
  obtain ⟨havail, hstdin, hmemory, hdesc⟩ := reader_chain hchain
  simp only [Nat.zero_add] at hdesc
  have hreads : readsIn (L ++ L') = ts.map fun t => (t.ptr.toNat, t.len.toNat) := by
    have hnone : readsIn L' = [] := by
      rcases hL' with rfl | rfl <;> rfl
    rw [readsIn, List.filterMap_append, ← readsIn, ← readsIn, hnone, List.append_nil, hL,
      readsIn_transfersLog]
  refine ⟨ts, ⟨?_, hdesc, hfull, hle, hstops, havail, ?_, ?_, ?_⟩, fun happart hpnum => ?_⟩
  · rw [hlog]
    exact hreads
  · rw [hs]
    exact hstdin
  · rw [hs, store_u32, hcount]
  · intro a ha hout
    rw [hs, store_data ha, hmemory, scatter_data hout]
  · obtain ⟨hsame, hbytes⟩ := reader_chain_apart hchain happart
    simp only [Nat.zero_add] at hsame
    refine ⟨hsame, Eq.trans (List.flatMap_congr fun t ht => ?_) hbytes⟩
    -- the count is stored outside the buffers
    obtain ⟨j, hj, rfl⟩ := List.getElem_of_mem ht
    have hapart : Apart (w.instanceMemory.iovPtr iov j).toNat (w.instanceMemory.iovLen iov j).toNat
        pnum.toNat 4 := hpnum j hj
    have hmoved := (hdesc j hj).1
    rw [hs]
    apply Memory.read_write_of_apart
    rw [length_leBytes, (hsame j hj).1]
    rw [(hsame j hj).2] at hmoved
    exact hapart.mono (Nat.le_refl _) (by omega) (Nat.le_refl _) (Nat.le_refl _)

/-- Two buffers of 2 and 3 bytes in a memory of 32 bytes. -/
def readBuffers : Memory :=
  (Memory.zeros 32 (by decide)).write 0 [16, 0, 0, 0, 2, 0, 0, 0, 18, 0, 0, 0, 3, 0, 0, 0]

theorem readBuffers_apart {n : Nat} (hn : n ≤ 2) : TableApart readBuffers 0 0 n := by
  have hptr : ∀ j < 2, (readBuffers.iovPtr 0 (0 + j)).toNat = 16 + 2 * j := by decide
  have hlen : ∀ j < 2, (readBuffers.iovLen 0 (0 + j)).toNat = 2 + j := by decide
  have hword : ∀ j < 2,
      (ptrAddr 0 (0 + j)).toNat + 4 ≤ 16 ∧ (lenAddr 0 (0 + j)).toNat + 4 ≤ 16 := by
    decide
  refine ⟨fun i j hi hj hne x hlo hhi => ?_,
    fun i j hi hj => ⟨fun x hlo _ => ?_, fun x hlo _ => ?_⟩⟩
  · rw [hptr i (by omega)] at hlo hhi
    rw [hlen i (by omega)] at hhi
    rw [hptr j (by omega), hlen j (by omega)]
    omega
  · rw [hptr i (by omega)] at hlo
    have hbelow := (hword j (by omega)).1
    omega
  · rw [hptr i (by omega)] at hlo
    have hbelow := (hword j (by omega)).2
    omega

/-- `wxyz` on stdin, for the two buffers; the second is delivered in part. -/
def shortStdin : Wasi :=
  { hostOf readBuffers with stdin := [119, 120, 121, 122], ioResults := [2, 1] }

theorem short_stdin_scattered :
    (fdRead 0 0 2 24 shortStdin).1 = .ok wasiSuccess ∧
    ∃ ts, ScatterRead 0 24 2 shortStdin (fdRead 0 0 2 24 shortStdin).2.1
        (fdRead 0 0 2 24 shortStdin).2.2 ts ∧
      (ts.flatMap fun t =>
        (fdRead 0 0 2 24 shortStdin).2.1.instanceMemory.read t.ptr.toNat t.moved) =
        [119, 120, 121] := by
  have hok : (fdRead 0 0 2 24 shortStdin).1 = .ok wasiSuccess := by decide +kernel
  obtain ⟨ts, hread, hbuffers⟩ := fdRead_scatters 0 2 24 shortStdin hok
  have hlength : ts.length ≤ 2 := hread.length_le
  have hmoved : movedBytes ts = 3 := by
    have hcount : ((fdRead 0 0 2 24 shortStdin).2.1.instanceMemory.u32 24).toNat = 3 := by
      decide +kernel
    exact hread.count.symm.trans hcount
  obtain ⟨-, hbytes⟩ := hbuffers (readBuffers_apart hlength) fun j hj => by
    have hend : ∀ j < 2, (readBuffers.iovPtr 0 j).toNat + (readBuffers.iovLen 0 j).toNat ≤ 24 := by
      decide
    have hbelow := hend j (by omega)
    exact fun x _ hhi => Or.inl (Nat.lt_of_lt_of_le hhi hbelow)
  rw [hmoved] at hbytes
  exact ⟨hok, ts, hread, hbytes⟩

end RlboxWasm2c.MinWasi

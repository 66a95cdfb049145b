import Mathlib.Algebra.Group.Int.Defs
import RlboxWasm2c.GatherScatter

/- The two sums of `fd_write` and `fd_read` that 32 bits can be too few for.

   The count of the bytes moved is added up with `safe_add_u32`, but only after the bytes
   have moved: a total of 2^32 returns `WASI_INVAL_ERROR` behind the transfer and stores no
   count. `accounted_iff` says that this is the one way to lose count.

   The addresses of the descriptors are added up without it: `iov + i * 8` wraps, and the
   check that follows cannot tell. `table_unwrapped_iff` says that this takes a memory of
   2^32 bytes, a table at a multiple of 4 that runs past its end, and full transfers of all
   descriptors before the end. -/
namespace RlboxWasm2c.MinWasi
open Traced

variable {x : Mover} {short iov pnum : UInt32} {k n : Nat} {w w' : Wasi} {t : Transfer}
  {ts : List Transfer}

/-! ## The count -/

/-- The bytes that left through stdout and stderr or came from stdin. -/
def transferred (w s : Wasi) : Int :=
  (s.stdout.length - w.stdout.length) + (s.stderr.length - w.stderr.length) +
    (w.stdin.length - s.stdin.length)

/-- A call emits no byte, takes no byte and changes no memory. -/
def Untouched (w s : Wasi) : Prop :=
  s.stdout = w.stdout ∧ s.stderr = w.stderr ∧ s.stdin = w.stdin ∧
    s.instanceMemory = w.instanceMemory

/-- A status that is returned is an error and nothing was transferred, or it is not
    `WASI_INVAL_ERROR` and the count at `pnum` is what was transferred. -/
def Accounted (pnum : UInt32) (w : Wasi) (r : Except Trap UInt32 × Wasi × List Event) : Prop :=
  ∀ status, r.1 = .ok status →
    (status ≠ wasiSuccess ∧ Untouched w r.2.1) ∨
    (status ≠ wasiInvalError ∧
      ((r.2.1.instanceMemory.u32 pnum.toNat).toNat : Int) = transferred w r.2.1)

/-- The transfers that the descriptors and the stream come to, at most `n` and all but the last
    one full, never total 2^32 bytes. -/
def FitsCount (x : Mover) (iov : UInt32) (n : Nat) (w : Wasi) : Prop :=
  ∀ ts t w' w'', Transfers x iov 0 w ts w' → Moves x iov ts.length w' t w'' → ts.length < n →
    movedBytes ts + t.moved < 2 ^ 32

/-- Each transfer of `x` moves the bytes it counts. -/
def Exact (x : Mover) : Prop :=
  ∀ iov k w t w', Moves x iov k w t w' → transferred w w' = t.moved

theorem writer_exact {fd : UInt32} (hfd : fd = 1 ∨ fd = 2) : Exact (writer fd) := by
  intro iov k w t w' h
  obtain ⟨-, hlen, hstream⟩ := writer_moves hfd h
  have hle := h.moved_le
  have hafter : w' = writeAfter fd w t.ptr t.len := h.after
  have hemitted : ((w.instanceMemory.buffer iov k).take t.moved).length = t.moved := by
    rw [List.length_take]
    omega
  have hstdin : w'.stdin = w.stdin := by
    rw [hafter]
    rcases hfd with rfl | rfl <;> rfl
  have hlength := congrArg List.length hstream
  rw [List.length_append, hemitted] at hlength
  rcases hfd with rfl | rfl
  · have hother : w'.stream 2 = w.stream 2 :=
      writer_moves_other (Or.inl rfl) (Or.inr rfl) (by decide) h
    change w'.stderr = w.stderr at hother
    have hlength' : w'.stdout.length = w.stdout.length + t.moved := hlength
    unfold transferred
    rw [hother, hstdin, hlength']
    omega
  · have hother : w'.stream 1 = w.stream 1 :=
      writer_moves_other (Or.inr rfl) (Or.inl rfl) (by decide) h
    change w'.stdout = w.stdout at hother
    have hlength' : w'.stderr.length = w.stderr.length + t.moved := hlength
    unfold transferred
    rw [hother, hstdin, hlength']
    omega

theorem reader_exact : Exact reader := by
  intro iov k w t w' h
  obtain ⟨hle, -, hstdin⟩ := reader_moves h
  have hafter : w' = reader.after w t.ptr t.len := h.after
  have hstdout : w'.stdout = w.stdout := by rw [hafter]; rfl
  have hstderr : w'.stderr = w.stderr := by rw [hafter]; rfl
  unfold transferred
  rw [hstdout, hstderr, hstdin, List.length_drop]
  omega

theorem transferred_trans (w w' w'' : Wasi) :
    transferred w w'' = transferred w w' + transferred w' w'' := by
  unfold transferred
  omega

theorem chain_transferred (hx : Exact x) (h : Chain x iov k w ts w') :
    transferred w w' = movedBytes ts := by
  induction h with
  | nil =>
    unfold transferred
    rw [movedBytes_nil]
    omega
  | @cons k w w₁ w₂ t ts first rest ih =>
    rw [transferred_trans w w₁ w₂, ih, hx _ _ _ _ _ first, movedBytes_cons]
    omega

/-- Transfers that total 2^32 bytes end the loop with `WASI_INVAL_ERROR` behind the one at
    which they do. -/
theorem transferLoop_overflows (hx : Exact x) (h : Transfers x iov k w ts w') :
    ∀ (n : Nat) (num : UInt32) (t : Transfer) (w'' : Wasi),
      Moves x iov (k + ts.length) w' t w'' → ts.length < n →
      2 ^ 32 ≤ num.toNat + movedBytes ts + t.moved →
      ∃ s L, transferLoop x short iov pnum n k num w = (.ok wasiInvalError, s, L) ∧
        2 ^ 32 ≤ num.toNat + transferred w s := by
  induction h with
  | @nil k w =>
    intro n num t w'' last hn hover
    obtain ⟨n, rfl⟩ := Nat.exists_eq_succ_of_ne_zero (Nat.ne_of_gt hn)
    rw [movedBytes_nil, Nat.add_zero] at hover
    refine ⟨w'', _, transferLoop_overflow_step last hover, ?_⟩
    rw [hx _ _ _ _ _ last]
    omega
  | @cons k w w₁ w₂ u us first full rest ih =>
    intro n num t w'' last hn hover
    obtain ⟨n, rfl⟩ := Nat.exists_eq_succ_of_ne_zero (Nat.ne_of_gt (Nat.zero_lt_of_lt hn))
    rw [List.length_cons] at last hn
    rw [movedBytes_cons] at hover
    rw [Nat.add_comm us.length, ← Nat.add_assoc] at last
    have hmoved := hx _ _ _ _ _ first
    by_cases hfits : num.toNat + u.moved < 2 ^ 32
    · have hsum : (num + UInt32.ofNat u.moved).toNat = num.toNat + u.moved := by
        rw [toNat_add_of_lt (by rw [first.moved_toNat]; omega), first.moved_toNat]
      obtain ⟨s, L, hrun, hle⟩ := ih n (num + UInt32.ofNat u.moved) t w'' last (by omega) (by omega)
      refine ⟨s, transferLog x.kind iov k u ++ L, ?_, ?_⟩
      · rw [transferLoop_full_step first full hfits, hrun]
        rfl
      · rw [transferred_trans w w₁ s, hmoved]
        omega
    · refine ⟨w₁, _, transferLoop_overflow_step first (Nat.le_of_not_lt hfits), ?_⟩
      rw [hmoved]
      omega

/-- The loop keeps its accounts exactly where the count fits. -/
theorem transferLoop_accounted_iff (hx : Exact x) (hshort : short ≠ wasiInvalError) :
    Accounted pnum w (transferLoop x short iov pnum n 0 0 w) ↔ FitsCount x iov n w := by
  constructor
  · intro haccounted ts t w' w'' hts hlast hn
    by_contra hover
    have hzero : (0 : UInt32).toNat = 0 := rfl
    obtain ⟨s, L, hrun, hle⟩ := @transferLoop_overflows x short iov pnum 0 w w' ts hx hts n 0 t w''
      (by rwa [Nat.zero_add]) hn (by omega)
    rcases haccounted wasiInvalError (by rw [hrun]) with ⟨-, huntouched⟩ | ⟨hne, -⟩
    · rw [hrun] at huntouched
      obtain ⟨hstdout, hstderr, hstdin, -⟩ := huntouched
      unfold transferred at hle
      rw [hstdout, hstderr, hstdin] at hle
      omega
    · exact hne rfl
  · intro hfits status hok
    obtain ⟨L, L', hret, -, -⟩ := transferLoop_returns hok
    revert hret
    generalize (transferLoop x short iov pnum n 0 0 w).2.1 = s
    intro hret
    cases hret with
    | finished transfers all count =>
      refine Or.inr ⟨by decide, ?_⟩
      rw [store_u32, count]
      exact (chain_transferred hx transfers.chain).symm
    | overflow transfers last inside exceeds =>
      exact absurd (hfits _ _ _ _ transfers last inside) (Nat.not_lt_of_le exceeds)
    | short transfers last inside notFull count =>
      refine Or.inr ⟨hshort, ?_⟩
      have hmoved := chain_transferred hx
        (transfers.chain_concat (by rwa [Nat.zero_add]))
      rw [movedBytes_append, movedBytes_cons, movedBytes_nil, Nat.add_zero] at hmoved
      rw [store_u32, count]
      exact hmoved.symm

/-- A call that is turned away with `WASI_BADF_ERROR` touches nothing. -/
theorem badf_accounted : Accounted pnum w (.ok wasiBadfError, w, []) := by
  intro status hok
  cases hok
  exact Or.inl ⟨by decide, rfl, rfl, rfl, rfl⟩

/-- The accounts of `fd_write` and `fd_read` are kept exactly where, for a stream they accept,
    the transfers never total 2^32 bytes. -/
theorem accounted_iff (iov iovcnt pnum : UInt32) (w : Wasi) :
    (∀ fd, Accounted pnum w (fdWrite fd iov iovcnt pnum w) ↔
      (fd = 1 ∨ fd = 2 → FitsCount (writer fd) iov iovcnt.toNat w)) ∧
    (∀ fd, Accounted pnum w (fdRead fd iov iovcnt pnum w) ↔
      (fd = 0 → FitsCount reader iov iovcnt.toNat w)) := by
  constructor
  · intro fd
    by_cases hfd : fd = 1 ∨ fd = 2
    · rw [fdWrite_eq hfd, transferLoop_accounted_iff (writer_exact hfd) (by decide)]
      exact ⟨fun hfits _ => hfits, fun hfits => hfits hfd⟩
    · rw [fdWrite_badf hfd]
      exact iff_of_true badf_accounted fun hfd' => absurd hfd' hfd
  · intro fd
    by_cases hfd : fd = 0
    · rw [hfd, fdRead_eq, transferLoop_accounted_iff reader_exact (by decide)]
      exact ⟨fun hfits _ => hfits, fun hfits => hfits rfl⟩
    · rw [fdRead_badf hfd]
      exact iff_of_true badf_accounted fun hfd' => absurd hfd' hfd

/-- A memory whose table, at 2^31, names its first half twice. -/
def halfTwice : Memory :=
  (Memory.zeros 2147483664 (by decide)).write 2147483648
    [0, 0, 0, 0, 0, 0, 0, 128, 0, 0, 0, 0, 0, 0, 0, 128]

/-- The transfer of the first half to a stream that takes all. -/
theorem halfTwice_moves {w : Wasi} (hmemory : w.instanceMemory = halfTwice)
    (hio : w.ioResults = []) {k : Nat} (hk : k = 0 ∨ k = 1) :
    Moves (writer 1) 2147483648 k w ⟨0, 2147483648, 2147483648⟩
      ((writer 1).after w 0 2147483648) := by
  have hsize : halfTwice.size = 2147483664 := rfl
  have hptr : (ptrAddr 2147483648 k).toNat + 4 ≤ 2147483664 ∧
      (lenAddr 2147483648 k).toNat + 4 ≤ 2147483664 := by
    rcases hk with rfl | rfl <;> decide
  have hwords : halfTwice.iovPtr 2147483648 k = 0 ∧
      halfTwice.iovLen 2147483648 k = 2147483648 := by
    rcases hk with rfl | rfl <;> decide +kernel
  have hlen : (2147483648 : UInt32).toNat = 2147483648 := by decide
  have hcount : (writer 1).count w 2147483648 = 2147483648 := by
    show writeCount w 2147483648 = 2147483648
    rw [writeCount, hio, List.headD_nil, hlen, Nat.min_self]
  constructor
  · rw [hmemory, hsize]
    exact hptr.1
  · rw [hmemory, hsize]
    exact hptr.2
  · rw [hmemory, hwords.1]
  · rw [hmemory, hwords.2]
  · rw [hmemory, hsize]
    decide
  · exact hcount.symm
  · rfl

/-- Both halves are written to stdout, 2^32 bytes, and the call returns `WASI_INVAL_ERROR`. -/
theorem half_twice_not_accounted :
    let w := hostOf halfTwice
    (fdWrite 1 2147483648 2 0 w).1 = .ok wasiInvalError ∧
    2 ^ 32 ≤ transferred w (fdWrite 1 2147483648 2 0 w).2.1 ∧
    ¬ Accounted 0 w (fdWrite 1 2147483648 2 0 w) := by
  intro w
  have hfirst : Moves (writer 1) 2147483648 0 w _ _ := halfTwice_moves rfl rfl (Or.inl rfl)
  have hlast : Moves (writer 1) 2147483648 1 _ _ _ :=
    halfTwice_moves (writeAfter_instanceMemory 1 w 0 2147483648) rfl (Or.inr rfl)
  have hexact := writer_exact (Or.inl rfl)
  obtain ⟨s, L, hrun, hle⟩ := @transferLoop_overflows _ wasiPermError _ 0 _ _ _ _ hexact
    (.cons hfirst rfl .nil) 2 0 _ _ hlast (by decide) (by decide)
  have hcall : fdWrite 1 2147483648 2 0 w = (.ok wasiInvalError, s, L) :=
    (congrFun (fdWrite_eq (Or.inl rfl) 2147483648 2 0) w).trans hrun
  rw [hcall]
  have hmoved : 2 ^ 32 ≤ transferred w s := by
    have hzero : (0 : UInt32).toNat = 0 := rfl
    omega
  refine ⟨rfl, hmoved, fun haccounted => ?_⟩
  rcases haccounted wasiInvalError rfl with ⟨-, hstdout, hstderr, hstdin, -⟩ | ⟨hne, -⟩
  · unfold transferred at hmoved
    rw [hstdout, hstderr, hstdin] at hmoved
    omega
  · exact hne rfl

/-! ## The addresses of the table -/

/-- The addresses a run loads words from, in order. -/
def loadsIn (L : List Event) : List Nat :=
  L.filterMap fun e =>
    match e with
    | .access .load a _ => some a
    | _ => none

/-- The bytes that the stream calls of a run were asked to move. -/
def requestedIn (kind : AccessKind) (L : List Event) : Nat :=
  (L.filterMap fun e =>
    match e with
    | .access kind' _ n => if kind' = kind then some n else none
    | _ => none).sum

/-- The words that were loaded are the first words of the table, each inside the memory, their
    addresses added up without a bound; and a table that extends past the end of the memory
    is not worked off: the call traps, fails or stops at a short transfer. -/
def TableUnwrapped (kind : AccessKind) (iov : UInt32) (n : Nat) (w : Wasi)
    (r : Except Trap UInt32 × Wasi × List Event) : Prop :=
  (∃ words, loadsIn r.2.2 = (List.range words).map (fun j => iov.toNat + 4 * j) ∧
    ∀ j < words, iov.toNat + 4 * j + 4 ≤ w.instanceMemory.size) ∧
  (0 < n → w.instanceMemory.size < iov.toNat + 8 * n → r.1 = .ok wasiSuccess →
    transferred w r.2.1 < requestedIn kind r.2.2)

/-- The descriptors that fit below 2^32. -/
def tableRoom (iov : UInt32) : Nat := (2 ^ 32 - iov.toNat) / 8

/-- The memory has 2^32 bytes, the words of the table end with it, there are more descriptors
    than fit below its end, and these are moved in full, fewer than 2^32 bytes. -/
def RunsPastEnd (x : Mover) (iov : UInt32) (n : Nat) (w : Wasi) : Prop :=
  w.instanceMemory.size = 2 ^ 32 ∧ 4 ∣ iov.toNat ∧ tableRoom iov < n ∧
  ∃ ts w', Transfers x iov 0 w ts w' ∧ ts.length = tableRoom iov ∧ movedBytes ts < 2 ^ 32

theorem ptrAddr_toNat (iov : UInt32) (k : Nat) :
    (ptrAddr iov k).toNat = (iov.toNat + 8 * k) % 2 ^ 32 := by
  have height : (8 : UInt32).toNat = 8 := rfl
  rw [ptrAddr, UInt32.toNat_add, UInt32.toNat_mul, UInt32.toNat_ofNat', height]
  omega

theorem lenAddr_toNat (iov : UInt32) (k : Nat) :
    (lenAddr iov k).toNat = (iov.toNat + 8 * k + 4) % 2 ^ 32 := by
  have hfour : (4 : UInt32).toNat = 4 := rfl
  have hptr := ptrAddr_toNat iov k
  rw [ptrAddr] at hptr
  rw [lenAddr, UInt32.toNat_add, hptr, hfour]
  omega

/-- A descriptor below 2^32 has the addresses of unbounded arithmetic. -/
theorem addrs_below (h : k < tableRoom iov) :
    (ptrAddr iov k).toNat = iov.toNat + 8 * k ∧ (lenAddr iov k).toNat = iov.toNat + 8 * k + 4 := by
  have hiov := iov.toNat_lt
  unfold tableRoom at h
  rw [ptrAddr_toNat, lenAddr_toNat]
  omega

theorem Transfers.size (h : Transfers x iov k w ts w') :
    w'.instanceMemory.size = w.instanceMemory.size := by
  induction h with
  | nil => rfl
  | cons first full rest ih => rw [ih, first.size]

/-- Descriptors below 2^32 that were moved lie inside the memory. -/
theorem Transfers.inside (h : Transfers x iov k w ts w') (hroom : k + ts.length ≤ tableRoom iov)
    (hpos : 0 < ts.length) : iov.toNat + 8 * (k + ts.length) ≤ w.instanceMemory.size := by
  induction h with
  | nil => cases hpos
  | @cons k w w₁ w₂ t ts first full rest ih =>
    rw [List.length_cons] at hroom ⊢
    rcases Nat.eq_zero_or_pos ts.length with hzero | hpos'
    · have hfits := first.lenFits
      rw [(addrs_below (by omega)).2] at hfits
      omega
    · have hrest := ih (by omega) hpos'
      rw [first.size] at hrest
      omega

/-- Transfers split where one wants. -/
theorem Transfers.split (h : Transfers x iov k w ts w') :
    ∀ b ≤ ts.length, ∃ w₁, Transfers x iov k w (ts.take b) w₁ ∧
      Transfers x iov (k + b) w₁ (ts.drop b) w' := by
  induction h with
  | @nil k w =>
    intro b hb
    obtain rfl := Nat.le_zero.mp hb
    exact ⟨w, .nil, .nil⟩
  | @cons k w w₁ w₂ t ts first full rest ih =>
    intro b hb
    cases b with
    | zero => exact ⟨w, .nil, .cons first full rest⟩
    | succ b =>
      obtain ⟨w₃, htake, hdrop⟩ := ih b (Nat.le_of_succ_le_succ hb)
      refine ⟨w₃, .cons first full htake, ?_⟩
      rwa [Nat.add_assoc, Nat.add_comm 1] at hdrop

theorem loadsIn_append (L L' : List Event) : loadsIn (L ++ L') = loadsIn L ++ loadsIn L' :=
  List.filterMap_append

theorem loadsIn_transferLog (x : Mover) (t : Transfer) :
    loadsIn (transferLog x.kind iov k t) = [(ptrAddr iov k).toNat, (lenAddr iov k).toNat] := by
  have hkind := x.kind_ne_load
  unfold transferLog loadsIn
  cases hx : x.kind with
  | load => exact absurd hx hkind
  | store => rfl
  | memcpy => rfl
  | fread => rfl
  | fwrite => rfl

/-- The words of the descriptors from `k` on. -/
def tableWords (iov : UInt32) (k n : Nat) : List Nat :=
  (List.range' k n).map fun j => iov.toNat + 4 * j

theorem tableWords_append (iov : UInt32) (k m n : Nat) :
    tableWords iov k m ++ tableWords iov (k + m) n = tableWords iov k (m + n) := by
  rw [tableWords, tableWords, tableWords, ← List.map_append, List.range'_append_1]

theorem tableWords_one (iov : UInt32) (k : Nat) :
    tableWords iov (2 * k) 1 = [iov.toNat + 8 * k] := by
  rw [tableWords, List.range'_one, List.map_singleton]
  congr 1
  omega

theorem tableWords_two (iov : UInt32) (k : Nat) :
    tableWords iov (2 * k) 2 = [iov.toNat + 8 * k, iov.toNat + 8 * k + 4] := by
  rw [← tableWords_append iov (2 * k) 1 1, tableWords_one, tableWords, List.range'_one,
    List.map_singleton, List.singleton_append]
  congr 2
  omega

/-- Below 2^32 the words that are loaded are the table's. -/
theorem loadsIn_transfersLog (x : Mover) (hroom : k + ts.length ≤ tableRoom iov) :
    loadsIn (transfersLog x.kind iov k ts) = tableWords iov (2 * k) (2 * ts.length) := by
  induction ts generalizing k with
  | nil => rfl
  | cons t ts ih =>
    rw [List.length_cons] at hroom
    obtain ⟨hptr, hlen⟩ := addrs_below (show k < tableRoom iov by omega)
    have hsum : 2 + 2 * ts.length = 2 * (t :: ts).length := by
      rw [List.length_cons]
      omega
    rw [transfersLog, loadsIn_append, loadsIn_transferLog, ih (by omega), hptr, hlen,
      ← tableWords_two]
    rw [show 2 * (k + 1) = 2 * k + 2 by omega, tableWords_append, hsum]

/-- Behind the descriptors that fit below 2^32, the next one can only have both its words inside
    the memory, or begin at 2^32, where the table ends with a memory of 2^32 bytes. -/
theorem ends_with_memory (hts : Transfers x iov 0 w ts w') (hroom : ts.length = tableRoom iov)
    (hnext : iov.toNat + 8 * ts.length = 2 ^ 32 ∨
      ((ptrAddr iov ts.length).toNat + 4 ≤ w.instanceMemory.size ∧
        (lenAddr iov ts.length).toNat + 4 ≤ w.instanceMemory.size)) :
    w.instanceMemory.size = 2 ^ 32 ∧ 4 ∣ iov.toNat := by
  have hsize := w.instanceMemory.size_le
  have hiov := iov.toNat_lt
  have hinside : 0 < ts.length → iov.toNat + 8 * ts.length ≤ w.instanceMemory.size := by
    intro hpos
    have hin := hts.inside (by omega) hpos
    rwa [Nat.zero_add] at hin
  rw [ptrAddr_toNat, lenAddr_toNat] at hnext
  unfold tableRoom at hroom
  have hend : iov.toNat + 8 * ts.length = 2 ^ 32 ∨ iov.toNat + 8 * ts.length + 4 = 2 ^ 32 := by
    omega
  refine ⟨?_, by omega⟩
  rcases hend with hend | hend
  · have hpos : 0 < ts.length := by omega
    have hin := hinside hpos
    omega
  · omega

/-- A descriptor whose words fit has both of them loaded first. -/
theorem transferLoop_words (hptr : (ptrAddr iov k).toNat + 4 ≤ w.instanceMemory.size)
    (hlen : (lenAddr iov k).toNat + 4 ≤ w.instanceMemory.size) (num : UInt32) :
    ∃ words, loadsIn (transferLoop x short iov pnum (n + 1) k num w).2.2 =
      [(ptrAddr iov k).toNat, (lenAddr iov k).toNat] ++ words := by
  have hrun : transferLoop x short iov pnum (n + 1) k num w = _ :=
    Run.bind_after (wasmI32Load_pass hptr) (Run.bind_after (wasmI32Load_pass hlen) rfl)
  rw [hrun, Run.after_log, Run.after_log, loadsIn_append, loadsIn_append]
  exact ⟨_, rfl⟩

/-- Where the table runs past the end, its words are followed by one at address 0. -/
theorem transferLoop_wraps (h : RunsPastEnd x iov n w) :
    ¬ TableUnwrapped x.kind iov n w (transferLoop x short iov pnum n 0 0 w) := by
  obtain ⟨hsize, hdvd, hlt, ts, w', hts, hlength, hmoved⟩ := h
  rintro ⟨⟨words, hwords, -⟩, -⟩
  obtain ⟨left, rfl⟩ : ∃ left, n = ts.length + (left + 1) := ⟨n - ts.length - 1, by omega⟩
  obtain ⟨num', -, hrun⟩ := @transferLoop_full x short iov pnum 0 w w' ts hts (left + 1) 0
    (by rw [show (0 : UInt32).toNat = 0 from rfl]; omega)
  have hroom := hlength
  have hiov := iov.toNat_lt
  unfold tableRoom at hroom
  rw [Nat.zero_add] at hrun
  have hptr := ptrAddr_toNat iov ts.length
  have hlen := lenAddr_toNat iov ts.length
  obtain ⟨more, hmore⟩ := @transferLoop_words x short iov pnum ts.length left w'
    (by rw [hts.size]; omega) (by rw [hts.size]; omega) num'
  have hloads : loadsIn (transfersLog x.kind iov 0 ts) = tableWords iov 0 (2 * ts.length) :=
    loadsIn_transfersLog x (by omega)
  have hfirst : (tableWords iov 0 (2 * ts.length)).length = 2 * ts.length := by
    rw [tableWords, List.length_map, List.length_range']
  rw [hrun, Run.after_log, loadsIn_append, hloads, hmore] at hwords
  -- one of the two words behind the table's is at address 0
  have hat : ∀ i a, (tableWords iov 0 (2 * ts.length) ++
      ([(ptrAddr iov ts.length).toNat, (lenAddr iov ts.length).toNat] ++ more))[i]? = some a →
      a = iov.toNat + 4 * i := by
    intro i a hi
    rw [hwords, List.getElem?_map] at hi
    obtain ⟨j, hj, rfl⟩ := Option.map_eq_some_iff.mp hi
    obtain ⟨-, rfl⟩ := List.getElem?_eq_some_iff.mp hj
    rw [List.getElem_range]
  have hword := hat (2 * ts.length) (ptrAddr iov ts.length).toNat (by
    rw [List.getElem?_append_right (by omega), hfirst, Nat.sub_self]
    rfl)
  have hword' := hat (2 * ts.length + 1) (lenAddr iov ts.length).toNat (by
    rw [List.getElem?_append_right (by omega), hfirst, Nat.add_sub_cancel_left]
    rfl)
  omega

theorem storeNum_loads (pnum num status : UInt32) (w : Wasi) :
    loadsIn (storeNum pnum num status w).2.2 = [] := by
  by_cases h : pnum.toNat + 4 ≤ w.instanceMemory.size
  · rw [storeNum_pass h]
    rfl
  · rw [storeNum_fail (Nat.lt_of_not_le h)]
    rfl

theorem movedBytes_take_le (ts : List Transfer) (b : Nat) :
    movedBytes (ts.take b) ≤ movedBytes ts := by
  calc movedBytes (ts.take b)
      ≤ movedBytes (ts.take b) + movedBytes (ts.drop b) := Nat.le_add_right ..
    _ = movedBytes (ts.take b ++ ts.drop b) := (movedBytes_append _ _).symm
    _ = movedBytes ts := by rw [List.take_append_drop]

/-- Descriptor `k` lies below 2^32, or it crosses the end of a memory of `size` bytes. -/
def StaysBelow (size : Nat) (iov : UInt32) (k : Nat) : Prop :=
  k < tableRoom iov ∨ k = tableRoom iov ∧ iov.toNat + 8 * k ≠ 2 ^ 32 ∧
    ¬ ((ptrAddr iov k).toNat + 4 ≤ size ∧ (lenAddr iov k).toNat + 4 ≤ size)

/-- A run that does not go past the end has moved descriptors below 2^32 only, and the next one
    is no other. -/
theorem stays_below (h : ¬ RunsPastEnd x iov n w) (hts : Transfers x iov 0 w ts w')
    (hle : ts.length ≤ n) (hmoved : movedBytes ts < 2 ^ 32) :
    ts.length ≤ tableRoom iov ∧
      (ts.length < n → StaysBelow w.instanceMemory.size iov ts.length) := by
  have hbelow : ts.length ≤ tableRoom iov := by
    by_contra hover
    obtain ⟨w₁, htake, hdrop⟩ := hts.split (tableRoom iov) (by omega)
    have hlength : (ts.take (tableRoom iov)).length = tableRoom iov :=
      List.length_take_of_le (by omega)
    rw [Nat.zero_add] at hdrop
    cases hrest : ts.drop (tableRoom iov) with
    | nil =>
      have hnil := List.drop_eq_nil_iff.mp hrest
      omega
    | cons t rest =>
      rw [hrest] at hdrop
      cases hdrop with
      | cons first full rest =>
        have hptr := first.ptrFits
        have hlen := first.lenFits
        rw [htake.size] at hptr hlen
        obtain ⟨hsize, hdvd⟩ := ends_with_memory htake hlength
          (Or.inr (by rw [hlength]; exact ⟨hptr, hlen⟩))
        have hbytes := movedBytes_take_le ts (tableRoom iov)
        exact h ⟨hsize, hdvd, by omega, _, w₁, htake, hlength, by omega⟩
  refine ⟨hbelow, fun hlt => ?_⟩
  by_contra hcross
  have hroom : ts.length = tableRoom iov := by
    unfold StaysBelow at hcross
    omega
  have hends := ends_with_memory hts hroom (by unfold StaysBelow at hcross; omega)
  exact h ⟨hends.1, hends.2, by omega, ts, w', hts, hroom, hmoved⟩

/-- The transfer of such a descriptor is one below 2^32. -/
theorem StaysBelow.moves (h : StaysBelow w.instanceMemory.size iov k)
    (last : Moves x iov k w t w') : k < tableRoom iov := by
  rcases h with hlt | ⟨-, -, houtside⟩
  · exact hlt
  · exact absurd ⟨last.ptrFits, last.lenFits⟩ houtside

/-- The words loaded at descriptor `k`, where the loop is stuck below 2^32. -/
theorem stuck_loads {L : List Event} (h : Stuck iov k w.instanceMemory L)
    (hbelow : StaysBelow w.instanceMemory.size iov k) :
    ∃ extra, loadsIn L = tableWords iov (2 * k) extra ∧
      (0 < extra → iov.toNat + 4 * (2 * k + extra) ≤ w.instanceMemory.size) := by
  have hiov := iov.toNat_lt
  have hptr := ptrAddr_toNat iov k
  have hlen := lenAddr_toNat iov k
  unfold StaysBelow tableRoom at hbelow
  cases h with
  | ptrWord outside => exact ⟨0, rfl, fun hpos => absurd hpos (Nat.lt_irrefl 0)⟩
  | lenWord ptrFits outside =>
    have hexact : (ptrAddr iov k).toNat = iov.toNat + 8 * k := by omega
    refine ⟨1, ?_, fun _ => by omega⟩
    rw [tableWords_one, ← hexact]
    rfl
  | buffer ptrFits lenFits outside =>
    have hexact : (ptrAddr iov k).toNat = iov.toNat + 8 * k ∧
        (lenAddr iov k).toNat = iov.toNat + 8 * k + 4 := by omega
    refine ⟨2, ?_, fun _ => by omega⟩
    rw [tableWords_two, ← hexact.2, ← hexact.1]
    rfl

theorem requestedIn_append (kind : AccessKind) (L L' : List Event) :
    requestedIn kind (L ++ L') = requestedIn kind L + requestedIn kind L' := by
  rw [requestedIn, List.filterMap_append, List.sum_append]
  rfl

theorem transferLog_requested (x : Mover) (iov : UInt32) (k : Nat) (t : Transfer) :
    t.len.toNat ≤ requestedIn x.kind (transferLog x.kind iov k t) := by
  have hlast : requestedIn x.kind [.access x.kind t.ptr.toNat t.len.toNat] = t.len.toNat := by
    simp [requestedIn]
  have hsplit : transferLog x.kind iov k t = (transferLog x.kind iov k t).take 5 ++
      [.access x.kind t.ptr.toNat t.len.toNat] := rfl
  rw [hsplit, requestedIn_append, hlast]
  exact Nat.le_add_left ..

/-- Full transfers were asked for at least the bytes they moved. -/
theorem movedBytes_le_requested (h : Transfers x iov k w ts w') :
    movedBytes ts ≤ requestedIn x.kind (transfersLog x.kind iov k ts) := by
  induction h with
  | nil => exact Nat.zero_le _
  | @cons k w w₁ w₂ t ts first full rest ih =>
    have hfirst := transferLog_requested x iov k t
    rw [movedBytes_cons, transfersLog, requestedIn_append]
    omega

theorem storeNum_transferred (pnum num status : UInt32) (w w' : Wasi) :
    transferred w (storeNum pnum num status w').2.1 = transferred w w' := by
  by_cases h : pnum.toNat + 4 ≤ w'.instanceMemory.size
  · rw [storeNum_pass h]
    rfl
  · rw [storeNum_fail (Nat.lt_of_not_le h)]

/-- Two parts of a log that read the first words of the table, one behind the other. -/
theorem words_of_table {log log' : List Event} {n extra size : Nat}
    (h : loadsIn log = tableWords iov 0 n) (h' : loadsIn log' = tableWords iov n extra)
    (hin : 0 < n → iov.toNat + 4 * n ≤ size)
    (hin' : 0 < extra → iov.toNat + 4 * (n + extra) ≤ size) :
    ∃ words, loadsIn (log ++ log') = (List.range words).map (fun j => iov.toNat + 4 * j) ∧
      ∀ j < words, iov.toNat + 4 * j + 4 ≤ size := by
  refine ⟨n + extra, ?_, fun j hj => ?_⟩
  · have happend := tableWords_append iov 0 n extra
    rw [Nat.zero_add] at happend
    rw [loadsIn_append, h, h', happend, tableWords, ← List.range_eq_range']
  · rcases Nat.eq_zero_or_pos extra with hzero | hpos
    · have hfits := hin (by omega)
      omega
    · have hfits := hin' hpos
      omega

/-- The words such a descriptor is read from, inside the memory. -/
theorem StaysBelow.loads (h : StaysBelow w.instanceMemory.size iov k)
    (last : Moves x iov k w t w') :
    loadsIn (transferLog x.kind iov k t) = tableWords iov (2 * k) 2 ∧
      iov.toNat + 4 * (2 * k + 2) ≤ w.instanceMemory.size := by
  have hlen := last.lenFits
  obtain ⟨hptrEq, hlenEq⟩ := addrs_below (h.moves last)
  rw [hlenEq] at hlen
  refine ⟨?_, by omega⟩
  rw [loadsIn_transferLog, hptrEq, hlenEq, tableWords_two]

/-- Where the table does not run past the end, no address of it wraps. -/
theorem transferLoop_unwrapped (hx : Exact x) (h : ¬ RunsPastEnd x iov n w) :
    TableUnwrapped x.kind iov n w (transferLoop x short iov pnum n 0 0 w) := by
  obtain ⟨ts, w', left, num', r, hts, hn, hnum, hend, hrun⟩ :=
    @transferLoop_ends x short iov pnum n 0 0 w
  have hmoved : movedBytes ts < 2 ^ 32 := by
    have hlt := num'.toNat_lt
    omega
  obtain ⟨hroom, hnext⟩ := stays_below h hts (by omega) hmoved
  have hloads : loadsIn (transfersLog x.kind iov 0 ts) = tableWords iov 0 (2 * ts.length) :=
    loadsIn_transfersLog x (by omega)
  have hinside : 0 < ts.length → iov.toNat + 8 * ts.length ≤ w.instanceMemory.size := by
    intro hpos
    have hin := hts.inside (by omega) hpos
    rwa [Nat.zero_add] at hin
  rw [Nat.zero_add] at hend
  rw [← hts.size] at hnext
  rw [hrun]
  -- the words of the descriptors moved in full, and those of the one behind them
  have hbehind : 0 < 2 * ts.length → iov.toNat + 4 * (2 * ts.length) ≤ w.instanceMemory.size := by
    intro hpos
    have hin := hinside (by omega)
    omega
  cases hend with
  | finished =>
    have hnone : 0 < 0 → iov.toNat + 4 * (2 * ts.length + 0) ≤ w.instanceMemory.size :=
      fun hpos => absurd hpos (Nat.lt_irrefl 0)
    refine ⟨words_of_table hloads (storeNum_loads ..) hbehind hnone, ?_⟩
    intro hn' hover hok
    have hin := hinside (by omega)
    omega
  | stuck at_k =>
    obtain ⟨extra, hr, hextra⟩ := stuck_loads at_k (hnext (by omega))
    rw [hts.size] at hextra
    refine ⟨words_of_table hloads hr hbehind hextra, fun _ _ hok => ?_⟩
    cases hok
  | overflow last exceeds =>
    obtain ⟨hr, hin⟩ := (hnext (by omega)).loads last
    rw [hts.size] at hin
    refine ⟨words_of_table hloads hr hbehind fun _ => hin, fun _ _ hok => ?_⟩
    have hinval : (Except.ok wasiInvalError : Except Trap UInt32) = .ok wasiSuccess := hok
    exact absurd hinval (by decide)
  | @short left t w'' last notFull fits =>
    obtain ⟨hr, hin⟩ := (hnext (by omega)).loads last
    rw [hts.size] at hin
    refine ⟨words_of_table hloads ?_ hbehind fun _ => hin, fun _ _ _ => ?_⟩
    · rw [Run.after_log, loadsIn_append, storeNum_loads, List.append_nil]
      exact hr
    · -- the last transfer moved less than it was asked for
      have hfull := movedBytes_le_requested hts
      have hasked := transferLog_requested x iov ts.length t
      have hle := last.moved_le
      have htotal := chain_transferred hx (hts.chain_concat (by rwa [Nat.zero_add]))
      rw [movedBytes_append, movedBytes_cons, movedBytes_nil, Nat.add_zero] at htotal
      rw [Run.after_state, Run.after_state, storeNum_transferred, htotal, Run.after_log,
        Run.after_log, requestedIn_append, requestedIn_append]
      omega

theorem transferLoop_unwrapped_iff (hx : Exact x) :
    TableUnwrapped x.kind iov n w (transferLoop x short iov pnum n 0 0 w) ↔
      ¬ RunsPastEnd x iov n w :=
  ⟨fun hunwrapped hruns => transferLoop_wraps hruns hunwrapped, transferLoop_unwrapped hx⟩

theorem badf_unwrapped (kind : AccessKind) :
    TableUnwrapped kind iov n w (.ok wasiBadfError, w, []) := by
  refine ⟨⟨0, rfl, fun j hj => absurd hj (Nat.not_lt_zero j)⟩, fun _ _ hok => ?_⟩
  have hbadf : (Except.ok wasiBadfError : Except Trap UInt32) = .ok wasiSuccess := hok
  exact absurd hbadf (by decide)

/-- The descriptors of `fd_write` and `fd_read` are read without wraparound exactly where, for a
    stream they accept, the table does not run past the end of a memory of 2^32 bytes. -/
theorem table_unwrapped_iff (iov iovcnt pnum : UInt32) (w : Wasi) :
    (∀ fd, TableUnwrapped .fwrite iov iovcnt.toNat w (fdWrite fd iov iovcnt pnum w) ↔
      (fd = 1 ∨ fd = 2 → ¬ RunsPastEnd (writer fd) iov iovcnt.toNat w)) ∧
    (∀ fd, TableUnwrapped .fread iov iovcnt.toNat w (fdRead fd iov iovcnt pnum w) ↔
      (fd = 0 → ¬ RunsPastEnd reader iov iovcnt.toNat w)) := by
  constructor
  · intro fd
    by_cases hfd : fd = 1 ∨ fd = 2
    · rw [fdWrite_eq hfd]
      have hiff := @transferLoop_unwrapped_iff (writer fd) wasiPermError iov pnum iovcnt.toNat w
        (writer_exact hfd)
      exact hiff.trans ⟨fun hpast _ => hpast, fun hpast => hpast hfd⟩
    · rw [fdWrite_badf hfd]
      exact iff_of_true (badf_unwrapped .fwrite) fun hfd' => absurd hfd' hfd
  · intro fd
    by_cases hfd : fd = 0
    · rw [hfd, fdRead_eq]
      have hiff := @transferLoop_unwrapped_iff reader wasiSuccess iov pnum iovcnt.toNat w
        reader_exact
      exact hiff.trans ⟨fun hpast _ => hpast, fun hpast => hpast rfl⟩
    · rw [fdRead_badf hfd]
      exact iff_of_true (badf_unwrapped .fread) fun hfd' => absurd hfd' hfd

/-- Two empty descriptors from the last 8 bytes of a memory of 2^32 zeros: the second is read at
    address 0, and the call succeeds. -/
theorem second_descriptor_wraps :
    let w := hostOf (.zeros 4294967296 (by decide))
    (fdWrite 1 4294967288 2 16 w).1 = .ok wasiSuccess ∧
    loadsIn (fdWrite 1 4294967288 2 16 w).2.2 = [4294967288, 4294967292, 0, 4] ∧
    ¬ TableUnwrapped .fwrite 4294967288 2 w (fdWrite 1 4294967288 2 16 w) := by
  intro w
  have hloads : loadsIn (fdWrite 1 4294967288 2 16 w).2.2 = [4294967288, 4294967292, 0, 4] := by
    decide +kernel
  refine ⟨by decide +kernel, hloads, ?_⟩
  rintro ⟨⟨words, hwords, -⟩, -⟩
  rw [hloads] at hwords
  have hlength := congrArg List.length hwords
  rw [List.length_map, List.length_range] at hlength
  rw [← hlength] at hwords
  exact absurd hwords (by decide)

end RlboxWasm2c.MinWasi

import Mathlib.Data.Fintype.Card
import RlboxWasm2c.Ledger

/- Whether the slots of callbacks are used again.

   `callback_free_list` is there for that, and `new_callback_slot` prefers it; but
   `free_callback_slot`, which would fill it, has no caller. So every registration takes a
   row of its own, and the table holds the callbacks registered so far, not those live at
   one time (`Counted`). `slots_recycled_iff` says for which runs these come to the same. -/
namespace RlboxWasm2c
open Runs

/-- A runtime with memory for every table up to its maximal size, which it never changes. -/
structure GrowFuncrefTable.Total (grow : GrowFuncrefTable) : Prop where
  appends : grow.Appends
  succeeds : ∀ t init, t.size < t.maxSize → (grow t 1 init).1 ≠ 2 ^ 32 - 1
  maxSize : ∀ t delta init, (grow t delta init).2.maxSize = t.maxSize

theorem growWithinMax_total : growWithinMax.Total where
  appends := growWithinMax_appends
  succeeds := by
    intro t init hlt
    have hmax := t.maxSize_lt
    have hfits : t.data.length + 1 ≤ t.maxSize := hlt
    unfold growWithinMax
    rw [dif_pos hfits]
    change t.size ≠ 2 ^ 32 - 1
    omega
  maxSize := by
    intro t delta init
    unfold growWithinMax
    split <;> rfl

/-! ## Runs with a record -/

namespace Table

def rows (w : Table) : Nat := w.state.sandboxCallbackTable.size

def maxRows (w : Table) : Nat := w.state.sandboxCallbackTable.maxSize

end Table

/-- The table of a sandbox with the greatest number of callbacks live at one time so far. -/
structure History where
  table : Table
  mostLive : Nat

def History.fresh (wasm2cInstance : HostPtr) (t : FuncrefTable) : History :=
  ⟨.fresh wasm2cInstance t, 0⟩

def CallbackOp.record (grow : GrowFuncrefTable) (op : CallbackOp) (h : History) : History :=
  ⟨op.apply grow h.table, max h.mostLive (op.apply grow h.table).ledger.live.length⟩

def historyStep (grow : GrowFuncrefTable) (op : CallbackOp) (h : History) : Option History :=
  some (op.record grow h)

def CallbackOp.byHost : CallbackOp → Bool
  | .guestGrow _ _ => false
  | _ => true

/-- The host keeps the caller's side, and the guest does not grow the table. -/
def HostOnly (h : History) (op : CallbackOp) : Prop := Admits h.table op ∧ op.byHost = true

instance (h : History) (op : CallbackOp) : Decidable (HostOnly h op) :=
  inferInstanceAs (Decidable (_ ∧ _))

/-- The function pointers converted so far. -/
def Ledger.pointers (g : Ledger) : List HostPtr := (g.converted.map Prod.fst).dedup

/-- The table is within the bound, and a callback can be registered as long as the bound
    with those live now leaves an index and a row. -/
structure Recycled (grow : GrowFuncrefTable) (n₀ : Nat) (h : History) : Prop where
  rows : h.table.rows ≤ n₀ + h.mostLive + h.table.ledger.pointers.length
  registers : h.table.ledger.live.length < maxCallbacks →
    n₀ + h.table.ledger.live.length + h.table.ledger.pointers.length < h.table.maxRows →
    ∀ f key callback, ∃ slot,
      (implRegisterCallback grow f key callback h.table.state).1 = .ok slot

/-- No slot is lost for good by the operation: no callback is registered after one was
    undone, and once one is undone the table is not full. -/
def LosesNoSlot (h : History) : CallbackOp → Prop
  | .register _ _ _ => h.table.ledger.retired = []
  | .unregister _ => h.table.rows < h.table.maxRows
  | .convert _ p => h.table.ledger.retired = [] ∨ (h.table.state.internalCallbacks p).isSome ∨
    h.table.rows + 1 < h.table.maxRows
  | .guestGrow _ _ => True

instance (h : History) : DecidablePred (LosesNoSlot h)
  | .register _ _ _ => inferInstanceAs (Decidable (h.table.ledger.retired = []))
  | .unregister _ => inferInstanceAs (Decidable (_ < _))
  | .convert _ _ => inferInstanceAs (Decidable (_ ∨ _ ∨ _))
  | .guestGrow _ _ => .isTrue trivial

/-! ## Counting callbacks and pointers -/

section counting
variable {n₀ : Nat} {w : Table}

/-- The indices taken are as many as the live callbacks. -/
theorem Consistent.card_taken (h : Consistent n₀ w) :
    (Finset.univ.filter fun i => w.state.callbacks i ≠ nullptr).card = w.ledger.live.length := by
  have hnodup : w.ledger.live.Nodup := (List.nodup_append'.mp h.handed_nodup).1.of_map
  rw [← List.toFinset_card_of_nodup hnodup]
  apply Nat.le_antisymm
  -- from the indices taken to the registrations; keys differ between indices
  · have hnonempty : Nonempty Registration := ⟨⟨nullptr, nullptr, ⟨none, []⟩, 0⟩⟩
    choose! r hr using h.index_live
    refine Finset.card_le_card_of_injOn r ?_ ?_
    · intro i hi
      exact List.mem_toFinset.mpr (hr i (by simpa using hi)).1
    · intro i hi j hj heq
      have hi := hr i (by simpa using hi)
      have hj := hr j (by simpa using hj)
      rw [← heq] at hj
      apply h.keys_inj i j (hi.2.key.trans hj.2.key.symm)
      rw [hi.2.key]
      exact (h.live_ok _ hi.1).1
  -- and back; rows differ between registrations
  · choose! i hi using h.live_held
    refine Finset.card_le_card_of_injOn i ?_ ?_
    · intro r hr
      have hr := List.mem_toFinset.mp hr
      refine Finset.mem_coe.mpr (Finset.mem_filter.mpr ⟨Finset.mem_univ _, ?_⟩)
      rw [(hi r hr).callback]
      exact (h.live_ok r hr).2
    · intro r hr r' hr' heq
      have hr := List.mem_toFinset.mp hr
      have hr' := List.mem_toFinset.mp hr'
      have hslot := (hi r hr).slot
      rw [heq, (hi r' hr').slot] at hslot
      exact h.live_slot_inj hr hr' hslot.symm

theorem Consistent.live_le (h : Consistent n₀ w) : w.ledger.live.length ≤ maxCallbacks := by
  rw [← h.card_taken]
  exact (Finset.card_le_univ _).trans (Fintype.card_fin _).le

/-- An index is free exactly as long as fewer callbacks are live than there are indices. -/
theorem Consistent.exists_free_iff (h : Consistent n₀ w) :
    (∃ i, w.state.callbacks i = nullptr) ↔ w.ledger.live.length < maxCallbacks := by
  rw [← h.card_taken]
  constructor
  · rintro ⟨i, hi⟩
    have hproper : (Finset.univ.filter fun i => w.state.callbacks i ≠ nullptr) ⊂ Finset.univ :=
      Finset.filter_ssubset.mpr ⟨i, Finset.mem_univ _, not_not_intro hi⟩
    exact (Finset.card_lt_card hproper).trans_le (Fintype.card_fin _).le
  · intro hlt
    by_contra hnone
    push Not at hnone
    rw [Finset.filter_true_of_mem fun i _ => hnone i, Finset.card_univ, Fintype.card_fin] at hlt
    exact Nat.lt_irrefl _ hlt

/-- A pointer is converted once. -/
theorem Consistent.pointers_length (h : Consistent n₀ w) :
    w.ledger.pointers.length = w.ledger.converted.length := by
  have hnodup : w.ledger.converted.Nodup :=
    (List.nodup_append'.mp (List.nodup_append'.mp h.handed_nodup).2.1).2.1.of_map
  have hpointers : (w.ledger.converted.map Prod.fst).Nodup := by
    refine hnodup.map_on ?_
    rintro ⟨p, slot⟩ hp ⟨q, slot'⟩ hq (rfl : p = q)
    have hslot := (h.internal p slot).mpr hp
    rw [(h.internal p slot').mpr hq] at hslot
    cases hslot
    rfl
  unfold Ledger.pointers
  rw [hpointers.dedup, List.length_map]

end counting

/-! ## What an operation takes -/

section operations
variable {grow : GrowFuncrefTable} {n₀ : Nat} {w : Table}

/-- A slot is a new row, as long as there is one. -/
theorem newCallbackSlot_total (hgrow : grow.Total) {s : CallbackState}
    (hfree : s.callbackFreeList = []) (hpos : 0 < s.sandboxCallbackTable.size) :
    (s.sandboxCallbackTable.size < s.sandboxCallbackTable.maxSize ∧
      ∃ t : FuncrefTable, t.size = s.sandboxCallbackTable.size + 1 ∧
        t.maxSize = s.sandboxCallbackTable.maxSize ∧
        newCallbackSlot grow s =
          (.ok s.sandboxCallbackTable.size, { s with sandboxCallbackTable := t })) ∨
    (s.sandboxCallbackTable.size = s.sandboxCallbackTable.maxSize ∧
      newCallbackSlot grow s = (.error .noEmptyRow, s)) := by
  have hle : s.sandboxCallbackTable.size ≤ s.sandboxCallbackTable.maxSize :=
    s.sandboxCallbackTable.size_le
  unfold newCallbackSlot
  rw [hfree]
  simp only [List.getLast?_nil]
  by_cases hlt : s.sandboxCallbackTable.size < s.sandboxCallbackTable.maxSize
  · left
    rw [if_pos hlt]
    have hsucceeds := hgrow.succeeds s.sandboxCallbackTable FuncRef.zero hlt
    rcases hgrow.appends s.sandboxCallbackTable 1 FuncRef.zero with hfail | ⟨hret, hdata⟩
    · exact absurd (congrArg Prod.fst hfail) hsucceeds
    · refine ⟨hlt, (grow s.sandboxCallbackTable 1 FuncRef.zero).2, ?_, hgrow.maxSize .., ?_⟩
      · rw [FuncrefTable.size, hdata, List.length_append]
        rfl
      · rw [if_pos ⟨by omega, hsucceeds⟩, hret]
  · right
    rw [if_neg hlt]
    exact ⟨by omega, rfl⟩

/-- A registration takes an index and a row, if both are left, and else changes nothing. -/
theorem register_counts (hgrow : grow.Total) (h : Consistent n₀ w) (hpos : 0 < w.rows)
    (f : FuncType) (key callback : HostPtr) :
    (w.ledger.live.length < maxCallbacks ∧ w.rows < w.maxRows ∧
      (∃ slot, (implRegisterCallback grow f key callback w.state).1 = .ok slot) ∧
      ((CallbackOp.register f key callback).apply grow w).rows = w.rows + 1 ∧
      ((CallbackOp.register f key callback).apply grow w).maxRows = w.maxRows ∧
      ∃ r, ((CallbackOp.register f key callback).apply grow w).ledger = w.ledger.register r) ∨
    ((w.ledger.live.length = maxCallbacks ∨ w.rows = w.maxRows) ∧
      (∃ e, (implRegisterCallback grow f key callback w.state).1 = .error e) ∧
      (CallbackOp.register f key callback).apply grow w = w) := by
  unfold CallbackOp.apply implRegisterCallback
  cases hfind : (List.finRange maxCallbacks).find? fun i => w.state.callbacks i = nullptr with
  | none =>
    right
    refine ⟨.inl ?_, ⟨_, rfl⟩, rfl⟩
    have hnone : ¬∃ i, w.state.callbacks i = nullptr := by
      rintro ⟨i, hi⟩
      have := List.find?_eq_none.mp hfind i (List.mem_finRange i)
      exact this (decide_eq_true hi)
    rw [h.exists_free_iff] at hnone
    have := h.live_le
    omega
  | some i =>
    have hlive := h.exists_free_iff.mp ⟨i, by simpa using List.find?_some hfind⟩
    rcases newCallbackSlot_total hgrow h.freeList hpos with
      ⟨hlt, t, hsize, hmax, hok⟩ | ⟨hfull, herror⟩
    · left
      simp only [hok]
      refine ⟨hlive, hlt, ⟨_, rfl⟩, ?_, hmax, _, rfl⟩
      exact (FuncrefTable.set_size ..).trans hsize
    · right
      simp only [herror]
      exact ⟨.inr hfull, ⟨_, rfl⟩, trivial⟩

/-- A conversion takes a row for a pointer not met before, if one is left, and else changes
    nothing. -/
theorem convert_counts (hgrow : grow.Total) (h : Consistent n₀ w) (hpos : 0 < w.rows)
    (f : FuncType) (p : HostPtr) :
    (w.state.internalCallbacks p = none ∧ w.rows < w.maxRows ∧
      ((CallbackOp.convert f p).apply grow w).rows = w.rows + 1 ∧
      ((CallbackOp.convert f p).apply grow w).maxRows = w.maxRows ∧
      ∃ slot, ((CallbackOp.convert f p).apply grow w).ledger =
        { w.ledger with converted := (p, slot) :: w.ledger.converted }) ∨
    (((w.state.internalCallbacks p).isSome ∨ w.rows = w.maxRows) ∧
      (CallbackOp.convert f p).apply grow w = w) := by
  cases hfind : w.state.internalCallbacks p with
  -- the pointer has its row, and the ledger its entry
  | some slot =>
    have hok : implGetSandboxedPointer grow f p w.state = (.ok slot, w.state) := by
      simp only [implGetSandboxedPointer, hfind]
    right
    simp only [CallbackOp.apply, hok]
    refine ⟨.inl rfl, ?_⟩
    rw [Ledger.convert, if_pos ((h.internal p slot).mp hfind)]
  | none =>
    have hnew : ∀ slot, (p, slot) ∉ w.ledger.converted := by
      intro slot hmem
      rw [(h.internal p slot).mpr hmem] at hfind
      cases hfind
    rcases newCallbackSlot_total hgrow h.freeList hpos with
      ⟨hlt, t, hsize, hmax, hslot⟩ | ⟨hfull, hslot⟩
    · have hok : implGetSandboxedPointer grow f p w.state =
          (.ok w.rows, w.state.convertTo (t.set w.rows (pointerRef w.state f p)) p) := by
        simp only [implGetSandboxedPointer, hfind, hslot]
        rfl
      left
      simp only [CallbackOp.apply, hok]
      exact ⟨trivial, hlt, (FuncrefTable.set_size ..).trans hsize, hmax, w.rows,
        if_neg (hnew _)⟩
    · have herror : implGetSandboxedPointer grow f p w.state = (.error .noEmptyRow, w.state) := by
        simp only [implGetSandboxedPointer, hfind, hslot]
      right
      simp only [CallbackOp.apply, herror]
      exact ⟨.inr hfull, trivial⟩

/-- Undoing a registration takes no row and gives none back. -/
theorem unregister_counts (h : Consistent n₀ w) {key : HostPtr}
    (hadmits : Admits w (.unregister key)) :
    ((CallbackOp.unregister key).apply grow w).rows = w.rows ∧
    ((CallbackOp.unregister key).apply grow w).maxRows = w.maxRows ∧
    ((CallbackOp.unregister key).apply grow w).ledger = w.ledger.unregister key ∧
    w.ledger.retired.length < (w.ledger.unregister key).retired.length := by
  obtain ⟨r, hr, rfl⟩ := hadmits
  obtain ⟨i, hi⟩ := h.live_held r hr
  unfold CallbackOp.apply
  simp only [h.unregister_held hr hi]
  refine ⟨FuncrefTable.set_size .., rfl, trivial, ?_⟩
  have hmem : r ∈ w.ledger.live.filter fun r' => r'.key = r.key :=
    List.mem_filter.mpr ⟨hr, decide_eq_true rfl⟩
  have hpos := List.length_pos_of_mem hmem
  simp only [Ledger.unregister, List.length_append]
  omega

end operations

/-! ## The rows taken -/

/-- The rows past the module's own are those of the callbacks registered so far, live or
    not, and of the pointers converted. -/
structure Counted (n₀ : Nat) (h : History) : Prop where
  consistent : Consistent n₀ h.table
  rows : h.table.rows = n₀ + (h.table.ledger.live.length + h.table.ledger.retired.length) +
    h.table.ledger.converted.length
  live_le : h.table.ledger.live.length ≤ h.mostLive
  mostLive_le : h.mostLive ≤ h.table.ledger.live.length + h.table.ledger.retired.length
  mostLive_max : h.mostLive ≤ maxCallbacks

section counted
variable {grow : GrowFuncrefTable} {n₀ : Nat} {h : History}

theorem fresh_counted (wasm2cInstance : HostPtr) (t : FuncrefTable) :
    Counted t.size (.fresh wasm2cInstance t) where
  consistent := fresh_consistent wasm2cInstance t
  rows := rfl
  live_le := Nat.le_refl _
  mostLive_le := Nat.le_refl _
  mostLive_max := Nat.zero_le _

theorem Table.rows_le_maxRows (w : Table) : w.rows ≤ w.maxRows :=
  w.state.sandboxCallbackTable.size_le

/-- The bound holds as long as the callbacks registered so far were once all live, and a row
    is left if any was undone. -/
theorem recycled_iff (hgrow : grow.Total) (hpos : 0 < n₀) (hcount : Counted n₀ h) :
    Recycled grow n₀ h ↔
      h.table.ledger.live.length + h.table.ledger.retired.length ≤ h.mostLive ∧
        (h.table.ledger.retired = [] ∨ h.table.rows < h.table.maxRows) := by
  have hrows := hcount.rows
  have hmost := hcount.mostLive_max
  have hpointers := hcount.consistent.pointers_length
  have hle := h.table.rows_le_maxRows
  have hpos' : 0 < h.table.rows := by omega
  constructor
  · intro hrecycled
    have hbound := hrecycled.rows
    rw [hpointers] at hbound
    refine ⟨by omega, or_iff_not_imp_left.mpr fun hretired => ?_⟩
    have hundone := List.length_pos_of_ne_nil hretired
    -- the bound leaves a row, so a registration succeeds, so there is one
    obtain ⟨slot, hslot⟩ := hrecycled.registers (by omega) (by omega) ⟨none, []⟩ nullptr nullptr
    rcases register_counts hgrow hcount.consistent hpos' ⟨none, []⟩ nullptr nullptr with
      ⟨-, hlt, -⟩ | ⟨-, ⟨e, herror⟩, -⟩
    · exact hlt
    · rw [hslot] at herror
      cases herror
  · rintro ⟨hlive, hroom⟩
    refine ⟨by omega, ?_⟩
    intro hindex hbound f key callback
    have hlt : h.table.rows < h.table.maxRows := by
      rcases hroom with hnone | hlt
      · rw [hnone, List.length_nil] at hrows
        omega
      · exact hlt
    rcases register_counts hgrow hcount.consistent hpos' f key callback with
      ⟨-, -, hok, -⟩ | ⟨hfull, -⟩
    · exact hok
    · omega

/-- What an operation keeps counted: it registers callbacks or undoes some. -/
theorem Counted.record (hcount : Counted n₀ h) {op : CallbackOp}
    (hnext : Consistent n₀ (op.apply grow h.table))
    (hrows : (op.apply grow h.table).rows =
      n₀ + ((op.apply grow h.table).ledger.live.length +
        (op.apply grow h.table).ledger.retired.length) +
      (op.apply grow h.table).ledger.converted.length)
    (hmore : h.table.ledger.live.length + h.table.ledger.retired.length ≤
      (op.apply grow h.table).ledger.live.length +
        (op.apply grow h.table).ledger.retired.length) :
    Counted n₀ (op.record grow h) where
  consistent := hnext
  rows := hrows
  live_le := Nat.le_max_right ..
  mostLive_le := Nat.max_le.mpr ⟨hcount.mostLive_le.trans hmore, Nat.le_add_right ..⟩
  mostLive_max := Nat.max_le.mpr ⟨hcount.mostLive_max, hnext.live_le⟩

/-- The same table is recycled as before. -/
theorem recycled_same (hcount : Counted n₀ h) {op : CallbackOp}
    (hsame : op.apply grow h.table = h.table) : op.record grow h = h := by
  unfold CallbackOp.record
  rw [hsame, Nat.max_eq_left hcount.live_le]

theorem record_register (hgrow : grow.Total) (hpos : 0 < n₀) (hcount : Counted n₀ h)
    (hrecycled : Recycled grow n₀ h) {f : FuncType} {key callback : HostPtr}
    (hadmits : Admits h.table (.register f key callback)) :
    Counted n₀ ((CallbackOp.register f key callback).record grow h) ∧
    (Recycled grow n₀ ((CallbackOp.register f key callback).record grow h) ↔
      h.table.ledger.retired = []) := by
  obtain ⟨hlive, hroom⟩ := (recycled_iff hgrow hpos hcount).mp hrecycled
  have hrows := hcount.rows
  have hmost := hcount.mostLive_le
  have hmax := hcount.mostLive_max
  rcases register_counts hgrow hcount.consistent (by omega) f key callback with
    ⟨hindex, hlt, -, hrows', hmax', r, hledger⟩ | ⟨hfull, -, hsame⟩
  · have hlive' : ((CallbackOp.register f key callback).apply grow h.table).ledger.live.length =
        h.table.ledger.live.length + 1 := by rw [hledger]; rfl
    have hretired' : ((CallbackOp.register f key callback).apply grow h.table).ledger.retired =
        h.table.ledger.retired := by rw [hledger]; rfl
    have hconverted' : ((CallbackOp.register f key callback).apply grow h.table).ledger.converted =
        h.table.ledger.converted := by rw [hledger]; rfl
    have hnext : Counted n₀ ((CallbackOp.register f key callback).record grow h) := by
      refine hcount.record (apply_consistent hgrow.appends hcount.consistent hadmits) ?_ ?_
      · rw [hrows', hlive', hretired', hconverted']
        omega
      · rw [hlive', hretired']
        omega
    refine ⟨hnext, (recycled_iff hgrow hpos hnext).trans ?_⟩
    simp only [CallbackOp.record, hlive', hretired']
    constructor
    · rintro ⟨hnew, -⟩
      -- with one undone, the callbacks registered are more than were ever live
      apply List.eq_nil_of_length_eq_zero
      omega
    · intro hnone
      refine ⟨?_, .inl hnone⟩
      rw [hnone, List.length_nil] at *
      omega
  · rw [recycled_same hcount hsame]
    refine ⟨hcount, iff_of_true hrecycled ?_⟩
    -- all indices taken, or all rows: then nothing was undone
    rcases hroom with hnone | hlt
    · exact hnone
    · apply List.eq_nil_of_length_eq_zero
      omega

theorem record_convert (hgrow : grow.Total) (hpos : 0 < n₀) (hcount : Counted n₀ h)
    (hrecycled : Recycled grow n₀ h) {f : FuncType} {p : HostPtr}
    (hadmits : Admits h.table (.convert f p)) :
    Counted n₀ ((CallbackOp.convert f p).record grow h) ∧
    (Recycled grow n₀ ((CallbackOp.convert f p).record grow h) ↔
      LosesNoSlot h (.convert f p)) := by
  obtain ⟨hlive, hroom⟩ := (recycled_iff hgrow hpos hcount).mp hrecycled
  have hrows := hcount.rows
  rcases convert_counts hgrow hcount.consistent (by omega) f p with
    ⟨hnone, hlt, hrows', hmax', slot, hledger⟩ | ⟨hold, hsame⟩
  · have hlive' : ((CallbackOp.convert f p).apply grow h.table).ledger.live =
        h.table.ledger.live := by rw [hledger]
    have hretired' : ((CallbackOp.convert f p).apply grow h.table).ledger.retired =
        h.table.ledger.retired := by rw [hledger]
    have hconverted' : ((CallbackOp.convert f p).apply grow h.table).ledger.converted.length =
        h.table.ledger.converted.length + 1 := by rw [hledger]; rfl
    have hnext : Counted n₀ ((CallbackOp.convert f p).record grow h) := by
      refine hcount.record (apply_consistent hgrow.appends hcount.consistent hadmits) ?_ ?_
      · rw [hrows', hlive', hretired', hconverted']
        omega
      · rw [hlive', hretired']
    refine ⟨hnext, (recycled_iff hgrow hpos hnext).trans ?_⟩
    simp only [CallbackOp.record, hlive', hretired', hrows', hmax', LosesNoSlot, hnone,
      Option.isSome_none, Bool.false_eq_true, false_or]
    exact and_iff_right (hlive.trans (Nat.le_max_left ..))
  · rw [recycled_same hcount hsame]
    refine ⟨hcount, iff_of_true hrecycled ?_⟩
    -- a table that is full here has nothing retired
    rcases hold with hsome | hfull
    · exact .inr (.inl hsome)
    · exact .inl (hroom.resolve_right (by omega))

theorem record_unregister (hgrow : grow.Total) (hpos : 0 < n₀) (hcount : Counted n₀ h)
    (hrecycled : Recycled grow n₀ h) {key : HostPtr} (hadmits : Admits h.table (.unregister key)) :
    Counted n₀ ((CallbackOp.unregister key).record grow h) ∧
    (Recycled grow n₀ ((CallbackOp.unregister key).record grow h) ↔
      h.table.rows < h.table.maxRows) := by
  -- one live callback less and the same rows: from here on a free row must be left
  obtain ⟨hlive, -⟩ := (recycled_iff hgrow hpos hcount).mp hrecycled
  have hrows := hcount.rows
  obtain ⟨hrows', hmax', hledger, hmore⟩ :
      ((CallbackOp.unregister key).apply grow h.table).rows = h.table.rows ∧
      ((CallbackOp.unregister key).apply grow h.table).maxRows = h.table.maxRows ∧
      ((CallbackOp.unregister key).apply grow h.table).ledger = h.table.ledger.unregister key ∧
      h.table.ledger.retired.length < (h.table.ledger.unregister key).retired.length :=
    unregister_counts hcount.consistent hadmits
  have hhanded := (h.table.ledger.handed_unregister key).length_eq
  simp only [Ledger.handed, List.length_append, List.length_map] at hhanded
  have hconverted : (h.table.ledger.unregister key).converted = h.table.ledger.converted := rfl
  have hnext : Counted n₀ ((CallbackOp.unregister key).record grow h) := by
    refine hcount.record (apply_consistent hgrow.appends hcount.consistent hadmits) ?_ ?_
    · rw [hrows', hledger]
      omega
    · rw [hledger]
      rw [hconverted] at hhanded
      omega
  refine ⟨hnext, (recycled_iff hgrow hpos hnext).trans ?_⟩
  simp only [CallbackOp.record, hledger, hrows', hmax']
  have hundone : (h.table.ledger.unregister key).retired ≠ [] :=
    List.ne_nil_of_length_pos (by omega)
  rw [or_iff_right hundone]
  refine and_iff_right ?_
  rw [hconverted] at hhanded
  omega

end counted

/-! ## When slots suffice -/

/-- In every state of a run of the host, the rows are within the initial ones, the greatest
    number of callbacks live at one time and the pointers converted, and a registration
    succeeds while what is live leaves an index and a row, if and only if no callback is
    registered after one was unregistered, and the table is not full once one is. -/
theorem slots_recycled_iff {grow : GrowFuncrefTable} (hgrow : grow.Total)
    (wasm2cInstance : HostPtr) (t : FuncrefTable) (hpos : 1 ≤ t.size) (ops : List CallbackOp)
    (hhost : Meets (historyStep grow) HostOnly ops (.fresh wasm2cInstance t)) :
    (∀ ops₁ h, ops₁ <+: ops → exec (historyStep grow) ops₁ (.fresh wasm2cInstance t) = some h →
      Recycled grow t.size h) ↔
    Meets (historyStep grow) LosesNoSlot ops (.fresh wasm2cInstance t) := by
  have hcount := fresh_counted wasm2cInstance t
  have hrecycled : Recycled grow t.size (.fresh wasm2cInstance t) :=
    (recycled_iff hgrow hpos hcount).mpr ⟨Nat.le_refl _, .inl rfl⟩
  refine holds_throughout_iff ?_ hcount hrecycled hhost
  rintro h op hcount hrecycled ⟨hadmits, hhost⟩
  refine ⟨op.record grow h, rfl, ?_⟩
  cases op with
  | register f key callback => exact record_register hgrow hpos hcount hrecycled hadmits
  | unregister key => exact record_unregister hgrow hpos hcount hrecycled hadmits
  | convert f p => exact record_convert hgrow hpos hcount hrecycled hadmits
  | guestGrow delta init => cases hhost

/-- A callback is registered and undone, and rows are left behind it. -/
theorem slots_recycled_room :
    ∃ h, exec (historyStep growWithinMax)
        [.register unaryInt 11 101, .convert unaryInt 500, .unregister 11]
        (.fresh 8 smallTable) = some h ∧ Recycled growWithinMax 1 h :=
  ⟨_, rfl, (slots_recycled_iff growWithinMax_total 8 smallTable (by decide)
    [.register unaryInt 11 101, .convert unaryInt 500, .unregister 11] (by decide)).mpr
    (by decide) _ _ (List.prefix_refl _) rfl⟩

/-- A table of one element that may grow to two. -/
def tinyTable : FuncrefTable := ⟨[⟨none, .host 900, 0⟩], 2, by decide, by decide⟩

/-- One callback is live at a time, and the table has three rows; and with no callback live
    a table that may have two rows takes no other. -/
theorem slots_not_recycled :
    (∃ h, exec (historyStep growWithinMax)
        [.register unaryInt 11 101, .unregister 11, .register unaryInt 12 102]
        (.fresh 8 smallTable) = some h ∧
      h.table.rows = 3 ∧ h.mostLive = 1 ∧ h.table.ledger.pointers = [] ∧
      ¬Recycled growWithinMax 1 h) ∧
    ∃ h, exec (historyStep growWithinMax) [.register unaryInt 11 101, .unregister 11]
        (.fresh 8 tinyTable) = some h ∧
      h.table.ledger.live = [] ∧ h.table.ledger.pointers = [] ∧
      (implRegisterCallback growWithinMax unaryInt 12 102 h.table.state).1 = .error .noEmptyRow ∧
      ¬Recycled growWithinMax 1 h := by
  refine ⟨⟨_, rfl, rfl, rfl, rfl, ?_⟩, _, rfl, rfl, rfl, rfl, ?_⟩
  · intro hrecycled
    exact absurd hrecycled.rows (by decide)
  · intro hrecycled
    obtain ⟨slot, hslot⟩ := hrecycled.registers (by decide) (by decide) unaryInt 12 102
    cases hslot

end RlboxWasm2c

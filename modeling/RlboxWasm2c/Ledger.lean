import RlboxWasm2c.Base.Runs
import RlboxWasm2c.CallbackTable

/- What the callback table is for, and that it does it.

   A `Ledger` is what the host and the guest have agreed on so far: the registrations
   that are live, those that were undone, and the pointers converted, each with the slot
   the guest was given for it. It is kept from the results of the operations alone and
   never looks at the fields. `Consistent` relates the fields to the ledger; every
   operation keeps it (`apply_consistent`), hence it holds after every run that keeps the
   caller's side of the bargain (`Admits`). -/
namespace RlboxWasm2c
open Runs

/-- A callback the guest can call through `slot`. -/
structure Registration where
  key : HostPtr
  callback : HostPtr
  type : FuncType
  slot : Nat
  deriving DecidableEq

structure Ledger where
  live : List Registration
  retired : List Registration
  converted : List (HostPtr × Nat)

namespace Ledger

def empty : Ledger := ⟨[], [], []⟩

/-- Every slot given to the guest so far. -/
def handed (g : Ledger) : List Nat :=
  g.live.map Registration.slot ++ (g.retired.map Registration.slot ++ g.converted.map Prod.snd)

def register (g : Ledger) (r : Registration) : Ledger := { g with live := r :: g.live }

/-- The registrations with the key are undone. -/
def unregister (g : Ledger) (key : HostPtr) : Ledger :=
  { g with
    live := g.live.filter fun r => r.key ≠ key
    retired := g.live.filter (fun r => r.key = key) ++ g.retired }

def convert (g : Ledger) (p : HostPtr) (slot : Nat) : Ledger :=
  if (p, slot) ∈ g.converted then g else { g with converted := (p, slot) :: g.converted }

/-- What the function pointer at `slot` stands for. -/
def Names (g : Ledger) (slot : Nat) (p : HostPtr) : Prop :=
  (∃ r ∈ g.live, r.slot = slot ∧ r.callback = p) ∨ (p, slot) ∈ g.converted

theorem mem_handed {g : Ledger} {slot : Nat} :
    slot ∈ g.handed ↔ (∃ r ∈ g.live, r.slot = slot) ∨ (∃ r ∈ g.retired, r.slot = slot) ∨
      ∃ p, (p, slot) ∈ g.converted := by
  simp [handed]

/-- Undoing a registration hands out no slot and takes none back. -/
theorem handed_unregister (g : Ledger) (key : HostPtr) :
    (g.unregister key).handed.Perm g.handed := by
  have hsplit : (g.live.filter (fun r => r.key ≠ key) ++
      g.live.filter fun r => r.key = key).Perm g.live := by
    have h := List.filter_append_perm (fun r : Registration => decide (r.key ≠ key)) g.live
    simpa using h
  have hmap := (hsplit.map Registration.slot).append_right
    (g.retired.map Registration.slot ++ g.converted.map Prod.snd)
  simpa [handed, unregister] using hmap

/-- Undoing a registration leaves what each slot stands or stood for. -/
theorem names_unregister (g : Ledger) (key : HostPtr) (slot : Nat) (p : HostPtr) :
    (g.Names slot p ∨ ∃ r ∈ g.retired, r.slot = slot ∧ r.callback = p) ↔
      ((g.unregister key).Names slot p ∨
        ∃ r ∈ (g.unregister key).retired, r.slot = slot ∧ r.callback = p) := by
  constructor
  · rintro ((⟨r, hr, hrest⟩ | hc) | ⟨r, hr, hrest⟩)
    · by_cases hk : r.key = key
      · exact .inr ⟨r, List.mem_append_left _ (List.mem_filter.mpr ⟨hr, decide_eq_true hk⟩), hrest⟩
      · exact .inl (.inl ⟨r, List.mem_filter.mpr ⟨hr, decide_eq_true hk⟩, hrest⟩)
    · exact .inl (.inr hc)
    · exact .inr ⟨r, List.mem_append_right _ hr, hrest⟩
  · rintro ((⟨r, hr, hrest⟩ | hc) | ⟨r, hr, hrest⟩)
    · exact .inl (.inl ⟨r, (List.mem_filter.mp hr).1, hrest⟩)
    · exact .inl (.inr hc)
    · rcases List.mem_append.mp hr with hr | hr
      · exact .inl (.inl ⟨r, (List.mem_filter.mp hr).1, hrest⟩)
      · exact .inr ⟨r, hr, hrest⟩

theorem names_register (g : Ledger) (r : Registration) (slot : Nat) (p : HostPtr) :
    (g.register r).Names slot p ↔ (r.slot = slot ∧ r.callback = p) ∨ g.Names slot p := by
  unfold Names register
  rw [List.exists_mem_cons_iff, or_assoc]

theorem converted_convert (g : Ledger) (p : HostPtr) (slot : Nat) (x : HostPtr × Nat) :
    x ∈ (g.convert p slot).converted ↔ x = (p, slot) ∨ x ∈ g.converted := by
  unfold convert
  split
  · next hmem =>
    refine ⟨.inr, ?_⟩
    rintro (rfl | hx)
    · exact hmem
    · exact hx
  · exact List.mem_cons

theorem names_convert (g : Ledger) (p : HostPtr) (slot x : Nat) (q : HostPtr) :
    (g.convert p slot).Names x q ↔ (slot = x ∧ p = q) ∨ g.Names x q := by
  have hlive : (g.convert p slot).live = g.live := by
    unfold convert
    split <;> rfl
  unfold Names
  rw [hlive, converted_convert, Prod.mk.injEq, or_left_comm]
  exact or_congr_left ⟨fun h => ⟨h.2.symm, h.1.symm⟩, fun h => ⟨h.2.symm, h.1.symm⟩⟩

/-- A slot not handed out stands for nothing and never did. -/
theorem not_named {g : Ledger} {slot : Nat} (h : slot ∉ g.handed) (p : HostPtr) :
    ¬(g.Names slot p ∨ ∃ r ∈ g.retired, r.slot = slot ∧ r.callback = p) := by
  rw [mem_handed] at h
  rintro ((⟨r, hr, hslot, -⟩ | hc) | ⟨r, hr, hslot, -⟩)
  · exact h (.inl ⟨r, hr, hslot⟩)
  · exact h (.inr (.inr ⟨p, hc⟩))
  · exact h (.inr (.inl ⟨r, hr, hslot⟩))

theorem handed_convert {g : Ledger} {p : HostPtr} {slot : Nat} (h : (p, slot) ∉ g.converted) :
    (g.convert p slot).handed.Perm (slot :: g.handed) := by
  unfold convert
  rw [if_neg h]
  exact (List.Perm.append_left _ List.perm_middle).trans List.perm_middle

end Ledger

/-! ## Runs of the table -/

/-- The fields together with the ledger kept beside them. -/
structure Table where
  state : CallbackState
  ledger : Ledger

/-- An operation of the host, or a `table.grow` of the guest. -/
inductive CallbackOp where
  | register (f : FuncType) (key callback : HostPtr)
  | unregister (key : HostPtr)
  | convert (f : FuncType) (p : HostPtr)
  | guestGrow (delta : Nat) (init : FuncRef)
  deriving DecidableEq

/-- The caller's side: callbacks and keys are not null, a key is live at most once, only
    live keys are unregistered, and only non-null pointers are converted. -/
def Admits (w : Table) : CallbackOp → Prop
  | .register _ key callback =>
    callback ≠ nullptr ∧ key ≠ nullptr ∧ ∀ r ∈ w.ledger.live, r.key ≠ key
  | .unregister key => ∃ r ∈ w.ledger.live, r.key = key
  | .convert _ p => p ≠ nullptr
  | .guestGrow _ _ => True

instance (w : Table) : DecidablePred (Admits w)
  | .register _ key callback =>
    inferInstanceAs (Decidable (callback ≠ nullptr ∧ key ≠ nullptr ∧
      ∀ r ∈ w.ledger.live, r.key ≠ key))
  | .unregister key => inferInstanceAs (Decidable (∃ r ∈ w.ledger.live, r.key = key))
  | .convert _ p => inferInstanceAs (Decidable (p ≠ nullptr))
  | .guestGrow _ _ => .isTrue trivial

/-- The operation on the fields, entered in the ledger if it succeeded. -/
def CallbackOp.apply (grow : GrowFuncrefTable) (op : CallbackOp) (w : Table) : Table :=
  match op with
  | .register f key callback =>
    match implRegisterCallback grow f key callback w.state with
    | (.ok slot, s) => ⟨s, w.ledger.register ⟨key, callback, f, slot⟩⟩
    | (.error _, s) => ⟨s, w.ledger⟩
  | .unregister key =>
    match implUnregisterCallback key w.state with
    | (.ok (), s) => ⟨s, w.ledger.unregister key⟩
    | (.error _, s) => ⟨s, w.ledger⟩
  | .convert f p =>
    match implGetSandboxedPointer grow f p w.state with
    | (.ok slot, s) => ⟨s, w.ledger.convert p slot⟩
    | (.error _, s) => ⟨s, w.ledger⟩
  | .guestGrow delta init =>
    let t := (grow w.state.sandboxCallbackTable delta init).2
    ⟨{ w.state with sandboxCallbackTable := t }, w.ledger⟩

/-- A failed operation is a step too: the host may go on after it. -/
def tableStep (grow : GrowFuncrefTable) (op : CallbackOp) (w : Table) : Option Table :=
  some (op.apply grow w)

/-- A sandbox just created, whose module comes with the elements of `t`. -/
def Table.fresh (wasm2cInstance : HostPtr) (t : FuncrefTable) : Table :=
  ⟨.fresh wasm2cInstance t, .empty⟩

/-- `w` is reached from a new sandbox with table `t` by operations that keep the caller's
    side. -/
def TableReached (grow : GrowFuncrefTable) (wasm2cInstance : HostPtr) (t : FuncrefTable)
    (ops : List CallbackOp) (w : Table) : Prop :=
  Meets (tableStep grow) Admits ops (.fresh wasm2cInstance t) ∧
    exec (tableStep grow) ops (.fresh wasm2cInstance t) = some w

/-! ## Consistency -/

/-- The fields hold index `i` for the registration `r`. -/
structure Holds (s : CallbackState) (i : CallbackIndex) (r : Registration) : Prop where
  callback : s.callbacks i = r.callback
  key : s.callbackUniqueKeys i = r.key
  slot : s.callbackSlotAssignment i = r.slot
  entry : s.sandboxCallbackTable.data[r.slot]? = some (interceptorRef s i r.type)

/-- The fields agree with the ledger, over a table that began with `n₀` rows. -/
structure Consistent (n₀ : Nat) (w : Table) : Prop where
  freeList : w.state.callbackFreeList = []
  size : n₀ ≤ w.state.sandboxCallbackTable.size
  handed_nodup : w.ledger.handed.Nodup
  handed_range : ∀ slot ∈ w.ledger.handed, n₀ ≤ slot ∧ slot < w.state.sandboxCallbackTable.size
  live_ok : ∀ r ∈ w.ledger.live, r.key ≠ nullptr ∧ r.callback ≠ nullptr
  live_held : ∀ r ∈ w.ledger.live, ∃ i, Holds w.state i r
  index_live : ∀ i, w.state.callbacks i ≠ nullptr → ∃ r ∈ w.ledger.live, Holds w.state i r
  index_free : ∀ i, w.state.callbacks i = nullptr →
    w.state.callbackUniqueKeys i = nullptr ∧ w.state.callbackSlotAssignment i = 0
  keys_inj : ∀ i j, w.state.callbackUniqueKeys i = w.state.callbackUniqueKeys j →
    w.state.callbackUniqueKeys i ≠ nullptr → i = j
  retired_null : ∀ r ∈ w.ledger.retired, r.callback ≠ nullptr ∧
    w.state.sandboxCallbackTable.data[r.slot]? = some FuncRef.zero
  converted_held : ∀ p slot, (p, slot) ∈ w.ledger.converted → p ≠ nullptr ∧
    ∃ f, w.state.sandboxCallbackTable.data[slot]? = some (pointerRef w.state f p)
  internal : ∀ p slot, w.state.internalCallbacks p = some slot ↔ (p, slot) ∈ w.ledger.converted
  assignments : ∀ slot p, w.state.slotAssignments slot = some p ↔
    w.ledger.Names slot p ∨ ∃ r ∈ w.ledger.retired, r.slot = slot ∧ r.callback = p

theorem fresh_consistent (wasm2cInstance : HostPtr) (t : FuncrefTable) :
    Consistent t.size (.fresh wasm2cInstance t) where
  freeList := rfl
  size := Nat.le_refl _
  handed_nodup := List.nodup_nil
  handed_range := by intro slot h; cases h
  live_ok := by intro r h; cases h
  live_held := by intro r h; cases h
  index_live := by intro i h; exact absurd rfl h
  index_free := by intro i _; exact ⟨rfl, rfl⟩
  keys_inj := by intro i j _ h; exact absurd rfl h
  retired_null := by intro r h; cases h
  converted_held := by intro p slot h; cases h
  internal := by intro p slot; exact iff_of_false (by rintro ⟨⟩) (by rintro ⟨⟩)
  assignments := by
    intro slot p
    refine iff_of_false (by rintro ⟨⟩) ?_
    rintro ((⟨r, hr, -⟩ | h) | ⟨r, hr, -⟩)
    · cases hr
    · cases h
    · cases hr

theorem Holds.congr {s s' : CallbackState} {i : CallbackIndex} {r : Registration}
    (h : Holds s i r) (hcallback : s'.callbacks i = s.callbacks i)
    (hkey : s'.callbackUniqueKeys i = s.callbackUniqueKeys i)
    (hslot : s'.callbackSlotAssignment i = s.callbackSlotAssignment i)
    (hinstance : s'.wasm2cInstance = s.wasm2cInstance)
    (hentry : s'.sandboxCallbackTable.data[r.slot]? = s.sandboxCallbackTable.data[r.slot]?) :
    Holds s' i r where
  callback := hcallback.trans h.callback
  key := hkey.trans h.key
  slot := hslot.trans h.slot
  entry := by
    rw [hentry, h.entry]
    unfold interceptorRef
    rw [hinstance]

/-- Rows that were there keep their entry when rows are added. -/
theorem getElem?_of_append {data rows data' : List FuncRef} {slot : Nat}
    (hdata : data' = data ++ rows) (hlt : slot < data.length) : data'[slot]? = data[slot]? := by
  rw [hdata, List.getElem?_append_left hlt]

/-- A function injective away from `null` stays so with `null` at one place, or with a value
    it has nowhere else. -/
theorem update_inj {α β : Type} [DecidableEq α] {f : α → β} {null v : β}
    (h : ∀ j k, f j = f k → f j ≠ null → j = k) (hv : v = null ∨ ∀ j, f j ≠ v) (i j k : α)
    (hjk : Function.update f i v j = Function.update f i v k)
    (hj : Function.update f i v j ≠ null) : j = k := by
  by_cases hji : j = i <;> by_cases hki : k = i
  · rw [hji, hki]
  · rw [hji, Function.update_self] at hj hjk
    rw [Function.update_of_ne hki] at hjk
    exact absurd hjk.symm (hv.resolve_left hj k)
  · rw [Function.update_of_ne hji] at hj hjk
    rw [hki, Function.update_self] at hjk
    exact absurd hjk (hv.resolve_left (hjk ▸ hj) j)
  · rw [Function.update_of_ne hji] at hj hjk
    rw [Function.update_of_ne hki] at hjk
    exact h j k hjk hj

section step
variable {grow : GrowFuncrefTable} {n₀ : Nat} {w : Table}

namespace Consistent

/-- The row after the last one has been given to nobody. -/
theorem size_not_handed (h : Consistent n₀ w) :
    w.state.sandboxCallbackTable.size ∉ w.ledger.handed :=
  fun hmem => Nat.lt_irrefl _ (h.handed_range _ hmem).2

theorem live_lt (h : Consistent n₀ w) {r : Registration} (hr : r ∈ w.ledger.live) :
    r.slot < w.state.sandboxCallbackTable.size :=
  (h.handed_range _ (Ledger.mem_handed.mpr (.inl ⟨r, hr, rfl⟩))).2

theorem retired_lt (h : Consistent n₀ w) {r : Registration} (hr : r ∈ w.ledger.retired) :
    r.slot < w.state.sandboxCallbackTable.size :=
  (h.handed_range _ (Ledger.mem_handed.mpr (.inr (.inl ⟨r, hr, rfl⟩)))).2

theorem converted_lt (h : Consistent n₀ w) {p : HostPtr} {slot : Nat}
    (hc : (p, slot) ∈ w.ledger.converted) : slot < w.state.sandboxCallbackTable.size :=
  (h.handed_range slot (Ledger.mem_handed.mpr (.inr (.inr ⟨p, hc⟩)))).2

theorem live_slot_inj (h : Consistent n₀ w) {r r' : Registration} (hr : r ∈ w.ledger.live)
    (hr' : r' ∈ w.ledger.live) (hslot : r.slot = r'.slot) : r = r' :=
  List.inj_on_of_nodup_map (List.nodup_append'.mp h.handed_nodup).1 hr hr' hslot

theorem live_ne_converted (h : Consistent n₀ w) {r : Registration} (hr : r ∈ w.ledger.live)
    {p : HostPtr} {slot : Nat} (hc : (p, slot) ∈ w.ledger.converted) : slot ≠ r.slot := by
  rintro rfl
  refine (List.nodup_append'.mp h.handed_nodup).2.2 (List.mem_map_of_mem hr) ?_
  exact List.mem_append_right _ (List.mem_map.mpr ⟨_, hc, rfl⟩)

/-- A key in the arrays is the key of a live registration. -/
theorem key_live (h : Consistent n₀ w) {i : CallbackIndex}
    (hi : w.state.callbackUniqueKeys i ≠ nullptr) :
    ∃ r ∈ w.ledger.live, Holds w.state i r := by
  apply h.index_live
  intro hnull
  exact hi (h.index_free i hnull).1

/-- New rows, whatever is in them, disturb nothing. -/
theorem extend (h : Consistent n₀ w) {t : FuncrefTable} (rows : List FuncRef)
    (ht : t.data = w.state.sandboxCallbackTable.data ++ rows) :
    Consistent n₀ ⟨{ w.state with sandboxCallbackTable := t }, w.ledger⟩ := by
  have hsize : w.state.sandboxCallbackTable.size ≤ t.size := by
    simp [FuncrefTable.size, ht]
  have hheld : ∀ i r, r ∈ w.ledger.live → Holds w.state i r →
      Holds { w.state with sandboxCallbackTable := t } i r := fun i r hr hi =>
    hi.congr rfl rfl rfl rfl (getElem?_of_append ht (h.live_lt hr))
  exact {
    h with
    size := h.size.trans hsize
    handed_range := fun slot hslot =>
      ⟨(h.handed_range slot hslot).1, (h.handed_range slot hslot).2.trans_le hsize⟩
    live_held := fun r hr => (h.live_held r hr).imp fun i hi => hheld i r hr hi
    index_live := fun i hi => (h.index_live i hi).imp fun r hr => ⟨hr.1, hheld i r hr.1 hr.2⟩
    retired_null := fun r hr => ⟨(h.retired_null r hr).1,
      (getElem?_of_append ht (h.retired_lt hr)).trans (h.retired_null r hr).2⟩
    converted_held := by
      intro p slot hc
      obtain ⟨hp, f, hf⟩ := h.converted_held p slot hc
      exact ⟨hp, f, (getElem?_of_append ht (h.converted_lt hc)).trans hf⟩ }

theorem guestGrow (h : Consistent n₀ w) (hgrow : grow.Appends) (delta : Nat) (init : FuncRef) :
    Consistent n₀ ((CallbackOp.guestGrow delta init).apply grow w) := by
  rcases hgrow w.state.sandboxCallbackTable delta init with hfail | ⟨-, hdata⟩
  · apply h.extend []
    rw [hfail, List.append_nil]
  · exact h.extend _ hdata

/-- A row of the table given to nobody, past the module's own. -/
structure Vacant (n₀ : Nat) (w : Table) (slot : Nat) : Prop where
  range : n₀ ≤ slot ∧ slot < w.state.sandboxCallbackTable.size
  notHanded : slot ∉ w.ledger.handed

theorem vacant_new_row (h : Consistent n₀ w) {t : FuncrefTable} {row : FuncRef}
    (ht : t.data = w.state.sandboxCallbackTable.data ++ [row]) :
    Vacant n₀ ⟨{ w.state with sandboxCallbackTable := t }, w.ledger⟩
      w.state.sandboxCallbackTable.size where
  range := by
    refine ⟨h.size, ?_⟩
    change w.state.sandboxCallbackTable.data.length < t.data.length
    simp [ht]
  notHanded := h.size_not_handed

/-- A slot handed out, the vacant one included, is in range. -/
theorem range_of_vacant (h : Consistent n₀ w) {slot : Nat} (hvacant : Vacant n₀ w slot) :
    ∀ x ∈ slot :: w.ledger.handed, n₀ ≤ x ∧ x < w.state.sandboxCallbackTable.size :=
  List.forall_mem_cons.mpr ⟨hvacant.range, h.handed_range⟩

/-- What is assigned to a vacant slot is all that it stands for. -/
theorem assign_vacant (h : Consistent n₀ w) {slot : Nat} (hvacant : Vacant n₀ w slot)
    (p : HostPtr) (x : Nat) (q : HostPtr) :
    Function.update w.state.slotAssignments slot (some p) x = some q ↔
      ((slot = x ∧ p = q) ∨ w.ledger.Names x q) ∨
        ∃ r ∈ w.ledger.retired, r.slot = x ∧ r.callback = q := by
  rw [or_assoc]
  by_cases hx : x = slot
  · subst hx
    have hnot := Ledger.not_named hvacant.notHanded q
    rw [Function.update_self, or_iff_left hnot, Option.some.injEq]
    exact (and_iff_right rfl).symm
  · rw [Function.update_of_ne hx, h.assignments]
    exact (or_iff_right fun heq => hx heq.1.symm).symm

/-- A registration is entered at a free index, with a vacant row that has its interceptor. -/
theorem enter (h : Consistent n₀ w) {r : Registration} {i : CallbackIndex}
    (hi : w.state.callbacks i = nullptr) (hr : r.key ≠ nullptr ∧ r.callback ≠ nullptr)
    (hfresh : ∀ r' ∈ w.ledger.live, r'.key ≠ r.key) (hvacant : Vacant n₀ w r.slot)
    (hentry : w.state.sandboxCallbackTable.data[r.slot]? = some (interceptorRef w.state i r.type)) :
    Consistent n₀
      ⟨{ w.state with
        callbackUniqueKeys := Function.update w.state.callbackUniqueKeys i r.key
        callbacks := Function.update w.state.callbacks i r.callback
        callbackSlotAssignment := Function.update w.state.callbackSlotAssignment i r.slot
        slotAssignments := Function.update w.state.slotAssignments r.slot (some r.callback) },
      w.ledger.register r⟩ := by
  generalize hw' : CallbackState.mk .. = s'
  -- an index other than `i` keeps what it holds
  have hkeep : ∀ j r', j ≠ i → Holds w.state j r' → Holds s' j r' := by
    intro j r' hne hj
    subst hw'
    exact hj.congr (Function.update_of_ne hne ..) (Function.update_of_ne hne ..)
      (Function.update_of_ne hne ..) rfl rfl
  have hother : ∀ j r', r' ∈ w.ledger.live → Holds w.state j r' → j ≠ i := by
    rintro j r' hr' hj rfl
    exact (h.live_ok r' hr').2 (hj.callback.symm.trans hi)
  have hself : Holds s' i r := by
    subst hw'
    exact ⟨Function.update_self .., Function.update_self .., Function.update_self .., hentry⟩
  -- the new key is the key of no other index
  have hkeys : ∀ j, w.state.callbackUniqueKeys j ≠ r.key := by
    intro j hj
    obtain ⟨r', hr', hheld⟩ := h.key_live (hj ▸ hr.1)
    exact hfresh r' hr' (hheld.key.symm.trans hj)
  subst hw'
  exact {
    freeList := h.freeList
    size := h.size
    handed_nodup := List.nodup_cons.mpr ⟨hvacant.notHanded, h.handed_nodup⟩
    handed_range := h.range_of_vacant hvacant
    live_ok := List.forall_mem_cons.mpr ⟨hr, h.live_ok⟩
    live_held := by
      refine List.forall_mem_cons.mpr ⟨⟨i, hself⟩, ?_⟩
      intro r' hr'
      obtain ⟨j, hj⟩ := h.live_held r' hr'
      exact ⟨j, hkeep j r' (hother j r' hr' hj) hj⟩
    index_live := by
      intro j (hj : Function.update w.state.callbacks i r.callback j ≠ nullptr)
      by_cases hne : j = i
      · subst hne
        exact ⟨_, List.mem_cons_self .., hself⟩
      · rw [Function.update_of_ne hne] at hj
        obtain ⟨r', hr', hheld⟩ := h.index_live j hj
        exact ⟨r', List.mem_cons_of_mem _ hr', hkeep j r' hne hheld⟩
    index_free := by
      intro j (hj : Function.update w.state.callbacks i r.callback j = nullptr)
      have hne : j ≠ i := by
        rintro rfl
        exact hr.2 (by rwa [Function.update_self] at hj)
      rw [Function.update_of_ne hne] at hj
      exact (h.index_free j hj).imp (Function.update_of_ne hne ..).trans
        (Function.update_of_ne hne ..).trans
    keys_inj := update_inj h.keys_inj (.inr hkeys) i
    retired_null := h.retired_null
    converted_held := h.converted_held
    internal := h.internal
    assignments := by
      intro x q
      rw [Ledger.names_register]
      exact h.assign_vacant hvacant r.callback x q }

theorem register (h : Consistent n₀ w) (hgrow : grow.Appends) {f : FuncType}
    {key callback : HostPtr} (hadmits : Admits w (.register f key callback)) :
    Consistent n₀ ((CallbackOp.register f key callback).apply grow w) := by
  obtain ⟨hcallback, hkey, hfresh⟩ := hadmits
  rcases implRegisterCallback_spec hgrow h.freeList f key callback with
    ⟨e, rows, t, ht, he⟩ | ⟨i, t, hi, ht, hok⟩
  · simp only [CallbackOp.apply, he]
    exact h.extend rows ht
  · simp only [CallbackOp.apply, hok]
    have hnew : t.data[w.state.sandboxCallbackTable.size]? =
        some (interceptorRef w.state i f) := by simp [FuncrefTable.size, ht]
    exact (h.extend _ ht).enter (r := ⟨key, callback, f, w.state.sandboxCallbackTable.size⟩)
      hi ⟨hkey, hcallback⟩ hfresh (h.vacant_new_row ht) hnew

/-- Undoing a live registration clears the index that holds it. -/
theorem unregister_held (h : Consistent n₀ w) {r : Registration} (hr : r ∈ w.ledger.live)
    {i : CallbackIndex} (hi : Holds w.state i r) :
    implUnregisterCallback r.key w.state = (.ok (), w.state.clearAt i) := by
  refine implUnregisterCallback_spec hi.key fun j hj => ?_
  exact h.keys_inj j i (hj.trans hi.key.symm) (hj ▸ (h.live_ok r hr).1)

theorem clearAt_data {r : Registration} {i : CallbackIndex} (hi : Holds w.state i r) :
    (w.state.clearAt i).sandboxCallbackTable.data =
      w.state.sandboxCallbackTable.data.set r.slot FuncRef.zero := by
  rw [← hi.slot]
  rfl

/-- The index with the key of a live registration. -/
theorem index_of_key (h : Consistent n₀ w) {r : Registration} (hr : r ∈ w.ledger.live)
    {i j : CallbackIndex} (hi : Holds w.state i r) (hj : w.state.callbackUniqueKeys j = r.key) :
    j = i :=
  h.keys_inj j i (hj.trans hi.key.symm) (hj ▸ (h.live_ok r hr).1)

/-- Every other registration keeps its index and its entry. -/
theorem keep_cleared (h : Consistent n₀ w) {r r' : Registration} (hr : r ∈ w.ledger.live)
    {i j : CallbackIndex} (hi : Holds w.state i r) (hne : r'.key ≠ r.key)
    (hr' : r' ∈ w.ledger.live) (hj : Holds w.state j r') : Holds (w.state.clearAt i) j r' := by
  have hji : j ≠ i := by
    rintro rfl
    exact hne (hj.key.symm.trans hi.key)
  have hslot : r.slot ≠ r'.slot := fun heq => hne (h.live_slot_inj hr hr' heq ▸ rfl)
  refine hj.congr (Function.update_of_ne hji ..) (Function.update_of_ne hji ..)
    (Function.update_of_ne hji ..) rfl ?_
  rw [clearAt_data hi, List.getElem?_set_ne hslot]

/-- The registration just undone is among those whose entry is null. -/
theorem retired_cleared (h : Consistent n₀ w) {r : Registration} (hr : r ∈ w.ledger.live)
    {i : CallbackIndex} (hi : Holds w.state i r) :
    ∀ r' ∈ (w.ledger.unregister r.key).retired, r'.callback ≠ nullptr ∧
      (w.state.clearAt i).sandboxCallbackTable.data[r'.slot]? = some FuncRef.zero := by
  intro r' hr'
  have hlt : r.slot < w.state.sandboxCallbackTable.data.length := h.live_lt hr
  rw [clearAt_data hi, List.getElem?_set]
  rcases List.mem_append.mp hr' with hr' | hr'
  · -- its key leads to `i`, hence to the slot cleared
    obtain ⟨hr', heq⟩ := List.mem_filter.mp hr'
    obtain ⟨j, hj⟩ := h.live_held r' hr'
    have hslot : r.slot = r'.slot := by
      rw [← hj.slot, h.index_of_key hr hi (hj.key.trans (of_decide_eq_true heq)), hi.slot]
    refine ⟨(h.live_ok r' hr').2, ?_⟩
    rw [if_pos hslot, if_pos hlt]
  · obtain ⟨hcallback, hnull⟩ := h.retired_null r' hr'
    refine ⟨hcallback, ?_⟩
    rw [hnull]
    split <;> rfl

theorem unregister (h : Consistent n₀ w) {key : HostPtr}
    (hadmits : Admits w (.unregister key)) :
    Consistent n₀ ((CallbackOp.unregister key).apply grow w) := by
  obtain ⟨r, hr, rfl⟩ := hadmits
  obtain ⟨i, hi⟩ := h.live_held r hr
  simp only [CallbackOp.apply, h.unregister_held hr hi]
  have hsize : (w.state.clearAt i).sandboxCallbackTable.size =
      w.state.sandboxCallbackTable.size := FuncrefTable.set_size ..
  -- the row stays handed out: it goes from the live registrations to the retired
  exact {
    freeList := h.freeList
    size := h.size.trans hsize.ge
    handed_nodup := (w.ledger.handed_unregister r.key).nodup_iff.mpr h.handed_nodup
    handed_range := by
      intro slot hslot
      have hrange := h.handed_range slot ((w.ledger.handed_unregister r.key).mem_iff.mp hslot)
      exact ⟨hrange.1, hrange.2.trans_le hsize.ge⟩
    live_ok := fun r' hr' => h.live_ok r' (List.mem_filter.mp hr').1
    live_held := by
      intro r' hr'
      obtain ⟨hr', hne⟩ := List.mem_filter.mp hr'
      obtain ⟨j, hj⟩ := h.live_held r' hr'
      exact ⟨j, h.keep_cleared hr hi (of_decide_eq_true hne) hr' hj⟩
    index_live := by
      intro j (hj : Function.update w.state.callbacks i nullptr j ≠ nullptr)
      have hji : j ≠ i := by
        rintro rfl
        exact hj (Function.update_self ..)
      rw [Function.update_of_ne hji] at hj
      obtain ⟨r', hr', hheld⟩ := h.index_live j hj
      have hne : r'.key ≠ r.key := fun heq => hji (h.index_of_key hr hi (hheld.key.trans heq))
      exact ⟨r', List.mem_filter.mpr ⟨hr', decide_eq_true hne⟩,
        h.keep_cleared hr hi hne hr' hheld⟩
    index_free := by
      intro j (hj : Function.update w.state.callbacks i nullptr j = nullptr)
      by_cases hji : j = i
      · subst hji
        exact ⟨Function.update_self .., Function.update_self ..⟩
      · rw [Function.update_of_ne hji] at hj
        exact (h.index_free j hj).imp (Function.update_of_ne hji ..).trans
          (Function.update_of_ne hji ..).trans
    keys_inj := update_inj h.keys_inj (.inl rfl) i
    retired_null := h.retired_cleared hr hi
    converted_held := by
      intro p slot hc
      obtain ⟨hp, f, hf⟩ := h.converted_held p slot hc
      refine ⟨hp, f, ?_⟩
      rw [clearAt_data hi, List.getElem?_set_ne (h.live_ne_converted hr hc).symm]
      exact hf
    internal := h.internal
    assignments := fun slot p =>
      (h.assignments slot p).trans (w.ledger.names_unregister r.key slot p) }

/-- A pointer not met before is given a vacant row that calls it. -/
theorem note (h : Consistent n₀ w) {f : FuncType} {p : HostPtr} {slot : Nat} (hp : p ≠ nullptr)
    (hnone : w.state.internalCallbacks p = none) (hvacant : Vacant n₀ w slot)
    (hentry : w.state.sandboxCallbackTable.data[slot]? = some (pointerRef w.state f p)) :
    Consistent n₀
      ⟨{ w.state with
        internalCallbacks := Function.update w.state.internalCallbacks p (some slot)
        slotAssignments := Function.update w.state.slotAssignments slot (some p) },
      w.ledger.convert p slot⟩ := by
  have hnot : ∀ x, (p, x) ∉ w.ledger.converted := by
    intro x hc
    rw [(h.internal p x).mpr hc] at hnone
    cases hnone
  have hhanded := Ledger.handed_convert (hnot slot)
  have hledger : w.ledger.convert p slot =
      { w.ledger with converted := (p, slot) :: w.ledger.converted } := if_neg (hnot _)
  have hnames := Ledger.names_convert w.ledger p slot
  rw [hledger] at hhanded hnames ⊢
  exact {
    freeList := h.freeList
    size := h.size
    handed_nodup := hhanded.nodup_iff.mpr
      (List.nodup_cons.mpr ⟨hvacant.notHanded, h.handed_nodup⟩)
    handed_range := fun x hx => h.range_of_vacant hvacant x (hhanded.mem_iff.mp hx)
    live_ok := h.live_ok
    live_held := fun r hr => (h.live_held r hr).imp fun i hi => hi.congr rfl rfl rfl rfl rfl
    index_live := fun i hi => (h.index_live i hi).imp fun r hr =>
      ⟨hr.1, hr.2.congr rfl rfl rfl rfl rfl⟩
    index_free := h.index_free
    keys_inj := h.keys_inj
    retired_null := h.retired_null
    converted_held := by
      intro q x hc
      rcases List.mem_cons.mp hc with heq | hc
      · cases heq
        exact ⟨hp, f, hentry⟩
      · exact h.converted_held q x hc
    internal := by
      intro q x
      change Function.update w.state.internalCallbacks p (some slot) q = some x ↔ _
      rw [List.mem_cons, Prod.mk.injEq]
      by_cases hq : q = p
      · subst hq
        rw [Function.update_self, Option.some.injEq, or_iff_left (hnot x)]
        exact ⟨fun hx => ⟨rfl, hx.symm⟩, fun hx => hx.2.symm⟩
      · rw [Function.update_of_ne hq, h.internal]
        exact (or_iff_right fun heq => hq heq.1).symm
    assignments := by
      intro x q
      rw [hnames]
      exact h.assign_vacant hvacant p x q }

theorem convert (h : Consistent n₀ w) (hgrow : grow.Appends) {f : FuncType} {p : HostPtr}
    (hadmits : Admits w (.convert f p)) :
    Consistent n₀ ((CallbackOp.convert f p).apply grow w) := by
  rcases implGetSandboxedPointer_spec hgrow h.freeList f p with
    ⟨slot, hfound, hok⟩ | ⟨e, rows, t, ht, he⟩ | ⟨t, hnone, ht, hok⟩
  · simp only [CallbackOp.apply, hok]
    rw [Ledger.convert, if_pos ((h.internal p slot).mp hfound)]
    exact h
  · simp only [CallbackOp.apply, he]
    exact h.extend rows ht
  · simp only [CallbackOp.apply, hok]
    have hnew : t.data[w.state.sandboxCallbackTable.size]? =
        some (pointerRef w.state f p) := by simp [FuncrefTable.size, ht]
    exact (h.extend _ ht).note hadmits hnone (h.vacant_new_row ht) hnew

end Consistent

/-- Every operation keeps the fields consistent with the ledger. -/
theorem apply_consistent (hgrow : grow.Appends) (h : Consistent n₀ w) {op : CallbackOp}
    (hadmits : Admits w op) : Consistent n₀ (op.apply grow w) := by
  cases op with
  | register f key callback => exact h.register hgrow hadmits
  | unregister key => exact h.unregister hadmits
  | convert f p => exact h.convert hgrow hadmits
  | guestGrow delta init => exact h.guestGrow hgrow delta init

/-- The key of an index taken by a live registration stays, unless that one is undone. -/
theorem Consistent.key_kept (h : Consistent n₀ w) (hgrow : grow.Appends) {op : CallbackOp}
    (hadmits : Admits w op) {r : Registration} (hr : r ∈ w.ledger.live) {i : CallbackIndex}
    (hi : Holds w.state i r) (hother : ∀ key, op = .unregister key → r.key ≠ key) :
    r ∈ (op.apply grow w).ledger.live ∧
      (op.apply grow w).state.callbackUniqueKeys i = r.key := by
  cases op with
  | register f key callback =>
    rcases implRegisterCallback_spec hgrow h.freeList f key callback with
      ⟨e, rows, t, -, he⟩ | ⟨j, t, hj, -, hok⟩
    · simp only [CallbackOp.apply, he]
      exact ⟨hr, hi.key⟩
    · simp only [CallbackOp.apply, hok]
      refine ⟨List.mem_cons_of_mem _ hr, ?_⟩
      -- the index a registration takes was free
      have hne : i ≠ j := by
        rintro rfl
        exact (h.live_ok r hr).2 (hi.callback.symm.trans hj)
      exact (Function.update_of_ne hne ..).trans hi.key
  | unregister key =>
    obtain ⟨r', hr', rfl⟩ := hadmits
    obtain ⟨j, hj⟩ := h.live_held r' hr'
    have hne := hother r'.key rfl
    simp only [CallbackOp.apply, h.unregister_held hr' hj]
    refine ⟨List.mem_filter.mpr ⟨hr, decide_eq_true hne⟩, ?_⟩
    have hij : i ≠ j := by
      rintro rfl
      exact hne (hi.key.symm.trans hj.key)
    exact (Function.update_of_ne hij ..).trans hi.key
  | convert f p =>
    have hlive : ∀ slot, (w.ledger.convert p slot).live = w.ledger.live := by
      intro slot
      unfold Ledger.convert
      split <;> rfl
    rcases implGetSandboxedPointer_spec hgrow h.freeList f p with
      ⟨slot, -, hok⟩ | ⟨e, rows, t, -, he⟩ | ⟨t, -, -, hok⟩
    · simp only [CallbackOp.apply, hok, hlive]
      exact ⟨hr, hi.key⟩
    · simp only [CallbackOp.apply, he]
      exact ⟨hr, hi.key⟩
    · simp only [CallbackOp.apply, hok, hlive]
      exact ⟨hr, hi.key⟩
  | guestGrow delta init => exact ⟨hr, hi.key⟩

/-- A live registration keeps its index until it is undone. -/
theorem Consistent.held_kept (h : Consistent n₀ w) (hgrow : grow.Appends) {op : CallbackOp}
    (hadmits : Admits w op) {r : Registration} (hr : r ∈ w.ledger.live) {i : CallbackIndex}
    (hi : Holds w.state i r) (hother : ∀ key, op = .unregister key → r.key ≠ key) :
    r ∈ (op.apply grow w).ledger.live ∧ Holds (op.apply grow w).state i r := by
  obtain ⟨hr', hkey⟩ := h.key_kept hgrow hadmits hr hi hother
  have hnext := apply_consistent hgrow h hadmits
  obtain ⟨j, hj⟩ := hnext.live_held r hr'
  have hji : j = i := by
    refine hnext.keys_inj j i (hj.key.trans hkey.symm) ?_
    rw [hj.key]
    exact (hnext.live_ok r hr').1
  exact ⟨hr', hji ▸ hj⟩

/-- And so does every run. -/
theorem reached_consistent {wasm2cInstance : HostPtr} {t : FuncrefTable} {ops : List CallbackOp}
    (hgrow : grow.Appends) (h : TableReached grow wasm2cInstance t ops w) :
    Consistent t.size w := by
  refine exec_invariant ?_ (fresh_consistent wasm2cInstance t) h.1 h.2
  rintro s op s' hs hadmits ⟨⟩
  exact apply_consistent hgrow hs hadmits

/-! ## The representation invariant -/

/-- In every reached state the slots of live callbacks and converted pointers are distinct
    rows of the table past the module's own elements; each live registration has exactly
    one index, which holds its callback, its key, its slot and, in that row, its
    interceptor; every other index is empty; and a slot whose callback was unregistered
    holds the null entry. -/
theorem callback_table_invariant {wasm2cInstance : HostPtr} {t : FuncrefTable}
    {ops : List CallbackOp} (hgrow : grow.Appends)
    (h : TableReached grow wasm2cInstance t ops w) :
    ((w.ledger.live.map Registration.slot ++ w.ledger.converted.map Prod.snd).Nodup ∧
      ∀ slot ∈ w.ledger.live.map Registration.slot ++ w.ledger.converted.map Prod.snd,
        t.size ≤ slot ∧ slot < w.state.sandboxCallbackTable.size) ∧
    (∀ r ∈ w.ledger.live, ∃ i, Holds w.state i r ∧
      ∀ j, w.state.callbackUniqueKeys j = r.key → j = i) ∧
    (∀ i, (∀ r ∈ w.ledger.live, ¬Holds w.state i r) → w.state.callbacks i = nullptr ∧
      w.state.callbackUniqueKeys i = nullptr ∧ w.state.callbackSlotAssignment i = 0) ∧
    ∀ r ∈ w.ledger.retired,
      w.state.sandboxCallbackTable.data[r.slot]? = some FuncRef.zero := by
  have hw := reached_consistent hgrow h
  -- the live and the converted slots are among those handed out
  have hsub : (w.ledger.live.map Registration.slot ++ w.ledger.converted.map Prod.snd).Sublist
      w.ledger.handed := (List.Sublist.refl _).append (List.sublist_append_right _ _)
  refine ⟨⟨hsub.nodup hw.handed_nodup, fun slot hslot => hw.handed_range slot (hsub.subset hslot)⟩,
    ?_, ?_, fun r hr => (hw.retired_null r hr).2⟩
  · intro r hr
    obtain ⟨i, hi⟩ := hw.live_held r hr
    refine ⟨i, hi, fun j hj => ?_⟩
    exact hw.keys_inj j i (hj.trans hi.key.symm) (hj ▸ (hw.live_ok r hr).1)
  · intro i hi
    have hnull : w.state.callbacks i = nullptr := by
      by_contra hne
      obtain ⟨r, hr, hheld⟩ := hw.index_live i hne
      exact hi r hr hheld
    exact ⟨hnull, hw.index_free i hnull⟩

end step

/-- A table of one element that may grow to six. -/
def smallTable : FuncrefTable := ⟨[⟨none, .host 900, 0⟩], 6, by decide, by decide⟩

def unaryInt : FuncType := ⟨some tPointerType, [tPointerType]⟩

/-- A callback is registered and undone, another takes its index, and the guest grows the
    table in between. -/
theorem callback_table_invariant_reuse :
    ∃ w : Table, w.ledger.live = [⟨12, 102, unaryInt, 4⟩] ∧
      w.ledger.retired = [⟨11, 101, unaryInt, 1⟩] ∧ w.ledger.converted = [(500, 2)] ∧
      (∃ i, Holds w.state i ⟨12, 102, unaryInt, 4⟩) ∧
      w.state.sandboxCallbackTable.data[1]? = some FuncRef.zero := by
  have h : TableReached growWithinMax 8 smallTable
      [.register unaryInt 11 101, .convert unaryInt 500, .guestGrow 1 FuncRef.zero,
        .unregister 11, .register unaryInt 12 102] _ := ⟨by decide, rfl⟩
  have hinv := callback_table_invariant growWithinMax_appends h
  obtain ⟨i, hi, -⟩ := hinv.2.1 ⟨12, 102, unaryInt, 4⟩ (by decide)
  exact ⟨_, rfl, rfl, rfl, ⟨i, hi⟩, hinv.2.2.2 ⟨11, 101, unaryInt, 1⟩ (by decide)⟩

end RlboxWasm2c

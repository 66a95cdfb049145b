import RlboxWasm2c.Base.RwLock
import RlboxWasm2c.Ledger

/- The functions that take `callback_mutex`, statement by statement.

   `implRegisterCallback`, `implUnregisterCallback`, `implGetSandboxedPointer` and
   `implGetUnsandboxedPointer` do in one step what the source does in many under a unique
   guard, and an interceptor fetches its callback under a shared one. Here every access to
   a field is a statement of its own (`next`), `compile_time_for` is the loop it unrolls to,
   and the guard is released where the section ends, also by a failed check: the exception
   runs the destructor of the guard. To store a row is three statements, one for each member
   of `wasm_rt_funcref_t`, in whatever order the compiler has them.

   `computes`: on its own, every section does what its one step says. By the rules of
   `RwLock` this carries over to any number of threads: `sections_linearize`,
   `sections_consistent`, `sections_drain`. `unguarded_reads` is about the reads that take
   no lock: the key of the executed callback, the callback itself where
   `RLBOX_SINGLE_THREADED_INVOCATIONS` leaves the guard out, and what guest code reads of
   the table to call an entry. A read or a write of one field or of one member of a row is
   taken to be indivisible, and so is `wasm_rt_grow_funcref_table`; a whole row is not, and
   one who reads its members without the lock can come to a mixture of two.

   Correspondence (C++ ↔ Lean):
     `RLBOX_ACQUIRE_UNIQUE_GUARD`, `RLBOX_ACQUIRE_SHARED_GUARD` ↔ `GuardedCall.mode`
     `impl_register_callback`                    ↔ `scanFree` to `writeAssignment`
     `new_callback_slot`                         ↔ `newSlot`, `growTable`
     `impl_get_sandboxed_pointer<T>`             ↔ `findPointer` to `writeAssignment`
     `impl_unregister_callback`                  ↔ `searchKey` to `clearSlotAssignment`
     `impl_get_unsandboxed_pointer<T>`           ↔ `findSlot`
     the guarded block of the interceptors       ↔ `readCallback`
     `sandbox_callback_table->data[slot_number] = func_val` ↔ `writeRow`, `clearRow`
   A `table.grow` of the guest takes no lock and is not part of this. -/
namespace RlboxWasm2c
open Runs RwLock

/-- A call of a function that takes the lock. -/
inductive GuardedCall where
  | registerCallback (f : FuncType) (key callback : HostPtr)
  | unregisterCallback (key : HostPtr)
  | getSandboxedPointer (f : FuncType) (p : HostPtr)
  | getUnsandboxedPointer (slot : Nat)
  | fetchCallback (n : CallbackIndex)
  deriving DecidableEq

/-- What it returns or throws. -/
inductive GuardedResult where
  | slot (slotNumber : Nat)
  | pointer (p : HostPtr)
  | unregistered
  | failed (check : DynamicCheck)
  deriving DecidableEq

def GuardedCall.mode : GuardedCall → Mode
  | .fetchCallback _ => .shared
  | .registerCallback _ _ _ | .unregisterCallback _ | .getSandboxedPointer _ _
  | .getUnsandboxedPointer _ => .exclusive

/-- For what a new slot is wanted; `foundLoc` is the free index found. -/
inductive SlotFor where
  | callback (f : FuncType) (key callback : HostPtr) (foundLoc : CallbackIndex)
  | pointer (f : FuncType) (p : HostPtr)

/-- `func_val`. -/
def SlotFor.funcVal (s : CallbackState) : SlotFor → FuncRef
  | .callback f _ _ foundLoc => interceptorRef s foundLoc f
  | .pointer f p => pointerRef s f p

/-- The members of `wasm_rt_funcref_t`. -/
inductive RowMember where
  | funcType
  | func
  | moduleInstance
  deriving DecidableEq

/-- The order in which the members of a row are stored. -/
abbrev StoreOrder := Fin 3 ≃ RowMember

/-- The row with the member as it is in `v`. -/
def FuncRef.store (r v : FuncRef) : RowMember → FuncRef
  | .funcType => { r with funcType := v.funcType }
  | .func => { r with func := v.func }
  | .moduleInstance => { r with moduleInstance := v.moduleInstance }

/-- A row that is not there reads as a null one: neither can be called. -/
def FuncrefTable.row (t : FuncrefTable) (slot : Nat) : FuncRef := t.data[slot]?.getD FuncRef.zero

/-- One member of `table->data[slot] = v`. -/
def FuncrefTable.setMember (t : FuncrefTable) (slot : Nat) (v : FuncRef) (m : RowMember) :
    FuncrefTable := t.set slot ((t.row slot).store v m)

/-- The next statement of a section, with its parameters and locals; `i` tells which of the
    members of a row is stored. -/
inductive At where
  | scanFree (f : FuncType) (key callback : HostPtr) (i : Nat) (foundLoc : Option CallbackIndex)
  | newSlot (k : SlotFor)
  | growTable (k : SlotFor)
  | writeRow (k : SlotFor) (slotNumber : Nat) (i : Fin 3)
  | writeKey (key callback : HostPtr) (foundLoc : CallbackIndex) (slotNumber : Nat)
  | writeCallback (callback : HostPtr) (foundLoc : CallbackIndex) (slotNumber : Nat)
  | writeSlotAssignment (callback : HostPtr) (foundLoc : CallbackIndex) (slotNumber : Nat)
  | writeAssignment (p : HostPtr) (slotNumber : Nat)
  | findPointer (f : FuncType) (p : HostPtr)
  | writeInternal (p : HostPtr) (slotNumber : Nat)
  | searchKey (key : HostPtr) (i : Nat)
  | clearRow (n : CallbackIndex) (slotNumber : Nat) (i : Fin 3)
  | clearKey (i : CallbackIndex)
  | clearCallback (i : CallbackIndex)
  | clearSlotAssignment (i : CallbackIndex)
  | findSlot (slot : Nat)
  | readCallback (n : CallbackIndex)
  | leave (out : GuardedResult)

def GuardedCall.entry : GuardedCall → At
  | .registerCallback f key callback => .scanFree f key callback 0 none
  | .unregisterCallback key => .searchKey key 0
  | .getSandboxedPointer f p => .findPointer f p
  | .getUnsandboxedPointer slot => .findSlot slot
  | .fetchCallback n => .readCallback n

/-- Where the section goes on when the row is stored. -/
def afterRow (slotNumber : Nat) : SlotFor → At
  | .callback _ key callback foundLoc => .writeKey key callback foundLoc slotNumber
  | .pointer _ p => .writeInternal p slotNumber

/-- The statement after the one that stores member `i` of a row. -/
def afterMember (row : Fin 3 → At) (rest : At) : Fin 3 → At
  | 0 => row 1
  | 1 => row 2
  | 2 => rest

section sections
variable (grow : GrowFuncrefTable) (order : StoreOrder)

/-- One statement; at `leave` the guard is gone. -/
def next : At → CallbackState → GuardedResult ⊕ (At × CallbackState)
  | .scanFree f key callback i foundLoc, s =>
    if h : i < maxCallbacks then
      if foundLoc = none ∧ s.callbacks ⟨i, h⟩ = nullptr then
        .inr (.scanFree f key callback (i + 1) (some ⟨i, h⟩), s)
      else .inr (.scanFree f key callback (i + 1) foundLoc, s)
    else
      match foundLoc with
      | some n => .inr (.newSlot (.callback f key callback n), s)
      | none => .inr (.leave (.failed .noEmptySlot), s)
  | .newSlot k, s =>
    match s.callbackFreeList.getLast? with
    | some ret =>
      .inr (.writeRow k ret 0, { s with callbackFreeList := s.callbackFreeList.dropLast })
    | none =>
      if s.sandboxCallbackTable.size < s.sandboxCallbackTable.maxSize then .inr (.growTable k, s)
      else .inr (.leave (.failed .noEmptyRow), s)
  | .growTable k, s =>
    let grown := grow s.sandboxCallbackTable 1 FuncRef.zero
    let s := { s with sandboxCallbackTable := grown.2 }
    if grown.1 ≠ 0 ∧ grown.1 ≠ 2 ^ 32 - 1 then .inr (.writeRow k grown.1 0, s)
    else .inr (.leave (.failed .slotNotAdded), s)
  | .writeRow k slotNumber i, s =>
    .inr (afterMember (.writeRow k slotNumber) (afterRow slotNumber k) i,
      { s with
        sandboxCallbackTable :=
          s.sandboxCallbackTable.setMember slotNumber (k.funcVal s) (order i) })
  | .writeKey key callback foundLoc slotNumber, s =>
    .inr (.writeCallback callback foundLoc slotNumber,
      { s with callbackUniqueKeys := Function.update s.callbackUniqueKeys foundLoc key })
  | .writeCallback callback foundLoc slotNumber, s =>
    .inr (.writeSlotAssignment callback foundLoc slotNumber,
      { s with callbacks := Function.update s.callbacks foundLoc callback })
  | .writeSlotAssignment callback foundLoc slotNumber, s =>
    .inr (.writeAssignment callback slotNumber,
      { s with
        callbackSlotAssignment := Function.update s.callbackSlotAssignment foundLoc slotNumber })
  | .writeAssignment p slotNumber, s =>
    .inr (.leave (.slot slotNumber),
      { s with slotAssignments := Function.update s.slotAssignments slotNumber (some p) })
  | .findPointer f p, s =>
    match s.internalCallbacks p with
    | some slotNumber => .inr (.leave (.slot slotNumber), s)
    | none => .inr (.newSlot (.pointer f p), s)
  | .writeInternal p slotNumber, s =>
    .inr (.writeAssignment p slotNumber,
      { s with internalCallbacks := Function.update s.internalCallbacks p (some slotNumber) })
  | .searchKey key i, s =>
    if h : i < maxCallbacks then
      if s.callbackUniqueKeys ⟨i, h⟩ = key then
        .inr (.clearRow ⟨i, h⟩ (s.callbackSlotAssignment ⟨i, h⟩) 0, s)
      else .inr (.searchKey key (i + 1), s)
    else .inr (.leave (.failed .callbackNotFound), s)
  | .clearRow n slotNumber i, s =>
    .inr (afterMember (.clearRow n slotNumber) (.clearKey n) i,
      { s with
        sandboxCallbackTable :=
          s.sandboxCallbackTable.setMember slotNumber FuncRef.zero (order i) })
  | .clearKey i, s =>
    .inr (.clearCallback i,
      { s with callbackUniqueKeys := Function.update s.callbackUniqueKeys i nullptr })
  | .clearCallback i, s =>
    .inr (.clearSlotAssignment i, { s with callbacks := Function.update s.callbacks i nullptr })
  | .clearSlotAssignment i, s =>
    .inr (.leave .unregistered,
      { s with callbackSlotAssignment := Function.update s.callbackSlotAssignment i 0 })
  | .findSlot slot, s =>
    match s.slotAssignments slot with
    | some ret => .inr (.leave (.pointer ret), s)
    | none => .inr (.leave (.pointer nullptr), s)
  | .readCallback n, s => .inr (.leave (.pointer (s.callbacks n)), s)
  | .leave out, _ => .inl out

/-- The sections of the header. -/
def callbackSections : Sections CallbackState GuardedCall At GuardedResult where
  mode := GuardedCall.mode
  entry := GuardedCall.entry
  next := fun _ => next grow order

def slotResult : Except DynamicCheck Nat → GuardedResult
  | .ok slotNumber => .slot slotNumber
  | .error e => .failed e

/-- The call as one step. -/
def GuardedCall.apply : GuardedCall → CallbackState → GuardedResult × CallbackState
  | .registerCallback f key callback, s =>
    (implRegisterCallback grow f key callback s).map slotResult id
  | .unregisterCallback key, s =>
    (implUnregisterCallback key s).map
      (fun
        | .ok () => .unregistered
        | .error e => .failed e) id
  | .getSandboxedPointer f p, s => (implGetSandboxedPointer grow f p s).map slotResult id
  | .getUnsandboxedPointer slot, s => (.pointer (implGetUnsandboxedPointer slot s), s)
  | .fetchCallback n, s => (.pointer (s.callbacks n), s)

end sections

/-! ## A row is its members -/

section rows
variable {t : FuncrefTable} {slot slot' : Nat} {r v : FuncRef} {m m' : RowMember}

/-- What is read of a field. -/
inductive FieldValue where
  | ptr (p : HostPtr)
  | funcType (c : Option GetFuncTypeCall)
  | func (f : FunctionPtr)
  | size (n : Nat)

def FuncRef.member (r : FuncRef) : RowMember → FieldValue
  | .funcType => .funcType r.funcType
  | .func => .func r.func
  | .moduleInstance => .ptr r.moduleInstance

/-- A row is its members. -/
theorem FuncRef.eq_of_members (h : ∀ m, r.member m = v.member m) : r = v := by
  obtain ⟨funcType, func, moduleInstance⟩ := r
  obtain ⟨funcType', func', moduleInstance'⟩ := v
  cases h .funcType
  cases h .func
  cases h .moduleInstance
  rfl

theorem FuncRef.store_self : (r.store v m).member m = v.member m := by cases m <;> rfl

theorem FuncRef.store_other (hne : m' ≠ m) : (r.store v m).member m' = r.member m' := by
  cases m <;> cases m' <;> first | rfl | exact absurd rfl hne

/-- When each of its members is stored the row is. -/
theorem FuncRef.store_all (order : StoreOrder) :
    ((r.store v (order 0)).store v (order 1)).store v (order 2) = v := by
  refine FuncRef.eq_of_members fun m => ?_
  obtain ⟨i, rfl⟩ := order.surjective m
  have hne : ∀ j k : Fin 3, j ≠ k → order j ≠ order k := fun j k => order.injective.ne
  match i with
  | 0 => rw [store_other (hne 0 2 (by decide)), store_other (hne 0 1 (by decide)), store_self]
  | 1 => rw [store_other (hne 1 2 (by decide)), store_self]
  | 2 => rw [store_self]

theorem set_setMember : (t.set slot r).setMember slot v m = t.set slot (r.store v m) := by
  unfold FuncrefTable.setMember FuncrefTable.row FuncrefTable.set
  by_cases h : slot < t.data.length
  · simp [List.getElem?_set_self h]
  · simp [List.set_eq_of_length_le (Nat.le_of_not_lt h)]

theorem row_set : (t.set slot v).row slot' =
    if slot = slot' ∧ slot < t.data.length then v else t.row slot' := by
  unfold FuncrefTable.row
  rw [FuncrefTable.set_data, List.getElem?_set]
  by_cases heq : slot = slot'
  · by_cases hlt : slot < t.data.length
    · rw [if_pos heq, if_pos hlt, if_pos ⟨heq, hlt⟩]
      rfl
    · rw [if_pos heq, if_neg hlt, if_neg fun h => hlt h.2, ← heq,
        List.getElem?_eq_none (Nat.le_of_not_lt hlt)]
  · rw [if_neg heq, if_neg fun h => heq h.1]

/-- A member that is not the one stored stays as it is, in every row. -/
theorem setMember_other (hne : m' ≠ m) :
    ((t.setMember slot v m).row slot').member m' = (t.row slot').member m' := by
  unfold FuncrefTable.setMember
  rw [row_set]
  split
  · next h =>
    obtain ⟨rfl, -⟩ := h
    exact FuncRef.store_other hne
  · rfl

/-- The three statements store the row. -/
theorem setMember_all (order : StoreOrder) (t : FuncrefTable) (slot : Nat) (v : FuncRef) :
    ((t.setMember slot v (order 0)).setMember slot v (order 1)).setMember slot v (order 2) =
      t.set slot v := by
  rw [FuncrefTable.setMember.eq_1 t, set_setMember, set_setMember, FuncRef.store_all]

end rows

/-! ## A section on its own -/

section computes
variable {grow : GrowFuncrefTable} {order : StoreOrder} {s : CallbackState}

/-- A section, whatever call it belongs to, makes statements. -/
def Goes (grow : GrowFuncrefTable) (order : StoreOrder) :
    At × CallbackState → At × CallbackState → Prop :=
  Relation.ReflTransGen fun x y => next grow order x.1 x.2 = .inr y

theorem Goes.head {x y z : At × CallbackState} (h : next grow order x.1 x.2 = .inr y)
    (hz : Goes grow order y z) : Goes grow order x z := Relation.ReflTransGen.head h hz

/-- After `i` rounds of `compile_time_for` the first free index among them is chosen. -/
theorem scanFree_goes (f : FuncType) (key callback : HostPtr) (i : Nat) (hi : i ≤ maxCallbacks) :
    Goes grow order (.scanFree f key callback 0 none, s)
      (.scanFree f key callback i
        (((List.finRange maxCallbacks).take i).find? fun n => s.callbacks n = nullptr), s) := by
  induction i with
  | zero => exact .refl
  | succ i ih =>
    refine (ih (Nat.le_of_succ_le hi)).tail ?_
    have hget : (List.finRange maxCallbacks)[i]? = some ⟨i, hi⟩ := by
      rw [List.getElem?_eq_getElem (by rw [List.length_finRange]; exact hi), List.getElem_finRange]
      rfl
    rw [List.take_add_one, hget, List.find?_append]
    simp only [next, dif_pos (show i < maxCallbacks from hi), Option.toList_some,
      List.find?_singleton]
    cases ((List.finRange maxCallbacks).take i).find? fun n => s.callbacks n = nullptr with
    | some n => simp
    | none => by_cases hfree : s.callbacks ⟨i, hi⟩ = nullptr <;> simp [hfree]

/-- The loop of `impl_unregister_callback` goes on until it finds the key. -/
theorem searchKey_goes (key : HostPtr) (i : Nat) (hi : i ≤ maxCallbacks)
    (hnone : ((List.finRange maxCallbacks).take i).find?
      (fun n => s.callbackUniqueKeys n = key) = none) :
    Goes grow order (.searchKey key 0, s) (.searchKey key i, s) := by
  induction i with
  | zero => exact .refl
  | succ i ih =>
    have hget : (List.finRange maxCallbacks)[i]? = some ⟨i, hi⟩ := by
      rw [List.getElem?_eq_getElem (by rw [List.length_finRange]; exact hi), List.getElem_finRange]
      rfl
    rw [List.take_add_one, hget, List.find?_append, Option.or_eq_none_iff] at hnone
    refine (ih (Nat.le_of_succ_le hi) hnone.1).tail ?_
    have hne : ¬s.callbackUniqueKeys ⟨i, hi⟩ = key := by simpa using hnone.2
    simp only [next, dif_pos (show i < maxCallbacks from hi), if_neg hne]

/-- The first index with the key is found. -/
theorem searchKey_finds {key : HostPtr} {i : CallbackIndex}
    (hfind : (List.finRange maxCallbacks).find? (fun n => s.callbackUniqueKeys n = key) = some i) :
    Goes grow order (.searchKey key 0, s) (.clearRow i (s.callbackSlotAssignment i) 0, s) := by
  obtain ⟨hkey, j, hj, hget, hbefore⟩ := List.find?_eq_some_iff_getElem.mp hfind
  rw [List.getElem_finRange] at hget
  have hij : i.1 = j := by rw [← hget]; rfl
  have hnone : ((List.finRange maxCallbacks).take i).find?
      (fun n => s.callbackUniqueKeys n = key) = none := by
    rw [List.find?_eq_none]
    intro n hn
    obtain ⟨k, hk, rfl⟩ := List.mem_iff_getElem.mp hn
    rw [List.length_take] at hk
    rw [List.getElem_take]
    simpa using hbefore k (by omega)
  refine (searchKey_goes key i i.2.le hnone).tail ?_
  have hkey : s.callbackUniqueKeys i = key := by simpa using hkey
  simp only [next, dif_pos i.2, Fin.eta, if_pos hkey]

/-- `new_callback_slot` inside a section. -/
theorem newSlot_goes (k : SlotFor) :
    Goes grow order (.newSlot k, s)
      (match (newCallbackSlot grow s).1 with
        | .ok slotNumber => .writeRow k slotNumber 0
        | .error e => .leave (.failed e),
        (newCallbackSlot grow s).2) := by
  unfold newCallbackSlot
  cases hlast : s.callbackFreeList.getLast? with
  | some ret => exact .head (by simp only [next, hlast]) .refl
  | none =>
    by_cases hsize : s.sandboxCallbackTable.size < s.sandboxCallbackTable.maxSize
    · refine .head (y := (.growTable k, s)) (by simp only [next, hlast, if_pos hsize]) ?_
      simp only [if_pos hsize]
      by_cases hgrown : (grow s.sandboxCallbackTable 1 FuncRef.zero).1 ≠ 0 ∧
          (grow s.sandboxCallbackTable 1 FuncRef.zero).1 ≠ 2 ^ 32 - 1
      · exact .head (by simp only [next, if_pos hgrown]) .refl
      · exact .head (by simp only [next, if_neg hgrown]) .refl
    · simp only [if_neg hsize]
      exact .head (by simp only [next, hlast, if_neg hsize]) .refl

/-- A row is stored member by member. -/
theorem writeRow_goes (k : SlotFor) (slotNumber : Nat) (s : CallbackState) :
    Goes grow order (.writeRow k slotNumber 0, s)
      (afterRow slotNumber k,
        { s with
          sandboxCallbackTable := s.sandboxCallbackTable.set slotNumber (k.funcVal s) }) := by
  rw [← setMember_all order]
  cases k <;> exact .head rfl (.head rfl (.head rfl .refl))

theorem clearRow_goes (n : CallbackIndex) (slotNumber : Nat) (s : CallbackState) :
    Goes grow order (.clearRow n slotNumber 0, s)
      (.clearKey n,
        { s with
          sandboxCallbackTable := s.sandboxCallbackTable.set slotNumber FuncRef.zero }) := by
  rw [← setMember_all order]
  exact .head rfl (.head rfl (.head rfl .refl))

theorem register_goes (f : FuncType) (key callback : HostPtr) :
    Goes grow order (.scanFree f key callback 0 none, s)
      (.leave (GuardedCall.apply grow (.registerCallback f key callback) s).1,
        (GuardedCall.apply grow (.registerCallback f key callback) s).2) := by
  have hscan : Goes grow order (.scanFree f key callback 0 none, s) _ :=
    scanFree_goes f key callback maxCallbacks (Nat.le_refl _)
  rw [List.take_of_length_le (by rw [List.length_finRange])] at hscan
  refine hscan.trans ?_
  simp only [GuardedCall.apply, implRegisterCallback]
  cases (List.finRange maxCallbacks).find? fun n => s.callbacks n = nullptr with
  | none => exact .head rfl .refl
  | some foundLoc =>
    refine Goes.head (y := (.newSlot (.callback f key callback foundLoc), s)) rfl ?_
    refine (newSlot_goes _).trans ?_
    obtain ⟨result, s'⟩ := newCallbackSlot grow s
    cases result with
    | error e => exact .refl
    | ok slotNumber =>
      refine (writeRow_goes _ slotNumber s').trans ?_
      -- the key, the callback, the slot assignment, the assignment
      exact .head rfl (.head rfl (.head rfl (.head rfl .refl)))

theorem convert_goes (f : FuncType) (p : HostPtr) :
    Goes grow order (.findPointer f p, s)
      (.leave (GuardedCall.apply grow (.getSandboxedPointer f p) s).1,
        (GuardedCall.apply grow (.getSandboxedPointer f p) s).2) := by
  simp only [GuardedCall.apply, implGetSandboxedPointer]
  cases hfound : s.internalCallbacks p with
  | some slotNumber => exact .head (by simp only [next, hfound]; rfl) .refl
  | none =>
    refine .head (y := (.newSlot (.pointer f p), s)) (by simp only [next, hfound]) ?_
    refine (newSlot_goes _).trans ?_
    obtain ⟨result, s'⟩ := newCallbackSlot grow s
    cases result with
    | error e => exact .refl
    | ok slotNumber => exact (writeRow_goes _ slotNumber s').trans (.head rfl (.head rfl .refl))

theorem unregister_goes (key : HostPtr) :
    Goes grow order (.searchKey key 0, s)
      (.leave (GuardedCall.apply grow (.unregisterCallback key) s).1,
        (GuardedCall.apply grow (.unregisterCallback key) s).2) := by
  simp only [GuardedCall.apply, implUnregisterCallback]
  cases hfind : (List.finRange maxCallbacks).find? fun i => s.callbackUniqueKeys i = key with
  | none =>
    have hall : ((List.finRange maxCallbacks).take maxCallbacks).find?
        (fun n => s.callbackUniqueKeys n = key) = none := by
      rw [List.take_of_length_le (by rw [List.length_finRange])]
      exact hfind
    exact (searchKey_goes key maxCallbacks (Nat.le_refl _) hall).trans (.head rfl .refl)
  | some i =>
    refine (searchKey_finds hfind).trans ?_
    refine (clearRow_goes i _ s).trans ?_
    exact .head rfl (.head rfl (.head rfl .refl))

/-- Every section ends, with the result and the fields of its one step, and an interceptor
    only reads. -/
theorem computes (grow : GrowFuncrefTable) (order : StoreOrder) :
    Computes (callbackSections grow order) (GuardedCall.apply grow) where
  ends := by
    intro op s
    refine ⟨.leave (op.apply grow s).1, ?_, rfl⟩
    cases op with
    | registerCallback f key callback => exact register_goes f key callback
    | unregisterCallback key => exact unregister_goes key
    | getSandboxedPointer f p => exact convert_goes f p
    | getUnsandboxedPointer slot =>
      refine .head (a := (At.findSlot slot, s)) ?_ .refl
      show next grow order (.findSlot slot) s = _
      simp only [next, GuardedCall.apply, implGetUnsandboxedPointer]
      cases s.slotAssignments slot <;> rfl
    | fetchCallback n => exact .head rfl .refl
  reads := by
    intro op s y hmode hsteps
    obtain ⟨n, rfl⟩ : ∃ n, op = .fetchCallback n := by
      cases op with
      | fetchCallback n => exact ⟨n, rfl⟩
      | registerCallback | unregisterCallback | getSandboxedPointer | getUnsandboxedPointer =>
        cases hmode
    have hreach : y = (.readCallback n, s) ∨ y = (.leave (.pointer (s.callbacks n)), s) := by
      induction hsteps with
      | refl => exact .inl rfl
      | tail _ hlast ih =>
        rcases ih with rfl | rfl
        · cases hlast
          exact .inr rfl
        · cases hlast
    rcases hreach with rfl | rfl <;> rfl

end computes

/-! ## Any number of threads -/

/-- Thread 0 registers ⟨11, 101⟩: it has searched the indices, added and written the row and
    written the key. Thread 1 wants to fetch callback `n` and thread 2 to convert a pointer. -/
def midway (n : CallbackIndex) : List (Move Nat GuardedCall) :=
  [.call 0 (.registerCallback unaryInt 11 101), .call 1 (.fetchCallback n), .acquire 0,
    .call 2 (.getSandboxedPointer unaryInt 500)] ++ List.replicate 135 (.run 0)

/-- They go on until all are done. -/
def overlapping (n : CallbackIndex) : List (Move Nat GuardedCall) :=
  midway n ++ [.run 0, .run 0, .run 0, .release 0, .acquire 1, .run 1, .release 1, .acquire 2] ++
    List.replicate 8 (.run 2) ++ [.release 2]

/-- The members are stored as they are declared. -/
def declared : StoreOrder where
  toFun
    | 0 => .funcType
    | 1 => .func
    | 2 => .moduleInstance
  invFun
    | .funcType => 0
    | .func => 1
    | .moduleInstance => 2
  left_inv i := by match i with | 0 | 1 | 2 => rfl
  right_inv m := by cases m <;> rfl

abbrev declaredSections : Sections CallbackState GuardedCall At GuardedResult :=
  callbackSections growWithinMax declared

/-- The fields of a sandbox just created. -/
def newState : CallbackState := .fresh 8 smallTable

/-- Threads that use one sandbox, and the same with calls that are one step. -/
abbrev Users (τ : Type) := Config τ CallbackState GuardedCall At GuardedResult

abbrev AtomicUsers (τ : Type) := Atomic τ CallbackState GuardedCall GuardedResult

section threads
variable {τ : Type} [DecidableEq τ] {grow : GrowFuncrefTable} {order : StoreOrder} {c : Users τ}

/-- The operations on the table among the calls. -/
def GuardedCall.tableOp : GuardedCall → Option CallbackOp
  | .registerCallback f key callback => some (.register f key callback)
  | .unregisterCallback key => some (.unregister key)
  | .getSandboxedPointer f p => some (.convert f p)
  | .getUnsandboxedPointer _ | .fetchCallback _ => none

def committed (log : List (τ × GuardedCall × GuardedResult)) : List CallbackOp :=
  log.filterMap fun e => e.2.1.tableOp

variable (grow) in
theorem apply_state (op : GuardedCall) (w : Table) :
    exec (tableStep grow) op.tableOp.toList w =
      some ((op.tableOp.elim w fun o => o.apply grow w)) ∧
    (op.tableOp.elim w fun o => o.apply grow w).state = (op.apply grow w.state).2 := by
  cases op with
  | registerCallback f key callback =>
    refine ⟨rfl, ?_⟩
    simp only [GuardedCall.tableOp, Option.elim, CallbackOp.apply, GuardedCall.apply]
    rcases implRegisterCallback grow f key callback w.state with ⟨_ | slot, s⟩ <;> rfl
  | unregisterCallback key =>
    refine ⟨rfl, ?_⟩
    simp only [GuardedCall.tableOp, Option.elim, CallbackOp.apply, GuardedCall.apply]
    rcases implUnregisterCallback key w.state with ⟨_ | _, s⟩ <;> rfl
  | getSandboxedPointer f p =>
    refine ⟨rfl, ?_⟩
    simp only [GuardedCall.tableOp, Option.elim, CallbackOp.apply, GuardedCall.apply]
    rcases implGetSandboxedPointer grow f p w.state with ⟨_ | slot, s⟩ <;> rfl
  | getUnsandboxedPointer slot | fetchCallback n => exact ⟨rfl, rfl⟩

omit [DecidableEq τ] in
/-- Operations done one after the other are a run of the table. -/
theorem legal_table {log : List (τ × GuardedCall × GuardedResult)} {w : Table}
    {s : CallbackState} (h : Legal (GuardedCall.apply grow) w.state log s) :
    ∃ w', exec (tableStep grow) (committed log) w = some w' ∧ w'.state = s := by
  induction h with
  | nil => exact ⟨w, rfl, rfl⟩
  | snoc log s' t op _ ih =>
    obtain ⟨w', hrun, rfl⟩ := ih
    obtain ⟨hstep, hstate⟩ := apply_state grow op w'
    refine ⟨_, ?_, hstate⟩
    have hsplit : committed (log ++ [(t, op, (op.apply grow w'.state).1)]) =
        committed log ++ op.tableOp.toList := by
      unfold committed
      rw [List.filterMap_append]
      cases hop : op.tableOp <;> simp [hop]
    rw [hsplit, exec_append, hrun]
    exact hstep

/-- However the statements of the threads are interleaved, the calls do what they do one
    after the other, in the order in which their guards are released: the results are
    those, and so are the fields whenever no unique guard is held. Only interceptors that
    fetch their callback are ever inside together. -/
theorem sections_linearize {ms : List (Move τ GuardedCall)} {s : CallbackState}
    (hrun : exec (step (callbackSections grow order)) ms (.start s) = some c) :
    ∃ x, exec (atomicStep (GuardedCall.apply grow)) (ms.filterMap Move.visible) (.start s) =
        some x ∧
      Legal (GuardedCall.apply grow) s x.log x.shared ∧
      (∀ t, x.threads t = (c.threads t).stage) ∧
      (∀ t op a, c.threads t = .finished op a → (t, op, a) ∈ x.log) ∧
      (c.lock.writer = none → c.shared = x.shared) ∧
      ∀ t u op r op' r', c.threads t = .inside op r → c.threads u = .inside op' r' → u ≠ t →
        op.mode = .shared := by
  obtain ⟨x, hx, hsim⟩ := exec_simulated (computes grow order) (start_simulates s) hrun
  have hrecorded := exec_recorded (start_recorded s) hx
  refine ⟨x, hx, hrecorded.legal, fun t => hsim.stage rfl, ?_, hsim.settled, ?_⟩
  · intro t op a ht
    exact hrecorded.results t op a (hsim.stage ht)
  · intro t u op r op' r' ht hu hne
    exact hsim.other_shared ht hu hne

set_option maxRecDepth 4000 in
theorem sections_linearize_overlapping :
    ∃ (c : Users Nat) (x : AtomicUsers Nat),
      exec (step declaredSections) (overlapping 0) (.start newState) = some c ∧
      exec (atomicStep (GuardedCall.apply growWithinMax)) ((overlapping 0).filterMap Move.visible)
        (.start newState) = some x ∧
      Legal (GuardedCall.apply growWithinMax) newState x.log x.shared ∧
      (1, .fetchCallback 0, .pointer 101) ∈ x.log ∧ c.shared = x.shared := by
  obtain ⟨x, hx, hlegal, -, hresults, hsettled, -⟩ :=
    sections_linearize (show exec (step declaredSections) (overlapping 0)
      (.start newState) = some _ from rfl)
  exact ⟨_, x, rfl, hx, hlegal, hresults 1 _ _ rfl, hsettled rfl⟩

/-- Where the host keeps its side in the order of the releases, the fields agree with the
    ledger of the calls done whenever no unique guard is held; and what an interceptor
    fetched is null or the callback of a registration live at that moment, whose index it
    is. -/
theorem sections_consistent (hgrow : grow.Appends) {ms : List (Move τ GuardedCall)}
    {wasm2cInstance : HostPtr} {t₀ : FuncrefTable}
    (hrun : exec (step (callbackSections grow order)) ms
      (.start (.fresh wasm2cInstance t₀)) = some c)
    (hadmits : ∀ x, exec (atomicStep (GuardedCall.apply grow)) (ms.filterMap Move.visible)
      (.start (.fresh wasm2cInstance t₀)) = some x →
        Meets (tableStep grow) Admits (committed x.log) (.fresh wasm2cInstance t₀)) :
    ∃ x w, exec (atomicStep (GuardedCall.apply grow)) (ms.filterMap Move.visible)
        (.start (.fresh wasm2cInstance t₀)) = some x ∧
      TableReached grow wasm2cInstance t₀ (committed x.log) w ∧ Consistent t₀.size w ∧
      (c.lock.writer = none → c.shared = w.state) ∧
      ∀ before after t n p, x.log = before ++ (t, .fetchCallback n, .pointer p) :: after →
        p = nullptr ∨ ∃ u, TableReached grow wasm2cInstance t₀ (committed before) u ∧
          ∃ r ∈ u.ledger.live, Holds u.state n r ∧ r.callback = p := by
  obtain ⟨x, hx, hsim⟩ := exec_simulated (computes grow order) (start_simulates _) hrun
  have hlegal := (exec_recorded (start_recorded _) hx).legal
  obtain ⟨w, hw, hstate⟩ := legal_table (w := .fresh wasm2cInstance t₀) hlegal
  have hreached : TableReached grow wasm2cInstance t₀ (committed x.log) w := ⟨hadmits x hx, hw⟩
  refine ⟨x, w, hx, hreached, reached_consistent hgrow hreached, ?_, ?_⟩
  · intro hwriter
    rw [hsim.settled hwriter, hstate]
  · intro before after t n p hlog
    obtain ⟨s, hbefore, hp⟩ := hlegal.entry hlog
    obtain ⟨u, hu, rfl⟩ := legal_table (w := .fresh wasm2cInstance t₀) hbefore
    have hmeets := hadmits x hx
    rw [hlog, committed, List.filterMap_append] at hmeets
    have hreached : TableReached grow wasm2cInstance t₀ (committed before) u :=
      ⟨Meets.left hmeets, hu⟩
    have hfetched : p = u.state.callbacks n := by cases hp; rfl
    by_cases hnull : p = nullptr
    · exact .inl hnull
    · obtain ⟨r, hr, hholds⟩ := (reached_consistent hgrow hreached).index_live n (hfetched ▸ hnull)
      exact .inr ⟨u, hreached, r, hr, hholds, hholds.callback.symm.trans hfetched.symm⟩

set_option maxRecDepth 4000 in
theorem sections_consistent_overlapping :
    ∃ (c : Users Nat) (w : Table),
      exec (step declaredSections) (overlapping 0) (.start newState) = some c ∧
      Consistent smallTable.size w ∧ c.shared = w.state := by
  obtain ⟨c, hrun, hwriter⟩ : ∃ c : Users Nat,
      exec (step declaredSections) (overlapping 0) (.start newState) = some c ∧
      c.lock.writer = none := ⟨_, rfl, rfl⟩
  obtain ⟨x, w, -, -, hconsistent, hshared, -⟩ :=
    sections_consistent growWithinMax_appends hrun (by
      intro x hx
      have hlog : committed x.log = [.register unaryInt 11 101, .convert unaryInt 500] := by
        rw [← Option.some.inj hx]
        rfl
      rw [hlog]
      decide)
  exact ⟨c, w, hrun, hconsistent, hshared hwriter⟩

/-- No call waits for ever for the lock: from every state reached, whatever was thrown on
    the way, the sections can be brought to their end. Then the lock is free and every call
    has its result; the threads that had one keep it. -/
theorem sections_drain {ms : List (Move τ GuardedCall)} {s : CallbackState}
    (hrun : exec (step (callbackSections grow order)) ms (.start s) = some c) :
    ∃ ms' c', (∀ m ∈ ms', m.Internal) ∧
      exec (step (callbackSections grow order)) (ms ++ ms') (.start s) = some c' ∧
      c'.lock = .free ∧
      ∀ t, match (c.threads t).stage with
        | .waiting op => ∃ a, c'.threads t = .finished op a
        | .idle | .finished _ _ => c'.threads t = c.threads t := by
  obtain ⟨x, -, hsim⟩ := exec_simulated (computes grow order) (start_simulates s) hrun
  obtain ⟨F, hF⟩ := exec_idle (F := ∅) (fun _ _ => rfl) hrun
  obtain ⟨c', ⟨ms', hms', hrun'⟩, hfree, honward, hdone⟩ := drained (computes grow order) hsim hF
  refine ⟨ms', c', hms', ?_, hfree, ?_⟩
  · rw [exec_append, hrun]
    exact hrun'
  · intro t
    rcases honward t with hsame | ⟨op, a, hwaiting, hfinished⟩
    · have hnot := hdone t
      rw [hsame] at hnot ⊢
      cases hstage : (c.threads t).stage with
      | waiting op => exact absurd hstage (hnot op)
      | idle | finished => rfl
    · rw [hwaiting]
      exact ⟨a, hfinished⟩

set_option maxRecDepth 4000 in
theorem sections_drain_midway :
    ∃ (ms' : List (Move Nat GuardedCall))
      (c' : Users Nat),
      exec (step declaredSections) (midway 0 ++ ms') (.start newState) = some c' ∧
      c'.lock = .free ∧ ∃ a, c'.threads 0 = .finished (.registerCallback unaryInt 11 101) a := by
  obtain ⟨ms', c', -, hrun, hfree, hdone⟩ :=
    sections_drain (show exec (step declaredSections) (midway 0) (.start newState) =
      some _ from rfl)
  exact ⟨ms', c', hrun, hfree, hdone 0⟩

/-! ## Reads that take no lock -/

/-- What is read without the lock. -/
inductive Unguarded where
  | key (n : CallbackIndex)
  | callback (n : CallbackIndex)
  | row (slot : Nat) (m : RowMember)
  | tableSize

def Unguarded.read : Unguarded → CallbackState → FieldValue
  | .key n, s => .ptr (s.callbackUniqueKeys n)
  | .callback n, s => .ptr (s.callbacks n)
  | .row slot m, s => (s.sandboxCallbackTable.row slot).member m
  | .tableSize, s => .size s.sandboxCallbackTable.size

/-- The statement that changes the field is past. -/
def Unguarded.past (order : StoreOrder) : Unguarded → At → Bool
  | _, .writeSlotAssignment _ _ _ | _, .writeAssignment _ _ | _, .clearSlotAssignment _
  | _, .leave _ => true
  | .key _, .writeCallback _ _ _ | .key _, .clearCallback _ => true
  | .row _ m, .writeRow _ _ i | .row _ m, .clearRow _ _ i => order.symm m < i
  | .row _ _, .writeKey _ _ _ _ | .row _ _, .writeCallback _ _ _ | .row _ _, .writeInternal _ _
  | .row _ _, .clearKey _ | .row _ _, .clearCallback _ => true
  | .tableSize, .writeRow _ _ _ | .tableSize, .writeKey _ _ _ _ | .tableSize, .writeCallback _ _ _
  | .tableSize, .writeInternal _ _ => true
  | _, _ => false

/-- A row added by the runtime is null. -/
theorem grown_row (hgrow : grow.Appends) (t : FuncrefTable) (slot : Nat) :
    (grow t 1 FuncRef.zero).2.row slot = t.row slot := by
  unfold FuncrefTable.row
  rcases hgrow t 1 FuncRef.zero with hfail | ⟨-, hdata⟩
  · simp only [hfail]
  · simp only [hdata]
    rcases Nat.lt_trichotomy slot t.data.length with hlt | rfl | hgt
    · rw [List.getElem?_append_left hlt]
    · simp
    · rw [List.getElem?_eq_none (by simpa using Nat.succ_le_of_lt hgt),
        List.getElem?_eq_none hgt.le]

/-- A member is changed by the statement that stores it. -/
theorem member_read {row : Fin 3 → At} {rest : At} {slot slot' : Nat} {m : RowMember} {v : FuncRef}
    {i : Fin 3} {t : FuncrefTable}
    (hrow : ∀ j, (Unguarded.row slot m).past order (row j) = decide (order.symm m < j))
    (hrest : (Unguarded.row slot m).past order rest = true) :
    (¬(Unguarded.row slot m).past order (row i) = true ∧
        (Unguarded.row slot m).past order (afterMember row rest i) = true) ∨
      ((Unguarded.row slot m).past order (row i) = true ↔
          (Unguarded.row slot m).past order (afterMember row rest i) = true) ∧
        ((t.setMember slot' v (order i)).row slot).member m = (t.row slot).member m := by
  obtain ⟨j, rfl⟩ := order.surjective m
  rw [Equiv.symm_apply_apply] at hrow
  have hafter : (Unguarded.row slot (order j)).past order (afterMember row rest i) =
      decide (j ≤ i) := by
    have hnext : ∀ j : Fin 3, decide (j < 1) = decide (j ≤ 0) ∧ decide (j < 2) = decide (j ≤ 1) ∧
        decide (j ≤ 2) = true := by decide
    match i with
    | 0 => exact (hrow 1).trans (hnext j).1
    | 1 => exact (hrow 2).trans (hnext j).2.1
    | 2 => exact hrest.trans (hnext j).2.2.symm
  rw [hafter, hrow, decide_eq_true_iff, decide_eq_true_iff]
  by_cases hji : j = i
  · exact .inl ⟨hji ▸ lt_irrefl j, hji.le⟩
  · refine .inr ⟨⟨le_of_lt, fun hle => lt_of_le_of_ne hle hji⟩, ?_⟩
    exact setMember_other (order.injective.ne hji)

/-- A field is changed by the statements that go past it only. -/
theorem next_read (hgrow : grow.Appends) (v : Unguarded) (r : At) (s : CallbackState) (r' : At)
    (s' : CallbackState) (h : next grow order r s = .inr (r', s')) :
    (¬v.past order r = true ∧ v.past order r' = true) ∨
      (v.past order r = true ↔ v.past order r' = true) ∧ v.read s' = v.read s := by
  -- the fields are as they were: the place decides
  have hkept : ∀ q, v.read s = v.read s' → (v.past order r = true → v.past order q = true) →
      q = r' → (¬v.past order r = true ∧ v.past order r' = true) ∨
        (v.past order r = true ↔ v.past order r' = true) ∧ v.read s' = v.read s := by
    rintro q hread hpast rfl
    by_cases hr : v.past order r = true
    · exact .inr ⟨iff_of_true hr (hpast hr), hread.symm⟩
    · by_cases hq : v.past order q = true
      · exact .inl ⟨hr, hq⟩
      · exact .inr ⟨iff_of_false hr hq, hread.symm⟩
  cases r with
  | scanFree f key callback i foundLoc =>
    simp only [next] at h
    split at h
    · split at h <;> cases h <;> exact hkept _ rfl (by cases v <;> exact id) rfl
    · split at h <;> cases h <;> exact hkept _ rfl (by cases v <;> simp [Unguarded.past]) rfl
  | newSlot k =>
    simp only [next] at h
    split at h
    · cases h
      exact hkept _ (by cases v <;> rfl) (by cases v <;> simp [Unguarded.past]) rfl
    · split at h <;> cases h <;> exact hkept _ rfl (by cases v <;> simp [Unguarded.past]) rfl
  | growTable k =>
    let t := (grow s.sandboxCallbackTable 1 FuncRef.zero).2
    simp only [next] at h
    cases v with
    | tableSize => split at h <;> cases h <;> exact .inl ⟨Bool.false_ne_true, rfl⟩
    | key n | callback n =>
      split at h <;> cases h <;> exact hkept _ rfl (by simp [Unguarded.past]) rfl
    | row slot m =>
      have hread : (s.sandboxCallbackTable.row slot).member m = (t.row slot).member m :=
        congrArg (FuncRef.member · m) (grown_row hgrow s.sandboxCallbackTable slot).symm
      split at h <;> cases h <;> exact hkept _ hread (by simp [Unguarded.past]) rfl
  | findPointer f p | findSlot slot =>
    simp only [next] at h
    split at h <;> cases h <;> exact hkept _ rfl (by cases v <;> simp [Unguarded.past]) rfl
  | searchKey key i =>
    simp only [next] at h
    split at h
    · split at h <;> cases h <;> exact hkept _ rfl (by cases v <;> exact id) rfl
    · cases h
      exact hkept _ rfl (by cases v <;> simp [Unguarded.past]) rfl
  | writeRow k slotNumber i =>
    cases h
    cases v with
    | row slot m => exact member_read (fun _ => rfl) (by cases k <;> rfl)
    | key n | callback n | tableSize =>
      refine .inr ⟨?_, by simp [Unguarded.read, FuncrefTable.setMember]⟩
      match i with
      | 0 | 1 => exact .rfl
      | 2 => cases k <;> exact .rfl
  | clearRow n slotNumber i =>
    cases h
    cases v with
    | row slot m => exact member_read (fun _ => rfl) rfl
    | key n | callback n | tableSize =>
      refine .inr ⟨?_, by simp [Unguarded.read, FuncrefTable.setMember]⟩
      match i with
      | 0 | 1 | 2 => exact .rfl
  | writeKey _ _ _ _ | clearKey i | writeCallback _ _ _ | clearCallback i
  | writeSlotAssignment _ _ _ | clearSlotAssignment i | writeAssignment _ _ | writeInternal _ _
  | readCallback n =>
    cases h
    cases v <;> simp [Unguarded.past, Unguarded.read]
  | leave out => cases h

/-- At every moment a key, a callback, a member of a row of the table or the size of the
    table, read without the lock, is what the calls done so far left, or what it will be once
    the one section in progress is done. -/
theorem unguarded_reads (hgrow : grow.Appends) {ms : List (Move τ GuardedCall)}
    {s : CallbackState}
    (hrun : exec (step (callbackSections grow order)) ms (.start s) = some c) (v : Unguarded) :
    ∃ x, exec (atomicStep (GuardedCall.apply grow)) (ms.filterMap Move.visible) (.start s) =
        some x ∧
      (v.read c.shared = v.read x.shared ∨
        ∃ t op, x.threads t = .waiting op ∧ c.lock.writer = some t ∧
          v.read c.shared = v.read (op.apply grow x.shared).2) := by
  obtain ⟨x, hx, hsim⟩ := exec_simulated (computes grow order) (start_simulates s) hrun
  refine ⟨x, hx, unlocked_read hsim ?_⟩
  intro op s r s' hsteps
  exact (computes grow order).changes_once (M := fun r => v.past order r = true)
    (fun _ r s r' s' h => next_read hgrow v r s r' s' h) hsteps

set_option maxRecDepth 4000 in
/-- The key is the new one before the registration is done. -/
theorem unguarded_reads_midway :
    ∃ (c : Users Nat) (x : AtomicUsers Nat),
      exec (step declaredSections) (midway 0) (.start newState) = some c ∧
      c.shared.callbackUniqueKeys 0 = 11 ∧
      ((Unguarded.key 0).read c.shared = (Unguarded.key 0).read x.shared ∨
        ∃ t op, x.threads t = .waiting op ∧ c.lock.writer = some t ∧
          (Unguarded.key 0).read c.shared =
            (Unguarded.key 0).read (op.apply growWithinMax x.shared).2) := by
  obtain ⟨c, hrun, hkey⟩ : ∃ c : Users Nat,
      exec (step declaredSections) (midway 0) (.start newState) = some c ∧
      c.shared.callbackUniqueKeys 0 = 11 := ⟨_, rfl, rfl⟩
  obtain ⟨x, -, hread⟩ := unguarded_reads growWithinMax_appends hrun (.key 0)
  exact ⟨c, x, hrun, hkey, hread⟩

set_option maxRecDepth 4000 in
/-- Between two of its stores a row is neither the one before nor the one after: it has its
    type, and its function is still null. -/
example : (exec (step declaredSections) ((midway 0).take 136) (.start newState)).map
    (fun c : Users Nat => c.shared.sandboxCallbackTable.row 1) =
      some ⟨some (getWasm2cFuncIndex unaryInt), .null, nullptr⟩ := rfl

end threads

end RlboxWasm2c

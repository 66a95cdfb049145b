import Mathlib.Algebra.Group.Nat.Defs
import Mathlib.Logic.Function.Basic
import Mathlib.Data.List.FinRange
import RlboxWasm2c.FuncTypes

/- The callback table of `rlbox_wasm2c_sandbox`: the three parallel arrays, the free
   list, the two pointer maps and the wasm function table, and the operations on them.

   Every operation returns its result together with the fields it leaves; a failed
   `dynamic_check` is an error that keeps what was written before it. The wasm runtime
   is not part of the repository: `wasm_rt_grow_funcref_table` is a parameter `grow`, and
   `GrowFuncrefTable.Appends` states what its callers rely on.

   Correspondence (C++ ↔ Lean):
     `new_callback_slot`, `free_callback_slot`      ↔ `newCallbackSlot`, `freeCallbackSlot`
     `impl_register_callback<T_Ret, T_Args...>`     ↔ `implRegisterCallback`
     `impl_unregister_callback`                     ↔ `implUnregisterCallback`
     `impl_get_sandboxed_pointer<T>`, and
     `impl_get_unsandboxed_pointer<T>`, where T
     is a function type                             ↔ `implGetSandboxedPointer`,
                                                      `implGetUnsandboxedPointer`
   The locks are left out: an operation is one step. -/
namespace RlboxWasm2c

/-- A host address. -/
abbrev HostPtr := Nat

abbrev nullptr : HostPtr := 0

/-- `MAX_CALLBACKS`. -/
abbrev maxCallbacks : Nat := 128

abbrev CallbackIndex := Fin maxCallbacks

/-- The checks of `impl_create_sandbox` before the instance is made, in their order. -/
inductive CreateCheck where
  | minWasi
  | minWasiInstance
  | capacity
  | heap
  | memory64
  deriving DecidableEq

def CreateCheck.message : CreateCheck → String
  | .minWasi => "Could not initialize min wasi"
  | .minWasiInstance => "Could not initialize min wasi instance"
  | .capacity => "Invalid capacity"
  | .heap => "Could not allocate a heap for the wasm2c sandbox"
  | .memory64 => "Does not support Wasm with memory64"

/-- The checks that can fail on the paths modelled here. -/
inductive DynamicCheck where
  | noEmptySlot
  | noEmptyRow
  | slotNotAdded
  | callbackNotFound
  | returnSlot
  | mallocSize
  | invalidPointer
  | alreadyInitialized
  | create (c : CreateCheck)
  | heapAligned
  deriving DecidableEq

def DynamicCheck.message : DynamicCheck → String
  | .noEmptySlot => "Could not find an empty slot in sandbox function table. This would " ++
      "happen if you have registered too many callbacks, or unsandboxed " ++
      "too many function pointers. You can file a bug if you want to " ++
      "increase the maximum allowed callbacks or unsadnboxed functions pointers"
  | .noEmptyRow => "Could not find an empty row in Wasm instance table. This would " ++
      "happen if you have registered too many callbacks, or unsandboxed " ++
      "too many function pointers."
  | .slotNotAdded => "Adding a new callback slot to the wasm instance failed."
  | .callbackNotFound => "Internal error: Could not find callback to unregister"
  | .returnSlot => "Error initializing return slot. Sandbox may be out of memory!"
  | .mallocSize => "Attempting to malloc more than the heap size"
  | .invalidPointer => "Received an invalid pointer"
  | .alreadyInitialized => "Sandbox already initialized"
  | .create c => c.message
  | .heapAligned => "Sandbox heap not aligned to 4GB"

/-- The text of a failure tells which check failed. -/
theorem DynamicCheck.message_injective (c d : DynamicCheck) (h : c.message = d.message) :
    c = d := by
  cases c with
  | create c =>
    cases d with
    | create d => cases c <;> cases d <;> first | rfl | exact absurd h (by decide +kernel)
    | _ => cases c <;> exact absurd h (by decide +kernel)
  | _ =>
    cases d with
    | create d => cases d <;> exact absurd h (by decide +kernel)
    | _ => first | rfl | exact absurd h (by decide +kernel)

/-! ## The wasm function table -/

/-- What an entry calls: interceptor `n` for a function type (the promoted one where the
    type returns a class), or the code at a host address. -/
inductive FunctionPtr where
  | null
  | interceptor (n : CallbackIndex) (type : FuncType)
  | host (p : HostPtr)
  deriving DecidableEq

/-- `wasm_rt_funcref_t`. -/
structure FuncRef where
  funcType : Option GetFuncTypeCall
  func : FunctionPtr
  moduleInstance : HostPtr
  deriving DecidableEq

/-- `wasm_rt_funcref_t func_val{ 0 }`. -/
def FuncRef.zero : FuncRef := ⟨none, .null, nullptr⟩

/-- `wasm_rt_funcref_table_t`; its `size` is the length of `data`. -/
structure FuncrefTable where
  data : List FuncRef
  maxSize : Nat
  size_le : data.length ≤ maxSize
  maxSize_lt : maxSize < 2 ^ 32

namespace FuncrefTable

def size (t : FuncrefTable) : Nat := t.data.length

/-- `table->data[slot] = v`. -/
def set (t : FuncrefTable) (slot : Nat) (v : FuncRef) : FuncrefTable :=
  { t with data := t.data.set slot v, size_le := by rw [List.length_set]; exact t.size_le }

@[simp] theorem set_data (t : FuncrefTable) (slot : Nat) (v : FuncRef) :
    (t.set slot v).data = t.data.set slot v := rfl

@[simp] theorem set_size (t : FuncrefTable) (slot : Nat) (v : FuncRef) :
    (t.set slot v).size = t.size := List.length_set

end FuncrefTable

/-- `wasm_rt_grow_funcref_table(table, delta, init)`: the result and the table left. -/
abbrev GrowFuncrefTable := FuncrefTable → Nat → FuncRef → Nat × FuncrefTable

/-- "On success, this returns the previous number of elements in the table", which now
    has `delta` more elements; on failure it returns -1 and the table is as it was. -/
def GrowFuncrefTable.Appends (grow : GrowFuncrefTable) : Prop :=
  ∀ t delta init,
    grow t delta init = (2 ^ 32 - 1, t) ∨
    (grow t delta init).1 = t.size ∧
      (grow t delta init).2.data = t.data ++ List.replicate delta init

/-- A runtime that has memory for every table up to its maximal size. -/
def growWithinMax : GrowFuncrefTable := fun t delta init =>
  if h : t.data.length + delta ≤ t.maxSize then
    (t.size,
      { t with
        data := t.data ++ List.replicate delta init
        size_le := by rw [List.length_append, List.length_replicate]; exact h })
  else (2 ^ 32 - 1, t)

theorem growWithinMax_appends : growWithinMax.Appends := by
  intro t delta init
  unfold growWithinMax
  by_cases h : t.data.length + delta ≤ t.maxSize
  · rw [dif_pos h]; exact .inr ⟨rfl, rfl⟩
  · rw [dif_neg h]; exact .inl rfl

/-! ## The fields and the operations -/

/-- The fields of `rlbox_wasm2c_sandbox` that callbacks and function pointers use;
    `wasm2cInstance` is the address of that member. -/
structure CallbackState where
  wasm2cInstance : HostPtr
  sandboxCallbackTable : FuncrefTable
  callbackFreeList : List Nat
  callbackUniqueKeys : CallbackIndex → HostPtr
  callbacks : CallbackIndex → HostPtr
  callbackSlotAssignment : CallbackIndex → Nat
  internalCallbacks : HostPtr → Option Nat
  slotAssignments : Nat → Option HostPtr

/-- A new object whose table is `t`. -/
def CallbackState.fresh (wasm2cInstance : HostPtr) (t : FuncrefTable) : CallbackState where
  wasm2cInstance := wasm2cInstance
  sandboxCallbackTable := t
  callbackFreeList := []
  callbackUniqueKeys := fun _ => nullptr
  callbacks := fun _ => nullptr
  callbackSlotAssignment := fun _ => 0
  internalCallbacks := fun _ => none
  slotAssignments := fun _ => none

/-- The entry `impl_register_callback` writes. -/
def interceptorRef (s : CallbackState) (n : CallbackIndex) (f : FuncType) : FuncRef :=
  ⟨some (getWasm2cFuncIndex f), .interceptor n f, s.wasm2cInstance⟩

/-- The entry `impl_get_sandboxed_pointer` writes. -/
def pointerRef (s : CallbackState) (f : FuncType) (p : HostPtr) : FuncRef :=
  ⟨some (getWasm2cFuncIndex f), .host p, s.wasm2cInstance⟩

section operations
variable (grow : GrowFuncrefTable)

def newCallbackSlot (s : CallbackState) : Except DynamicCheck Nat × CallbackState :=
  match s.callbackFreeList.getLast? with
  | some ret => (.ok ret, { s with callbackFreeList := s.callbackFreeList.dropLast })
  | none =>
    let currSize := s.sandboxCallbackTable.size
    if currSize < s.sandboxCallbackTable.maxSize then
      let grown := grow s.sandboxCallbackTable 1 FuncRef.zero
      let s := { s with sandboxCallbackTable := grown.2 }
      if grown.1 ≠ 0 ∧ grown.1 ≠ 2 ^ 32 - 1 then (.ok grown.1, s) else (.error .slotNotAdded, s)
    else (.error .noEmptyRow, s)

/-- No function of the header calls it. -/
def freeCallbackSlot (slot : Nat) (s : CallbackState) : CallbackState :=
  { s with callbackFreeList := s.callbackFreeList ++ [slot] }

/-- The first index whose callback is null is chosen. -/
def implRegisterCallback (f : FuncType) (key callback : HostPtr) (s : CallbackState) :
    Except DynamicCheck Nat × CallbackState :=
  match (List.finRange maxCallbacks).find? fun i => s.callbacks i = nullptr with
  | none => (.error .noEmptySlot, s)
  | some foundLoc =>
    match newCallbackSlot grow s with
    | (.error e, s) => (.error e, s)
    | (.ok slotNumber, s) =>
      (.ok slotNumber,
        { s with
          sandboxCallbackTable :=
            s.sandboxCallbackTable.set slotNumber (interceptorRef s foundLoc f)
          callbackUniqueKeys := Function.update s.callbackUniqueKeys foundLoc key
          callbacks := Function.update s.callbacks foundLoc callback
          callbackSlotAssignment := Function.update s.callbackSlotAssignment foundLoc slotNumber
          slotAssignments := Function.update s.slotAssignments slotNumber (some callback) })

/-- The first index with the key is cleared, with its table entry. -/
def implUnregisterCallback (key : HostPtr) (s : CallbackState) :
    Except DynamicCheck Unit × CallbackState :=
  match (List.finRange maxCallbacks).find? fun i => s.callbackUniqueKeys i = key with
  | none => (.error .callbackNotFound, s)
  | some i =>
    (.ok (),
      { s with
        sandboxCallbackTable :=
          s.sandboxCallbackTable.set (s.callbackSlotAssignment i) FuncRef.zero
        callbackUniqueKeys := Function.update s.callbackUniqueKeys i nullptr
        callbacks := Function.update s.callbacks i nullptr
        callbackSlotAssignment := Function.update s.callbackSlotAssignment i 0 })

def implGetUnsandboxedPointer (slot : Nat) (s : CallbackState) : HostPtr :=
  match s.slotAssignments slot with
  | some ret => ret
  | none => nullptr

def implGetSandboxedPointer (f : FuncType) (p : HostPtr) (s : CallbackState) :
    Except DynamicCheck Nat × CallbackState :=
  match s.internalCallbacks p with
  | some slotNumber => (.ok slotNumber, s)
  | none =>
    match newCallbackSlot grow s with
    | (.error e, s) => (.error e, s)
    | (.ok slotNumber, s) =>
      (.ok slotNumber,
        { s with
          sandboxCallbackTable := s.sandboxCallbackTable.set slotNumber (pointerRef s f p)
          internalCallbacks := Function.update s.internalCallbacks p (some slotNumber)
          slotAssignments := Function.update s.slotAssignments slotNumber (some p) })

/-! ## What each operation does

    As `free_callback_slot` is never called, the free list stays empty and a new slot is
    always the row after the last one. -/

variable {grow} {s : CallbackState}

/-- `new_callback_slot` fails, with rows added at most, or adds the row it returns. -/
theorem newCallbackSlot_spec (hgrow : grow.Appends) (hfree : s.callbackFreeList = []) :
    (∃ e rows, ∃ t : FuncrefTable, t.data = s.sandboxCallbackTable.data ++ rows ∧
      newCallbackSlot grow s = (.error e, { s with sandboxCallbackTable := t })) ∨
    ∃ t : FuncrefTable, t.data = s.sandboxCallbackTable.data ++ [FuncRef.zero] ∧
      newCallbackSlot grow s =
        (.ok s.sandboxCallbackTable.size, { s with sandboxCallbackTable := t }) := by
  unfold newCallbackSlot
  rw [hfree]
  simp only [List.getLast?_nil]
  by_cases hlt : s.sandboxCallbackTable.size < s.sandboxCallbackTable.maxSize
  · rw [if_pos hlt]
    have hmax := s.sandboxCallbackTable.maxSize_lt
    rcases hgrow s.sandboxCallbackTable 1 FuncRef.zero with hfail | ⟨hret, hdata⟩
    · left
      refine ⟨.slotNotAdded, [], s.sandboxCallbackTable, (List.append_nil _).symm, ?_⟩
      simp only [hfail, ne_eq, not_true_eq_false, and_false, if_false]
    · -- row 0 of an empty table is added and then refused
      by_cases hzero : s.sandboxCallbackTable.size = 0
      · left
        refine ⟨.slotNotAdded, _, (grow s.sandboxCallbackTable 1 FuncRef.zero).2, hdata, ?_⟩
        rw [hret, if_neg fun hne => hne.1 hzero]
      · right
        refine ⟨(grow s.sandboxCallbackTable 1 FuncRef.zero).2, hdata, ?_⟩
        rw [hret, if_pos ⟨hzero, by omega⟩]
  · left
    rw [if_neg hlt]
    refine ⟨.noEmptyRow, [], s.sandboxCallbackTable, (List.append_nil _).symm, ?_⟩
    rw [← hfree]

/-- Writing the row just added. -/
theorem set_new_row {t t' : FuncrefTable} (v : FuncRef) (h : t'.data = t.data ++ [FuncRef.zero]) :
    (t'.set t.size v).data = t.data ++ [v] := by
  rw [FuncrefTable.set_data, h, FuncrefTable.size, List.set_append_right _ _ (Nat.le_refl _)]
  simp

/-- The fields after a registration at index `i`, with `t` as the table. -/
def CallbackState.registerAt (s : CallbackState) (t : FuncrefTable) (i : CallbackIndex)
    (key callback : HostPtr) : CallbackState :=
  { s with
    sandboxCallbackTable := t
    callbackUniqueKeys := Function.update s.callbackUniqueKeys i key
    callbacks := Function.update s.callbacks i callback
    callbackSlotAssignment :=
      Function.update s.callbackSlotAssignment i s.sandboxCallbackTable.size
    slotAssignments :=
      Function.update s.slotAssignments s.sandboxCallbackTable.size (some callback) }

/-- The fields after a conversion of `p`, with `t` as the table. -/
def CallbackState.convertTo (s : CallbackState) (t : FuncrefTable) (p : HostPtr) :
    CallbackState :=
  { s with
    sandboxCallbackTable := t
    internalCallbacks :=
      Function.update s.internalCallbacks p (some s.sandboxCallbackTable.size)
    slotAssignments :=
      Function.update s.slotAssignments s.sandboxCallbackTable.size (some p) }

/-- The fields after index `i` is cleared. -/
def CallbackState.clearAt (s : CallbackState) (i : CallbackIndex) : CallbackState :=
  { s with
    sandboxCallbackTable :=
      s.sandboxCallbackTable.set (s.callbackSlotAssignment i) FuncRef.zero
    callbackUniqueKeys := Function.update s.callbackUniqueKeys i nullptr
    callbacks := Function.update s.callbacks i nullptr
    callbackSlotAssignment := Function.update s.callbackSlotAssignment i 0 }

/-- A registration fails, with rows added at most, or takes a free index and a new row. -/
theorem implRegisterCallback_spec (hgrow : grow.Appends) (hfree : s.callbackFreeList = [])
    (f : FuncType) (key callback : HostPtr) :
    (∃ e rows, ∃ t : FuncrefTable, t.data = s.sandboxCallbackTable.data ++ rows ∧
      implRegisterCallback grow f key callback s =
        (.error e, { s with sandboxCallbackTable := t })) ∨
    ∃ (i : CallbackIndex) (t : FuncrefTable), s.callbacks i = nullptr ∧
      t.data = s.sandboxCallbackTable.data ++ [interceptorRef s i f] ∧
      implRegisterCallback grow f key callback s =
        (.ok s.sandboxCallbackTable.size, s.registerAt t i key callback) := by
  unfold implRegisterCallback
  cases hfind : (List.finRange maxCallbacks).find? fun i => s.callbacks i = nullptr with
  | none => exact .inl ⟨_, [], s.sandboxCallbackTable, (List.append_nil _).symm, rfl⟩
  | some i =>
    have hnull : s.callbacks i = nullptr := by simpa using List.find?_some hfind
    rcases newCallbackSlot_spec hgrow hfree with ⟨e, rows, t, ht, he⟩ | ⟨t, ht, hok⟩
    · exact .inl ⟨e, rows, t, ht, by simp only [he]⟩
    · refine .inr ⟨i, t.set s.sandboxCallbackTable.size (interceptorRef s i f), hnull,
        set_new_row _ ht, ?_⟩
      simp only [hok]
      rfl

/-- A conversion finds the slot of the pointer, or fails, with rows added at most, or takes
    a new row for a pointer not met before. -/
theorem implGetSandboxedPointer_spec (hgrow : grow.Appends) (hfree : s.callbackFreeList = [])
    (f : FuncType) (p : HostPtr) :
    (∃ slot, s.internalCallbacks p = some slot ∧
      implGetSandboxedPointer grow f p s = (.ok slot, s)) ∨
    (∃ e rows, ∃ t : FuncrefTable, t.data = s.sandboxCallbackTable.data ++ rows ∧
      implGetSandboxedPointer grow f p s = (.error e, { s with sandboxCallbackTable := t })) ∨
    ∃ t : FuncrefTable, s.internalCallbacks p = none ∧
      t.data = s.sandboxCallbackTable.data ++ [pointerRef s f p] ∧
      implGetSandboxedPointer grow f p s =
        (.ok s.sandboxCallbackTable.size, s.convertTo t p) := by
  unfold implGetSandboxedPointer
  cases hfind : s.internalCallbacks p with
  | some slot => exact .inl ⟨slot, rfl, rfl⟩
  | none =>
    right
    rcases newCallbackSlot_spec hgrow hfree with ⟨e, rows, t, ht, he⟩ | ⟨t, ht, hok⟩
    · exact .inl ⟨e, rows, t, ht, by simp only [he]⟩
    · refine .inr ⟨t.set s.sandboxCallbackTable.size (pointerRef s f p), rfl,
        set_new_row _ ht, ?_⟩
      simp only [hok]
      rfl

/-- An unregistration clears the one index that has the key. -/
theorem implUnregisterCallback_spec {key : HostPtr} {i : CallbackIndex}
    (hi : s.callbackUniqueKeys i = key) (huniq : ∀ j, s.callbackUniqueKeys j = key → j = i) :
    implUnregisterCallback key s = (.ok (), s.clearAt i) := by
  unfold implUnregisterCallback
  cases hfind : (List.finRange maxCallbacks).find? fun j => s.callbackUniqueKeys j = key with
  | none =>
    have hnone := List.find?_eq_none.mp hfind i (List.mem_finRange i)
    simp [hi] at hnone
  | some j =>
    have hj : s.callbackUniqueKeys j = key := by simpa using List.find?_some hfind
    rw [huniq j hj]
    rfl

end operations
end RlboxWasm2c

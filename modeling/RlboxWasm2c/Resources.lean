import RlboxWasm2c.Base.Runs
import RlboxWasm2c.DataPointers

/- What an object acquires and releases: the reservation of its linear memory, the array of
   its funcref table and its wasm2c instance.

   `impl_destroy_sandbox` is the normal teardown and the error path of every check of
   `impl_create_sandbox`. What it releases it tells from pointers and flags that earlier
   creates and destroys left. `released_once_iff`: everything acquired is released exactly
   once if and only if no create fails at its heap or its memory64 check on an object that
   still has the data pointer of an earlier reservation or table array.

   Correspondence (C++ ↔ Lean):
     `impl_create_sandbox` up to the first
     check that fails                       ↔ `Holder.attemptCreate`
     `FALLIBLE_DYNAMIC_CHECK`               ↔ `Holder.fallibleDynamicCheck`
     `impl_destroy_sandbox`                 ↔ `Holder.implDestroySandbox`
     `destroy_wasm2c_memory`,
     `wasm_rt_free_funcref_table`           ↔ in `Holder.destroyMemory`, `Holder.freeTable`
   The first step of `impl_destroy_sandbox`, the free of the return slot, is left out here:
   without an invocation that returns a class there is none. The calls of minwasi are read
   from the input; what they acquire is left out. -/
namespace RlboxWasm2c
open Runs

/-- What an object acquires; the number tells one acquisition from another. -/
inductive Resource where
  | reservation (number : Nat)
  | tableArray (number : Nat)
  | wasm2cInstance (number : Nat)
  deriving DecidableEq

def Resource.number : Resource → Nat
  | .reservation n | .tableArray n | .wasm2cInstance n => n

/-- The fields `impl_create_sandbox` and `impl_destroy_sandbox` decide by. The two pointers
    are those to the local structures, or null; the two structures have the `data` they were
    given, with the number of the acquisition, or null. `acquired` and `released` are a
    record, newest first. -/
structure Holder where
  instanceInitialized : Bool
  minwasiInitInstSucceeded : Bool
  wasm2cInstance : Option Nat
  sandboxMemoryInfo : Bool
  localSandboxMemoryInfo : Option (WasmRtMemory × Nat)
  sandboxCallbackTable : Bool
  localSandboxCallbackTable : Option Nat
  acquired : List Resource
  released : List Resource

/-- What the code of a sandbox is compiled for. -/
structure ModuleType where
  config : Config
  initialMemoryPages : Nat
  isMemory64 : Bool

/-- `create_wasm2c_memory` can give the memory. -/
def ModuleType.Creates (m : ModuleType) (cap : Option MemCapacity) (heap : WasmRtMemory) : Prop :=
  ∃ os ans, SupportedPages os ∧
    (createWasm2cMemory m.config.width os (Words.wrap 32 m.initialMemoryPages) cap ans).1 = heap

/-- The arguments of a create and what its environment answers: whether minwasi could be
    initialized, and the memory `create_wasm2c_memory` gives. -/
structure CreateCall (m : ModuleType) where
  infallible : Bool
  customCapacity : Option MemCapacity
  minwasiInitSucceeded : Bool
  minwasiInitInstSucceeded : Bool
  heap : WasmRtMemory
  heap_created : m.Creates customCapacity heap

namespace Holder

/-- A newly constructed object. -/
def constructed : Holder where
  instanceInitialized := false
  minwasiInitInstSucceeded := false
  wasm2cInstance := none
  sandboxMemoryInfo := false
  localSandboxMemoryInfo := none
  sandboxCallbackTable := false
  localSandboxCallbackTable := none
  acquired := []
  released := []

def release (h : Holder) (r : Resource) : Holder := { h with released := r :: h.released }

/-! ## Creating -/

/-- The pointers are set to the local structures and the memory is assigned. -/
def createMemory (h : Holder) (heap : WasmRtMemory) : Holder :=
  let h := { h with sandboxMemoryInfo := true, sandboxCallbackTable := true }
  if heap.data = nullptr then { h with localSandboxMemoryInfo := none }
  else
    { h with
      localSandboxMemoryInfo := some (heap, h.acquired.length)
      acquired := .reservation h.acquired.length :: h.acquired }

/-- "Sets `table->data` to a new array". -/
def allocateFuncrefTable (h : Holder) : Holder :=
  { h with
    localSandboxCallbackTable := some h.acquired.length
    acquired := .tableArray h.acquired.length :: h.acquired }

def createInstance (h : Holder) : Holder :=
  { h with
    wasm2cInstance := some h.acquired.length
    acquired := .wasm2cInstance h.acquired.length :: h.acquired }

/-- The first check that fails and the fields at that point; `none` where all checks hold. -/
def attemptCreate {m : ModuleType} (call : CreateCall m) (h : Holder) :
    Option DynamicCheck × Holder :=
  if h.instanceInitialized then (some .alreadyInitialized, h)
  else if !call.minwasiInitSucceeded then (some (.create .minWasi), h)
  else
    let h := { h with minwasiInitInstSucceeded := call.minwasiInitInstSucceeded }
    if !call.minwasiInitInstSucceeded then (some (.create .minWasiInstance), h)
    else if call.customCapacity.any fun c => !c.isValid then (some (.create .capacity), h)
    else if m.config.isImportedMemoryAndTable then
      let h := h.createMemory call.heap
      if call.heap.data = nullptr then (some (.create .heap), h)
      else if m.isMemory64 then (some (.create .memory64), h)
      else
        let h := h.allocateFuncrefTable.createInstance
        if m.config.heapAligned && decide (call.heap.data &&& (2 ^ 32 - 1) ≠ 0) then
          (some .heapAligned, h)
        else (none, { h with instanceInitialized := true })
    else (none, { h.createInstance with instanceInitialized := true })

/-! ## Destroying -/

def freeInstance (h : Holder) : Holder :=
  if h.instanceInitialized then
    let h := { h with instanceInitialized := false }
    match h.wasm2cInstance with
    | some n => h.release (.wasm2cInstance n)
    | none => h
  else h

/-- `destroy_wasm2c_memory` sets `data` to null. -/
def destroyMemory (h : Holder) : Holder :=
  match h.sandboxMemoryInfo, h.localSandboxMemoryInfo with
  | true, some (_, n) =>
    { h.release (.reservation n) with localSandboxMemoryInfo := none, sandboxMemoryInfo := false }
  | _, _ => h

/-- `wasm_rt_free_funcref_table` leaves the fields of the table as they are. -/
def freeTable (h : Holder) : Holder :=
  match h.sandboxCallbackTable, h.localSandboxCallbackTable with
  | true, some n => { h.release (.tableArray n) with sandboxCallbackTable := false }
  | _, _ => h

def implDestroySandbox (m : ModuleType) (h : Holder) : Holder :=
  let h := h.freeInstance
  let h := if m.config.isImportedMemoryAndTable then h.destroyMemory.freeTable else h
  { h with minwasiInitInstSucceeded := false }

end Holder

/-! ## Runs on one object -/

/-- How a call ended: a fallible create that fails returns false, an infallible one throws. -/
inductive Outcome where
  | created
  | failed (check : DynamicCheck)
  | thrown (check : DynamicCheck)
  | destroyed
  deriving DecidableEq

/-- The object has been torn down by the call. -/
def Outcome.isTeardown : Outcome → Bool
  | .failed _ | .destroyed => true
  | .created | .thrown _ => false

def Holder.fallibleDynamicCheck (m : ModuleType) (infallible : Bool) (check : DynamicCheck)
    (h : Holder) : Outcome × Holder :=
  if infallible then (.thrown check, h) else (.failed check, h.implDestroySandbox m)

def Holder.implCreateSandbox {m : ModuleType} (call : CreateCall m) (h : Holder) :
    Outcome × Holder :=
  match h.attemptCreate call with
  | (some check, h) => h.fallibleDynamicCheck m call.infallible check
  | (none, h) => (.created, h)

inductive HolderInput (m : ModuleType) where
  | create (call : CreateCall m)
  | destroy

/-- The object and how the last call on it ended. -/
structure HolderState where
  holder : Holder
  outcome : Option Outcome

def HolderState.constructed : HolderState := ⟨.constructed, none⟩

def holderStep {m : ModuleType} (i : HolderInput m) (s : HolderState) : Option HolderState :=
  match i with
  | .create call =>
    let r := s.holder.implCreateSandbox call
    some ⟨r.2, some r.1⟩
  | .destroy => some ⟨s.holder.implDestroySandbox m, some .destroyed⟩

/-- Nothing was released twice; and where the last call tore the object down, everything
    acquired was released once. -/
structure ReleasedOnce (s : HolderState) : Prop where
  most : ∀ r, s.holder.released.count r ≤ 1
  teardown : s.outcome.any Outcome.isTeardown = true →
    ∀ r ∈ s.holder.acquired, s.holder.released.count r = 1

/-- On an object without an instance the call gets past `create_wasm2c_memory` and fails at
    the check of the heap or of memory64. -/
structure CreateCall.FailsAtMemory {m : ModuleType} (call : CreateCall m) : Prop where
  minwasi : call.minwasiInitSucceeded = true ∧ call.minwasiInitInstSucceeded = true
  capacity : (call.customCapacity.any fun c => !c.isValid) = false
  imported : m.config.isImportedMemoryAndTable = true
  fails : call.heap.data = nullptr ∨ m.isMemory64 = true

instance {m : ModuleType} (call : CreateCall m) : Decidable call.FailsAtMemory :=
  decidable_of_iff
    ((call.minwasiInitSucceeded = true ∧ call.minwasiInitInstSucceeded = true) ∧
      (call.customCapacity.any fun c => !c.isValid) = false ∧
      m.config.isImportedMemoryAndTable = true ∧
      (call.heap.data = nullptr ∨ m.isMemory64 = true))
    ⟨fun h => ⟨h.1, h.2.1, h.2.2.1, h.2.2.2⟩, fun h => ⟨h.minwasi, h.capacity, h.imported, h.fails⟩⟩

/-- Where the call fails there, the data pointers of the memory and of the table are null. -/
def Holder.FindsNull {m : ModuleType} (h : Holder) (call : CreateCall m) : Prop :=
  call.FailsAtMemory → h.localSandboxMemoryInfo = none ∧ h.localSandboxCallbackTable = none

instance {m : ModuleType} (h : Holder) (call : CreateCall m) : Decidable (h.FindsNull call) :=
  inferInstanceAs (Decidable (call.FailsAtMemory →
    h.localSandboxMemoryInfo = none ∧ h.localSandboxCallbackTable = none))

/-- A create on an object without an instance that fails at the heap or the memory64 check
    finds both data pointers null. -/
def KeepsTrack {m : ModuleType} (s : HolderState) : HolderInput m → Prop
  | .create call => s.holder.instanceInitialized = false → s.holder.FindsNull call
  | .destroy => True

instance {m : ModuleType} (s : HolderState) : DecidablePred (KeepsTrack (m := m) s)
  | .create call =>
    inferInstanceAs (Decidable (s.holder.instanceInitialized = false → s.holder.FindsNull call))
  | .destroy => .isTrue trivial

/-! ## What a destroy releases -/

namespace Holder

def owedTable (h : Holder) : List Resource :=
  if h.sandboxCallbackTable then h.localSandboxCallbackTable.toList.map .tableArray else []

def owedMemory (h : Holder) : List Resource :=
  if h.sandboxMemoryInfo then h.localSandboxMemoryInfo.toList.map fun x => .reservation x.2 else []

def owedInstance (h : Holder) : List Resource :=
  if h.instanceInitialized then h.wasm2cInstance.toList.map .wasm2cInstance else []

/-- What a destroy called now releases, newest first. -/
def owed (m : ModuleType) (h : Holder) : List Resource :=
  (if m.config.isImportedMemoryAndTable then h.owedTable ++ h.owedMemory else []) ++ h.owedInstance

theorem freeInstance_eq (h : Holder) :
    h.freeInstance =
      { h with instanceInitialized := false, released := h.owedInstance ++ h.released } := by
  unfold freeInstance owedInstance
  obtain ⟨init, _, inst, _, _, _, _, _, _⟩ := h
  cases init <;> cases inst <;> rfl

theorem destroyMemory_eq (h : Holder) :
    h.destroyMemory =
      { h with
        localSandboxMemoryInfo := if h.sandboxMemoryInfo then none else h.localSandboxMemoryInfo
        sandboxMemoryInfo := h.sandboxMemoryInfo && h.localSandboxMemoryInfo.isNone
        released := h.owedMemory ++ h.released } := by
  unfold destroyMemory owedMemory
  obtain ⟨_, _, _, info, localInfo, _, _, _, _⟩ := h
  cases info <;> cases localInfo <;> rfl

theorem freeTable_eq (h : Holder) :
    h.freeTable =
      { h with
        sandboxCallbackTable := h.sandboxCallbackTable && h.localSandboxCallbackTable.isNone
        released := h.owedTable ++ h.released } := by
  unfold freeTable owedTable
  obtain ⟨_, _, _, _, _, table, localTable, _, _⟩ := h
  cases table <;> cases localTable <;> rfl

/-- All that a destroy does. -/
theorem destroy_eq (m : ModuleType) (h : Holder) :
    h.implDestroySandbox m =
      { h with
        instanceInitialized := false
        minwasiInitInstSucceeded := false
        sandboxMemoryInfo :=
          if m.config.isImportedMemoryAndTable then
            h.sandboxMemoryInfo && h.localSandboxMemoryInfo.isNone
          else h.sandboxMemoryInfo
        localSandboxMemoryInfo :=
          if m.config.isImportedMemoryAndTable ∧ h.sandboxMemoryInfo then none
          else h.localSandboxMemoryInfo
        sandboxCallbackTable :=
          if m.config.isImportedMemoryAndTable then
            h.sandboxCallbackTable && h.localSandboxCallbackTable.isNone
          else h.sandboxCallbackTable
        released := h.owed m ++ h.released } := by
  unfold implDestroySandbox owed
  cases m.config.isImportedMemoryAndTable with
  | false => simp [freeInstance_eq]
  | true =>
    simp only [freeTable_eq, destroyMemory_eq, freeInstance_eq, if_true, true_and,
      List.append_assoc]
    rfl

theorem destroy_released (m : ModuleType) (h : Holder) :
    (h.implDestroySandbox m).released = h.owed m ++ h.released := by rw [destroy_eq]

theorem destroy_acquired (m : ModuleType) (h : Holder) :
    (h.implDestroySandbox m).acquired = h.acquired := by rw [destroy_eq]

theorem destroy_instance (m : ModuleType) (h : Holder) :
    (h.implDestroySandbox m).wasm2cInstance = h.wasm2cInstance := by rw [destroy_eq]

theorem destroy_initialized (m : ModuleType) (h : Holder) :
    (h.implDestroySandbox m).instanceInitialized = false := by rw [destroy_eq]

/-- The table keeps the pointer to its array. -/
theorem destroy_table (m : ModuleType) (h : Holder) :
    (h.implDestroySandbox m).localSandboxCallbackTable = h.localSandboxCallbackTable := by
  rw [destroy_eq]

/-- A destroy leaves nothing for another one. -/
theorem destroy_owed (m : ModuleType) (h : Holder) : (h.implDestroySandbox m).owed m = [] := by
  rw [destroy_eq]
  unfold owed owedTable owedMemory owedInstance
  cases m.config.isImportedMemoryAndTable with
  | false => rfl
  | true =>
    obtain ⟨_, _, _, info, localInfo, table, localTable, _, _⟩ := h
    cases info <;> cases localInfo <;> cases table <;> cases localTable <;> rfl

end Holder

/-! ## What a create acquires -/

section creating
variable {m : ModuleType} {call : CreateCall m} {h h' : Holder}

/-- A 64-bit host places every heap on a multiple of 4 GiB. -/
theorem Creates.aligned {cap : Option MemCapacity} {heap : WasmRtMemory}
    (hcreates : m.Creates cap heap) (hdata : heap.data ≠ nullptr)
    (haligned : m.config.heapAligned = true) : heap.data &&& (2 ^ 32 - 1) = 0 := by
  obtain ⟨os, ans, hp, hheap⟩ := hcreates
  obtain ⟨-, hwidth⟩ := Bool.and_eq_true_iff.mp haligned
  have h64 : m.config.width = .w64 := by
    cases hw : m.config.width with
    | w32 => rw [hw] at hwidth; cases hwidth
    | w64 => rfl
  rw [h64] at hheap
  have hmade : MadeWith .w64 cap ⟨heap.data, heap.size⟩ :=
    ⟨hdata, os, _, ans, hp, congrArg WasmRtMemory.data hheap⟩
  rw [Nat.and_two_pow_sub_one_eq_mod]
  exact Nat.mod_eq_zero_of_dvd hmade.aligned

/-- The fields once the memory was assigned. -/
def Holder.withMemory (h : Holder) (call : CreateCall m) : Holder :=
  { h with minwasiInitInstSucceeded := call.minwasiInitInstSucceeded }.createMemory call.heap

/-- How far a create comes. The heap is always aligned, so that check never fails. -/
inductive Attempted (call : CreateCall m) (h : Holder) : Option DynamicCheck × Holder → Prop
  | initialized (hinit : h.instanceInitialized = true) :
      Attempted call h (some .alreadyInitialized, h)
  | early (check : CreateCheck) (b : Bool) (hinit : h.instanceInitialized = false)
      (hfails : ¬call.FailsAtMemory) :
      Attempted call h (some (.create check), { h with minwasiInitInstSucceeded := b })
  | heap (hinit : h.instanceInitialized = false) (hfails : call.FailsAtMemory)
      (hdata : call.heap.data = nullptr) :
      Attempted call h (some (.create .heap), h.withMemory call)
  | memory64 (hinit : h.instanceInitialized = false) (hfails : call.FailsAtMemory)
      (hdata : call.heap.data ≠ nullptr) (hmemory : m.isMemory64 = true) :
      Attempted call h (some (.create .memory64), h.withMemory call)
  | imported (hinit : h.instanceInitialized = false)
      (himported : m.config.isImportedMemoryAndTable = true) (hdata : call.heap.data ≠ nullptr)
      (hmemory : m.isMemory64 = false) :
      Attempted call h (none,
        { (h.withMemory call).allocateFuncrefTable.createInstance with
          instanceInitialized := true })
  | exported (hinit : h.instanceInitialized = false)
      (hexported : m.config.isImportedMemoryAndTable = false) :
      Attempted call h (none,
        { h.createInstance with
          minwasiInitInstSucceeded := call.minwasiInitInstSucceeded
          instanceInitialized := true })

theorem attemptCreate_cases (call : CreateCall m) (h : Holder) :
    Attempted call h (h.attemptCreate call) := by
  unfold Holder.attemptCreate
  dsimp only
  -- the checks in their order, each with what was acquired before it
  split
  · next hinit => exact .initialized hinit
  next hinit =>
  have hinit' : h.instanceInitialized = false := by simpa using hinit
  split
  · next hminwasi =>
    refine .early .minWasi h.minwasiInitInstSucceeded hinit' fun hfails => ?_
    simp [hfails.minwasi.1] at hminwasi
  next hminwasi =>
  split
  · next hinstance =>
    refine .early .minWasiInstance _ hinit' fun hfails => ?_
    simp [hfails.minwasi.2] at hinstance
  next hinstance =>
  split
  · next hcapacity =>
    refine .early .capacity _ hinit' fun hfails => ?_
    rw [hfails.capacity] at hcapacity
    cases hcapacity
  next hcapacity =>
  split
  · next himported =>
    have hfails : call.heap.data = nullptr ∨ m.isMemory64 = true → call.FailsAtMemory :=
      fun hfails => ⟨⟨by simpa using hminwasi, by simpa using hinstance⟩,
        Bool.not_eq_true _ ▸ hcapacity, himported, hfails⟩
    split
    · next hdata => exact .heap hinit' (hfails (.inl hdata)) hdata
    next hdata =>
    split
    · next hmemory => exact .memory64 hinit' (hfails (.inr hmemory)) hdata hmemory
    next hmemory =>
    split
    · next hmisaligned =>
      obtain ⟨haligned, hbits⟩ := Bool.and_eq_true_iff.mp hmisaligned
      exact absurd (Creates.aligned call.heap_created hdata haligned) (by simpa using hbits)
    · exact .imported hinit' himported hdata (by simpa using hmemory)
  · next hexported => exact .exported hinit' (by simpa using hexported)

/-! ## The record of an object -/

/-- Acquisitions numbered in their order. -/
structure Numbered (acquired : List Resource) : Prop where
  lt : ∀ r ∈ acquired, r.number < acquired.length
  nodup : acquired.Nodup

theorem Numbered.cons {acquired : List Resource} (h : Numbered acquired) {r : Resource}
    (hr : r.number = acquired.length) : Numbered (r :: acquired) where
  lt := by
    intro r' hr'
    rw [List.length_cons]
    rcases List.mem_cons.mp hr' with rfl | hmem
    · omega
    · have hlt := h.lt r' hmem
      omega
  nodup := by
    refine List.nodup_cons.mpr ⟨fun hmem => ?_, h.nodup⟩
    have hlt := h.lt r hmem
    omega

namespace Holder

/-- The instance of the object is made and not freed. -/
def Live (h : Holder) : Prop :=
  ∃ n, h.wasm2cInstance = some n ∧ .wasm2cInstance n ∈ h.acquired ∧
    .wasm2cInstance n ∉ h.released

/-- The memory has reservation `n`. -/
structure HasReservation (m : ModuleType) (h : Holder) (n : Nat) : Prop where
  acquired : .reservation n ∈ h.acquired
  kept : .reservation n ∉ h.released
  pointer : h.sandboxMemoryInfo = true
  imported : m.config.isImportedMemoryAndTable = true
  life : h.instanceInitialized = true ∨ m.isMemory64 = true

/-- The table has array `n`, which was released unless it is that of the present life. -/
structure HasArray (m : ModuleType) (h : Holder) (n : Nat) : Prop where
  acquired : .tableArray n ∈ h.acquired
  imported : m.config.isImportedMemoryAndTable = true
  life : h.instanceInitialized = true ∧ h.sandboxCallbackTable = true ∨ .tableArray n ∈ h.released

/-- What the fields name was acquired, and the object has a live instance if it says so. -/
structure Sound (m : ModuleType) (h : Holder) : Prop where
  numbered : Numbered h.acquired
  released : ∀ r ∈ h.released, r ∈ h.acquired
  wasm2cInstance : ∀ n, h.wasm2cInstance = some n → .wasm2cInstance n ∈ h.acquired
  live : h.instanceInitialized = true ↔ h.Live
  memory : ∀ x, h.localSandboxMemoryInfo = some x → h.HasReservation m x.2
  table : ∀ n, h.localSandboxCallbackTable = some n → h.HasArray m n

/-- What was released and what a destroy would release are what was acquired. -/
def Tracked (m : ModuleType) (h : Holder) : Prop := (h.owed m ++ h.released).Perm h.acquired

instance (m : ModuleType) (h : Holder) : Decidable (h.Tracked m) :=
  inferInstanceAs (Decidable ((h.owed m ++ h.released).Perm h.acquired))

theorem constructed_sound : constructed.Sound m where
  numbered := ⟨by rintro r ⟨⟩, List.nodup_nil⟩
  released := by rintro r ⟨⟩
  wasm2cInstance := by rintro n ⟨⟩
  live := iff_of_false Bool.false_ne_true (by rintro ⟨n, ⟨⟩, -⟩)
  memory := by rintro x ⟨⟩
  table := by rintro n ⟨⟩

namespace Sound

/-- Nothing is owed that was not acquired. -/
theorem owed_acquired (hs : h.Sound m) {r : Resource} (hr : r ∈ h.owed m) : r ∈ h.acquired := by
  have htable : r ∈ h.owedTable → r ∈ h.acquired := by
    intro hr
    unfold owedTable at hr
    split at hr
    · obtain ⟨n, hn, rfl⟩ := List.mem_map.mp hr
      exact (hs.table n (Option.mem_toList.mp hn)).acquired
    · cases hr
  have hmemory : r ∈ h.owedMemory → r ∈ h.acquired := by
    intro hr
    unfold owedMemory at hr
    split at hr
    · obtain ⟨x, hx, rfl⟩ := List.mem_map.mp hr
      exact (hs.memory x (Option.mem_toList.mp hx)).acquired
    · cases hr
  have hinstance : r ∈ h.owedInstance → r ∈ h.acquired := by
    intro hr
    unfold owedInstance at hr
    split at hr
    · obtain ⟨n, hn, rfl⟩ := List.mem_map.mp hr
      exact hs.wasm2cInstance n (Option.mem_toList.mp hn)
    · cases hr
  unfold owed at hr
  split at hr
  · simp only [List.mem_append] at hr
    tauto
  · exact hinstance hr

/-- A destroy frees the instance of the object. -/
theorem destroy_not_live (hs : h.Sound m) : ¬(h.implDestroySandbox m).Live := by
  rintro ⟨n, hn, -, hkept⟩
  rw [destroy_instance] at hn
  rw [destroy_released] at hkept
  -- released by this destroy if the object was live, else by an earlier one
  have hfreed : .wasm2cInstance n ∈ h.owed m ++ h.released := by
    by_cases hinit : h.instanceInitialized = true
    · refine List.mem_append_left _ (List.mem_append_right _ ?_)
      unfold owedInstance
      rw [if_pos hinit, hn]
      exact List.mem_cons_self ..
    · refine List.mem_append_right _ ?_
      by_contra hnot
      exact hinit (hs.live.mpr ⟨n, hn, hs.wasm2cInstance n hn, hnot⟩)
  exact hkept hfreed

theorem destroy (hs : h.Sound m) : (h.implDestroySandbox m).Sound m where
  numbered := by
    rw [destroy_acquired]
    exact hs.numbered
  released := by
    intro r hr
    rw [destroy_released] at hr
    rw [destroy_acquired]
    rcases List.mem_append.mp hr with howed | hreleased
    · exact hs.owed_acquired howed
    · exact hs.released r hreleased
  wasm2cInstance := by
    intro n hn
    rw [destroy_instance] at hn
    rw [destroy_acquired]
    exact hs.wasm2cInstance n hn
  live := by
    rw [destroy_initialized]
    exact iff_of_false Bool.false_ne_true hs.destroy_not_live
  memory := by
    intro x hx
    rw [destroy_eq] at hx
    dsimp only at hx
    -- the struct keeps its fields unless the destroy reaches the memory
    split at hx
    · cases hx
    · next hkept =>
      exact absurd ⟨(hs.memory x hx).imported, (hs.memory x hx).pointer⟩ hkept
  table := by
    intro n hn
    rw [destroy_table] at hn
    obtain ⟨hmem, himported, hlife⟩ := hs.table n hn
    refine ⟨?_, himported, .inr ?_⟩
    · rw [destroy_acquired]
      exact hmem
    rw [destroy_released]
    rcases hlife with ⟨-, hset⟩ | hreleased
    · have howed : h.owedTable = [.tableArray n] := by
        unfold owedTable
        rw [if_pos hset, hn]
        rfl
      unfold owed
      rw [if_pos himported, howed]
      exact List.mem_cons_self ..
    · exact List.mem_append_right _ hreleased

/-- The table array of an object without an instance was released. -/
theorem table_released (hs : h.Sound m) (hinit : h.instanceInitialized = false) {n : Nat}
    (hn : h.localSandboxCallbackTable = some n) : .tableArray n ∈ h.released := by
  obtain ⟨-, -, ⟨hlive, -⟩ | hreleased⟩ := hs.table n hn
  · rw [hinit] at hlive
    cases hlive
  · exact hreleased

/-- A resource acquired next is a new one. -/
theorem fresh (hs : h.Sound m) {r : Resource} (hr : h.acquired.length ≤ r.number) :
    r ∉ h.released := by
  intro hmem
  have hlt := hs.numbered.lt r (hs.released r hmem)
  omega

end Sound

theorem withMemory_null (hdata : call.heap.data = nullptr) :
    h.withMemory call =
      { h with
        minwasiInitInstSucceeded := call.minwasiInitInstSucceeded
        sandboxMemoryInfo := true
        sandboxCallbackTable := true
        localSandboxMemoryInfo := none } := by
  unfold withMemory createMemory
  rw [if_pos hdata]

theorem withMemory_data (hdata : call.heap.data ≠ nullptr) :
    h.withMemory call =
      { h with
        minwasiInitInstSucceeded := call.minwasiInitInstSucceeded
        sandboxMemoryInfo := true
        sandboxCallbackTable := true
        localSandboxMemoryInfo := some (call.heap, h.acquired.length)
        acquired := .reservation h.acquired.length :: h.acquired } := by
  unfold withMemory createMemory
  rw [if_neg hdata]

theorem Sound.not_live (hs : h.Sound m) (hinit : h.instanceInitialized = false) : ¬h.Live := by
  intro hlive
  have htrue := hs.live.mpr hlive
  rw [hinit] at htrue
  cases htrue

theorem attempted_sound {check : Option DynamicCheck} (hs : h.Sound m)
    (hattempt : Attempted call h (check, h')) : h'.Sound m := by
  -- what was acquired stays so when more is
  have hmore : ∀ {r : Resource} (more : List Resource), r ∈ h.acquired → r ∈ more ++ h.acquired :=
    fun more hr => List.mem_append_right more hr
  cases hattempt with
  | initialized => exact hs
  | early check b =>
    refine ⟨hs.numbered, hs.released, hs.wasm2cInstance, hs.live, ?_, ?_⟩
    · intro x hx
      obtain ⟨hmem, hkept, hpointer, himported, hlife⟩ := hs.memory x hx
      exact ⟨hmem, hkept, hpointer, himported, hlife⟩
    · intro n hn
      obtain ⟨hmem, himported, hlife⟩ := hs.table n hn
      exact ⟨hmem, himported, hlife⟩
  | heap hinit hfails hdata =>
    rw [withMemory_null hdata]
    refine ⟨hs.numbered, hs.released, hs.wasm2cInstance, hs.live, by rintro x ⟨⟩, ?_⟩
    intro n hn
    exact ⟨(hs.table n hn).acquired, hfails.imported, .inr (hs.table_released hinit hn)⟩
  | memory64 hinit hfails hdata hmemory =>
    rw [withMemory_data hdata]
    refine ⟨hs.numbered.cons rfl, ?_, ?_, ?_, ?_, ?_⟩
    · intro r hr
      exact hmore [_] (hs.released r hr)
    · intro n hn
      exact hmore [_] (hs.wasm2cInstance n hn)
    · refine iff_of_false (by rw [hinit]; exact Bool.false_ne_true) ?_
      rintro ⟨n, hn, -, hkept⟩
      exact hs.not_live hinit ⟨n, hn, hs.wasm2cInstance n hn, hkept⟩
    · rintro x ⟨⟩
      exact ⟨List.mem_cons_self .., hs.fresh (Nat.le_refl _), rfl, hfails.imported, .inr hmemory⟩
    · intro n hn
      exact ⟨hmore [_] (hs.table n hn).acquired, hfails.imported,
        .inr (hs.table_released hinit hn)⟩
  | imported hinit himported hdata hmemory =>
    rw [withMemory_data hdata]
    refine ⟨((hs.numbered.cons rfl).cons rfl).cons rfl, ?_, ?_, ?_, ?_, ?_⟩
    · intro r hr
      exact hmore [_, _, _] (hs.released r hr)
    · rintro n ⟨⟩
      exact List.mem_cons_self ..
    · refine iff_of_true rfl ⟨_, rfl, List.mem_cons_self .., hs.fresh ?_⟩
      exact Nat.le_add_right _ 2
    · rintro x ⟨⟩
      refine ⟨?_, hs.fresh (Nat.le_refl _), rfl, himported, .inl rfl⟩
      simp [createInstance, allocateFuncrefTable]
    · rintro n ⟨⟩
      refine ⟨?_, himported, .inl ⟨rfl, rfl⟩⟩
      simp [createInstance, allocateFuncrefTable]
  | exported hinit hexported =>
    refine ⟨hs.numbered.cons rfl, ?_, ?_, ?_, ?_, ?_⟩
    · intro r hr
      exact hmore [_] (hs.released r hr)
    · rintro n ⟨⟩
      exact List.mem_cons_self ..
    · exact iff_of_true rfl ⟨_, rfl, List.mem_cons_self .., hs.fresh (Nat.le_refl _)⟩
    · intro x hx
      have himported := (hs.memory x hx).imported
      rw [hexported] at himported
      cases himported
    · intro n hn
      have himported := (hs.table n hn).imported
      rw [hexported] at himported
      cases himported

/-! ## What the fields still tell -/

theorem destroy_tracked : (h.implDestroySandbox m).Tracked m ↔ h.Tracked m := by
  unfold Tracked
  rw [destroy_owed, destroy_released, destroy_acquired, List.nil_append]

/-- Without an instance, what was released is all that was acquired if the data pointers are
    null. -/
theorem tracked_null (hinit : h.instanceInitialized = false)
    (hmemory : h.localSandboxMemoryInfo = none) (htable : h.localSandboxCallbackTable = none) :
    h.Tracked m ↔ h.released.Perm h.acquired := by
  have howed : h.owed m = [] := by
    unfold owed owedTable owedMemory owedInstance
    rw [hinit, hmemory, htable]
    simp
  unfold Tracked
  rw [howed, List.nil_append]

/-- Once the pointers are set, the table array is released (again) by the next destroy, and
    the reservation the memory had before is lost. -/
theorem lost_iff (hs : h.Sound m) (hinit : h.instanceInitialized = false) :
    (h.localSandboxCallbackTable.toList.map Resource.tableArray ++ h.released).Perm h.acquired ↔
      h.Tracked m ∧ h.localSandboxMemoryInfo = none ∧ h.localSandboxCallbackTable = none := by
  constructor
  · intro hperm
    have htable : h.localSandboxCallbackTable = none := by
      cases hlocal : h.localSandboxCallbackTable with
      | none => rfl
      | some n =>
        rw [hlocal] at hperm
        have hnodup := hperm.nodup_iff.mpr hs.numbered.nodup
        exact absurd (hs.table_released hinit hlocal) (List.nodup_cons.mp hnodup).1
    rw [htable] at hperm
    have hmemory : h.localSandboxMemoryInfo = none := by
      cases hlocal : h.localSandboxMemoryInfo with
      | none => rfl
      | some x =>
        have hx := hs.memory x hlocal
        exact absurd (hperm.mem_iff.mpr hx.acquired) hx.kept
    exact ⟨(tracked_null hinit hmemory htable).mpr hperm, hmemory, htable⟩
  · rintro ⟨ht, hmemory, htable⟩
    rw [htable]
    exact (tracked_null hinit hmemory htable).mp ht

/-- A create that fails keeps track if and only if the object did and, where it comes as far
    as the memory, had both data pointers null. -/
theorem failed_tracked {check : DynamicCheck} (hs : h.Sound m)
    (hattempt : Attempted call h (some check, h')) :
    h'.Tracked m ↔ h.Tracked m ∧ (h.instanceInitialized = false → h.FindsNull call) := by
  cases hattempt with
  | initialized hinit =>
    refine (and_iff_left fun hfalse => ?_).symm
    rw [hinit] at hfalse
    cases hfalse
  | early check b hinit hfails => exact (and_iff_left fun _ hfails' => absurd hfails' hfails).symm
  -- the fields are overwritten: what they recorded before is lost
  | heap hinit hfails hdata =>
    have himported := hfails.imported
    have hnull : (h.instanceInitialized = false → h.FindsNull call) ↔
        h.localSandboxMemoryInfo = none ∧ h.localSandboxCallbackTable = none :=
      (imp_iff_right hinit).trans (imp_iff_right hfails)
    rw [hnull, ← lost_iff hs hinit, withMemory_null hdata]
    unfold Tracked owed owedTable owedMemory owedInstance
    simp [himported, hinit]
  | memory64 hinit hfails hdata hmemory =>
    have himported := hfails.imported
    have hnull : (h.instanceInitialized = false → h.FindsNull call) ↔
        h.localSandboxMemoryInfo = none ∧ h.localSandboxCallbackTable = none :=
      (imp_iff_right hinit).trans (imp_iff_right hfails)
    rw [hnull, ← lost_iff hs hinit, withMemory_data hdata]
    unfold Tracked owed owedTable owedMemory owedInstance
    simp only [himported, hinit, if_true, Bool.false_eq_true, if_false, Option.toList_some,
      List.map_cons, List.map_nil, List.append_nil, List.append_assoc, List.singleton_append]
    exact List.perm_middle.congr_left _ |>.trans (List.perm_cons _)

/-- A create that succeeds keeps track. -/
theorem created_tracked (hs : h.Sound m) (ht : h.Tracked m)
    (hattempt : Attempted call h (none, h')) : h'.Tracked m := by
  cases hattempt with
  | imported hinit himported hdata hmemory =>
    have hnone : h.localSandboxMemoryInfo = none := by
      cases hlocal : h.localSandboxMemoryInfo with
      | none => rfl
      | some x =>
        rcases (hs.memory x hlocal).life with hlive | h64
        · exact absurd hlive (by rw [hinit]; exact Bool.false_ne_true)
        · exact absurd h64 (by rw [hmemory]; exact Bool.false_ne_true)
    -- an array of an earlier life is not owed: it would be released twice
    have howed : h.owed m = [] := by
      by_contra hne
      obtain ⟨r, hr⟩ := List.exists_mem_of_ne_nil _ hne
      have hnew : r ∉ h.released := fun hreleased =>
        List.disjoint_of_nodup_append (ht.nodup_iff.mpr hs.numbered.nodup) hr hreleased
      unfold owed owedTable owedMemory owedInstance at hr
      rw [if_pos himported, hinit, hnone] at hr
      simp only [Option.toList_none, List.map_nil, ite_self, List.append_nil, Bool.false_eq_true,
        if_false] at hr
      split at hr
      · obtain ⟨n, hn, rfl⟩ := List.mem_map.mp hr
        exact hnew (hs.table_released hinit (Option.mem_toList.mp hn))
      · cases hr
    unfold Tracked at ht
    rw [howed, List.nil_append] at ht
    rw [withMemory_data hdata]
    unfold Tracked owed owedTable owedMemory owedInstance
    rw [if_pos himported]
    exact (List.perm_append_singleton (Resource.wasm2cInstance _)
      [.tableArray _, .reservation _]).append ht
  | exported hinit hexported =>
    unfold Tracked owed owedInstance at ht ⊢
    simp only [hexported, hinit, Bool.false_eq_true, if_false, List.nil_append] at ht
    simp only [hexported, Bool.false_eq_true, if_false, List.nil_append, if_true]
    exact ht.cons _

end Holder

end creating

/-! ## Runs -/

/-- What every state of a run keeps: a torn down object owes nothing. -/
structure HolderState.Sound (m : ModuleType) (s : HolderState) : Prop where
  holder : s.holder.Sound m
  teardown : s.outcome.any Outcome.isTeardown = true → s.holder.owed m = []

section runs
variable {m : ModuleType} {s : HolderState}

theorem destroy_sound (hs : s.Sound m) (outcome : Outcome) :
    HolderState.Sound m ⟨s.holder.implDestroySandbox m, some outcome⟩ :=
  ⟨hs.holder.destroy, fun _ => Holder.destroy_owed m s.holder⟩

theorem holderStep_sound (s : HolderState) (i : HolderInput m) (s' : HolderState)
    (hs : s.Sound m) (h : holderStep i s = some s') : s'.Sound m := by
  cases i with
  | destroy =>
    cases h
    exact destroy_sound hs .destroyed
  | create call =>
    cases h
    have hattempt := attemptCreate_cases call s.holder
    unfold Holder.implCreateSandbox
    generalize s.holder.attemptCreate call = r at hattempt ⊢
    obtain ⟨check, h'⟩ := r
    have hsound := Holder.attempted_sound hs.holder hattempt
    cases check with
    | none => exact ⟨hsound, by rintro ⟨⟩⟩
    | some check =>
      dsimp only [Holder.fallibleDynamicCheck]
      split
      · exact ⟨hsound, by rintro ⟨⟩⟩
      · exact ⟨hsound.destroy, fun _ => Holder.destroy_owed m h'⟩

theorem create_tracked (hs : s.Sound m) (ht : s.holder.Tracked m) (call : CreateCall m) :
    (s.holder.implCreateSandbox call).2.Tracked m ↔ KeepsTrack s (.create call) := by
  have hattempt := attemptCreate_cases call s.holder
  unfold Holder.implCreateSandbox
  generalize s.holder.attemptCreate call = r at hattempt ⊢
  obtain ⟨check, h'⟩ := r
  cases check with
  | none =>
    refine iff_of_true (Holder.created_tracked hs.holder ht hattempt) ?_
    intro _ hfails
    cases hattempt with
    | imported hinit himported hdata hmemory =>
      rcases hfails.fails with hnull | h64
      · exact absurd hnull hdata
      · rw [hmemory] at h64
        cases h64
    | exported hinit hexported =>
      have himported := hfails.imported
      rw [hexported] at himported
      cases himported
  | some check =>
    have htracked := (Holder.failed_tracked hs.holder hattempt).trans (and_iff_right ht)
    dsimp only [Holder.fallibleDynamicCheck]
    split
    · exact htracked
    · exact Holder.destroy_tracked.trans htracked

theorem holderStep_tracked (s : HolderState) (i : HolderInput m) (hs : s.Sound m)
    (ht : s.holder.Tracked m) :
    ∃ s', holderStep i s = some s' ∧ s'.Sound m ∧ (s'.holder.Tracked m ↔ KeepsTrack s i) := by
  cases i with
  | create call =>
    exact ⟨_, rfl, holderStep_sound s (.create call) _ hs rfl, create_tracked hs ht call⟩
  | destroy =>
    refine ⟨_, rfl, destroy_sound hs .destroyed, ?_⟩
    exact Holder.destroy_tracked.trans (iff_of_true ht trivial)

/-- Distinct acquisitions are those released, each once. -/
theorem perm_iff_once {acquired released : List Resource} (hnodup : acquired.Nodup)
    (hsub : ∀ r ∈ released, r ∈ acquired) :
    released.Perm acquired ↔ ∀ r ∈ acquired, released.count r = 1 := by
  constructor
  · intro hperm r hr
    rw [hperm.count_eq]
    exact List.count_eq_one_of_mem hnodup hr
  · intro honce
    refine List.perm_iff_count.mpr fun r => ?_
    by_cases hr : r ∈ acquired
    · rw [honce r hr, List.count_eq_one_of_mem hnodup hr]
    · rw [List.count_eq_zero_of_not_mem hr, List.count_eq_zero_of_not_mem fun h => hr (hsub r h)]

theorem tracked_releasedOnce (hs : s.Sound m) (ht : s.holder.Tracked m) : ReleasedOnce s where
  most := by
    intro r
    calc s.holder.released.count r
        ≤ (s.holder.owed m ++ s.holder.released).count r := by rw [List.count_append]; omega
      _ = s.holder.acquired.count r := ht.count_eq r
      _ ≤ 1 := List.nodup_iff_count_le_one.mp hs.holder.numbered.nodup r
  teardown := by
    intro hteardown
    unfold Holder.Tracked at ht
    rw [hs.teardown hteardown, List.nil_append] at ht
    exact (perm_iff_once hs.holder.numbered.nodup hs.holder.released).mp ht

/-- A destroy shows whether the fields keep track. -/
theorem destroy_releasedOnce_iff (hs : s.Sound m) :
    ReleasedOnce ⟨s.holder.implDestroySandbox m, some .destroyed⟩ ↔ s.holder.Tracked m := by
  have hs' : HolderState.Sound m ⟨s.holder.implDestroySandbox m, some .destroyed⟩ :=
    ⟨hs.holder.destroy, fun _ => Holder.destroy_owed m s.holder⟩
  constructor
  · intro honce
    have hperm := (perm_iff_once hs'.holder.numbered.nodup hs'.holder.released).mpr
      (honce.teardown rfl)
    refine Holder.destroy_tracked.mp ?_
    unfold Holder.Tracked
    rwa [Holder.destroy_owed, List.nil_append]
  · intro ht
    exact tracked_releasedOnce hs' (Holder.destroy_tracked.mpr ht)

theorem constructed_holderState : HolderState.Sound m .constructed :=
  ⟨Holder.constructed_sound, by rintro ⟨⟩⟩

theorem reached_sound {is : List (HolderInput m)} (h : exec holderStep is .constructed = some s) :
    s.Sound m :=
  exec_invariant (fun s i s' hs _ h => holderStep_sound s i s' hs h) constructed_holderState
    (meets_true is _) h

/-- In every state of a run of creates and destroys on one object, and after a destroy from
    there, nothing was released twice and what is torn down has released everything
    acquired once, if and only if every create that fails at its heap or memory64 check
    finds the data pointers of the memory and of the table null. -/
theorem released_once_iff (m : ModuleType) (is : List (HolderInput m)) :
    (∀ is₁ is₂ s, is₁ <+: is → (is₂ = is₁ ∨ is₂ = is₁ ++ [.destroy]) →
      exec holderStep is₂ .constructed = some s → ReleasedOnce s) ↔
    Meets holderStep KeepsTrack is .constructed := by
  -- keeping track is what each step can break, and a destroy after it shows it
  have htracked : HolderState.constructed.holder.Tracked m := by
    unfold Holder.Tracked
    cases himported : m.config.isImportedMemoryAndTable <;>
      simp [Holder.owed, himported, HolderState.constructed, Holder.constructed,
        Holder.owedTable, Holder.owedMemory, Holder.owedInstance]
  have hiff := holds_throughout_iff (fun s i hs ht _ => holderStep_tracked s i hs ht)
    constructed_holderState htracked (meets_true is _)
  refine Iff.trans ⟨?_, ?_⟩ hiff
  · intro h is₁ s hprefix hs
    have hdestroyed : exec holderStep (is₁ ++ [.destroy]) .constructed =
        some ⟨s.holder.implDestroySandbox m, some .destroyed⟩ := by
      rw [exec_append, hs]
      rfl
    exact (destroy_releasedOnce_iff (reached_sound hs)).mp
      (h is₁ _ _ hprefix (.inr rfl) hdestroyed)
  · rintro h is₁ is₂ s hprefix (rfl | rfl) hs
    · exact tracked_releasedOnce (reached_sound hs) (h is₂ s hprefix hs)
    · rw [exec_append] at hs
      obtain ⟨s₁, hs₁, hs⟩ := Option.bind_eq_some_iff.mp hs
      cases hs
      exact (destroy_releasedOnce_iff (reached_sound hs₁)).mpr (h is₁ s₁ hprefix hs₁)

end runs

/-- A module of one page that imports its memory, on a 64-bit host. -/
def onePageModule (isMemory64 : Bool) : ModuleType := ⟨⟨.w64, true⟩, 1, isMemory64⟩

/-- A system that maps nothing. -/
def grantNothing : OsAnswers := ⟨fun _ => none, true⟩

def onePageHeap : WasmRtMemory := ⟨2 ^ 33, wasmPageSize, 1, 65536, 65536, false⟩

def noHeap : WasmRtMemory := ⟨0, wasmPageSize, 1, 65536, 65536, false⟩

theorem onePageHeap_created (b : Bool) : (onePageModule b).Creates none onePageHeap :=
  ⟨noPages, grantAt (2 ^ 33), noPages_supported,
    (createWasm2cMemory_noPages (by decide) 1).trans (by decide)⟩

theorem noHeap_created (b : Bool) : (onePageModule b).Creates none noHeap :=
  ⟨noPages, grantNothing, noPages_supported, by cases b <;> decide⟩

/-- A create that gets a heap. -/
def createOnePage (b infallible : Bool) : CreateCall (onePageModule b) :=
  ⟨infallible, none, true, true, onePageHeap, onePageHeap_created b⟩

/-- A create that gets none. -/
def createNoHeap (b infallible : Bool) : CreateCall (onePageModule b) :=
  ⟨infallible, none, true, true, noHeap, noHeap_created b⟩

/-- A create that gets no heap releases the table array of the life before it again; and of
    two creates of a memory64 module, of which the first throws, the second loses the
    reservation of the first. -/
theorem not_released_once :
    (∃ s, exec holderStep
        [.create (createOnePage false true), .destroy, .create (createNoHeap false false)]
        .constructed = some s ∧
      s.outcome = some (.failed (.create .heap)) ∧
      s.holder.released.count (.tableArray 1) = 2 ∧ ¬ReleasedOnce s) ∧
    ∃ s, exec holderStep
        [.create (createOnePage true true), .create (createOnePage true false)]
        .constructed = some s ∧
      s.outcome = some (.failed (.create .memory64)) ∧ .reservation 0 ∈ s.holder.acquired ∧
      s.holder.released.count (.reservation 0) = 0 ∧ ¬ReleasedOnce s := by
  refine ⟨⟨_, rfl, rfl, by decide, ?_⟩, _, rfl, rfl, by decide, by decide, ?_⟩
  · intro honce
    exact absurd (honce.most (.tableArray 1)) (by decide)
  · intro honce
    exact absurd (honce.teardown rfl (.reservation 0) (by decide)) (by decide)

/-- Three creates that keep track, of which the second fails before it asks for a heap. -/
example : Meets holderStep KeepsTrack
    [.create (createOnePage false true), .destroy,
      .create { createOnePage false false with minwasiInitInstSucceeded := false },
      .create (createOnePage false false), .destroy, .destroy] .constructed := by
  decide

end RlboxWasm2c

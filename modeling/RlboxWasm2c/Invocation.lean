import RlboxWasm2c.Base.Blocks
import RlboxWasm2c.Ledger
import RlboxWasm2c.MinWasi

/- Invocations and callbacks on one thread, as a machine with an explicit stack.

   The stack holds the activations of `impl_invoke_with_func_ptr` and of the interceptors,
   innermost first; an empty stack or a callback on top means that host code runs, an
   invocation at `body` that the guest function it called runs. What host and guest do is
   read from the input, one act at a time; `tick` takes the next step of the invocation on
   top. Any frame can be left by an exception: a failed `dynamic_check` or a `throw` sets
   `raising`, `unwind` leaves the frame on top, and host code may `catch` it.

   Correspondence (C++ ↔ Lean):
     the body of `impl_invoke_with_func_ptr`     ↔ `enterInvoke`, the `Pc`s in `tick`,
                                                   `serializeArg` and `resume`, `exitInvoke`
     its `make_scope_exit`                       ↔ `leaveFrame`
     `ensure_return_slot_size`                   ↔ `start`, `mallocSlot`, `setSlot`
     `impl_malloc_in_sandbox`,
     `impl_free_in_sandbox`                      ↔ `implMallocInSandbox`, `implFreeInSandbox`
     `callback_interceptor`,
     `callback_interceptor_promoted`             ↔ `enterInterceptor`, `leaveInterceptor`
     `serialize_to_sandbox`                      ↔ `serializeToSandbox`
     `impl_get_executed_callback_sandbox_and_key` ↔
                                          `implGetExecutedCallbackSandboxAndKey`
   `T_Args` is deduced from the arguments: a temporary of class type deduces the class
   type, an lvalue a reference, which is not a class type. C++ leaves the order open in
   which arguments are evaluated, so the input chooses it (`serializeArg`).

   Not fields of the source are `Sandbox.held`, the blocks the guest's malloc granted to
   an invocation and that were not freed since, and `passed`, `freed`, `retBlock`, `own`
   and `inner` of a frame: they record what happened, and no other field depends on them. -/
namespace RlboxWasm2c
open Blocks
open MinWasi (Memory)

abbrev SandboxId := Nat

/-- The bytes of a class value. -/
abbrev ClassBytes := { l : List UInt8 // l ≠ [] }

/-! ## Calls -/

inductive Arg where
  | scalar (v : Nat)
  | cls (bytes : ClassBytes)
  deriving DecidableEq

def Arg.isClass : Arg → Bool
  | .scalar _ => false
  | .cls _ => true

/-- An argument and whether it is an lvalue, so that `T_Args` is a reference. -/
structure Param where
  arg : Arg
  lvalue : Bool
  deriving DecidableEq

inductive GuestFn where
  | malloc
  | free
  | other (p : Nat)
  deriving DecidableEq

/-- A call of `impl_invoke_with_func_ptr`; `retClass` is `sizeof(T_Ret)` for a class. -/
structure Call where
  func : GuestFn
  retClass : Option ClassSize
  params : List Param
  deriving DecidableEq

/-- `((std::is_class_v<T_Args> ? 1 : 0) + ...)`. -/
def Call.allocLength (c : Call) : Nat := c.params.countP fun p => p.arg.isClass && !p.lvalue

/-- The length of `allocations_buff`: "0 length arrays ... not allowed". -/
def Call.buffLength (c : Call) : Nat := if c.allocLength = 0 then 1 else c.allocLength

/-- The positions of the arguments `serialize_class_arg` allocates for. -/
def Call.classParams (c : Call) : List Nat :=
  (List.range c.params.length).filter fun k => c.params[k]?.any fun p => p.arg.isClass

def mallocCall (size : Nat) : Call := ⟨.malloc, none, [⟨.scalar size, false⟩]⟩

def freeCall (p : Nat) : Call := ⟨.free, none, [⟨.scalar p, false⟩]⟩

/-- The recursive call for a class return: the parameters are passed on as lvalues. -/
def Call.promoted (c : Call) (returnSlot : Nat) : Call :=
  ⟨c.func, none, ⟨.scalar returnSlot, true⟩ :: c.params.map fun p => { p with lvalue := true }⟩

/-! ## The state -/

/-- What an invocation does next. `mallocSlot`, `setSlot`, `recurse` and `copyOut` are the
    path of a class return of the given size. -/
inductive Pc where
  | start
  | mallocSlot (n : ClassSize)
  | setSlot (n : ClassSize)
  | recurse (n : ClassSize)
  | copyOut (n : ClassSize)
  | serialize
  | setArg (k : Nat)
  | body
  | freeArgs (i : Nat)
  deriving DecidableEq

/-- An activation of `impl_invoke_with_func_ptr`. `pending` are the class arguments not
    evaluated yet and `slots` those evaluated, with the slots entered in
    `allocations_buff`, in order. Records: the values passed with the bytes behind them;
    the slots freed; the return slot passed, in a recursive call; the memory as the
    invocation found it with the stores of its own guest function; and the last two of
    the recursive call that returned. -/
structure InvokeFrame where
  sandbox : SandboxId
  call : Call
  oldSandbox : Option SandboxId
  pc : Pc
  pending : List Nat
  slots : List (Nat × Nat)
  ret : Nat
  passed : List (Nat × List UInt8)
  freed : List Nat
  retBlock : Option Block
  own : Memory
  inner : Option (Block × Memory)

/-- A host callback entered by an interceptor; `ret` is where a class result goes. -/
structure CallbackFrame where
  callback : HostPtr
  type : FuncType
  ret : Nat
  args : List Arg

inductive Frame where
  | invoke (f : InvokeFrame)
  | callback (c : CallbackFrame)

/-- One sandbox: its fields, its linear memory and the blocks held in it. -/
structure Sandbox where
  table : Table
  returnSlot : Nat
  returnSlotSize : Nat
  memory : Memory
  held : List Block

/-- `rlbox_wasm2c_sandbox_thread_data`. -/
structure ThreadData where
  sandbox : Option SandboxId
  lastCallbackInvoked : CallbackIndex
  deriving DecidableEq

inductive Exn where
  | check (c : DynamicCheck)
  | thrown
  deriving DecidableEq

/-- `result` is the class value last handed to the host. -/
structure World where
  ptr32 : Bool
  sandboxes : SandboxId → Sandbox
  threadData : ThreadData
  stack : List Frame
  raising : Option Exn
  result : List UInt8

namespace World

/-- Changes sandbox `S`. -/
def onSandbox (w : World) (S : SandboxId) (f : Sandbox → Sandbox) : World :=
  { w with sandboxes := Function.update w.sandboxes S (f (w.sandboxes S)) }

/-- The invocation on top of `rest` is now `f`. -/
def setTop (w : World) (f : InvokeFrame) (rest : List Frame) : World :=
  { w with stack := .invoke f :: rest }

def raise (w : World) (e : Exn) : World := { w with raising := some e }

/-- A class value is handed to the host. -/
def hand (w : World) (bytes : List UInt8) : World := { w with result := bytes }

@[simp] theorem onSandbox_self (w : World) (S : SandboxId) (f : Sandbox → Sandbox) :
    (w.onSandbox S f).sandboxes S = f (w.sandboxes S) := Function.update_self ..

theorem onSandbox_of_ne (w : World) {S S' : SandboxId} (f : Sandbox → Sandbox) (h : S' ≠ S) :
    (w.onSandbox S f).sandboxes S' = w.sandboxes S' := Function.update_of_ne h ..

@[simp] theorem setTop_stack (w : World) (f : InvokeFrame) (rest : List Frame) :
    (w.setTop f rest).stack = .invoke f :: rest := rfl

@[simp] theorem setTop_sandboxes (w : World) (f : InvokeFrame) (rest : List Frame) :
    (w.setTop f rest).sandboxes = w.sandboxes := rfl

@[simp] theorem raise_sandboxes (w : World) (e : Exn) : (w.raise e).sandboxes = w.sandboxes := rfl

/-- The check of `impl_get_unsandboxed_pointer` on a data pointer: "in 64-bit
    environments, we can assume this is within the sandbox". -/
def dataPointerOk (w : World) (S : SandboxId) (p : Nat) : Bool :=
  !w.ptr32 || decide (p < (w.sandboxes S).memory.size)

end World

/-! ## Entering and leaving -/

def newFrame (S : SandboxId) (call : Call) (oldSandbox : Option SandboxId)
    (retBlock : Option Block) (memory : Memory) : InvokeFrame where
  sandbox := S
  call := call
  oldSandbox := oldSandbox
  pc := .start
  pending := call.classParams
  slots := []
  ret := 0
  passed := []
  freed := []
  retBlock := retBlock
  own := memory
  inner := none

def enterInvoke (w : World) (S : SandboxId) (call : Call) (retBlock : Option Block) : World :=
  { w with
    threadData := { w.threadData with sandbox := some S }
    stack := .invoke
      (newFrame S call w.threadData.sandbox retBlock (w.sandboxes S).memory) :: w.stack }

def implMallocInSandbox (w : World) (S : SandboxId) (size : Nat) : World :=
  if size ≤ 2 ^ 32 - 1 then enterInvoke w S (mallocCall size) none
  else w.raise (.check .mallocSize)

@[simp] theorem implMallocInSandbox_sandboxes (w : World) (S : SandboxId) (size : Nat) :
    (implMallocInSandbox w S size).sandboxes = w.sandboxes := by
  unfold implMallocInSandbox
  split <;> rfl

def implFreeInSandbox (w : World) (S : SandboxId) (p : Nat) : World :=
  enterInvoke w S (freeCall p) none

/-- A block is no longer held once it is passed to free. -/
def Sandbox.release (s : Sandbox) (p : Nat) : Sandbox :=
  { s with held := freed s.held p }

/-- A non-null block granted by malloc is held. -/
def Sandbox.grant (s : Sandbox) (b : Block) : Sandbox :=
  { s with held := if b.addr = 0 then s.held else b :: s.held }

/-- The frame on top is left; leaving an invocation runs its scope exit. -/
def leaveFrame (w : World) : Frame → List Frame → World
  | .invoke f, rest =>
    { w with threadData := { w.threadData with sandbox := f.oldSandbox }, stack := rest }
  | .callback _, rest => { w with stack := rest }

@[simp] theorem leaveFrame_sandboxes (w : World) (fr : Frame) (rest : List Frame) :
    (leaveFrame w fr rest).sandboxes = w.sandboxes := by
  cases fr <;> rfl

@[simp] theorem leaveFrame_stack (w : World) (fr : Frame) (rest : List Frame) :
    (leaveFrame w fr rest).stack = rest := by
  cases fr <;> rfl

/-- The invocation `g` goes on with the value `v` that the invocation `f` it made gave. -/
def resume (w : World) (g : InvokeFrame) (rest : List Frame) (f : InvokeFrame) (v : Nat) : World :=
  match g.pc with
  | .setSlot n =>
    if v = 0 then
      (w.onSandbox g.sandbox fun s => { s with returnSlot := 0 }).raise (.check .returnSlot)
    else
      (w.onSandbox g.sandbox fun s =>
        { s.grant ⟨v, n.1⟩ with returnSlot := v, returnSlotSize := n.1 }).setTop
        { g with pc := .recurse n } rest
  | .setArg k =>
    match g.call.params[k]? with
    | some ⟨.cls bytes, _⟩ =>
      let w := w.onSandbox g.sandbox fun s => s.grant ⟨v, bytes.1.length⟩
      if w.dataPointerOk g.sandbox v then
        (w.onSandbox g.sandbox fun s => { s with memory := s.memory.write v bytes.1 }).setTop
          { g with pc := .serialize, slots := g.slots ++ [(k, v)] } rest
      else w.raise (.check .invalidPointer)
    | _ => w
  | .copyOut _ =>
    -- the record of the recursive call, without the return slot it passed first
    w.setTop
      { g with
        slots := f.slots.map fun s => (s.1 - 1, s.2)
        passed := f.passed.tail
        freed := f.freed
        inner := f.retBlock.map fun b => (b, f.own) } rest
  | _ => w

/-- A normal return: the frame is left and whoever invoked it goes on. -/
def exitInvoke (w : World) (f : InvokeFrame) (rest : List Frame) (v : Nat) : World :=
  match rest with
  | .invoke g :: rest' => resume (leaveFrame w (.invoke f) rest) g rest' f v
  | _ => leaveFrame w (.invoke f) rest

/-! ## The steps of an invocation -/

/-- The value passed for argument `k`, and the bytes it points to. -/
def passedValue (memory : Memory) (slots : List (Nat × Nat)) (p : Param) (k : Nat) :
    Nat × List UInt8 :=
  match p.arg with
  | .scalar v => (v, [])
  | .cls bytes =>
    let slot := (slots.lookup k).getD 0
    (slot, memory.read slot bytes.1.length)

def tickInvoke (w : World) (f : InvokeFrame) (rest : List Frame) : Option World :=
  let s := w.sandboxes f.sandbox
  let goto (pc : Pc) : World := w.setTop { f with pc := pc } rest
  match f.pc with
  -- ensure_return_slot_size
  | .start =>
    match f.call.retClass with
    | none => some (goto .serialize)
    | some n =>
      if n.1 > s.returnSlotSize then
        if s.returnSlotSize ≠ 0 then
          some (implFreeInSandbox
            ((goto (.mallocSlot n)).onSandbox f.sandbox fun s => s.release s.returnSlot)
            f.sandbox s.returnSlot)
        else some (goto (.mallocSlot n))
      else some (goto (.recurse n))
  | .mallocSlot n => some (implMallocInSandbox (goto (.setSlot n)) f.sandbox n.1)
  -- the same call again, of a function that returns nothing and is passed the slot
  | .recurse n =>
    some (enterInvoke (goto (.copyOut n)) f.sandbox (f.call.promoted s.returnSlot)
      (some ⟨s.returnSlot, n.1⟩))
  | .copyOut n =>
    if w.dataPointerOk f.sandbox s.returnSlot then
      some (exitInvoke (w.hand (s.memory.read s.returnSlot n.1)) f rest 0)
    else some (w.raise (.check .invalidPointer))
  -- the guest is entered once every argument is evaluated
  | .serialize =>
    if f.pending = [] then
      some (w.setTop
        { f with
          pc := .body
          passed := f.call.params.mapIdx fun k p => passedValue s.memory f.slots p k } rest)
    else none
  -- only the first alloc_length copies are freed
  | .freeArgs i =>
    if i < f.call.allocLength then
      let slot := ((f.slots.map Prod.snd)[i]?).getD 0
      let f' := { f with pc := .freeArgs (i + 1), freed := f.freed ++ [slot] }
      some (implFreeInSandbox
        ((w.setTop f' rest).onSandbox f.sandbox fun s => s.release slot) f.sandbox slot)
    else some (exitInvoke w f rest f.ret)
  | _ => none

/-- Argument `k` is evaluated next: `serialize_class_arg` allocates for it. -/
def serializeArg (w : World) (f : InvokeFrame) (rest : List Frame) (k : Nat) : Option World :=
  match f.pc, f.call.params[k]? with
  | .serialize, some ⟨.cls bytes, _⟩ =>
    if k ∈ f.pending then
      some (implMallocInSandbox
        (w.setTop { f with pc := .setArg k, pending := f.pending.erase k } rest)
        f.sandbox bytes.1.length)
    else none
  | _, _ => none

/-! ## The interceptors -/

def implGetExecutedCallbackSandboxAndKey (w : World) : Option (SandboxId × HostPtr) :=
  w.threadData.sandbox.map fun S =>
    (S, (w.sandboxes S).table.state.callbackUniqueKeys w.threadData.lastCallbackInvoked)

/-- `none` is a failed pointer check. -/
def serializeToSandbox (w : World) (S : SandboxId) (type : CType) (arg : Nat) : Option Arg :=
  match type with
  | .cls n =>
    if w.dataPointerOk S arg then
      some (.cls ⟨(w.sandboxes S).memory.read arg n.1, Memory.read_ne_nil n.2⟩)
    else none
  | _ => some (.scalar arg)

/-- Interceptor `n`: a null context or a null callback is a crash. -/
def enterInterceptor (w : World) (n : CallbackIndex) (type : FuncType) (ret : Nat)
    (params : List Nat) : Option World :=
  let w := { w with threadData := { w.threadData with lastCallbackInvoked := n } }
  match w.threadData.sandbox with
  | none => none
  | some S =>
    let func := (w.sandboxes S).table.state.callbacks n
    if func = nullptr then none
    else match (type.args.zip params).mapM fun p => serializeToSandbox w S p.1 p.2 with
      | none => some (w.raise (.check .invalidPointer))
      | some args => some { w with stack := .callback ⟨func, type, ret, args⟩ :: w.stack }

/-- The guest function of `f` stores `bytes` at `a`. -/
def InvokeFrame.note (f : InvokeFrame) (a : Nat) (bytes : List UInt8) : InvokeFrame :=
  { f with own := f.own.write a bytes }

/-- Bytes stored on behalf of the guest function of `f`, which is on top. -/
def storeFor (w : World) (S : SandboxId) (f : InvokeFrame) (rest : List Frame) (a : Nat)
    (bytes : List UInt8) : World :=
  (w.onSandbox S fun s => { s with memory := s.memory.write a bytes }).setTop
    (f.note a bytes) rest

/-- The callback has returned: a class result is copied to `ret` in the memory of the
    sandbox that is the context now. -/
def leaveInterceptor (w : World) (c : CallbackFrame) (rest : List Frame) (bytes : List UInt8) :
    Option World :=
  let w := leaveFrame w (.callback c) rest
  match c.type.ret, w.threadData.sandbox, rest with
  | some (.cls n), some S, .invoke f :: rest' =>
    if bytes.length ≠ n.1 then none
    else if w.dataPointerOk S c.ret then some (storeFor w S f rest' c.ret bytes)
    else some (w.raise (.check .invalidPointer))
  | some (.cls _), _, _ => none
  | _, _, _ => some w

/-! ## The machine -/

/-- What host code can do. -/
inductive HostAct where
  | invoke (S : SandboxId) (func : Nat) (retClass : Option ClassSize) (params : List Param)
  | mallocInSandbox (S : SandboxId) (size : Nat)
  | freeInSandbox (S : SandboxId) (p : Nat)
  | table (S : SandboxId) (op : CallbackOp)
  | ret (bytes : List UInt8)
  | throw

/-- What guest code can do; a call of a slot passes a return pointer, used if the callback
    returns a class, and the parameters. -/
inductive GuestAct where
  | store (a : Nat) (v : UInt8)
  | growTable (delta : Nat) (init : FuncRef)
  | callSlot (slot ret : Nat) (params : List Nat)
  | ret (v : Nat)

inductive Input where
  | host (a : HostAct)
  | guest (a : GuestAct)
  | serializeArg (k : Nat)
  | tick
  | unwind
  | catch

def hostStep (grow : GrowFuncrefTable) (a : HostAct) (w : World) : Option World :=
  match a with
  | .invoke S func retClass params => some (enterInvoke w S ⟨.other func, retClass, params⟩ none)
  | .mallocInSandbox S size => some (implMallocInSandbox w S size)
  | .freeInSandbox S p => some (implFreeInSandbox w S p)
  | .table S op => some (w.onSandbox S fun s => { s with table := op.apply grow s.table })
  | .ret bytes =>
    match w.stack with
    | .callback c :: rest => leaveInterceptor w c rest bytes
    | _ => none
  | .throw => some (w.raise .thrown)

def guestStep (grow : GrowFuncrefTable) (a : GuestAct) (w : World) (f : InvokeFrame)
    (rest : List Frame) : Option World :=
  match a with
  | .store a v =>
    if a < (w.sandboxes f.sandbox).memory.size then some (storeFor w f.sandbox f rest a [v])
    else none
  | .growTable delta init =>
    some (w.onSandbox f.sandbox fun s =>
      { s with table := (CallbackOp.guestGrow delta init).apply grow s.table })
  | .callSlot slot ret params =>
    match (w.sandboxes f.sandbox).table.state.sandboxCallbackTable.data[slot]? with
    | some ⟨_, .interceptor n type, _⟩ => enterInterceptor w n type ret params
    | _ => none
  | .ret v => some (w.setTop { f with pc := .freeArgs 0, ret := v } rest)

/-- One step; `none` where the input is not possible in the state. -/
def step (grow : GrowFuncrefTable) (i : Input) (w : World) : Option World :=
  match w.raising, w.stack, i with
  | none, [], .host a => hostStep grow a w
  | none, .callback _ :: _, .host a => hostStep grow a w
  | none, .invoke f :: rest, .guest a => if f.pc = .body then guestStep grow a w f rest else none
  | none, .invoke f :: rest, .serializeArg k => serializeArg w f rest k
  | none, .invoke f :: rest, .tick => tickInvoke w f rest
  | some _, fr :: rest, .unwind => some (leaveFrame w fr rest)
  | some _, [], .catch => some { w with raising := none }
  | some _, .callback _ :: _, .catch => some { w with raising := none }
  | _, _, _ => none

/-! ## What a step does

    The transitions of an invocation, each with its guard and the state it leads to. -/

section transitions
variable {w : World} {f g : InvokeFrame} {rest : List Frame}

inductive Ticked (w : World) (f : InvokeFrame) (rest : List Frame) : World → Prop where
  | plainReturn (hpc : f.pc = .start) (hret : f.call.retClass = none) :
    Ticked w f rest (w.setTop { f with pc := .serialize } rest)
  | freeSlot {n : ClassSize} (hpc : f.pc = .start) (hret : f.call.retClass = some n)
    (hsize : (w.sandboxes f.sandbox).returnSlotSize < n.1)
    (hpos : (w.sandboxes f.sandbox).returnSlotSize ≠ 0) :
    Ticked w f rest (implFreeInSandbox
      ((w.setTop { f with pc := .mallocSlot n } rest).onSandbox f.sandbox fun s =>
        s.release s.returnSlot) f.sandbox (w.sandboxes f.sandbox).returnSlot)
  | noSlot {n : ClassSize} (hpc : f.pc = .start) (hret : f.call.retClass = some n)
    (hzero : (w.sandboxes f.sandbox).returnSlotSize = 0) :
    Ticked w f rest (w.setTop { f with pc := .mallocSlot n } rest)
  | slotFits {n : ClassSize} (hpc : f.pc = .start) (hret : f.call.retClass = some n)
    (hsize : n.1 ≤ (w.sandboxes f.sandbox).returnSlotSize) :
    Ticked w f rest (w.setTop { f with pc := .recurse n } rest)
  | mallocSlot {n : ClassSize} (hpc : f.pc = .mallocSlot n) :
    Ticked w f rest
      (implMallocInSandbox (w.setTop { f with pc := .setSlot n } rest) f.sandbox n.1)
  | recurse {n : ClassSize} (hpc : f.pc = .recurse n) :
    Ticked w f rest (enterInvoke (w.setTop { f with pc := .copyOut n } rest) f.sandbox
      (f.call.promoted (w.sandboxes f.sandbox).returnSlot)
      (some ⟨(w.sandboxes f.sandbox).returnSlot, n.1⟩))
  | copyOut {n : ClassSize} (hpc : f.pc = .copyOut n) :
    Ticked w f rest (exitInvoke
      (w.hand ((w.sandboxes f.sandbox).memory.read (w.sandboxes f.sandbox).returnSlot n.1))
      f rest 0)
  | copyOutBad {n : ClassSize} (hpc : f.pc = .copyOut n) :
    Ticked w f rest (w.raise (.check .invalidPointer))
  | enterBody (hpc : f.pc = .serialize) (hpending : f.pending = []) :
    Ticked w f rest (w.setTop
      { f with
        pc := .body
        passed := f.call.params.mapIdx fun k p =>
          passedValue (w.sandboxes f.sandbox).memory f.slots p k } rest)
  | freeArg {i : Nat} (hpc : f.pc = .freeArgs i) (hi : i < f.call.allocLength) :
    Ticked w f rest (implFreeInSandbox
      ((w.setTop
          { f with
            pc := .freeArgs (i + 1)
            freed := f.freed ++ [((f.slots.map Prod.snd)[i]?).getD 0] } rest).onSandbox f.sandbox
        fun s => s.release (((f.slots.map Prod.snd)[i]?).getD 0)) f.sandbox
      (((f.slots.map Prod.snd)[i]?).getD 0))
  | done {i : Nat} (hpc : f.pc = .freeArgs i) (hi : f.call.allocLength ≤ i) :
    Ticked w f rest (exitInvoke w f rest f.ret)

theorem tickInvoke_cases {w' : World} (h : tickInvoke w f rest = some w') :
    Ticked w f rest w' := by
  unfold tickInvoke at h
  cases hpc : f.pc with
  | start =>
    rw [hpc] at h
    cases hret : f.call.retClass with
    | none =>
      rw [hret] at h
      cases h
      exact .plainReturn hpc hret
    | some n =>
      rw [hret] at h
      dsimp only at h
      by_cases hsize : n.1 > (w.sandboxes f.sandbox).returnSlotSize
      · rw [if_pos hsize] at h
        by_cases hpos : (w.sandboxes f.sandbox).returnSlotSize = 0
        · rw [if_neg (not_not_intro hpos)] at h
          cases h
          exact .noSlot hpc hret hpos
        · rw [if_pos hpos] at h
          cases h
          exact .freeSlot hpc hret hsize hpos
      · rw [if_neg hsize] at h
        cases h
        exact .slotFits hpc hret (Nat.le_of_not_lt hsize)
  | mallocSlot n =>
    rw [hpc] at h
    cases h
    exact .mallocSlot hpc
  | recurse n =>
    rw [hpc] at h
    cases h
    exact .recurse hpc
  | copyOut n =>
    rw [hpc] at h
    dsimp only at h
    split at h
    · cases h
      exact .copyOut hpc
    · cases h
      exact .copyOutBad hpc
  | serialize =>
    rw [hpc] at h
    dsimp only at h
    split at h
    · next hpending =>
      cases h
      exact .enterBody hpc hpending
    · cases h
  | freeArgs i =>
    rw [hpc] at h
    dsimp only at h
    split at h
    · next hi =>
      cases h
      exact .freeArg hpc hi
    · next hi =>
      cases h
      exact .done hpc (Nat.le_of_not_lt hi)
  | setSlot n => rw [hpc] at h; cases h
  | setArg k => rw [hpc] at h; cases h
  | body => rw [hpc] at h; cases h

/-- What an invocation does with the result of the one it made. -/
inductive Resumed (w : World) (g : InvokeFrame) (rest : List Frame) (f : InvokeFrame) (v : Nat) :
    World → Prop where
  | slotFailed {n : ClassSize} (hpc : g.pc = .setSlot n) (hv : v = 0) :
    Resumed w g rest f v
      ((w.onSandbox g.sandbox fun s => { s with returnSlot := 0 }).raise (.check .returnSlot))
  | slotGranted {n : ClassSize} (hpc : g.pc = .setSlot n) (hv : v ≠ 0) :
    Resumed w g rest f v
      ((w.onSandbox g.sandbox fun s =>
        { s.grant ⟨v, n.1⟩ with returnSlot := v, returnSlotSize := n.1 }).setTop
        { g with pc := .recurse n } rest)
  | argStored {k : Nat} {bytes : ClassBytes} {lvalue : Bool} (hpc : g.pc = .setArg k)
    (hk : g.call.params[k]? = some ⟨.cls bytes, lvalue⟩) :
    Resumed w g rest f v
      (((w.onSandbox g.sandbox fun s => s.grant ⟨v, bytes.1.length⟩).onSandbox g.sandbox
        fun s => { s with memory := s.memory.write v bytes.1 }).setTop
        { g with pc := .serialize, slots := g.slots ++ [(k, v)] } rest)
  | argBad {k : Nat} {bytes : ClassBytes} {lvalue : Bool} (hpc : g.pc = .setArg k)
    (hk : g.call.params[k]? = some ⟨.cls bytes, lvalue⟩) :
    Resumed w g rest f v
      ((w.onSandbox g.sandbox fun s => s.grant ⟨v, bytes.1.length⟩).raise
        (.check .invalidPointer))
  | recorded {n : ClassSize} (hpc : g.pc = .copyOut n) :
    Resumed w g rest f v
      (w.setTop
        { g with
          slots := f.slots.map fun s => (s.1 - 1, s.2)
          passed := f.passed.tail
          freed := f.freed
          inner := f.retBlock.map fun b => (b, f.own) } rest)
  | same (hslot : ∀ n, g.pc ≠ .setSlot n) (hcopy : ∀ n, g.pc ≠ .copyOut n)
    (harg : ∀ k bytes lvalue, g.pc = .setArg k → g.call.params[k]? ≠ some ⟨.cls bytes, lvalue⟩) :
    Resumed w g rest f v w

theorem resume_cases (w : World) (g : InvokeFrame) (rest : List Frame) (f : InvokeFrame)
    (v : Nat) : Resumed w g rest f v (resume w g rest f v) := by
  unfold resume
  cases hpc : g.pc with
  | setSlot n =>
    by_cases hv : v = 0
    · simp only [hv, if_true]
      exact .slotFailed hpc rfl
    · simp only [hv, if_false]
      exact .slotGranted hpc hv
  | setArg k =>
    dsimp only
    split
    · next bytes lvalue hk =>
      split
      · exact .argStored hpc hk
      · exact .argBad hpc hk
    · next hk =>
      refine .same (by simp [hpc]) (by simp [hpc]) ?_
      intro k' bytes lvalue hpc' hk'
      rw [hpc] at hpc'
      cases hpc'
      exact hk bytes lvalue hk'
  | copyOut n =>
    have hrecorded : Resumed w g rest f v _ := .recorded hpc
    rw [hpc] at hrecorded
    exact hrecorded
  | start | mallocSlot | recurse | serialize | body | freeArgs =>
    exact .same (by simp [hpc]) (by simp [hpc]) (by simp [hpc])

theorem serializeArg_cases {w' : World} {k : Nat} (h : serializeArg w f rest k = some w') :
    f.pc = .serialize ∧ k ∈ f.pending ∧
    ∃ bytes lvalue, f.call.params[k]? = some ⟨.cls bytes, lvalue⟩ ∧
      w' = implMallocInSandbox
        (w.setTop { f with pc := .setArg k, pending := f.pending.erase k } rest)
        f.sandbox bytes.1.length := by
  unfold serializeArg at h
  split at h
  · next bytes lvalue hpc hk =>
    split at h
    · next hmem =>
      cases h
      exact ⟨hpc, hmem, bytes, lvalue, hk, rfl⟩
    · cases h
  · cases h

/-- Interceptor `n` in the context `S`: its arguments are refused, or the callback entered. -/
inductive Intercepted (w : World) (n : CallbackIndex) (type : FuncType) (ret : Nat)
    (params : List Nat) (S : SandboxId) : World → Prop where
  | refused (hargs : (type.args.zip params).mapM (fun p => serializeToSandbox
      { w with threadData := { w.threadData with lastCallbackInvoked := n } } S p.1 p.2) = none) :
    Intercepted w n type ret params S
      (World.raise { w with threadData := { w.threadData with lastCallbackInvoked := n } }
        (.check .invalidPointer))
  | called {args : List Arg} (hargs : (type.args.zip params).mapM (fun p => serializeToSandbox
      { w with threadData := { w.threadData with lastCallbackInvoked := n } } S p.1 p.2) =
        some args) :
    Intercepted w n type ret params S
      { w with
        threadData := { w.threadData with lastCallbackInvoked := n }
        stack := .callback ⟨(w.sandboxes S).table.state.callbacks n, type, ret, args⟩ :: w.stack }

theorem enterInterceptor_cases {w' : World} {n : CallbackIndex} {type : FuncType} {ret : Nat}
    {params : List Nat} (h : enterInterceptor w n type ret params = some w') :
    ∃ S, w.threadData.sandbox = some S ∧ Intercepted w n type ret params S w' := by
  unfold enterInterceptor at h
  dsimp only at h
  split at h
  · cases h
  next S hcontext =>
  split at h
  · cases h
  refine ⟨S, hcontext, ?_⟩
  split at h
  · next hargs =>
    cases h
    exact .refused hargs
  · next hargs =>
    cases h
    exact .called hargs

/-- A callback that has returned: a class result is stored, or its address refused. -/
inductive HandedBack (w : World) (c : CallbackFrame) (rest : List Frame) (bytes : List UInt8) :
    World → Prop where
  | plain : HandedBack w c rest bytes (leaveFrame w (.callback c) rest)
  | stored {n : ClassSize} {S : SandboxId} {g : InvokeFrame} {rest' : List Frame}
    (hret : c.type.ret = some (.cls n)) (hcontext : w.threadData.sandbox = some S)
    (hrest : rest = .invoke g :: rest') (hlength : bytes.length = n.1) :
    HandedBack w c rest bytes (storeFor (leaveFrame w (.callback c) rest) S g rest' c.ret bytes)
  | refused : HandedBack w c rest bytes
      ((leaveFrame w (.callback c) rest).raise (.check .invalidPointer))

theorem leaveInterceptor_cases {w' : World} {c : CallbackFrame} {bytes : List UInt8}
    (h : leaveInterceptor w c rest bytes = some w') : HandedBack w c rest bytes w' := by
  unfold leaveInterceptor at h
  dsimp only at h
  split at h
  · next hret hcontext =>
    split at h
    · cases h
    next hlength =>
    split at h
    · cases h
      exact .stored hret hcontext rfl (not_not.mp hlength)
    · cases h
      exact .refused
  · cases h
  · cases h
    exact .plain

end transitions
end RlboxWasm2c

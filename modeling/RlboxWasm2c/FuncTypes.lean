import Mathlib.Data.List.Basic

/- Function types and their lowering to wasm, as the templates of
   `rlbox_wasm2c_sandbox.hpp` compute it. One C++ function type is lowered three
   times: for the type code list given to the module's `get_func_type`
   (`getWasm2cFuncIndex`), for the parameter pack of the interceptor installed in
   the callback table (`chosenInterceptor`), and for the function pointer cast of
   an invocation (`implInvokeLowering`). The first two go through
   `convert_type_to_wasm_type`; the cast names C++ types, which the C ABI passes.

   Proved here: the interceptor and the invocation agree for every function type
   (`interceptor_eq_invoke`), and the registered type code list agrees with them
   exactly when the return type is not a class (`signature_registered_iff`): for a
   class return type `param_count` counts the promoted return pointer, the list
   passed after it does not hold its type.

   Correspondence (C++ ↔ Lean):
     `convert_type_to_wasm_type<T>`               ↔ `convertTypeToWasmType`
     `prepend_arg_type`, `change_return_type`,
     `change_class_arg_types`                     ↔ `prependArgType`, `changeReturnType`,
                                                    `changeClassArgTypes`
     `get_wasm2c_func_index`                      ↔ `getWasm2cFuncIndex`
     parameters of `callback_interceptor` and
     `callback_interceptor_promoted`              ↔ `callbackInterceptor`,
                                                    `callbackInterceptorPromoted`
     the cast of `impl_invoke_with_func_ptr`      ↔ `implInvokeType`, `implInvokeLowering`
   The `get_func_type` of a module is generated code: a call of it is the record of
   its arguments (`GetFuncTypeCall`). -/
namespace RlboxWasm2c

/-- The size of an integral or enum type `convert_type_to_wasm_type` has a
    specialization for: at most `sizeof(uint64_t)`. -/
abbrev IntSize := { n : Nat // 0 < n ∧ n ≤ 8 }

/-- `sizeof` of a class. -/
abbrev ClassSize := { n : Nat // 0 < n }

/-- The non-void C++ types the templates tell apart. `T_PointerType` is the
    integral type of size 4. -/
inductive CType where
  | integral (size : IntSize)
  | enum (size : IntSize)
  | float
  | double
  | pointer
  | cls (size : ClassSize)
  deriving DecidableEq

def tPointerType : CType := .integral ⟨4, by decide⟩

/-- `std::is_class_v`. -/
def CType.isClass : CType → Bool
  | .cls _ => true
  | _ => false

/-- `T_Ret(T_Args...)`; no return type is `void`. -/
structure FuncType where
  ret : Option CType
  args : List CType
  deriving DecidableEq

/-- `std::is_class_v<T_Ret>`. -/
def FuncType.returnsClass (f : FuncType) : Bool := f.ret.any CType.isClass

/-- The wasm2c type codes `WASM_RT_I32`, `WASM_RT_I64`, `WASM_RT_F32`, `WASM_RT_F64`. -/
inductive WasmRtType where
  | i32
  | i64
  | f32
  | f64
  deriving DecidableEq

/-- The C types wasm2c code passes values in. -/
inductive WasmCType where
  | void
  | uint32
  | uint64
  | float
  | double
  deriving DecidableEq

/-- The members of `convert_type_to_wasm_type`. -/
structure Converted where
  type : WasmCType
  wasm2cType : WasmRtType
  deriving DecidableEq

/-- "wasm2c has no void type so use i32 for now"; pointers are 32 bit indexes, and
    class parameters are passed as a pointer to an object in the stack or heap. -/
def convertTypeToWasmType : Option CType → Converted
  | none => ⟨.void, .i32⟩
  | some (.integral n) => if n.1 ≤ 4 then ⟨.uint32, .i32⟩ else ⟨.uint64, .i64⟩
  | some (.enum n) => if n.1 ≤ 4 then ⟨.uint32, .i32⟩ else ⟨.uint64, .i64⟩
  | some .float => ⟨.float, .f32⟩
  | some .double => ⟨.double, .f64⟩
  | some .pointer => ⟨.uint32, .i32⟩
  | some (.cls _) => ⟨.uint32, .i32⟩

/-- The wasm type a C type of wasm2c code stands for; `void` stands for none. -/
def WasmCType.wasm : WasmCType → Option WasmRtType
  | .void => none
  | .uint32 => some .i32
  | .uint64 => some .i64
  | .float => some .f32
  | .double => some .f64

/-- A lowered signature, without the leading instance pointer. -/
structure WasmSig where
  params : List WasmRtType
  results : List WasmRtType
  deriving DecidableEq

/-- The wasm signature of a wasm2c function with these C parameters and result. -/
def wasmSig (params : List WasmCType) (ret : WasmCType) : WasmSig :=
  ⟨params.filterMap WasmCType.wasm, ret.wasm.toList⟩

/-! ## The registered signature -/

/-- The arguments of one call `get_func_type(param_count, ret_count, ...)`. -/
structure GetFuncTypeCall where
  paramCount : Nat
  retCount : Nat
  codes : List WasmRtType
  deriving DecidableEq

/-- The expansion `convert_type_to_wasm_type<T_Args>::wasm2c_type...`. -/
def argCodes (f : FuncType) : List WasmRtType :=
  f.args.map fun t => (convertTypeToWasmType (some t)).wasm2cType

def getWasm2cFuncIndex (f : FuncType) : GetFuncTypeCall :=
  let promoted := f.returnsClass
  let paramCount := if promoted then f.args.length + 1 else f.args.length
  let retCount := if promoted then 0 else if f.ret.isNone then 0 else 1
  if retCount = 0 then
    ⟨paramCount, retCount, argCodes f⟩
  else
    ⟨paramCount, retCount, argCodes f ++ [(convertTypeToWasmType f.ret).wasm2cType]⟩

/-- What the variadic call reads: `paramCount` parameter codes, then `retCount`
    result codes. The call describes `sig` when these are the codes passed. -/
def GetFuncTypeCall.Describes (c : GetFuncTypeCall) (sig : WasmSig) : Prop :=
  c.codes.length = c.paramCount + c.retCount ∧
  c.codes.take c.paramCount = sig.params ∧ c.codes.drop c.paramCount = sig.results

/-! ## The interceptors -/

/-- The C types `convert_type_to_wasm_type<T_Args>::type...` of the parameter pack. -/
def interceptorParams (f : FuncType) : List WasmCType :=
  f.args.map fun t => (convertTypeToWasmType (some t)).type

def callbackInterceptor (f : FuncType) : WasmSig :=
  wasmSig (interceptorParams f) (convertTypeToWasmType f.ret).type

/-- The returned class is written through the leading `ret`. -/
def callbackInterceptorPromoted (f : FuncType) : WasmSig :=
  wasmSig ((convertTypeToWasmType f.ret).type :: interceptorParams f) .void

/-- The interceptor `impl_register_callback` installs for the type. -/
def chosenInterceptor (f : FuncType) : WasmSig :=
  if f.returnsClass then callbackInterceptorPromoted f else callbackInterceptor f

/-! ## The invocation -/

def prependArgType (f : FuncType) (t : CType) : FuncType := { f with args := t :: f.args }

def changeReturnType (f : FuncType) (ret : Option CType) : FuncType := { f with ret := ret }

def changeClassArgTypes (f : FuncType) (t : CType) : FuncType :=
  { f with args := f.args.map fun a => if a.isClass then t else a }

/-- The function type `impl_invoke_with_func_ptr` calls through, its leading
    instance pointer left out: a class return becomes `void` with a leading
    `T_PointerType` (point 3), every class argument a `T_PointerType` (point 4). -/
def implInvokeType (f : FuncType) : FuncType :=
  if f.returnsClass then
    changeClassArgTypes (prependArgType (changeReturnType f none) tPointerType) tPointerType
  else changeClassArgTypes f tPointerType

/-- What the C ABI passes a value in. -/
inductive AbiSlot where
  | int32
  | int64
  | float
  | double
  | memory
  deriving DecidableEq

/-- An integer of less than 32 bits is extended to 32; a class passed by value is in memory.
    The types of the cast are converted ones, with `T_PointerType` for a pointer. -/
def CType.abiSlot : CType → AbiSlot
  | .integral n | .enum n => if 8 * n.1 ≤ 32 then .int32 else .int64
  | .float => .float
  | .double => .double
  | .pointer => .int32
  | .cls _ => .memory

/-- The wasm type of the parameter of wasm2c code that reads the slot. None is read from
    memory. -/
def AbiSlot.wasm : AbiSlot → Option WasmRtType
  | .int32 => some .i32
  | .int64 => some .i64
  | .float => some .f32
  | .double => some .f64
  | .memory => none

/-- The values a call through the cast passes and takes back. -/
def implInvokeLowering (f : FuncType) : WasmSig :=
  ⟨(implInvokeType f).args.filterMap fun t => t.abiSlot.wasm,
    ((implInvokeType f).ret.bind fun t => t.abiSlot.wasm).toList⟩

/-! ## The three lowerings agree, but for the codes of a class return -/

/-- A parameter is passed in the C type its type code stands for. -/
theorem convert_wasm (t : CType) :
    (convertTypeToWasmType (some t)).type.wasm =
      some (convertTypeToWasmType (some t)).wasm2cType := by
  cases t with
  | integral n | enum n => simp only [convertTypeToWasmType]; split <;> rfl
  | _ => rfl

theorem convert_cls {t : CType} (h : t.isClass = true) :
    convertTypeToWasmType (some t) = convertTypeToWasmType (some tPointerType) := by
  cases t with
  | cls n => rfl
  | _ => simp [CType.isClass] at h

theorem interceptorParams_wasm (f : FuncType) :
    (interceptorParams f).filterMap WasmCType.wasm = argCodes f := by
  simp only [interceptorParams, argCodes, List.filterMap_map]
  rw [← List.filterMap_eq_map]
  apply List.filterMap_congr
  intro t _
  exact convert_wasm t

/-- But for the classes, the ABI passes a type as the interceptors take it. -/
theorem abiSlot_wasm {t : CType} (h : t.isClass = false) :
    t.abiSlot.wasm = (convertTypeToWasmType (some t)).type.wasm := by
  cases t with
  | integral n | enum n =>
    have hsize : 8 * n.1 ≤ 32 ↔ n.1 ≤ 4 := by omega
    simp only [CType.abiSlot, convertTypeToWasmType, hsize]
    split <;> rfl
  | cls n => cases h
  | float | double | pointer => rfl

/-- With `T_PointerType` in place of the classes every parameter is passed as the interceptor
    takes it. -/
theorem changeClassArgTypes_params (f : FuncType) :
    (changeClassArgTypes f tPointerType).args.filterMap (fun t => t.abiSlot.wasm) =
      (interceptorParams f).filterMap WasmCType.wasm := by
  simp only [interceptorParams, changeClassArgTypes, List.filterMap_map]
  refine List.filterMap_congr fun t _ => ?_
  by_cases h : t.isClass = true
  · simp only [Function.comp_apply, h, if_true, convert_cls h]
    exact abiSlot_wasm rfl
  · simp only [Function.comp_apply, h]
    exact abiSlot_wasm ((Bool.not_eq_true _).mp h)

/-- A result that is no class is taken back as the interceptor returns it. -/
theorem ret_abiSlot {f : FuncType} (h : f.returnsClass = false) :
    (f.ret.bind fun t => t.abiSlot.wasm) = (convertTypeToWasmType f.ret).type.wasm := by
  cases hr : f.ret with
  | none => rfl
  | some t => exact abiSlot_wasm (by simpa [FuncType.returnsClass, hr] using h)

theorem ret_of_returnsClass {f : FuncType} (h : f.returnsClass = true) :
    ∃ t, f.ret = some t ∧ t.isClass = true := by
  cases hr : f.ret with
  | none => simp [FuncType.returnsClass, hr] at h
  | some t => exact ⟨t, rfl, by simpa [FuncType.returnsClass, hr] using h⟩

/-- The interceptor installed for a type has the parameters and the result an
    invocation of that type passes. -/
theorem interceptor_eq_invoke (f : FuncType) : chosenInterceptor f = implInvokeLowering f := by
  unfold chosenInterceptor implInvokeLowering implInvokeType
  split
  · next h =>
    obtain ⟨t, hr, ht⟩ := ret_of_returnsClass h
    -- the promoted pointer is the first parameter of both
    rw [changeClassArgTypes_params]
    simp only [callbackInterceptorPromoted, hr, convert_cls ht]
    rfl
  · next h =>
    have hret := ret_abiSlot ((Bool.not_eq_true _).mp h)
    rw [changeClassArgTypes_params]
    simp only [callbackInterceptor, wasmSig, ← hret]
    rfl

/-- Without a class return the codes passed are those of the interceptor. -/
theorem getWasm2cFuncIndex_describes {f : FuncType} (h : f.returnsClass = false) :
    (getWasm2cFuncIndex f).Describes (chosenInterceptor f) := by
  have hsig : chosenInterceptor f = callbackInterceptor f := by simp [chosenInterceptor, h]
  have hlen : (argCodes f).length = f.args.length := by simp [argCodes]
  simp only [hsig, callbackInterceptor, wasmSig, GetFuncTypeCall.Describes, interceptorParams_wasm]
  cases hr : f.ret with
  | none =>
    have hc : getWasm2cFuncIndex f = ⟨f.args.length, 0, argCodes f⟩ := by
      simp [getWasm2cFuncIndex, h, hr]
    simp only [hc, ← hlen]
    exact ⟨rfl, List.take_length, List.drop_length⟩
  | some t =>
    have hc : getWasm2cFuncIndex f =
        ⟨f.args.length, 1, argCodes f ++ [(convertTypeToWasmType (some t)).wasm2cType]⟩ := by
      simp [getWasm2cFuncIndex, h, hr]
    simp only [hc, convert_wasm, ← hlen]
    exact ⟨by simp, List.take_left, List.drop_left⟩

/-- With a class return one code is missing: the call counts the promoted
    parameter and does not pass it. -/
theorem getWasm2cFuncIndex_short {f : FuncType} (h : f.returnsClass = true) :
    (getWasm2cFuncIndex f).codes.length + 1 =
      (getWasm2cFuncIndex f).paramCount + (getWasm2cFuncIndex f).retCount := by
  simp [getWasm2cFuncIndex, h, argCodes]

/-- The registered type codes are the signature of the installed interceptor, and
    of an invocation of the type, exactly for the types that do not return a class. -/
theorem signature_registered_iff (f : FuncType) :
    ((getWasm2cFuncIndex f).Describes (chosenInterceptor f) ∧
      chosenInterceptor f = implInvokeLowering f) ↔ f.returnsClass = false := by
  constructor
  · rintro ⟨⟨hlen, -, -⟩, -⟩
    cases h : f.returnsClass
    · rfl
    · have := getWasm2cFuncIndex_short h
      omega
  · intro h
    exact ⟨getWasm2cFuncIndex_describes h, interceptor_eq_invoke f⟩

/-- `struct S f(int)`: two parameters announced, one code passed. -/
theorem class_return_signature_short :
    ¬ (getWasm2cFuncIndex ⟨some (.cls ⟨8, by decide⟩), [.integral ⟨4, by decide⟩]⟩).Describes
      (chosenInterceptor ⟨some (.cls ⟨8, by decide⟩), [.integral ⟨4, by decide⟩]⟩) := by
  rintro ⟨h, -, -⟩
  exact absurd h (by decide)

end RlboxWasm2c

import RlboxWasm2c.Context

/- Threads that enter callbacks while others register and unregister them.

   A guest thread comes to a callback in steps: it looks up the table entry, which is
   interceptor `n` of a function type; the interceptor notes `n` in the thread's data,
   fetches `callbacks[n]` under the lock, converts the arguments and calls; and the callback
   asks for its key, which is read without the lock. A registration or an unregistration is
   one critical section, so one step, and comes between any two of these.

   `entered_undisturbed`: as long as no registration is undone between the lookup of its
   entry and the reading of its key, every thread calls the callback it looked up and is
   told its key. `undone_disturbs`: where one is, the thread that goes on alone calls a null
   pointer or is told another key, unless its arguments are refused.

   The steps of a thread on its own are `enterInterceptor` and
   `implGetExecutedCallbackSandboxAndKey` (`advance_enters`). What an interceptor does after
   its callback returned is not part of this. -/
namespace RlboxWasm2c
open Runs
open MinWasi (Memory)

/-- A call of an interceptor through a table entry; `registration` records whose entry it
    was. -/
structure Entering where
  sandbox : SandboxId
  n : CallbackIndex
  type : FuncType
  params : List Nat
  registration : Option Registration

/-- Where a thread is on its way to a callback. -/
inductive Phase where
  | away
  | entered (e : Entering)
  | noted (e : Entering)
  | fetched (e : Entering) (func : HostPtr)
  | called (e : Entering) (func : HostPtr) (args : List Arg)
  | reported (e : Entering) (sandboxAndKey : SandboxId × HostPtr)
  | refused (e : Entering) (check : DynamicCheck)

/-- The call whose callback has not been told its key. -/
def Phase.pending : Phase → Option Entering
  | .entered e | .noted e | .fetched e _ | .called e _ _ => some e
  | .away | .reported _ _ | .refused _ _ => none

structure Thread where
  data : ThreadData
  phase : Phase

/-- The sandboxes of a process and the threads in it. -/
structure Process where
  ptr32 : Bool
  sandboxes : SandboxId → Sandbox
  threads : List Thread

def Process.tables (s : Process) (S : SandboxId) : Table := (s.sandboxes S).table

/-- What the machine of one thread works on, for a thread with the given data. -/
def Process.world (s : Process) (data : ThreadData) : World :=
  ⟨s.ptr32, s.sandboxes, data, [], none, []⟩

/-- A critical section on the table of a sandbox; a store to the memory of one; or a step of
    thread `t`, which may go to another context while no callback of it is pending. -/
inductive ThreadInput where
  | table (S : SandboxId) (op : CallbackOp)
  | store (S : SandboxId) (a : Nat) (bytes : List UInt8)
  | switch (t : Nat) (context : Option SandboxId)
  | lookup (t slot : Nat) (params : List Nat)
  | advance (t : Nat)

/-- Guest code of thread `th` calls table entry `slot`. -/
def lookupEntry (s : Process) (th : Thread) (slot : Nat) (params : List Nat) : Option Thread :=
  match th.phase.pending, th.data.sandbox with
  | none, some S =>
    match (s.tables S).state.sandboxCallbackTable.data[slot]? with
    | some ⟨_, .interceptor n type, _⟩ =>
      some { th with
        phase := .entered ⟨S, n, type, params,
          (s.tables S).ledger.live.find? fun r => r.slot = slot⟩ }
    | _ => none
  | _, _ => none

/-- The next step of thread `th`; `none` is the use of a null context. -/
def advanceThread (s : Process) (th : Thread) : Option Thread :=
  match th.phase with
  | .entered e =>
    some { data := { th.data with lastCallbackInvoked := e.n }, phase := .noted e }
  | .noted e =>
    th.data.sandbox.map fun S =>
      { th with phase := .fetched e ((s.tables S).state.callbacks e.n) }
  | .fetched e func =>
    th.data.sandbox.map fun S =>
      match (e.type.args.zip e.params).mapM fun p =>
          serializeToSandbox (s.world th.data) S p.1 p.2 with
      | none => { th with phase := .refused e .invalidPointer }
      | some args => { th with phase := .called e func args }
  | .called e _ _ =>
    (implGetExecutedCallbackSandboxAndKey (s.world th.data)).map fun sandboxAndKey =>
      { th with phase := .reported e sandboxAndKey }
  | .reported _ _ | .refused _ _ => some { th with phase := .away }
  | .away => none

/-- Changes sandbox `S`. -/
def Process.onSandbox (s : Process) (S : SandboxId) (f : Sandbox → Sandbox) : Process :=
  { s with sandboxes := Function.update s.sandboxes S (f (s.sandboxes S)) }

/-- Thread `t` makes a step. -/
def Process.onThread (s : Process) (t : Nat) (f : Thread → Option Thread) : Option Process :=
  s.threads[t]?.bind fun th => (f th).map fun th' => { s with threads := s.threads.set t th' }

def processStep (grow : GrowFuncrefTable) (i : ThreadInput) (s : Process) : Option Process :=
  match i with
  | .table S op => some (s.onSandbox S fun x => { x with table := op.apply grow x.table })
  | .store S a bytes => some (s.onSandbox S fun x => { x with memory := x.memory.write a bytes })
  | .switch t context =>
    s.onThread t fun th =>
      if th.phase.pending = none then some ⟨{ th.data with sandbox := context }, .away⟩ else none
  | .lookup t slot params => s.onThread t fun th => lookupEntry s th slot params
  | .advance t => s.onThread t (advanceThread s)

/-! ## Disturbed threads -/

/-- A thread that entered a live registration calls its callback, with its signature, and is
    told its key. -/
def Phase.Undisturbed : Phase → Prop
  | .called e func _ => ∀ r ∈ e.registration, func = r.callback ∧ func ≠ nullptr ∧ e.type = r.type
  | .reported e sandboxAndKey => ∀ r ∈ e.registration, sandboxAndKey = (e.sandbox, r.key)
  | _ => True

def Process.Undisturbed (s : Process) : Prop := ∀ th ∈ s.threads, th.phase.Undisturbed

/-- The tables are those of new sandboxes, and no thread is on its way to a callback. -/
structure Process.New (s : Process) : Prop where
  tables : ∀ S, ∃ wasm2cInstance t, s.tables S = .fresh wasm2cInstance t
  threads : ∀ th ∈ s.threads, th.phase = .away

/-- The host keeps the caller's side of every table. -/
def TablesAdmit (s : Process) : ThreadInput → Prop
  | .table S op => Admits (s.tables S) op
  | _ => True

/-- No registration is undone while a thread that entered it has not been told its key. -/
def KeepsEntered (s : Process) : ThreadInput → Prop
  | .table S (.unregister key) => ∀ th ∈ s.threads, ∀ e ∈ th.phase.pending, e.sandbox = S →
    ∀ r ∈ e.registration, r.key ≠ key
  | _ => True

instance (s : Process) : DecidablePred (TablesAdmit s)
  | .table S op => inferInstanceAs (Decidable (Admits (s.tables S) op))
  | .store .. | .switch .. | .lookup .. | .advance _ => .isTrue trivial

instance (s : Process) : DecidablePred (KeepsEntered s)
  | .table S (.unregister key) =>
    inferInstanceAs (Decidable (∀ th ∈ s.threads, ∀ e ∈ th.phase.pending, e.sandbox = S →
      ∀ r ∈ e.registration, r.key ≠ key))
  | .table _ (.register _ _ _) | .table _ (.convert _ _) | .table _ (.guestGrow _ _)
  | .store .. | .switch .. | .lookup .. | .advance _ => .isTrue trivial

/-! ## What a thread has found -/

/-- The registration is live and index `n` holds it. -/
structure Entering.Live (tables : SandboxId → Table) (e : Entering) (r : Registration) : Prop where
  live : r ∈ (tables e.sandbox).ledger.live
  holds : Holds (tables e.sandbox).state e.n r
  type : e.type = r.type

/-- What a thread has done so far is right for the registration it entered. -/
def Phase.Follows (data : ThreadData) : Phase → Prop
  | .noted e => data.lastCallbackInvoked = e.n
  | .fetched e func | .called e func _ =>
    data.lastCallbackInvoked = e.n ∧ ∀ r ∈ e.registration, func = r.callback
  | .reported e sandboxAndKey => ∀ r ∈ e.registration, sandboxAndKey = (e.sandbox, r.key)
  | .away | .entered _ | .refused _ _ => True

/-- A thread in order: its context is that of the pending call, and a registration it entered
    is still live. -/
structure Thread.InOrder (tables : SandboxId → Table) (th : Thread) : Prop where
  context : ∀ e ∈ th.phase.pending, th.data.sandbox = some e.sandbox
  live : ∀ e ∈ th.phase.pending, ∀ r ∈ e.registration, e.Live tables r
  follows : th.phase.Follows th.data

structure Process.Sound (n₀ : SandboxId → Nat) (s : Process) : Prop where
  tables : ∀ S, Consistent (n₀ S) (s.tables S)
  threads : ∀ th ∈ s.threads, th.InOrder s.tables

section threads
variable {grow : GrowFuncrefTable} {n₀ : SandboxId → Nat} {s s' : Process} {th th' : Thread}

theorem onThread_cases {t : Nat} {f : Thread → Option Thread} (h : s.onThread t f = some s') :
    ∃ th th', s.threads[t]? = some th ∧ f th = some th' ∧
      s' = { s with threads := s.threads.set t th' } := by
  unfold Process.onThread at h
  obtain ⟨th, hth, h⟩ := Option.bind_eq_some_iff.mp h
  obtain ⟨th', hth', rfl⟩ := Option.map_eq_some_iff.mp h
  exact ⟨th, th', hth, hth', rfl⟩

theorem lookupEntry_cases {slot : Nat} {params : List Nat}
    (h : lookupEntry s th slot params = some th') :
    ∃ S n type funcType inst, th.data.sandbox = some S ∧
      (s.tables S).state.sandboxCallbackTable.data[slot]? =
        some ⟨funcType, .interceptor n type, inst⟩ ∧
      th' = { th with
        phase := .entered ⟨S, n, type, params,
          (s.tables S).ledger.live.find? fun r => r.slot = slot⟩ } := by
  unfold lookupEntry at h
  split at h
  · next S hpending hcontext =>
    split at h
    · next funcType n type inst hentry =>
      cases h
      exact ⟨S, n, type, funcType, inst, hcontext, hentry, rfl⟩
    · cases h
  · cases h

/-- What an entry of a live registration says is so. -/
theorem lookup_inOrder (hs : s.Sound n₀) {slot : Nat} {params : List Nat}
    (h : lookupEntry s th slot params = some th') : th'.InOrder s.tables := by
  obtain ⟨S, n, type, funcType, inst, hcontext, hentry, rfl⟩ := lookupEntry_cases h
  refine ⟨?_, ?_, trivial⟩
  · intro e he
    cases he
    exact hcontext
  · intro e he r hr
    cases he
    have hslot : r.slot = slot := by simpa using List.find?_some hr
    have hlive := List.mem_of_find?_eq_some hr
    obtain ⟨i, hi⟩ := (hs.tables S).live_held r hlive
    have hheld := hi.entry
    rw [hslot, hentry] at hheld
    cases hheld
    exact ⟨hlive, hi, rfl⟩

/-- A step of a thread keeps it in order. -/
theorem advance_inOrder (hth : th.InOrder s.tables) (h : advanceThread s th = some th') :
    th'.InOrder s.tables := by
  obtain ⟨data, phase⟩ := th
  obtain ⟨hcontext, hlive, hfollows⟩ := hth
  unfold advanceThread at h
  -- the entry stays live for the thread, so each phase reads what the registration wrote
  cases phase with
  | away => cases h
  | entered e =>
    cases h
    exact ⟨hcontext, hlive, rfl⟩
  | noted e =>
    obtain ⟨S, hS, rfl⟩ := Option.map_eq_some_iff.mp h
    cases hS.symm.trans (hcontext e rfl)
    refine ⟨hcontext, hlive, hfollows, ?_⟩
    intro r hr
    exact (hlive e rfl r hr).holds.callback
  | fetched e func =>
    obtain ⟨S, hS, rfl⟩ := Option.map_eq_some_iff.mp h
    dsimp only
    split
    · refine ⟨?_, ?_, trivial⟩
      · rintro e' ⟨⟩
      · rintro e' ⟨⟩
    · exact ⟨hcontext, hlive, hfollows⟩
  | called e func args =>
    obtain ⟨sandboxAndKey, hkey, rfl⟩ := Option.map_eq_some_iff.mp h
    refine ⟨?_, ?_, ?_⟩
    · rintro e' ⟨⟩
    · rintro e' ⟨⟩
    · intro r hr
      obtain ⟨S, hS, rfl⟩ := Option.map_eq_some_iff.mp hkey
      cases hS.symm.trans (hcontext e rfl)
      change (_, (s.tables e.sandbox).state.callbackUniqueKeys data.lastCallbackInvoked) = _
      rw [hfollows.1, (hlive e rfl r hr).holds.key]
  | reported e sandboxAndKey =>
    cases h
    refine ⟨?_, ?_, trivial⟩
    · rintro e' ⟨⟩
    · rintro e' ⟨⟩
  | refused e check =>
    cases h
    refine ⟨?_, ?_, trivial⟩
    · rintro e' ⟨⟩
    · rintro e' ⟨⟩

/-- A thread replaced by one in order. -/
theorem Process.Sound.onThread (hs : s.Sound n₀) {t : Nat} (hth' : th'.InOrder s.tables) :
    Process.Sound n₀ { s with threads := s.threads.set t th' } where
  tables := hs.tables
  threads := by
    intro u hu
    rcases List.mem_or_eq_of_mem_set hu with hu | rfl
    · exact hs.threads u hu
    · exact hth'

theorem onSandbox_tables (s : Process) (S : SandboxId) (f : Sandbox → Sandbox) :
    (s.onSandbox S f).tables = Function.update s.tables S (f (s.sandboxes S)).table :=
  Function.comp_update Sandbox.table s.sandboxes S (f (s.sandboxes S))

/-- An operation on a table keeps the threads in order that entered its live registrations. -/
theorem Process.Sound.onTable (hs : s.Sound n₀) (hgrow : grow.Appends) {S : SandboxId}
    {op : CallbackOp} (hadmits : Admits (s.tables S) op)
    (hkeeps : KeepsEntered s (.table S op)) :
    (s.onSandbox S fun x => { x with table := op.apply grow x.table }).Sound n₀ where
  tables := by
    intro S'
    rw [onSandbox_tables]
    by_cases hS : S' = S
    · subst hS
      rw [Function.update_self]
      exact apply_consistent hgrow (hs.tables S') hadmits
    · rw [Function.update_of_ne hS]
      exact hs.tables S'
  threads := by
    intro th hth
    rw [onSandbox_tables]
    refine ⟨(hs.threads th hth).context, ?_, (hs.threads th hth).follows⟩
    intro e he r hr
    have hlive := (hs.threads th hth).live e he r hr
    by_cases hS : e.sandbox = S
    · subst hS
      -- the operation is on the table entered: it keeps the row, unless it unregisters it
      have hother : ∀ key, op = .unregister key → r.key ≠ key := by
        rintro key rfl
        exact hkeeps th hth e he rfl r hr
      have hkept := (hs.tables e.sandbox).held_kept hgrow hadmits hlive.live hlive.holds hother
      refine ⟨?_, ?_, hlive.type⟩
      · rw [Function.update_self]
        exact hkept.1
      · rw [Function.update_self]
        exact hkept.2
    · refine ⟨?_, ?_, hlive.type⟩
      · rw [Function.update_of_ne hS]
        exact hlive.live
      · rw [Function.update_of_ne hS]
        exact hlive.holds

theorem Process.Sound.onMemory (hs : s.Sound n₀) (S : SandboxId) (f : Memory → Memory) :
    (s.onSandbox S fun x => { x with memory := f x.memory }).Sound n₀ := by
  have htables : (s.onSandbox S fun x => { x with memory := f x.memory }).tables = s.tables := by
    rw [onSandbox_tables]
    exact Function.update_eq_self S s.tables
  refine ⟨?_, ?_⟩
  · rw [htables]
    exact hs.tables
  · rw [htables]
    exact hs.threads

theorem processStep_sound (hgrow : grow.Appends) (s : Process) (i : ThreadInput) (s' : Process)
    (hs : s.Sound n₀) (hi : TablesAdmit s i ∧ KeepsEntered s i)
    (h : processStep grow i s = some s') : s'.Sound n₀ := by
  unfold processStep at h
  cases i with
  | table S op =>
    cases h
    exact hs.onTable hgrow hi.1 hi.2
  | store S a bytes =>
    cases h
    exact hs.onMemory S fun memory => memory.write a bytes
  | switch t context =>
    obtain ⟨th, th', -, hth', rfl⟩ := onThread_cases h
    split at hth'
    · cases hth'
      refine hs.onThread ⟨?_, ?_, trivial⟩
      · rintro e ⟨⟩
      · rintro e ⟨⟩
    · cases hth'
  | lookup t slot params =>
    obtain ⟨th, th', -, hth', rfl⟩ := onThread_cases h
    exact hs.onThread (lookup_inOrder hs hth')
  | advance t =>
    obtain ⟨th, th', hth, hth', rfl⟩ := onThread_cases h
    exact hs.onThread (advance_inOrder (hs.threads th (List.mem_of_getElem? hth)) hth')

theorem Process.Sound.undisturbed (hs : s.Sound n₀) : s.Undisturbed := by
  intro th hth
  obtain ⟨data, phase⟩ := th
  obtain ⟨-, hlive, hfollows⟩ := hs.threads _ hth
  cases phase with
  | called e func args =>
    intro r hr
    obtain ⟨hmem, -, htype⟩ := hlive e rfl r hr
    have hfunc := hfollows.2 r hr
    refine ⟨hfunc, ?_, htype⟩
    rw [hfunc]
    exact ((hs.tables e.sandbox).live_ok r hmem).2
  | reported e sandboxAndKey => exact hfollows
  | away | entered | noted | fetched | refused => trivial

/-! ## A thread on its own -/

/-- The thread makes its next step. -/
def Advances (s : Process) (th th' : Thread) : Prop := advanceThread s th = some th'

theorem exec_advance {t : Nat} (h : Relation.ReflTransGen (Advances s) th th') :
    s.threads[t]? = some th →
    ∃ k, exec (processStep grow) (List.replicate k (.advance t)) s =
      some { s with threads := s.threads.set t th' } := by
  induction h with
  | refl =>
    intro hth
    have hself : s.threads.set t th = s.threads := by
      obtain ⟨hlt, rfl⟩ := List.getElem?_eq_some_iff.mp hth
      exact List.set_getElem_self hlt
    exact ⟨0, by rw [hself]; rfl⟩
  | @tail u v _ huv ih =>
    intro hth
    obtain ⟨k, hk⟩ := ih hth
    refine ⟨k + 1, ?_⟩
    obtain ⟨hlt, -⟩ := List.getElem?_eq_some_iff.mp hth
    have hlast : processStep grow (.advance t) { s with threads := s.threads.set t u } =
        some { s with threads := s.threads.set t v } := by
      have hu : (s.threads.set t u)[t]? = some u := List.getElem?_set_self hlt
      have hv : advanceThread { s with threads := s.threads.set t u } u = some v := huv
      simp only [processStep, Process.onThread, hu, Option.bind_some, hv, Option.map_some,
        List.set_set]
    rw [List.replicate_succ', exec_append, hk, Option.bind_some, exec, hlast]
    rfl

/-- On its own a thread that entered an interceptor does what `enterInterceptor` does. -/
theorem advance_enters {data : ThreadData} {e : Entering} {w' : World} (ret : Nat)
    (h : enterInterceptor (s.world data) e.n e.type ret e.params = some w') :
    ∃ phase, Relation.ReflTransGen (Advances s) ⟨data, .entered e⟩ ⟨w'.threadData, phase⟩ ∧
      ((w'.raising = some (.check .invalidPointer) ∧ phase = .refused e .invalidPointer) ∨
        ∃ func args, w'.stack = [.callback ⟨func, e.type, ret, args⟩] ∧
          phase = .called e func args) := by
  obtain ⟨S, hcontext, hcases⟩ := enterInterceptor_cases h
  have hcontext : data.sandbox = some S := hcontext
  have hfetch : Relation.ReflTransGen (Advances s) ⟨data, .entered e⟩
      ⟨{ data with lastCallbackInvoked := e.n },
        .fetched e ((s.tables S).state.callbacks e.n)⟩ := by
    refine .tail (.single rfl) ?_
    exact Option.map_eq_some_iff.mpr ⟨S, hcontext, rfl⟩
  -- the arguments are converted the same way, as no other thread comes between
  cases hcases with
  | refused hrefused =>
    refine ⟨.refused e .invalidPointer, hfetch.tail ?_, .inl ⟨rfl, rfl⟩⟩
    refine Option.map_eq_some_iff.mpr ⟨S, hcontext, ?_⟩
    split
    · rfl
    · next hargs => exact absurd (hrefused.symm.trans hargs) (by rintro ⟨⟩)
  | @called args hargs =>
    refine ⟨.called e _ args, hfetch.tail ?_, .inr ⟨_, args, rfl, rfl⟩⟩
    refine Option.map_eq_some_iff.mpr ⟨S, hcontext, ?_⟩
    split
    · next hrefused => exact absurd (hargs.symm.trans hrefused) (by rintro ⟨⟩)
    · next args' hargs' =>
      cases hargs.symm.trans hargs'
      rfl

/-! ## A registration undone -/

/-- The thread alone is disturbed, or its arguments are refused. -/
def Misled (s : Process) (th : Thread) (e : Entering) : Prop :=
  ∃ th', Relation.ReflTransGen (Advances s) th th' ∧
    (¬th'.phase.Undisturbed ∨ th'.phase = .refused e .invalidPointer)

theorem Misled.head {e : Entering} (h : Advances s th th') (hmisled : Misled s th' e) :
    Misled s th e := by
  obtain ⟨u, hu, hend⟩ := hmisled
  exact ⟨u, .head h hu, hend⟩

/-- A call that is about to be made of something else. -/
theorem fetched_misled {data : ThreadData} {e : Entering} {func : HostPtr}
    (hcontext : data.sandbox = some e.sandbox)
    (hcalled : ∀ args, Misled s ⟨data, .called e func args⟩ e) :
    Misled s ⟨data, .fetched e func⟩ e := by
  cases hargs : (e.type.args.zip e.params).mapM fun p =>
      serializeToSandbox (s.world data) e.sandbox p.1 p.2 with
  | none =>
    refine ⟨_, .single (Option.map_eq_some_iff.mpr ⟨e.sandbox, hcontext, rfl⟩), .inr ?_⟩
    simp only [hargs]
  | some args =>
    refine .head ?_ (hcalled args)
    refine Option.map_eq_some_iff.mpr ⟨e.sandbox, hcontext, ?_⟩
    simp only [hargs]

/-- The key is read after it was cleared. -/
theorem called_misled {data : ThreadData} {e : Entering} {r : Registration}
    (hcontext : data.sandbox = some e.sandbox) (hlast : data.lastCallbackInvoked = e.n)
    (hr : e.registration = some r) (hkey : r.key ≠ nullptr)
    (hkeys : (s.tables e.sandbox).state.callbackUniqueKeys e.n = nullptr) (func : HostPtr)
    (args : List Arg) : Misled s ⟨data, .called e func args⟩ e := by
  have hreported : implGetExecutedCallbackSandboxAndKey (s.world data) =
      some (e.sandbox, nullptr) := by
    refine Option.map_eq_some_iff.mpr ⟨e.sandbox, hcontext, ?_⟩
    show (e.sandbox, (s.tables e.sandbox).state.callbackUniqueKeys data.lastCallbackInvoked) = _
    rw [hlast, hkeys]
  refine ⟨_, .single (Option.map_eq_some_iff.mpr ⟨_, hreported, rfl⟩), .inl ?_⟩
  intro hundisturbed
  have hsame : (e.sandbox, nullptr) = (e.sandbox, r.key) := hundisturbed r hr
  exact hkey (congrArg Prod.snd hsame).symm

/-- The callback is fetched after it was cleared. -/
theorem noted_misled {data : ThreadData} {e : Entering} {r : Registration}
    (hcontext : data.sandbox = some e.sandbox) (hr : e.registration = some r)
    (hcallbacks : (s.tables e.sandbox).state.callbacks e.n = nullptr) :
    Misled s ⟨data, .noted e⟩ e := by
  refine .head (Option.map_eq_some_iff.mpr ⟨e.sandbox, hcontext, rfl⟩) ?_
  rw [hcallbacks]
  refine fetched_misled hcontext fun args => ⟨_, .refl, .inl ?_⟩
  intro hundisturbed
  exact (hundisturbed r hr).2.1 rfl

/-- Where a registration is undone that a thread entered, the thread alone is misled. -/
theorem undone_disturbs {t : Nat} {e : Entering} {r : Registration} (hs : s.Sound n₀)
    (hth : s.threads[t]? = some th) (hpending : th.phase.pending = some e)
    (hr : e.registration = some r) :
    ∃ s₁ k s₂ th₂, processStep grow (.table e.sandbox (.unregister r.key)) s = some s₁ ∧
      exec (processStep grow) (List.replicate k (.advance t)) s₁ = some s₂ ∧
      s₂.threads[t]? = some th₂ ∧
      (¬th₂.phase.Undisturbed ∨ th₂.phase = .refused e .invalidPointer) := by
  obtain ⟨hcontext, hlive, hfollows⟩ := hs.threads th (List.mem_of_getElem? hth)
  obtain ⟨hmem, hholds, -⟩ := hlive e hpending r hr
  have hkey := ((hs.tables e.sandbox).live_ok r hmem).1
  let s₁ := s.onSandbox e.sandbox fun x =>
    { x with table := (CallbackOp.unregister r.key).apply grow x.table }
  have hcleared : (s₁.tables e.sandbox).state = (s.tables e.sandbox).state.clearAt e.n := by
    rw [onSandbox_tables, Function.update_self]
    show ((CallbackOp.unregister r.key).apply grow (s.tables e.sandbox)).state = _
    simp only [CallbackOp.apply, (hs.tables e.sandbox).unregister_held hmem hholds]
  have hcallbacks : (s₁.tables e.sandbox).state.callbacks e.n = nullptr := by
    rw [hcleared]
    exact Function.update_self ..
  have hkeys : (s₁.tables e.sandbox).state.callbackUniqueKeys e.n = nullptr := by
    rw [hcleared]
    exact Function.update_self ..
  -- wherever the thread stands, it reads a field that was cleared
  have hmisled : Misled s₁ th e := by
    have hsandbox := hcontext e hpending
    obtain ⟨data, phase⟩ := th
    cases phase with
    | entered e =>
      cases hpending
      exact .head rfl (noted_misled hsandbox hr hcallbacks)
    | noted e =>
      cases hpending
      exact noted_misled hsandbox hr hcallbacks
    | fetched e func =>
      cases hpending
      exact fetched_misled hsandbox (called_misled hsandbox hfollows.1 hr hkey hkeys func)
    | called e func args =>
      cases hpending
      exact called_misled hsandbox hfollows.1 hr hkey hkeys func args
    | away | reported | refused => cases hpending
  obtain ⟨th₂, hadvances, hend⟩ := hmisled
  obtain ⟨k, hk⟩ : ∃ k, exec (processStep grow) (List.replicate k (.advance t)) s₁ =
      some { s₁ with threads := s₁.threads.set t th₂ } := exec_advance hadvances hth
  exact ⟨s₁, k, _, th₂, rfl, hk, List.getElem?_set_self (List.getElem?_eq_some_iff.mp hth).1, hend⟩

/-! ## Runs -/

theorem Process.New.sound (h : s.New) :
    s.Sound fun S => (s.tables S).state.sandboxCallbackTable.size where
  tables := by
    intro S
    obtain ⟨wasm2cInstance, t, hfresh⟩ := h.tables S
    rw [hfresh]
    exact fresh_consistent wasm2cInstance t
  threads := by
    intro th hth
    obtain ⟨data, phase⟩ := th
    cases h.threads _ hth
    refine ⟨?_, ?_, trivial⟩
    · rintro e ⟨⟩
    · rintro e ⟨⟩

/-- Threads enter callbacks in any order while others register and unregister. If no
    registration is undone between the lookup of its entry and the reading of its key, then
    in every state every thread that entered a live registration calls its callback with
    its signature and is told its key, or is refused. -/
theorem entered_undisturbed (hgrow : grow.Appends) {is : List ThreadInput} (hnew : s.New)
    (hmeets : Meets (processStep grow) (fun s i => TablesAdmit s i ∧ KeepsEntered s i) is s)
    (hrun : exec (processStep grow) is s = some s') : s'.Undisturbed := by
  have hsound := exec_invariant (processStep_sound hgrow) hnew.sound hmeets hrun
  exact hsound.undisturbed

end threads

/-- The sandboxes of `smallWorld` and two threads, both in sandbox 0. -/
def twoThreads : Process :=
  let inside : Thread := ⟨{ smallWorld.threadData with sandbox := some 0 }, .away⟩
  ⟨false, smallWorld.sandboxes, [inside, inside]⟩

theorem twoThreads_new : twoThreads.New where
  tables := fun _ => ⟨8, smallTable, rfl⟩
  threads := by
    intro th hth
    simp only [twoThreads, List.mem_cons, List.not_mem_nil, or_false, or_self] at hth
    rw [hth]

/-- Thread 0 enters a callback while another is registered and undone; its own is undone
    once both threads were told its key. -/
def enteredApart : List ThreadInput :=
  [.table 0 (.register unaryInt 11 101), .table 0 (.register unaryInt 12 102),
    .lookup 0 1 [5], .lookup 1 1 [6], .advance 0, .table 0 (.unregister 12), .advance 0,
    .advance 1, .table 0 (.register unaryInt 13 103), .advance 0, .advance 0, .advance 1,
    .advance 1, .advance 1, .table 0 (.unregister 11)]

theorem entered_undisturbed_apart :
    ∃ s, exec (processStep growWithinMax) enteredApart twoThreads = some s ∧ s.Undisturbed :=
  ⟨_, rfl, entered_undisturbed growWithinMax_appends twoThreads_new (by decide : Meets _ _
    enteredApart twoThreads) rfl⟩

/-- A signature other than `unaryInt`. -/
def nullary : FuncType := ⟨none, []⟩

/-- A thread looked up the entry of the registration ⟨11, 101⟩ and noted index 0. Another
    undoes that registration: the thread calls a null pointer; or it registers ⟨12, 102⟩ as
    well, which takes index 0: the thread calls 102 with another signature, or, where it had
    called 101, is told key 12. -/
theorem entered_redirected :
    (∃ s, exec (processStep growWithinMax)
        [.table 0 (.register unaryInt 11 101), .lookup 0 1 [5], .advance 0,
          .table 0 (.unregister 11), .advance 0, .advance 0] twoThreads = some s ∧
      (s.threads.map Thread.phase)[0]? =
        some (.called ⟨0, 0, unaryInt, [5], some ⟨11, 101, unaryInt, 1⟩⟩ nullptr [.scalar 5]) ∧
      ¬s.Undisturbed) ∧
    (∃ s, exec (processStep growWithinMax)
        [.table 0 (.register unaryInt 11 101), .lookup 0 1 [5], .advance 0,
          .table 0 (.unregister 11), .table 0 (.register nullary 12 102), .advance 0,
          .advance 0] twoThreads = some s ∧
      (s.threads.map Thread.phase)[0]? =
        some (.called ⟨0, 0, unaryInt, [5], some ⟨11, 101, unaryInt, 1⟩⟩ 102 [.scalar 5]) ∧
      ¬s.Undisturbed) ∧
    ∃ s, exec (processStep growWithinMax)
        [.table 0 (.register unaryInt 11 101), .lookup 0 1 [5], .advance 0, .advance 0,
          .advance 0, .table 0 (.unregister 11), .table 0 (.register nullary 12 102),
          .advance 0] twoThreads = some s ∧
      (s.threads.map Thread.phase)[0]? =
        some (.reported ⟨0, 0, unaryInt, [5], some ⟨11, 101, unaryInt, 1⟩⟩ (0, 12)) ∧
      ¬s.Undisturbed := by
  refine ⟨⟨_, rfl, rfl, ?_⟩, ⟨_, rfl, rfl, ?_⟩, ⟨_, rfl, rfl, ?_⟩⟩
  · intro hundisturbed
    have hcalled := hundisturbed _ (List.mem_cons_self ..) _ rfl
    exact absurd hcalled.1 (by decide)
  · intro hundisturbed
    have hcalled := hundisturbed _ (List.mem_cons_self ..) _ rfl
    exact absurd hcalled.1 (by decide)
  · intro hundisturbed
    have hreported := hundisturbed _ (List.mem_cons_self ..) _ rfl
    exact absurd hreported (by decide)

end RlboxWasm2c

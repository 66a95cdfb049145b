import RlboxWasm2c.Base.Ownership
import RlboxWasm2c.ClockInit

/- Who owns the blocks of clock data. `impl_destroy_sandbox` clears
   `minwasi_init_inst_succeeded` and calls `os_clock_cleanup_instance`, which frees the block
   only where the pointer is null: nothing is ever freed.
   `clock_data_owned_iff`: each object with the flag owns a block and no other block is
   outstanding, if and only if no object is torn down or created again with the flag set. -/
namespace RlboxWasm2c
open Ownership Runs

namespace ClockProcess
variable {b : BackEnd} {ι : Type}

/-- The blocks of clock data that were not freed. -/
def outstanding (s : ClockProcess b ι) : Finset Nat :=
  (Finset.range s.allocated).filter fun n => n ∉ s.freed

def flags (s : ClockProcess b ι) (o : ι) : Bool := (s.holders o).minwasiInitInstSucceeded

def pointers (s : ClockProcess b ι) (o : ι) : Option Nat := (s.clockData o).map ClockBlock.number

end ClockProcess

/-- There are as many outstanding blocks as objects with the flag; each of these owns one and
    points to it, the others point to none; and no block was freed twice. -/
structure ClockDataOwned {b : BackEnd} {ι : Type} [Fintype ι] (s : ClockProcess b ι) : Prop where
  count : s.outstanding.card = (Finset.univ.filter fun o => s.flags o = true).card
  each : OneEach s.flags s.pointers s.outstanding
  once : ∀ n, s.freed.count n ≤ 1

/-- The step tears no object down that has the flag set, and calls `minwasi_init_instance` on
    none. A fallible create tears the object down at a check that fails: at the first one, and
    behind `minwasi_init_instance`, where that has set the flag. -/
def SparesClockData {b : BackEnd} {ι : Type} {modules : ι → ModuleType} (s : ClockProcess b ι) :
    ClockInput b modules → Prop
  | .create o call =>
    if (s.holders o).instanceInitialized then call.infallible = true
    else (s.initialized || call.onceOutcome.succeeds) = true →
      s.flags o = false ∧ (call.malloc = true → call.LaterFails → call.infallible = true)
  | .destroy o => s.flags o = false

instance {b : BackEnd} {ι : Type} {modules : ι → ModuleType} (s : ClockProcess b ι) :
    DecidablePred fun i : ClockInput b modules => SparesClockData s i
  | .create o call =>
    inferInstanceAs (Decidable (if (s.holders o).instanceInitialized then call.infallible = true
      else (s.initialized || call.onceOutcome.succeeds) = true →
        s.flags o = false ∧ (call.malloc = true → call.LaterFails → call.infallible = true)))
  | .destroy o => inferInstanceAs (Decidable (s.flags o = false))

namespace ClockProcess

/-! ## The invariant -/

/-- A created sandbox has the flag, and no object before `call_once`; and nothing was freed. -/
structure Flagged {b : BackEnd} {ι : Type} (s : ClockProcess b ι) : Prop where
  live : ∀ o, (s.holders o).instanceInitialized = true → s.flags o = true
  once : ∀ o, s.flags o = true → s.initialized = true
  freed : s.freed = []

section flagged
variable {b : BackEnd} {ι : Type} {modules : ι → ModuleType} {s : ClockProcess b ι}

theorem Flagged.outstanding (hs : s.Flagged) : s.outstanding = Finset.range s.allocated := by
  unfold ClockProcess.outstanding
  rw [hs.freed]
  exact Finset.filter_true_of_mem fun n _ => List.not_mem_nil

theorem Flagged.ended (hs : s.Flagged) (outcome : Outcome) : (s.ended outcome).Flagged :=
  ⟨hs.live, hs.once, hs.freed⟩

theorem Flagged.withOsData (hs : s.Flagged) (d : OsData b) : (s.withOsData d).Flagged :=
  ⟨hs.live, fun _ _ => rfl, hs.freed⟩

variable [DecidableEq ι] {o : ι}

theorem setHolder_flags (s : ClockProcess b ι) (o : ι) (h : Holder) :
    (s.setHolder o h).flags = Function.update s.flags o h.minwasiInitInstSucceeded :=
  Function.comp_update Holder.minwasiInitInstSucceeded s.holders o h

theorem Flagged.setHolder (hs : s.Flagged) {h : Holder}
    (hlive : h.instanceInitialized = true → h.minwasiInitInstSucceeded = true)
    (honce : h.minwasiInitInstSucceeded = true → s.initialized = true) :
    (s.setHolder o h).Flagged where
  live := by
    intro o' hlive'
    rw [setHolder_flags]
    by_cases hne : o' = o
    · subst hne
      rw [setHolder_self] at hlive'
      rw [Function.update_self]
      exact hlive hlive'
    · rw [setHolder_of_ne s hne] at hlive'
      rw [Function.update_of_ne hne]
      exact hs.live o' hlive'
  once := by
    intro o' hflag
    rw [setHolder_flags] at hflag
    by_cases hne : o' = o
    · subst hne
      rw [Function.update_self] at hflag
      exact honce hflag
    · rw [Function.update_of_ne hne] at hflag
      exact hs.once o' hflag
  freed := hs.freed

theorem destroyed_flag (m : ModuleType) (h : Holder) :
    (h.implDestroySandbox m).minwasiInitInstSucceeded = false := by rw [Holder.destroy_eq]

theorem Flagged.destroyed (hs : s.Flagged) (m : ModuleType) :
    (s.setHolder o ((s.holders o).implDestroySandbox m)).Flagged := by
  refine hs.setHolder (fun hlive => ?_) (fun hflag => ?_)
  · rw [Holder.destroy_initialized] at hlive
    cases hlive
  · rw [destroyed_flag] at hflag
    cases hflag

theorem Flagged.fallibleDynamicCheck (hs : s.Flagged) (infallible : Bool) (check : DynamicCheck) :
    (s.fallibleDynamicCheck modules o infallible check).Flagged := by
  rw [fallibleDynamicCheck_eq]
  cases infallible with
  | true => exact hs.ended _
  | false => exact (hs.destroyed (modules o)).ended _

theorem afterInit_once {m : ModuleType} (call : ClockCall b m) :
    (s.afterInit o call).initialized = true := by
  unfold ClockProcess.afterInit
  cases call.malloc <;> rfl

/-- The object behind `minwasi_init_instance`, with the flag as that returned it. -/
theorem Flagged.afterInit (hs : s.Flagged) {m : ModuleType} (call : ClockCall b m) {h : Holder}
    (hlive : h.instanceInitialized = true → h.minwasiInitInstSucceeded = true) :
    ((s.afterInit o call).setHolder o h).Flagged := by
  have hinit : (s.afterInit o call).Flagged := by
    refine ⟨?_, fun _ _ => afterInit_once call, ?_⟩ <;>
      unfold ClockProcess.afterInit <;> cases call.malloc
    · exact hs.live
    · exact hs.live
    · exact hs.freed
    · exact hs.freed
  exact hinit.setHolder hlive fun _ => afterInit_once call

end flagged
end ClockProcess

/-! ## Runs -/

section owned
variable {b : BackEnd} {ι : Type} [Fintype ι] {modules : ι → ModuleType} {s t : ClockProcess b ι}
  {o : ι}

theorem owned_of_each (hs : s.Flagged) (heach : OneEach s.flags s.pointers s.outstanding) :
    ClockDataOwned s where
  count := heach.card
  each := heach
  once := by
    intro n
    rw [hs.freed]
    exact Nat.zero_le 1

/-- Ownership is about the flags, the pointers and the allocations. -/
theorem owned_congr (hs : s.Flagged) (ht : t.Flagged) (hflags : t.flags = s.flags)
    (hdata : t.clockData = s.clockData) (hallocated : t.allocated = s.allocated) :
    ClockDataOwned t ↔ ClockDataOwned s := by
  have hpointers : t.pointers = s.pointers := by
    funext o
    unfold ClockProcess.pointers
    rw [hdata]
  have houtstanding : t.outstanding = s.outstanding := by
    rw [hs.outstanding, ht.outstanding, hallocated]
  constructor
  · intro h
    refine owned_of_each hs ?_
    rw [← hflags, ← hpointers, ← houtstanding]
    exact h.each
  · intro h
    refine owned_of_each ht ?_
    rw [hflags, hpointers, houtstanding]
    exact h.each

/-- The flag goes with a pointer. -/
theorem owned_held (howned : ClockDataOwned s) (hflag : s.flags o = true) :
    s.clockData o ≠ none := by
  obtain ⟨n, -, hn⟩ := howned.each.holds o hflag
  intro hnull
  unfold ClockProcess.pointers at hn
  rw [hnull] at hn
  cases hn

variable [DecidableEq ι]

/-- Taking an object's flag leaves its block without an owner. -/
theorem destroyed_owned_iff (hs : s.Flagged) (m : ModuleType)
    (hheld : s.flags o = true → s.clockData o ≠ none) :
    ClockDataOwned (s.setHolder o ((s.holders o).implDestroySandbox m)) ↔
      ClockDataOwned s ∧ s.flags o = false := by
  have hflags := ClockProcess.setHolder_flags s o ((s.holders o).implDestroySandbox m)
  rw [ClockProcess.destroyed_flag] at hflags
  cases hflag : s.flags o with
  | true =>
    refine iff_of_false ?_ (by simp)
    intro howned
    have hnull := howned.each.null o (by rw [hflags, Function.update_self])
    exact hheld hflag (Option.map_eq_none_iff.mp hnull)
  | false =>
    rw [← hflag, Function.update_eq_self] at hflags
    exact (owned_congr hs (hs.destroyed m) hflags rfl rfl).trans (by simp)

theorem fallibleDynamicCheck_owned_iff (hs : s.Flagged)
    (hheld : s.flags o = true → s.clockData o ≠ none) (infallible : Bool) (check : DynamicCheck) :
    ClockDataOwned (s.fallibleDynamicCheck modules o infallible check) ↔
      ClockDataOwned s ∧ (s.flags o = true → infallible = true) := by
  rw [ClockProcess.fallibleDynamicCheck_eq]
  cases infallible with
  | true =>
    refine (owned_congr hs (hs.ended _) rfl rfl rfl).trans ?_
    exact (and_iff_left fun _ => rfl).symm
  | false =>
    have hdestroyed := hs.destroyed (o := o) (modules o)
    refine (owned_congr hdestroyed (hdestroyed.ended _) rfl rfl rfl).trans ?_
    refine (destroyed_owned_iff hs (modules o) hheld).trans (and_congr_right fun _ => ?_)
    simp

/-- A new block and the flag: an object without one gets both, one with them loses its block. -/
theorem copyData_owned_iff (hs : s.Flagged) (hinit : s.initialized = true)
    (howned : ClockDataOwned s) {h : Holder} (hflag : h.minwasiInitInstSucceeded = true) :
    ClockDataOwned ((s.copyData o).setHolder o h) ↔ s.flags o = false := by
  have hcopied : (s.copyData o).Flagged := ⟨hs.live, hs.once, hs.freed⟩
  have ht : ((s.copyData o).setHolder o h).Flagged :=
    hcopied.setHolder (fun _ => hflag) fun _ => hinit
  have hflags : ((s.copyData o).setHolder o h).flags = Function.update s.flags o true := by
    rw [ClockProcess.setHolder_flags, hflag]
    rfl
  have hpointers : ((s.copyData o).setHolder o h).pointers =
      Function.update s.pointers o (some s.allocated) :=
    Function.comp_update (Option.map ClockBlock.number) s.clockData o
      (some ⟨s.allocated, s.osData.clockInfo⟩)
  have hblocks : ((s.copyData o).setHolder o h).outstanding =
      insert s.allocated s.outstanding := by
    rw [ht.outstanding, hs.outstanding, ← Finset.range_add_one]
    rfl
  constructor
  · intro howned'
    by_contra hset
    obtain ⟨n, hn, hpointer⟩ := howned.each.holds o ((Bool.not_eq_false _).mp hset)
    have heach := howned'.each
    rw [hpointers, hblocks] at heach
    -- the block of the object is still outstanding, and is not the new one
    refine howned.each.not_overwritten hpointer (Finset.mem_insert_of_mem hn) ?_ heach
    intro heq
    rw [hs.outstanding, Finset.mem_range, Option.some.inj heq] at hn
    exact absurd hn (Nat.lt_irrefl n)
  · intro hunset
    refine owned_of_each ht ?_
    rw [hflags, hpointers, hblocks]
    refine howned.each.acquire hunset ?_
    rw [hs.outstanding, Finset.mem_range]
    exact Nat.lt_irrefl s.allocated

/-- `minwasi_init_instance` keeps the books on an object without the flag, and on no other. -/
theorem afterInit_owned_iff (hs : s.Flagged) (howned : ClockDataOwned s) {m : ModuleType}
    {call : ClockCall b m} {h : Holder} (hflag : h.minwasiInitInstSucceeded = call.malloc)
    (hlive : h.instanceInitialized = true → h.minwasiInitInstSucceeded = true) :
    ClockDataOwned ((s.afterInit o call).setHolder o h) ↔ s.flags o = false := by
  let d := ClockProcess.lazyData (s.onceData call.onceOutcome) call.lazyOutcome
  have hs' : (s.withOsData d).Flagged := hs.withOsData d
  have howned' : ClockDataOwned (s.withOsData d) := (owned_congr hs hs' rfl rfl rfl).mpr howned
  cases hmalloc : call.malloc with
  | true =>
    rw [show s.afterInit o call = (s.withOsData d).copyData o by
      unfold ClockProcess.afterInit; rw [hmalloc]; rfl]
    exact copyData_owned_iff hs' rfl howned' (hflag.trans hmalloc)
  | false =>
    rw [show s.afterInit o call = s.withOsData d by
      unfold ClockProcess.afterInit; rw [hmalloc]; rfl]
    have hflags := ClockProcess.setHolder_flags (s.withOsData d) o h
    rw [hflag, hmalloc] at hflags
    constructor
    · intro howned₁
      by_contra hset
      have hnull := howned₁.each.null o (by rw [hflags, Function.update_self])
      exact owned_held howned ((Bool.not_eq_false _).mp hset) (Option.map_eq_none_iff.mp hnull)
    · intro hunset
      have hflags' : ((s.withOsData d).setHolder o h).flags = (s.withOsData d).flags := by
        rw [hflags, ← hunset]
        exact Function.update_eq_self o s.flags
      have ht := hs'.setHolder (o := o) hlive fun _ => rfl
      exact (owned_congr hs' ht hflags' rfl rfl).mpr howned'

theorem create_owned_iff (hs : s.Flagged) (howned : ClockDataOwned s)
    (call : ClockCall b (modules o)) :
    (s.implCreateSandbox o call).Flagged ∧
      (ClockDataOwned (s.implCreateSandbox o call) ↔ SparesClockData s (.create o call)) := by
  have hattempt := ClockProcess.implCreateSandbox_cases s call
  generalize s.implCreateSandbox o call = s' at hattempt
  dsimp only [SparesClockData]
  cases hattempt with
  | initialized hlive =>
    rw [if_pos hlive]
    refine ⟨hs.fallibleDynamicCheck _ _, ?_⟩
    refine (fallibleDynamicCheck_owned_iff hs (owned_held howned) _ _).trans ?_
    -- the object is in use, so it has the flag
    exact ⟨fun h => h.2 (hs.live o hlive), fun h => ⟨howned, fun _ => h⟩⟩
  | minWasi hlive hfails =>
    have hs' := hs.withOsData (s.onceData call.onceOutcome)
    have howned' := (owned_congr hs hs' rfl rfl rfl).mpr howned
    rw [if_neg (ne_true_of_eq_false hlive)]
    refine ⟨hs'.fallibleDynamicCheck _ _, ?_⟩
    refine (fallibleDynamicCheck_owned_iff hs' (owned_held howned') _ _).trans ?_
    -- before `call_once` no object has the flag
    refine iff_of_true ⟨howned', fun hflag => ?_⟩ fun honce => ?_
    · rw [hs.once o hflag, Bool.true_or] at hfails
      cases hfails
    · rw [honce] at hfails
      cases hfails
  | failed check h hlive honce hflag hlive' hfails =>
    have hdead : h.instanceInitialized = true → h.minwasiInitInstSucceeded = true := by
      intro h'
      rw [hlive'] at h'
      cases h'
    rw [if_neg (ne_true_of_eq_false hlive), imp_iff_right honce]
    have ht : ((s.afterInit o call).setHolder o h).Flagged := hs.afterInit call hdead
    have hflags : ((s.afterInit o call).setHolder o h).flags o = call.malloc := by
      rw [ClockProcess.setHolder_flags, Function.update_self, hflag]
    have hheld : ((s.afterInit o call).setHolder o h).flags o = true →
        ((s.afterInit o call).setHolder o h).clockData o ≠ none := by
      intro hset hnull
      obtain ⟨block, hblock, -⟩ := ClockProcess.afterInit_block s o (hflags.symm.trans hset)
      exact absurd (hblock.symm.trans hnull) (Option.some_ne_none block)
    refine ⟨ht.fallibleDynamicCheck _ _, ?_⟩
    refine (fallibleDynamicCheck_owned_iff ht hheld _ _).trans ?_
    rw [afterInit_owned_iff hs howned hflag hdead, hflags]
    exact and_congr_right fun _ =>
      ⟨fun h hmalloc _ => h hmalloc, fun h hmalloc => h hmalloc (hfails hmalloc)⟩
  | created h hlive honce hflag hlive' hmalloc hpasses =>
    rw [if_neg (ne_true_of_eq_false hlive), imp_iff_right honce]
    have ht : ((s.afterInit o call).setHolder o h).Flagged := hs.afterInit call fun _ => hflag
    refine ⟨ht.ended _, (owned_congr ht (ht.ended _) rfl rfl rfl).trans ?_⟩
    refine (afterInit_owned_iff hs howned (hflag.trans hmalloc.symm) fun _ => hflag).trans ?_
    exact (and_iff_left fun _ hfails => absurd hfails hpasses).symm

theorem clockStep_owned (s : ClockProcess b ι) (i : ClockInput b modules) (hs : s.Flagged)
    (howned : ClockDataOwned s) :
    ∃ s', clockStep i s = some s' ∧ s'.Flagged ∧ (ClockDataOwned s' ↔ SparesClockData s i) := by
  cases i with
  | create o call => exact ⟨_, rfl, create_owned_iff hs howned call⟩
  | destroy o =>
    refine ⟨_, rfl, ?_⟩
    rw [ClockProcess.implDestroySandbox_eq]
    have hdestroyed := hs.destroyed (o := o) (modules o)
    refine ⟨hdestroyed.ended _, ?_⟩
    refine (owned_congr hdestroyed (hdestroyed.ended _) rfl rfl rfl).trans ?_
    exact (destroyed_owned_iff hs (modules o) (owned_held howned)).trans (and_iff_right howned)

end owned

theorem initial_flagged {b : BackEnd} {ι : Type} : (ClockProcess.initial b ι).Flagged :=
  ⟨fun _ hlive => absurd hlive Bool.false_ne_true,
    fun _ hflag => absurd hflag Bool.false_ne_true, rfl⟩

/-- Throughout a run of creates and destroys on any objects, the outstanding blocks of clock
    data are those of the objects with the flag, if and only if no object is torn down with the
    flag set and `minwasi_init_instance` is called on none that has it. -/
theorem clock_data_owned_iff (b : BackEnd) {ι : Type} [Fintype ι] [DecidableEq ι]
    (modules : ι → ModuleType) (is : List (ClockInput b modules)) :
    (∀ is₁ s, is₁ <+: is → exec clockStep is₁ (.initial b ι) = some s → ClockDataOwned s) ↔
      Meets clockStep SparesClockData is (.initial b ι) :=
  holds_throughout_iff (fun s i hs howned _ => clockStep_owned s i hs howned) initial_flagged
    (owned_of_each initial_flagged .empty) (meets_true is _)

/-- A create for which everything works. -/
def createWithClock (b : BackEnd) (outcome : InitOutcome b) (infallible : Bool) :
    ClockCall b (onePageModule false) :=
  ⟨infallible, none, outcome, outcome, true, onePageHeap, onePageHeap_created false⟩

def workingFrequency : InitOutcome .windows := .windows ⟨10000000, true, fun _ => by decide⟩

/-- One object created and destroyed. -/
def oneLife : List (ClockInput .windows fun _ : Unit => onePageModule false) :=
  [.create () (createWithClock .windows workingFrequency false), .destroy ()]

/-- The block of a sandbox outlives it, and its pointer is overwritten by the next create. -/
theorem clock_data_not_owned :
    (∃ s, exec clockStep oneLife (.initial .windows Unit) = some s ∧ s.outcome = some .destroyed ∧
      s.outstanding = {0} ∧ s.flags () = false ∧ s.pointers () = some 0 ∧ s.freed = [] ∧
      ¬ ClockDataOwned s) ∧
    ∃ s, exec clockStep (oneLife ++ oneLife.take 1) (.initial .windows Unit) = some s ∧
      s.outcome = some .created ∧ s.outstanding = {0, 1} ∧ s.pointers () = some 1 := by
  refine ⟨⟨_, rfl, rfl, rfl, rfl, rfl, rfl, ?_⟩, _, rfl, rfl, rfl, rfl⟩
  intro howned
  exact absurd (howned.each.null () rfl) (by decide)

/-- Creates that give the object nothing, and one that it is left with. -/
example :
    let call := createWithClock .windows workingFrequency
    let is : List (ClockInput .windows fun _ : Unit => onePageModule false) :=
      [.create () { call false with malloc := false }, .destroy (), .create () (call false),
        .create () (call true)]
    Meets clockStep SparesClockData is (.initial .windows Unit) := by
  decide

end RlboxWasm2c

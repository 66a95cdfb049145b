import RlboxWasm2c.Ledger

/- Function pointers read out of and written into sandbox memory.

   The two maps are filled by different operations. A conversion enters the pointer in
   both. A registration enters its callback in `slot_assignments` only, and an
   unregistration, which clears the three arrays and the table entry, leaves it there.
   Hence, over the runs of the callback table: the maps are inverse to each other exactly
   as long as no callback was registered (`roundTrips_iff`), and what a slot reads as is
   up to date exactly as long as no callback was unregistered (`upToDate_iff`). -/
namespace RlboxWasm2c
open Runs

/-- Function pointers survive the way out and back in, and the way in and back out; and a
    callback read out and written back is called through its interceptor only. -/
structure RoundTrips (grow : GrowFuncrefTable) (w : Table) : Prop where
  slot : ∀ f slot, implGetUnsandboxedPointer slot w.state ≠ nullptr →
    implGetSandboxedPointer grow f (implGetUnsandboxedPointer slot w.state) w.state =
      (.ok slot, w.state)
  pointer : ∀ f p slot s', p ≠ nullptr →
    implGetSandboxedPointer grow f p w.state = (.ok slot, s') →
    implGetUnsandboxedPointer slot s' = p
  interceptor : ∀ f, ∀ r ∈ w.ledger.live, ∀ slot slot' s',
    implGetUnsandboxedPointer slot w.state = r.callback →
    implGetSandboxedPointer grow f r.callback w.state = (.ok slot', s') →
    ∀ ref, s'.sandboxCallbackTable.data[slot']? = some ref → ref.func ≠ .host r.callback

/-- A slot reads as a pointer only while it stands for it, a slot whose callback was
    unregistered reads as null, and the assigned slots are those that stand for something. -/
structure UpToDate (w : Table) : Prop where
  named : ∀ slot, implGetUnsandboxedPointer slot w.state ≠ nullptr →
    w.ledger.Names slot (implGetUnsandboxedPointer slot w.state)
  retired : ∀ r ∈ w.ledger.retired, (∀ p, ¬w.ledger.Names r.slot p) →
    implGetUnsandboxedPointer r.slot w.state = nullptr
  domain : ∀ slot, (w.state.slotAssignments slot).isSome ↔ ∃ p, w.ledger.Names slot p

section reached
variable {grow : GrowFuncrefTable} {n₀ : Nat} {w : Table}

theorem unsandboxed_of_assignment {slot : Nat} {p : HostPtr}
    (h : w.state.slotAssignments slot = some p) : implGetUnsandboxedPointer slot w.state = p := by
  unfold implGetUnsandboxedPointer
  rw [h]

theorem assignment_of_unsandboxed {slot : Nat}
    (h : implGetUnsandboxedPointer slot w.state ≠ nullptr) :
    w.state.slotAssignments slot = some (implGetUnsandboxedPointer slot w.state) := by
  unfold implGetUnsandboxedPointer at h ⊢
  cases hs : w.state.slotAssignments slot with
  | none => rw [hs] at h; exact absurd rfl h
  | some p => rfl

namespace Consistent

/-- The slot of a callback, live or not, is no converted slot. -/
theorem registered_ne_converted (h : Consistent n₀ w) {r : Registration}
    (hr : r ∈ w.ledger.live ∨ r ∈ w.ledger.retired) (p : HostPtr) :
    (p, r.slot) ∉ w.ledger.converted := by
  intro hc
  rcases hr with hr | hr
  · exact h.live_ne_converted hr hc rfl
  · have hdisj := (List.nodup_append'.mp (List.nodup_append'.mp h.handed_nodup).2.1).2.2
    exact hdisj (List.mem_map_of_mem hr) (List.mem_map.mpr ⟨_, hc, rfl⟩)

/-- A callback stays assigned to its slot, unregistered or not. -/
theorem registered_assignment (h : Consistent n₀ w) {r : Registration}
    (hr : r ∈ w.ledger.live ∨ r ∈ w.ledger.retired) :
    implGetUnsandboxedPointer r.slot w.state = r.callback ∧ r.callback ≠ nullptr := by
  rcases hr with hr | hr
  · exact ⟨unsandboxed_of_assignment ((h.assignments _ _).mpr (.inl (.inl ⟨r, hr, rfl, rfl⟩))),
      (h.live_ok r hr).2⟩
  · exact ⟨unsandboxed_of_assignment ((h.assignments _ _).mpr (.inr ⟨r, hr, rfl, rfl⟩)),
      (h.retired_null r hr).1⟩

/-- Writing `p` back gives `slot` and changes nothing if and only if `p` was converted to
    `slot`. -/
theorem sandboxed_same_iff (h : Consistent n₀ w) (hgrow : grow.Appends)
    (f : FuncType) (p : HostPtr) (slot : Nat) :
    implGetSandboxedPointer grow f p w.state = (.ok slot, w.state) ↔
      (p, slot) ∈ w.ledger.converted := by
  rw [← h.internal]
  rcases implGetSandboxedPointer_spec hgrow h.freeList f p with
    ⟨slot', hfound, hok⟩ | ⟨e, _, _, _, he⟩ | ⟨t, hnone, ht, hok⟩
  · rw [hok, hfound]
    simp
  · refine iff_of_false (by rw [he]; simp) ?_
    intro hfound
    simp [implGetSandboxedPointer, hfound] at he
  · refine iff_of_false ?_ (by rw [hnone]; rintro ⟨⟩)
    -- the fields that come back have a slot for `p`, which they had not
    intro heq
    have hfields : w.state.convertTo t p = w.state :=
      congrArg Prod.snd (hok.symm.trans heq)
    have hp : (w.state.convertTo t p).internalCallbacks p = _ := Function.update_self ..
    rw [hfields, hnone] at hp
    cases hp

/-- A pointer whose conversion succeeds reads back as itself, whatever happened before. -/
theorem pointer_roundTrip (h : Consistent n₀ w) (hgrow : grow.Appends)
    {f : FuncType} {p : HostPtr} {slot : Nat} {s' : CallbackState}
    (hok : implGetSandboxedPointer grow f p w.state = (.ok slot, s')) :
    implGetUnsandboxedPointer slot s' = p := by
  rcases implGetSandboxedPointer_spec hgrow h.freeList f p with
    ⟨slot', hfound, hsame⟩ | ⟨e, _, _, _, he⟩ | ⟨t, hnone, ht, hnew⟩
  · rw [hsame] at hok
    cases hok
    apply unsandboxed_of_assignment
    exact (h.assignments slot p).mpr (.inl (.inr ((h.internal p slot).mp hfound)))
  · rw [he] at hok
    cases hok
  · rw [hnew] at hok
    cases hok
    unfold implGetUnsandboxedPointer CallbackState.convertTo
    simp only [Function.update_self]

end Consistent

/-! ## When the maps are inverse -/

/-- In a reached state function pointers make the round trip if and only if no callback
    has been registered. -/
theorem roundTrips_iff {wasm2cInstance : HostPtr} {t : FuncrefTable} {ops : List CallbackOp}
    (hgrow : grow.Appends) (h : TableReached grow wasm2cInstance t ops w) :
    RoundTrips grow w ↔ w.ledger.live = [] ∧ w.ledger.retired = [] := by
  have hw := reached_consistent hgrow h
  refine ⟨fun hround => ?_, fun ⟨hlive, hretired⟩ => ?_⟩
  · -- the slot of a registered callback reads as the callback, which was never converted
    have hnone : ∀ r, ¬(r ∈ w.ledger.live ∨ r ∈ w.ledger.retired) := by
      intro r hr
      obtain ⟨hread, hnonnull⟩ := hw.registered_assignment hr
      have hsame := hround.slot ⟨none, []⟩ r.slot (by rw [hread]; exact hnonnull)
      rw [hread] at hsame
      exact hw.registered_ne_converted hr r.callback
        ((hw.sandboxed_same_iff hgrow _ _ _).mp hsame)
    exact ⟨List.eq_nil_iff_forall_not_mem.mpr fun r hr => hnone r (.inl hr),
      List.eq_nil_iff_forall_not_mem.mpr fun r hr => hnone r (.inr hr)⟩
  · refine ⟨?_, fun f p slot s' _ hok => hw.pointer_roundTrip hgrow hok, ?_⟩
    · intro f slot hread
      apply (hw.sandboxed_same_iff hgrow f _ slot).mpr
      rcases (hw.assignments slot _).mp (assignment_of_unsandboxed hread) with
        (⟨r, hr, -⟩ | hc) | ⟨r, hr, -⟩
      · rw [hlive] at hr; cases hr
      · exact hc
      · rw [hretired] at hr; cases hr
    · intro f r hr
      rw [hlive] at hr
      cases hr

/-- A converted pointer next to a row of the guest's. -/
theorem roundTrips_converted :
    ∃ w : Table, w.ledger.converted = [(500, 1)] ∧ RoundTrips growWithinMax w := by
  have h : TableReached growWithinMax 8 smallTable
      [.convert unaryInt 500, .guestGrow 1 FuncRef.zero] _ := ⟨by decide, rfl⟩
  exact ⟨_, rfl, (roundTrips_iff growWithinMax_appends h).mpr ⟨rfl, rfl⟩⟩

/-- One registered callback: its slot 1 reads as the callback, and writing that back gives
    the guest slot 2, which calls the callback directly. -/
theorem callback_not_roundTrips :
    ∃ w : Table, TableReached growWithinMax 8 smallTable [.register unaryInt 11 101] w ∧
      implGetUnsandboxedPointer 1 w.state = 101 ∧
      (implGetSandboxedPointer growWithinMax unaryInt 101 w.state).1 = .ok 2 ∧
      ((implGetSandboxedPointer growWithinMax unaryInt 101 w.state).2.sandboxCallbackTable.data[2]?)
        = some ⟨some (getWasm2cFuncIndex unaryInt), .host 101, 8⟩ ∧
      ¬RoundTrips growWithinMax w := by
  refine ⟨_, ⟨by decide, rfl⟩, rfl, rfl, rfl, fun hround => ?_⟩
  have hsame := congrArg Prod.fst (hround.slot unaryInt 1 (by decide))
  change Except.ok 2 = Except.ok 1 at hsame
  cases hsame

/-! ## When a slot is up to date -/

/-- In a reached state what the slots read as is up to date if and only if no callback has
    been unregistered. -/
theorem upToDate_iff {wasm2cInstance : HostPtr} {t : FuncrefTable} {ops : List CallbackOp}
    (hgrow : grow.Appends) (h : TableReached grow wasm2cInstance t ops w) :
    UpToDate w ↔ w.ledger.retired = [] := by
  have hw := reached_consistent hgrow h
  refine ⟨fun hfresh => ?_, fun hretired => ?_⟩
  · apply List.eq_nil_iff_forall_not_mem.mpr
    intro r hr
    -- its slot still reads as the callback, and stands for nothing else
    obtain ⟨hread, hnonnull⟩ := hw.registered_assignment (.inr hr)
    have hnamed := hfresh.named r.slot (by rw [hread]; exact hnonnull)
    rcases hnamed with ⟨r', hr', hslot, -⟩ | hc
    · have hdisj := (List.nodup_append'.mp hw.handed_nodup).2.2
      refine hdisj (List.mem_map_of_mem hr') (List.mem_append_left _ ?_)
      rw [hslot]
      exact List.mem_map_of_mem hr
    · exact hw.registered_ne_converted (.inr hr) _ hc
  · have hassign : ∀ slot p, w.state.slotAssignments slot = some p ↔ w.ledger.Names slot p := by
      intro slot p
      rw [hw.assignments, hretired]
      simp
    refine ⟨?_, ?_, ?_⟩
    · intro slot hread
      exact (hassign slot _).mp (assignment_of_unsandboxed hread)
    · intro r hr
      rw [hretired] at hr
      cases hr
    · intro slot
      rw [Option.isSome_iff_exists]
      exact exists_congr (hassign slot)

end reached

/-- A live callback and a converted pointer. -/
theorem upToDate_live :
    ∃ w : Table, implGetUnsandboxedPointer 1 w.state = 101 ∧
      implGetUnsandboxedPointer 2 w.state = 500 ∧ UpToDate w := by
  have h : TableReached growWithinMax 8 smallTable
      [.register unaryInt 11 101, .convert unaryInt 500] _ := ⟨by decide, rfl⟩
  exact ⟨_, rfl, rfl, (upToDate_iff growWithinMax_appends h).mpr rfl⟩

/-- After the one callback is unregistered its slot, whose entry is null, still reads as
    the callback. -/
theorem unregistered_not_upToDate :
    ∃ w : Table,
      TableReached growWithinMax 8 smallTable [.register unaryInt 11 101, .unregister 11] w ∧
      w.ledger.live = [] ∧ w.state.sandboxCallbackTable.data[1]? = some FuncRef.zero ∧
      implGetUnsandboxedPointer 1 w.state = 101 ∧ ¬UpToDate w := by
  refine ⟨_, ⟨by decide, rfl⟩, rfl, rfl, rfl, fun hfresh => ?_⟩
  have hread := hfresh.retired ⟨11, 101, unaryInt, 1⟩ (by decide) ?_
  · cases hread
  · rintro p (⟨r, hr, -⟩ | hc)
    · cases hr
    · cases hc

end RlboxWasm2c

import RlboxWasm2c.Base.Runs

/- A current value that every activation saves, replaces and restores.

   The stack holds, innermost first, what each activation replaced the current value by
   and what it saved, or `none` for an activation that leaves the current value alone.
   `Move` is one step of the discipline. In every state reached by moves the current value
   is the one the innermost replacing activation set (`move_sound`), and an activation
   leaves the current value as it found it, whatever ran in between (`restored`). -/
namespace SavedContext
open Runs

variable {κ : Type}

structure View (κ : Type) where
  saved : List (Option (κ × κ))
  current : κ

/-- One step of the discipline: none, entry and exit of an activation that replaces the
    value, entry and exit of one that does not. -/
inductive Move : View κ → View κ → Prop where
  | keep (v : View κ) : Move v v
  | enter (v : View κ) (c : κ) : Move v ⟨some (c, v.current) :: v.saved, c⟩
  | leave (c old cur : κ) (rest : List (Option (κ × κ))) :
    Move ⟨some (c, old) :: rest, cur⟩ ⟨rest, old⟩
  | enterPlain (v : View κ) : Move v ⟨none :: v.saved, v.current⟩
  | leavePlain (cur : κ) (rest : List (Option (κ × κ))) : Move ⟨none :: rest, cur⟩ ⟨rest, cur⟩

/-- The value the innermost replacing activation set, `outer` if there is none. -/
def contextOf (outer : κ) : List (Option (κ × κ)) → κ
  | [] => outer
  | some (c, _) :: _ => c
  | none :: rest => contextOf outer rest

/-- Every activation saved the value of what lies under it. -/
def Linked (outer : κ) : List (Option (κ × κ)) → Prop
  | [] => True
  | some (_, old) :: rest => old = contextOf outer rest ∧ Linked outer rest
  | none :: rest => Linked outer rest

structure Sound (outer : κ) (v : View κ) : Prop where
  current : v.current = contextOf outer v.saved
  linked : Linked outer v.saved

theorem move_sound {outer : κ} {v v' : View κ} (h : Move v v') (hv : Sound outer v) :
    Sound outer v' := by
  cases h with
  | keep => exact hv
  | enter c => exact ⟨rfl, hv.current, hv.linked⟩
  | leave c old cur rest => exact ⟨hv.linked.1, hv.linked.2⟩
  | enterPlain => exact ⟨hv.current, hv.linked⟩
  | leavePlain cur rest => exact ⟨hv.current, hv.linked⟩

/-- A move changes the stack by at most one activation at the top. -/
theorem move_saved {v v' : View κ} (h : Move v v') :
    v'.saved = v.saved ∨ (∃ a, v'.saved = a :: v.saved) ∨ ∃ a, v.saved = a :: v'.saved := by
  cases h with
  | keep => exact .inl rfl
  | enter c => exact .inr (.inl ⟨_, rfl⟩)
  | leave c old cur rest => exact .inr (.inr ⟨_, rfl⟩)
  | enterPlain => exact .inr (.inl ⟨_, rfl⟩)
  | leavePlain cur rest => exact .inr (.inr ⟨_, rfl⟩)

section machine
variable {σ ι : Type} {step : ι → σ → Option σ} {V : σ → View κ}

theorem exec_sound {outer : κ} (hmove : ∀ i s s', step i s = some s' → Move (V s) (V s'))
    {is : List ι} {s t : σ} (hs : Sound outer (V s)) (h : exec step is s = some t) :
    Sound outer (V t) := by
  have hinv : ∀ s i s', Sound outer (V s) → True → step i s = some s' →
      Sound outer (V s') := fun s i s' hs _ hstep => move_sound (hmove i s s' hstep) hs
  exact exec_invariant hinv hs (meets_true is s) h

/-- Between two states at the same depth, with only deeper ones in between, the current
    value comes back. -/
theorem restored {outer : κ} (hmove : ∀ i s s', step i s = some s' → Move (V s) (V s'))
    {i : ι} {is : List ι} {s u t : σ} (hs : Sound outer (V s)) (hu : step i s = some u)
    (hdeeper : Meets step (fun s' _ => (V s).saved.length < (V s').saved.length) is u)
    (hlow : (V s).saved.length ≤ (V u).saved.length)
    (ht : exec step is u = some t) (hlen : (V t).saved.length = (V s).saved.length) :
    (V t).current = (V s).current := by
  have hsu : (V s).saved <:+ (V u).saved := by
    rcases move_saved (hmove i s u hu) with heq | ⟨a, heq⟩ | ⟨a, heq⟩
    · exact heq ▸ List.suffix_refl _
    · exact heq ▸ List.suffix_cons _ _
    · rw [heq, List.length_cons] at hlow
      omega
  have hst : (V s).saved <:+ (V t).saved :=
    suffix_kept (fun i s s' h => move_saved (hmove i s s' h)) hsu hdeeper ht
  have heq : (V s).saved = (V t).saved := hst.eq_of_length hlen.symm
  have hts : Sound outer (V t) :=
    exec_sound hmove (move_sound (hmove i s u hu) hs) ht
  rw [hts.current, hs.current, heq]

end machine
end SavedContext

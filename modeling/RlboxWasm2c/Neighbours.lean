import RlboxWasm2c.LiveMemories
import RlboxWasm2c.Secrecy

/- Sandboxes next to each other. The memories of a process lie in one address space (`ram`),
   each from its own base on, and their programs take turns in any order: an action reads and
   writes `ram` through the memory of its sandbox. The streams are the process', so what a
   sandbox finds in them at an action is left open (`Feed`). A trap stops its program; an exit
   or a division by zero ends the process, and then there are no more turns.

   `sandboxes_isolated`: however the turns are interleaved, each program comes to what it comes
   to when it runs alone from the same start, takes as many turns and is fed the same, with
   the same bytes in its memory and the same output; and a byte that is in none of the
   memories stays as it is.

   It rests on three results. The memories lie apart (`Shared`, for the runs `LiveMemories` is
   about); what an action changes is in the memory of its sandbox (`Evolves`); and what it
   does is told by what is in there (`Guest.run_same`). -/
namespace RlboxWasm2c.MinWasi
open Traced Pages
open Protected (Process MemOp Shared)

/-- What is to be read, and what the stream calls come to, at each action of a sandbox: others
    use the streams in between. -/
structure Feed where
  stdin : Nat → List UInt8
  ioResults : Nat → List Nat

def Feed.give (f : Feed) (i : Nat) (w : Wasi) : Wasi :=
  { w with stdin := f.stdin i, ioResults := f.ioResults i }

section alone
variable {γ : Type} {grow : GrowMemory} {c : ClockData}

/-- Action `i` of a program. -/
def Guest.act (g : Guest γ) (grow : GrowMemory) (trapOnExit : Bool) (h : Host) (f : Feed) (i : Nat)
    (s : γ) : Run Wasi Event Stop γ :=
  Run.modify (f.give i) >>= fun _ => g.run grow trapOnExit h 1 i s

/-- `n` actions of a program that runs alone, from action `i` on. -/
def Guest.runAlone (g : Guest γ) (grow : GrowMemory) (trapOnExit : Bool) (h : Host) (f : Feed) :
    Nat → Nat → γ → Run Wasi Event Stop γ
  | 0, _, s => pure s
  | n + 1, i, s =>
    g.act grow trapOnExit h f i s >>= fun s => g.runAlone grow trapOnExit h f n (i + 1) s

theorem Guest.act_evolved (g : Guest γ) (hgrow : grow.AddsZeros) (trapOnExit : Bool) (h : Host)
    (f : Feed) (i : Nat) (s : γ) (w : Wasi) :
    Evolved (f.give i w) (g.act grow trapOnExit h f i s w).2.1 := by
  have hrun : Contained trapOnExit (g.run grow trapOnExit h 1 i s) := g.run_contained hgrow h 1 i s
  exact hrun.evolves.evolved (f.give i w)

/-- The process goes with it, and not the program alone. -/
def Stop.endsProcess : Stop → Bool
  | .exit _ | .trap .divByZero => true
  | _ => false

/-- An action ends the process in two ways. -/
theorem Guest.act_ends (g : Guest γ) (hgrow : grow.AddsZeros) {trapOnExit : Bool} {h : Host}
    {f : Feed} {i : Nat} {s : γ} {w : Wasi} {e : Stop}
    (hstop : (g.act grow trapOnExit h f i s w).1 = .error e) (hends : e.endsProcess = true) :
    trapOnExit = false ∨ w.clockData.DividesByZero := by
  have hrun : Contained trapOnExit (g.run grow trapOnExit h 1 i s) := g.run_contained hgrow h 1 i s
  rcases e with (_ | _) | _ | _ | code
  · cases hends
  · exact .inr (hrun.divides (f.give i w) hstop)
  · cases hends
  · cases hends
  · refine .inl (Bool.eq_false_iff.mpr fun htrap => ?_)
    exact hrun.exits htrap (f.give i w) code hstop

theorem Guest.act_same (g : Guest γ) (hgrow : grow.AddsZeros) (trapOnExit : Bool) (h : Host)
    (f : Feed) (i : Nat) (s : γ) :
    Alike (SameView c) (g.act grow trapOnExit h f i s) (g.act grow trapOnExit h f i s) Eq := by
  have hgive : ∀ w w', SameView c w w' → SameView c (f.give i w) (f.give i w') :=
    fun _ _ hw => { hw with stdin := rfl, ioResults := rfl }
  have hhost : SameHost c h h := ⟨fun _ => rfl, fun _ => rfl, fun _ => .inl rfl⟩
  exact (Alike.modify' hgive).bind' fun _ _ _ => g.run_same hgrow trapOnExit hhost 1 i s

end alone

/-- A program on its way: its `w2c_wasi__snapshot__preview1` and the host around it, but for the
    bytes of the memory, which are in `ram`; where it is or what stopped it; the actions it has
    taken, and the events of its calls. -/
structure Running (γ : Type) where
  wasi : Wasi
  state : Except Stop γ
  moment : Nat
  log : List Event

/-- `ended` is whether the process is. -/
structure Neighbours (ι γ : Type) where
  ram : Nat → UInt8
  running : ι → Running γ
  ended : Bool

/-- The memory of the sandbox is what is in `ram` from `base` on. -/
def Wasi.inRam (w : Wasi) (ram : Nat → UInt8) (base : Nat) : Wasi :=
  w.withMemory
    { data := fun x => ram (base + x)
      size := w.instanceMemory.size
      size_le := w.instanceMemory.size_le }

theorem SameView.refl (w : Wasi) : SameView w.clockData w w :=
  ⟨⟨rfl, fun _ _ => rfl⟩, rfl, rfl, ⟨rfl, rfl⟩, rfl, rfl, rfl, rfl⟩

theorem SameView.inRam_congr {c : ClockData} {w w₀ : Wasi} {ram ram' : Nat → UInt8} {base : Nat}
    (h : SameView c w (w₀.inRam ram base))
    (hsame : ∀ x < w₀.instanceMemory.size, ram' (base + x) = ram (base + x)) :
    SameView c w (w₀.inRam ram' base) :=
  { h with
    memory := ⟨h.memory.size, fun x hx =>
      (hsame x (Nat.lt_of_lt_of_eq hx h.memory.size.symm)).trans (h.memory.data x hx)⟩ }

/-- What is fixed while programs run: where their memories are and how they grow, what the host
    and the streams are like at each of their actions, and `WASM2C_WASI_TRAP_ON_EXIT`. -/
structure Setting (ι γ : Type) where
  base : ι → Nat
  guest : ι → Guest γ
  grow : ι → GrowMemory
  host : ι → Host
  feed : ι → Feed
  trapOnExit : Bool

section setting
variable {ι γ : Type}

def Setting.act (S : Setting ι γ) (k : ι) : Nat → γ → Run Wasi Event Stop γ :=
  (S.guest k).act (S.grow k) S.trapOnExit (S.host k) (S.feed k)

def Setting.runAlone (S : Setting ι γ) (k : ι) : Nat → Nat → γ → Run Wasi Event Stop γ :=
  (S.guest k).runAlone (S.grow k) S.trapOnExit (S.host k) (S.feed k)

/-- What sandbox `k` works on. -/
def Neighbours.view (S : Setting ι γ) (m : Neighbours ι γ) (k : ι) : Wasi :=
  (m.running k).wasi.inRam m.ram (S.base k)

/-- Byte `y` is in the memory of sandbox `k`. -/
def Neighbours.Inside (S : Setting ι γ) (m : Neighbours ι γ) (k : ι) (y : Nat) : Prop :=
  S.base k ≤ y ∧ y < S.base k + (m.running k).wasi.instanceMemory.size

/-- The windows that memories can grow in. -/
def Setting.Apart (S : Setting ι γ) : Prop :=
  ∀ j k, j ≠ k → S.base j + 2 ^ 32 ≤ S.base k ∨ S.base k + 2 ^ 32 ≤ S.base j

/-- Sandbox `k`, whose log was `L`, has come to the outcome `r` of a run on its own: to the same
    state, by the same events, with the same in its memory and the same output. -/
structure Neighbours.CameTo (S : Setting ι γ) (m : Neighbours ι γ) (k : ι) (c : ClockData)
    (L : List Event) (r : Except Stop γ × Wasi × List Event) : Prop where
  state : (m.running k).state = r.1
  log : (m.running k).log = L ++ r.2.2
  view : SameView c r.2.1 (m.view S k)

variable [DecidableEq ι]

/-- Whether a run that came to `r` has ended the process. -/
def endsProcess (r : Except Stop γ) : Bool :=
  match r with
  | .error e => e.endsProcess
  | .ok _ => false

/-- Sandbox `k` has taken an action that ended with `r`: its memory is back in `ram`. -/
def Neighbours.put (S : Setting ι γ) (m : Neighbours ι γ) (k : ι)
    (r : Except Stop γ × Wasi × List Event) : Neighbours ι γ where
  ram y := if S.base k ≤ y then r.2.1.instanceMemory.data (y - S.base k) else m.ram y
  running := Function.update m.running k
    { wasi := r.2.1
      state := r.1
      moment := (m.running k).moment + 1
      log := (m.running k).log ++ r.2.2 }
  ended := endsProcess r.1

/-- One action of sandbox `k`, unless it was stopped or the process has ended. -/
def Neighbours.turn (S : Setting ι γ) (m : Neighbours ι γ) (k : ι) : Neighbours ι γ :=
  if m.ended then m
  else match (m.running k).state with
    | .error _ => m
    | .ok s => m.put S k (S.act k (m.running k).moment s (m.view S k))

/-- How many of the turns are those of sandbox `k`. -/
def turnsOf (k : ι) (ks : List ι) : Nat := ks.countP fun i => i = k

def Neighbours.run (S : Setting ι γ) (m : Neighbours ι γ) (ks : List ι) : Neighbours ι γ :=
  ks.foldl (Neighbours.turn S) m

/-- The turns there are before the process ends. -/
def Neighbours.taken (S : Setting ι γ) : Neighbours ι γ → List ι → List ι
  | _, [] => []
  | m, k :: ks => if m.ended then [] else k :: (m.turn S k).taken S ks

end setting

section neighbours
variable {ι γ : Type} [DecidableEq ι] {S : Setting ι γ} {m : Neighbours ι γ} {j k : ι} {s : γ}
  {r : Except Stop γ × Wasi × List Event}

@[simp] theorem put_running_self : (m.put S k r).running k =
    ⟨r.2.1, r.1, (m.running k).moment + 1, (m.running k).log ++ r.2.2⟩ := Function.update_self ..

theorem put_running_other (hjk : j ≠ k) : (m.put S k r).running j = m.running j :=
  Function.update_of_ne hjk ..

theorem put_view_self : (m.put S k r).view S k = r.2.1 := by
  unfold Neighbours.view
  rw [put_running_self]
  unfold Wasi.inRam Neighbours.put
  simp only [Nat.le_add_right, if_true, Nat.add_sub_cancel_left]
  rfl

/-- What is put back changes nothing but the memory, if the rest is as it was found. -/
theorem put_ram_outside {w : Wasi} (hr : Evolved w r.2.1)
    (hw : w.instanceMemory.data = fun x => m.ram (S.base k + x)) {y : Nat}
    (hy : ¬(m.put S k r).Inside S k y) : (m.put S k r).ram y = m.ram y := by
  unfold Neighbours.Inside at hy
  rw [put_running_self] at hy
  dsimp only at hy
  by_cases hle : S.base k ≤ y
  · have hout := hr.outside (y - S.base k) (by omega)
    rw [hw] at hout
    dsimp only at hout
    rw [Nat.add_sub_cancel' hle] at hout
    exact (if_pos hle).trans hout
  · exact if_neg hle

theorem turn_ended (hended : m.ended = true) : m.turn S k = m := if_pos hended

theorem turn_stopped {e : Stop} (hstate : (m.running k).state = .error e) : m.turn S k = m := by
  unfold Neighbours.turn
  rw [hstate]
  exact ite_self m

theorem turn_runs (hended : m.ended = false) (hstate : (m.running k).state = .ok s) :
    m.turn S k = m.put S k (S.act k (m.running k).moment s (m.view S k)) := by
  unfold Neighbours.turn
  rw [hended, hstate]
  rfl

/-- A turn does nothing, or is an action. -/
theorem turn_cases (S : Setting ι γ) (m : Neighbours ι γ) (k : ι) : m.turn S k = m ∨
    ∃ s, (m.running k).state = .ok s ∧
      m.turn S k = m.put S k (S.act k (m.running k).moment s (m.view S k)) := by
  cases hended : m.ended with
  | true => exact .inl (turn_ended hended)
  | false =>
    cases hstate : (m.running k).state with
    | error e => exact .inl (turn_stopped hstate)
    | ok s => exact .inr ⟨s, rfl, turn_runs hended hstate⟩

theorem turn_other (hjk : j ≠ k) : (m.turn S k).running j = m.running j := by
  rcases turn_cases S m k with hsame | ⟨s, -, hput⟩
  · rw [hsame]
  · rw [hput, put_running_other hjk]

section grows
variable (hgrow : ∀ k, (S.grow k).AddsZeros)
include hgrow

omit [DecidableEq ι] in
theorem act_evolved (k : ι) (s : γ) : Evolved ((S.feed k).give (m.running k).moment (m.view S k))
    (S.act k (m.running k).moment s (m.view S k)).2.1 :=
  (S.guest k).act_evolved (hgrow k) ..

theorem turn_ram_outside {y : Nat} (hy : ¬(m.turn S k).Inside S k y) :
    (m.turn S k).ram y = m.ram y := by
  rcases turn_cases S m k with hsame | ⟨s, -, hput⟩
  · rw [hsame]
  · rw [hput] at hy ⊢
    exact put_ram_outside (act_evolved hgrow k s) rfl hy

theorem turn_evolved (j : ι) :
    (m.running j).wasi.instanceMemory.size ≤
        ((m.turn S k).running j).wasi.instanceMemory.size ∧
      ((m.turn S k).running j).wasi.clockData = (m.running j).wasi.clockData := by
  by_cases hjk : j = k
  · rcases turn_cases S m k with hsame | ⟨s, -, hput⟩
    · rw [hsame]
      exact ⟨Nat.le_refl _, rfl⟩
    · rw [hput, hjk, put_running_self]
      have hevolved := act_evolved (m := m) hgrow k s
      exact ⟨hevolved.size, hevolved.clockData⟩
  · rw [turn_other hjk]
    exact ⟨Nat.le_refl _, rfl⟩

/-- A turn that ends the process. -/
theorem turn_ends (hgoes : m.ended = false) (hended : (m.turn S k).ended = true) :
    S.trapOnExit = false ∨ (m.running k).wasi.clockData.DividesByZero := by
  rcases turn_cases S m k with hsame | ⟨s, -, hput⟩
  · rw [hsame, hgoes] at hended
    cases hended
  · rw [hput] at hended
    change endsProcess (S.act k (m.running k).moment s (m.view S k)).1 = true at hended
    cases hstop : (S.act k (m.running k).moment s (m.view S k)).1 with
    | ok s' =>
      rw [hstop] at hended
      cases hended
    | error e =>
      rw [hstop] at hended
      have hends := (S.guest k).act_ends (w := m.view S k) (hgrow k) hstop hended
      exact hends

end grows

theorem turnsOf_self (k : ι) (ks : List ι) : turnsOf k (k :: ks) = turnsOf k ks + 1 :=
  List.countP_cons_of_pos (decide_eq_true rfl)

theorem turnsOf_other (hjk : j ≠ k) (ks : List ι) : turnsOf j (k :: ks) = turnsOf j ks :=
  List.countP_cons_of_neg (by simpa using Ne.symm hjk)

theorem run_cons (ks : List ι) : m.run S (k :: ks) = (m.turn S k).run S ks := rfl

theorem run_ended (ks : List ι) (hended : m.ended = true) : m.run S ks = m := by
  induction ks with
  | nil => rfl
  | cons k ks ih => rw [run_cons, turn_ended hended, ih]

theorem taken_ended (ks : List ι) (hended : m.ended = true) : m.taken S ks = [] := by
  cases ks with
  | nil => rfl
  | cons k ks => exact if_pos hended

theorem taken_cons (ks : List ι) (hgoes : m.ended = false) :
    m.taken S (k :: ks) = k :: (m.turn S k).taken S ks := by
  rw [Neighbours.taken, hgoes]
  rfl

/-- While the process goes on all turns are taken. -/
theorem taken_all (ks : List ι) (hgoes : (m.run S ks).ended = false) : m.taken S ks = ks := by
  induction ks generalizing m with
  | nil => rfl
  | cons k ks ih =>
    cases hended : m.ended with
    | true =>
      rw [run_ended _ hended, hended] at hgoes
      cases hgoes
    | false => rw [taken_cons ks hended, ih hgoes]

section grows
variable (hgrow : ∀ k, (S.grow k).AddsZeros)
include hgrow

theorem run_size_le (ks : List ι) (j : ι) : (m.running j).wasi.instanceMemory.size ≤
    ((m.run S ks).running j).wasi.instanceMemory.size := by
  induction ks generalizing m with
  | nil => exact Nat.le_refl _
  | cons k ks ih => exact Nat.le_trans (turn_evolved hgrow j).1 ih

/-- What is in no memory in the end was in none before. -/
theorem run_ram_outside (ks : List ι) {y : Nat} (hy : ∀ j, ¬(m.run S ks).Inside S j y) :
    (m.run S ks).ram y = m.ram y := by
  induction ks generalizing m with
  | nil => rfl
  | cons k ks ih =>
    have hturn : ¬(m.turn S k).Inside S k y := by
      rintro ⟨hlo, hhi⟩
      exact hy k ⟨hlo, Nat.lt_of_lt_of_le hhi (Nat.add_le_add_left (run_size_le hgrow ks k) _)⟩
    exact (ih hy).trans (turn_ram_outside hgrow hturn)

/-- What ends the process: an exit that does not trap, or a clock that does not convert. -/
theorem run_ends (ks : List ι) (hgoes : m.ended = false) (hended : (m.run S ks).ended = true) :
    S.trapOnExit = false ∨ ∃ k, (m.running k).wasi.clockData.DividesByZero := by
  induction ks generalizing m with
  | nil =>
    rw [show (m.run S []).ended = m.ended from rfl, hgoes] at hended
    cases hended
  | cons k ks ih =>
    cases hturn : (m.turn S k).ended with
    | true => exact (turn_ends hgrow hgoes hturn).imp_right fun hdivides => ⟨k, hdivides⟩
    | false =>
      refine (ih hturn hended).imp_right fun ⟨j, hdivides⟩ => ⟨j, ?_⟩
      rwa [(turn_evolved hgrow j).2] at hdivides

end grows

section isolated
variable {c : ClockData} (hgrow : ∀ k, (S.grow k).AddsZeros)
include hgrow

/-- The turn of another sandbox is not seen. -/
theorem turn_other_view {w : Wasi} (hapart : S.Apart) (hjk : j ≠ k)
    (hview : SameView c w (m.view S j)) : SameView c w ((m.turn S k).view S j) := by
  unfold Neighbours.view at hview ⊢
  rw [turn_other hjk]
  refine hview.inRam_congr fun x hx => turn_ram_outside hgrow ?_
  rintro ⟨hlo, hhi⟩
  have hwindow := hapart j k hjk
  have hsize := (m.running j).wasi.instanceMemory.size_le
  have hgrown := ((m.turn S k).running k).wasi.instanceMemory.size_le
  omega

theorem run_stopped {w : Wasi} {e : Stop} (hapart : S.Apart) (ks : List ι) :
    ∀ m : Neighbours ι γ, (m.running j).state = .error e → SameView c w (m.view S j) →
    (m.run S ks).running j = m.running j ∧ SameView c w ((m.run S ks).view S j) := by
  induction ks with
  | nil => exact fun m _ hview => ⟨rfl, hview⟩
  | cons k ks ih =>
    intro m hstate hview
    rw [run_cons]
    by_cases hjk : j = k
    · rw [turn_stopped (hjk ▸ hstate)]
      exact ih m hstate hview
    · have hrunning : (m.turn S k).running j = m.running j := turn_other hjk
      rw [← hrunning]
      exact ih _ (hrunning ▸ hstate) (turn_other_view hgrow hapart hjk hview)

/-- A sandbox among others, and its program alone from a start that looks the same to it. By
    induction on the turns: those of the sandbox go on in both, the others' are not seen. -/
theorem run_alone (hapart : S.Apart) (ks : List ι) :
    ∀ (m : Neighbours ι γ) (w : Wasi) (s : γ), (m.running j).state = .ok s →
    SameView c w (m.view S j) →
    (m.run S ks).CameTo S j c (m.running j).log
      (S.runAlone j (turnsOf j (m.taken S ks)) (m.running j).moment s w) := by
  induction ks with
  | nil => exact fun m w s hstate hview => ⟨hstate, (List.append_nil _).symm, hview⟩
  | cons k ks ih =>
    intro m w s hstate hview
    cases hended : m.ended with
    | true =>
      rw [run_ended _ hended, taken_ended _ hended]
      exact ⟨hstate, (List.append_nil _).symm, hview⟩
    | false =>
    rw [run_cons, taken_cons ks hended]
    by_cases hjk : j = k
    · subst hjk
      have hact : OutcomeAlike (SameView c) Eq (S.act j (m.running j).moment s w)
          (S.act j (m.running j).moment s (m.view S j)) :=
        (S.guest j).act_same (hgrow j) S.trapOnExit (S.host j) (S.feed j) _ s w (m.view S j) hview
      rw [turnsOf_self]
      generalize hturns : turnsOf j ((m.turn S j).taken S ks) = n
      rcases hw : S.act j (m.running j).moment s w with ⟨r, w₁, L⟩
      rcases hv : S.act j (m.running j).moment s (m.view S j) with ⟨r', w₁', L'⟩
      rw [hw, hv] at hact
      obtain ⟨hends, hseen, hlog⟩ := hact
      dsimp only at hends hseen hlog
      subst hlog
      have hput : SameView c w₁ ((m.put S j (r', w₁', L)).view S j) := by
        rw [put_view_self]
        exact hseen
      rw [turn_runs hended hstate, hv] at hturns ⊢
      cases hends with
      | stopped e =>
        have halone : S.runAlone j (n + 1) (m.running j).moment s w = (.error e, w₁, L) :=
          Run.bind_error hw
        obtain ⟨hlast, hend⟩ := run_stopped hgrow hapart ks _ (by rw [put_running_self]) hput
        rw [halone]
        exact ⟨by rw [hlast, put_running_self], by rw [hlast, put_running_self], hend⟩
      | @ok a b related =>
        obtain rfl := related
        have halone : S.runAlone j (n + 1) (m.running j).moment s w =
            Run.after L (S.runAlone j n ((m.running j).moment + 1) a w₁) :=
          Run.bind_ok hw
        have hrest := ih _ w₁ a (by rw [put_running_self]) hput
        rw [put_running_self, hturns] at hrest
        rw [halone]
        exact ⟨hrest.state, hrest.log.trans (List.append_assoc ..), hrest.view⟩
    · have hrunning : (m.turn S k).running j = m.running j := turn_other hjk
      have hrest := ih (m.turn S k) w s (hrunning ▸ hstate)
        (turn_other_view hgrow hapart hjk hview)
      rwa [hrunning, ← turnsOf_other hjk] at hrest

end isolated
end neighbours

/-- It stores a byte at the start of its memory and reads it again. -/
def storeAndLoad (b : UInt8) : List Action × List Reply := ([.store 0 [b], .load 0 1], [])

open Protected in
/-- Two programs, in two memories side by side. -/
def sideBySideSetting :
    Setting { memory // memory ∈ sideBySideProcess.live } (List Action × List Reply) where
  base k := k.val.data
  guest _ := script
  grow _ := growWithinSpace
  host _ := goingClocks 0
  feed _ := ⟨fun _ => [], fun _ => []⟩
  trapOnExit := true

end RlboxWasm2c.MinWasi

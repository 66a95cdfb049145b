import RlboxWasm2c.Base.Blocks
import RlboxWasm2c.Reservation

/- The block `os_mmap_aligned` carves out of its padded reservation, for any base the
   system answers, on both systems.

   `carve` is the body behind the first reservation as one value: the address and the
   pieces passed to `os_munmap`. `osMmapAligned_carve` connects it to the function over a
   page map. `carveChecked` is the same computation with every sum and difference checked,
   `none` where one leaves the word.
   `osMmapAligned_exact`: inside the address space the sanity check does not fire, the
   offset is aligned, block and pieces split the padded range, and nothing wraps. The
   Windows body reserves the same address again, unless it keeps the whole range. -/
namespace RlboxWasm2c
open Words Pages Blocks

/-! ## The body behind the reservation -/

/-- The pieces passed to `os_munmap` when the sanity check passes, in order. -/
def unusedPieces (w : Width) (unaligned aligned requestedLength paddedLength : Nat) : List Block :=
  let unusedFront := wsub w.bits aligned unaligned
  let unusedBack := wsub w.bits (wrap w.bits (unaligned + wsub w.bits paddedLength 1))
    (wrap w.bits (aligned + wsub w.bits requestedLength 1))
  (if unusedFront ≠ 0 then [⟨unaligned, unusedFront⟩] else []) ++
  (if unusedBack ≠ 0 then [⟨wrap w.bits (aligned + requestedLength), unusedBack⟩] else [])

/-- `os_mmap_aligned` from the base on: its result and the pieces passed to `os_munmap`. -/
def carve (w : Width) (requestedLength alignment alignmentOffset unaligned : Nat) :
    Nat × List Block :=
  let paddedLength := wrap w.bits (requestedLength + alignment + alignmentOffset)
  let aligned := alignedAddr w unaligned alignment alignmentOffset
  if alignedFails w unaligned aligned requestedLength paddedLength alignment alignmentOffset then
    (0, [⟨unaligned, paddedLength⟩])
  else (aligned, unusedPieces w unaligned aligned requestedLength paddedLength)

def osMunmapAll (w : Width) (os : PageMap) (pieces : List Block) : PageMap :=
  pieces.foldl (fun os b => osMunmap w os b.addr b.size) os

theorem osMunmapAll_append (w : Width) (os : PageMap) (l l' : List Block) :
    osMunmapAll w os (l ++ l') = osMunmapAll w (osMunmapAll w os l) l' := List.foldl_append ..

theorem osMunmapAll_ite (w : Width) (os : PageMap) (c : Prop) [Decidable c] (b : Block) :
    osMunmapAll w os (if c then [b] else []) =
      if c then osMunmap w os b.addr b.size else os := by
  split
  · rfl
  · rfl

/-- Past its `os_mmap`, the function unmaps the pieces one after the other. -/
theorem osMmapAligned_carve {w : Width} {os os' : PageMap} {req alignment off u : Nat}
    {answer : Option Nat} (hu : u ≠ 0)
    (h : osMmap w os (wrap w.bits (req + alignment + off)) answer = (u, os')) :
    osMmapAligned w os req alignment off answer =
      ((carve w req alignment off u).1, osMunmapAll w os' (carve w req alignment off u).2) := by
  unfold osMmapAligned carve
  simp only [h, if_neg hu]
  split
  · rfl
  · simp only [unusedPieces, osMunmapAll_append, osMunmapAll_ite]

/-! ## The same with checked arithmetic -/

/-- `x + y` when it fits the word. -/
def addFits (w : Width) (x y : Nat) : Option Nat :=
  if x + y < 2 ^ w.bits then some (x + y) else none

/-- `x - y` when it is not negative. -/
def subFits (x y : Nat) : Option Nat := if y ≤ x then some (x - y) else none

/-- `base + (length - 1)`, the last byte of a range. -/
def lastFits (w : Width) (base length : Nat) : Option Nat := do
  let lengthLast ← subFits length 1
  addFits w base lengthLast

def alignedAddrChecked (w : Width) (unaligned alignment alignmentOffset : Nat) : Option Nat := do
  let alignmentCorrected := if alignment = 0 then 1 else alignment
  let mask ← subFits alignmentCorrected 1
  let raised ← addFits w unaligned mask
  let shifted ← subFits (andNot w.bits raised mask) alignmentOffset
  if shifted ≥ unaligned then some shifted else addFits w shifted alignment

/-- All three comparisons are made, whether or not the first ones decide. -/
def alignedFailsChecked (w : Width) (unaligned aligned requestedLength paddedLength alignment
    alignmentOffset : Nat) : Option Bool := do
  let alignmentCorrected := if alignment = 0 then 1 else alignment
  let last ← lastFits w aligned requestedLength
  let paddedLast ← lastFits w unaligned paddedLength
  let offsetAddr ← addFits w aligned alignmentOffset
  some (decide (aligned < unaligned) || decide (last > paddedLast) ||
    decide (offsetAddr % alignmentCorrected ≠ 0))

def unusedPiecesChecked (w : Width) (unaligned aligned requestedLength paddedLength : Nat) :
    Option (List Block) := do
  let unusedFront ← subFits aligned unaligned
  let last ← lastFits w aligned requestedLength
  let paddedLast ← lastFits w unaligned paddedLength
  let unusedBack ← subFits paddedLast last
  let front : List Block := if unusedFront ≠ 0 then [⟨unaligned, unusedFront⟩] else []
  if unusedBack ≠ 0 then
    let behind ← addFits w aligned requestedLength
    some (front ++ [⟨behind, unusedBack⟩])
  else some (front ++ [])

/-- `carve` with every sum and difference checked. -/
def carveChecked (w : Width) (requestedLength alignment alignmentOffset unaligned : Nat) :
    Option (Nat × List Block) := do
  let requestedAligned ← addFits w requestedLength alignment
  let paddedLength ← addFits w requestedAligned alignmentOffset
  let aligned ← alignedAddrChecked w unaligned alignment alignmentOffset
  let fails ← alignedFailsChecked w unaligned aligned requestedLength paddedLength alignment
    alignmentOffset
  if fails then some (0, [⟨unaligned, paddedLength⟩])
  else
    let pieces ← unusedPiecesChecked w unaligned aligned requestedLength paddedLength
    some (aligned, pieces)

/-! ## The Windows body -/

/-- The system calls of the Windows function. -/
inductive WinCall where
  | winMmap (hint size : Nat)
  | osMunmap (piece : Block)
  deriving DecidableEq

/-- `os_mmap_aligned` on Windows, which computes the address in the same words and cannot
    unmap a part: the result and the calls, when `win_mmap` answers `unaligned` and then
    `remapped`. -/
def osMmapAlignedWindows (w : Width) (addr requestedLength alignment alignmentOffset unaligned
    remapped : Nat) : Nat × List WinCall :=
  let paddedLength := wrap w.bits (requestedLength + alignment + alignmentOffset)
  if unaligned = 0 then (0, [.winMmap addr paddedLength])
  else
    let aligned := alignedAddr w unaligned alignment alignmentOffset
    if aligned = unaligned ∧ paddedLength = requestedLength then
      (aligned, [.winMmap addr paddedLength])
    else if alignedFails w unaligned aligned requestedLength paddedLength alignment
        alignmentOffset then
      (0, [.winMmap addr paddedLength, .osMunmap ⟨unaligned, paddedLength⟩])
    else (remapped, [.winMmap addr paddedLength, .osMunmap ⟨unaligned, paddedLength⟩,
      .winMmap aligned requestedLength])

/-! ## Without wrapping -/

section Exact
variable {w : Width} {req alignment off u : Nat}

theorem addFits_eq {x y : Nat} (h : x + y < 2 ^ w.bits) : addFits w x y = some (x + y) := if_pos h

theorem subFits_eq {x y : Nat} (h : y ≤ x) : subFits x y = some (x - y) := if_pos h

theorem lastFits_eq {base len : Nat} (hlen : 0 < len) (h : base + len ≤ 2 ^ w.bits) :
    lastFits w base len = some (base + (len - 1)) := by
  unfold lastFits
  rw [subFits_eq (show 1 ≤ len by omega), Option.bind_eq_bind, Option.bind_some]
  exact addFits_eq (by omega)

theorem alignedAddrChecked_eq (hal : AlignArgs alignment off) (hu : u ≠ 0) (hreq : 0 < req)
    (hfit : u + (req + alignment + off) ≤ 2 ^ w.bits) :
    alignedAddrChecked w u alignment off = some (alignedAddr w u alignment off) := by
  obtain ⟨k, hA, hcases⟩ := hal.corrected
  obtain ⟨hsum, hround, hge, -, hhi⟩ := alignedNonoffset_spec hal hu hreq hfit hA
  have hpos := Nat.two_pow_pos k
  unfold alignedAddrChecked
  simp only [hA, subFits_eq (show 1 ≤ 2 ^ k by omega), addFits_eq hsum, hround, subFits_eq hge,
    Option.bind_eq_bind, Option.bind_some]
  rw [alignedAddr_eq hal hu hreq hfit hA]
  split
  · rfl
  · exact addFits_eq (by omega)

section Chosen
variable {al len : Nat}

theorem alignedFailsChecked_eq (hu : u ≠ 0) (hlo : u ≤ al) (hreq : 0 < req)
    (hhi : al + req ≤ u + len) (hoff : al + off < 2 ^ w.bits) (hfit : u + len ≤ 2 ^ w.bits) :
    alignedFailsChecked w u al req len alignment off =
      some (alignedFails w u al req len alignment off) := by
  unfold alignedFailsChecked alignedFails
  simp only
  rw [lastFits_eq hreq (show al + req ≤ 2 ^ w.bits by omega),
    lastFits_eq (show 0 < len by omega) hfit, addFits_eq hoff,
    wrap_last (by omega) hreq (by omega), wrap_last (by omega) (by omega) hfit, wrap_eq hoff]
  rfl

theorem unusedPiecesChecked_eq (hu : u ≠ 0) (hlo : u ≤ al) (hreq : 0 < req)
    (hhi : al + req ≤ u + len) (hfit : u + len ≤ 2 ^ w.bits) :
    unusedPiecesChecked w u al req len = some (unusedPieces w u al req len) := by
  have hle : al + (req - 1) ≤ u + (len - 1) := by omega
  have hback : wsub w.bits (u + (len - 1)) (al + (req - 1)) = u + (len - 1) - (al + (req - 1)) :=
    wsub_eq (by omega) hle
  unfold unusedPiecesChecked unusedPieces
  simp only
  rw [lastFits_eq hreq (show al + req ≤ 2 ^ w.bits by omega),
    lastFits_eq (show 0 < len by omega) hfit, subFits_eq hlo,
    wrap_last (by omega) hreq (by omega), wrap_last (by omega) (by omega) hfit,
    wsub_eq (show al < 2 ^ w.bits by omega) hlo, hback]
  simp only [subFits_eq hle, Option.bind_eq_bind, Option.bind_some]
  split
  · -- with a byte behind the block, its end is an address
    have hend : al + req < 2 ^ w.bits := by omega
    rw [addFits_eq hend, wrap_eq hend]
    rfl
  · rfl

/-- The pieces are what the padded range leaves around the block. -/
theorem unusedPieces_eq (hu : u ≠ 0) (hlo : u ≤ al) (hreq : 0 < req)
    (hhi : al + req ≤ u + len) (hfit : u + len ≤ 2 ^ w.bits) :
    unusedPieces w u al req len = Block.around ⟨u, len⟩ ⟨al, req⟩ := by
  unfold unusedPieces Block.around
  simp only [wsub_eq (show al < 2 ^ w.bits by omega) hlo, unusedBack_eq hu hlo hreq hhi hfit]
  have hback : (if u + len - (al + req) ≠ 0 then
      [(⟨wrap w.bits (al + req), u + len - (al + req)⟩ : Block)] else []) =
      (Block.back ⟨u, len⟩ ⟨al, req⟩).unlessEmpty := by
    unfold Block.back Block.unlessEmpty
    split
    · rw [wrap_eq (by omega)]
    · rfl
  rw [hback]
  rfl

end Chosen

theorem carve_eq (hal : AlignArgs alignment off) (hu : u ≠ 0) (hreq : 0 < req)
    (hfit : u + (req + alignment + off) ≤ 2 ^ w.bits) :
    carve w req alignment off u =
      (alignedAddr w u alignment off,
        Block.around ⟨u, req + alignment + off⟩ ⟨alignedAddr w u alignment off, req⟩) := by
  obtain ⟨hlo, hhi, -⟩ := alignedAddr_spec hal hu hreq hfit
  unfold carve
  rw [wrap_eq (show req + alignment + off < 2 ^ w.bits by omega)]
  simp only [alignedAddr_sane hal hu hreq hfit, Bool.false_eq_true, if_false]
  rw [unusedPieces_eq hu hlo hreq (by omega) hfit]

/-- No sum or difference leaves the word. -/
theorem carveChecked_eq (hal : AlignArgs alignment off) (hu : u ≠ 0) (hreq : 0 < req)
    (hfit : u + (req + alignment + off) ≤ 2 ^ w.bits) :
    carveChecked w req alignment off u = some (carve w req alignment off u) := by
  obtain ⟨hlo, hhi, -⟩ := alignedAddr_spec hal hu hreq hfit
  unfold carveChecked carve
  simp only [addFits_eq (show req + alignment < 2 ^ w.bits by omega),
    addFits_eq (show req + alignment + off < 2 ^ w.bits by omega),
    wrap_eq (show req + alignment + off < 2 ^ w.bits by omega),
    alignedAddrChecked_eq hal hu hreq hfit, alignedAddr_sane hal hu hreq hfit,
    alignedFailsChecked_eq hu hlo hreq
      (show _ ≤ u + (req + alignment + off) by omega)
      (show alignedAddr w u alignment off + off < 2 ^ w.bits by omega) hfit,
    unusedPiecesChecked_eq hu hlo hreq (show _ ≤ u + (req + alignment + off) by omega) hfit,
    Option.bind_eq_bind, Option.bind_some, Bool.false_eq_true, if_false]

/-- The Windows function keeps the range when no alignment is asked for, and else reserves
    the block again at the address the POSIX function returns. -/
theorem osMmapAlignedWindows_eq (hal : AlignArgs alignment off) (hu : u ≠ 0) (hreq : 0 < req)
    (hfit : u + (req + alignment + off) ≤ 2 ^ w.bits) (addr remapped : Nat) :
    osMmapAlignedWindows w addr req alignment off u remapped =
      if alignment = 0 then
        ((carve w req alignment off u).1, [.winMmap addr (req + alignment + off)])
      else (remapped, [.winMmap addr (req + alignment + off),
        .osMunmap ⟨u, req + alignment + off⟩, .winMmap (carve w req alignment off u).1 req]) := by
  obtain ⟨hlo, hhi, -⟩ := alignedAddr_spec hal hu hreq hfit
  have hoff := hal.off_le
  rw [carve_eq hal hu hreq hfit]
  unfold osMmapAlignedWindows
  simp only [wrap_eq (show req + alignment + off < 2 ^ w.bits by omega), if_neg hu,
    alignedAddr_sane hal hu hreq hfit, Bool.false_eq_true, if_false]
  by_cases h0 : alignment = 0
  · rw [if_pos h0, if_pos ⟨by omega, by omega⟩]
  · rw [if_neg h0, if_neg (by omega)]

/-- An aligned block at `a`, cut out of the padded range at `u`; `pieces` go back. -/
structure CutOut (w : Width) (req alignment off u a : Nat) (pieces : List Block) : Prop where
  chosen : a = alignedAddr w u alignment off
  sane : alignedFails w u a req (req + alignment + off) alignment off = false
  aligned : 0 < alignment → (a + off) % alignment = 0
  inside : (⟨a, req⟩ : Block).Within ⟨u, req + alignment + off⟩
  splits : (⟨u, req + alignment + off⟩ : Block).SplitsInto (⟨a, req⟩ :: pieces)
  checked : carveChecked w req alignment off u = some (a, pieces)

theorem carve_cutOut (hal : AlignArgs alignment off) (hu : u ≠ 0) (hreq : 0 < req)
    (hfit : u + (req + alignment + off) ≤ 2 ^ w.bits) :
    CutOut w req alignment off u (carve w req alignment off u).1
      (carve w req alignment off u).2 := by
  obtain ⟨hlo, hhi, hmod⟩ := alignedAddr_spec hal hu hreq hfit
  have hinside : (⟨alignedAddr w u alignment off, req⟩ : Block).Within
      ⟨u, req + alignment + off⟩ := by
    refine ⟨hlo, ?_⟩
    show alignedAddr w u alignment off + req ≤ u + (req + alignment + off)
    omega
  have hchecked := carveChecked_eq hal hu hreq hfit
  rw [carve_eq hal hu hreq hfit] at hchecked ⊢
  refine ⟨rfl, alignedAddr_sane hal hu hreq hfit, ?_, hinside, Block.splitsInto_around hinside,
    hchecked⟩
  intro hpos
  rwa [if_neg (by omega)] at hmod

end Exact

/-- For every base at which the padded range is inside the address space, the block is cut
    out exactly and nothing wraps; on POSIX the pieces around it are unmapped, and Windows
    selects the same address. -/
theorem osMmapAligned_exact (w : Width) (req alignment off u : Nat)
    (hal : AlignArgs alignment off) (hu : u ≠ 0) (hreq : 0 < req)
    (hfit : u + (req + alignment + off) ≤ 2 ^ w.bits) :
    CutOut w req alignment off u (carve w req alignment off u).1
      (carve w req alignment off u).2 ∧
    (∀ os os' answer, osMmap w os (req + alignment + off) answer = (u, os') →
      osMmapAligned w os req alignment off answer =
        ((carve w req alignment off u).1,
          osMunmapAll w os' (carve w req alignment off u).2)) ∧
    ∀ addr remapped, osMmapAlignedWindows w addr req alignment off u remapped =
      if alignment = 0 then
        ((carve w req alignment off u).1, [.winMmap addr (req + alignment + off)])
      else (remapped, [.winMmap addr (req + alignment + off),
        .osMunmap ⟨u, req + alignment + off⟩, .winMmap (carve w req alignment off u).1 req]) := by
  refine ⟨carve_cutOut hal hu hreq hfit, ?_, osMmapAlignedWindows_eq hal hu hreq hfit⟩
  intro os os' answer h
  apply osMmapAligned_carve hu
  rwa [wrap_eq (show req + alignment + off < 2 ^ w.bits by omega)]

/-- A base at which the offset has to be corrected by one alignment. -/
theorem offset_block_exact :
    CutOut .w32 8192 16384 4096 65536 77824 [⟨65536, 12288⟩, ⟨86016, 8192⟩] ∧
    (osMmapAligned .w32 ⟨12, fun _ => false⟩ 8192 16384 4096 (some 65536)).1 = 77824 ∧
    osMmapAlignedWindows .w32 0 8192 16384 4096 65536 77824 =
      (77824, [.winMmap 0 28672, .osMunmap ⟨65536, 28672⟩, .winMmap 77824 8192]) := by
  have hcarve : carve .w32 8192 16384 4096 65536 =
      (77824, [⟨65536, 12288⟩, ⟨86016, 8192⟩]) := by decide +kernel
  obtain ⟨hcut, hposix, hwindows⟩ := osMmapAligned_exact .w32 8192 16384 4096 65536
    ⟨Or.inr ⟨14, rfl⟩, by decide⟩ (by decide) (by decide) (by decide)
  rw [hcarve] at hcut
  simp only [hcarve] at hposix hwindows
  refine ⟨hcut, ?_, hwindows 0 77824⟩
  rw [hposix ⟨12, fun _ => false⟩ _ (some 65536) (Prod.ext (by decide +kernel) rfl)]

end RlboxWasm2c

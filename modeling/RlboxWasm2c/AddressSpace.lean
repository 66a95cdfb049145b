import RlboxWasm2c.Reservation

/- The address space over the life of a memory: `create_wasm2c_memory` adds the pages of its
   reservation or none, and `destroy_wasm2c_memory` takes away what was added, although it
   computes the length again from `max_pages` instead of remembering it. What the guest does
   in between changes `pages` and `size` only. -/
namespace RlboxWasm2c
open Words Pages

variable {w : Width} {os : PageMap}

/-- `page` holds a byte of `[lo, lo + len)`. -/
def Covers (os : PageMap) (lo len page : Nat) : Prop :=
  ∃ x, lo ≤ x ∧ x < lo + len ∧ x / os.pageSize = page

/-- The pages that start in a range are those that hold a byte of it, for a range that starts
    at a page. -/
theorem inRange_iff_covers {lo len p : Nat} (hd : os.pageSize ∣ lo) :
    os.inRange lo len p = true ↔ Covers os lo len p := by
  constructor
  · intro h
    obtain ⟨hlo, hhi⟩ := PageMap.inRange_iff.mp h
    exact ⟨p * os.pageSize, hlo, hhi, Nat.mul_div_cancel p os.pageSize_pos⟩
  · rintro ⟨x, hlo, hhi, rfl⟩
    exact PageMap.inRange_of_byte hd hlo hhi

/-- What the guest can have made of a memory: `memory.grow` keeps the base and `max_pages`. -/
structure GrownFrom (memory grown : WasmRtMemory) : Prop where
  data : grown.data = memory.data
  maxPages : grown.maxPages = memory.maxPages

theorem GrownFrom.resize (memory : WasmRtMemory) (pages size : Nat) :
    GrownFrom memory { memory with pages := pages, size := size } := ⟨rfl, rfl⟩

/-- A reservation that was made in `os` is given back whole. -/
theorem destroyWasm2cMemory_reserved {memory grown : WasmRtMemory} (hp : SupportedPages os)
    (hplaced : Placed w os memory.maxPages memory.data) (hgrown : GrownFrom memory grown) :
    destroyWasm2cMemory w (os.map memory.data (reserveLength w memory.maxPages)) grown =
      ({ grown with data := 0 }, os) := by
  obtain ⟨hpos, -, -⟩ := reserveLength_ok w memory.maxPages hp
  have hdata : grown.data ≠ 0 := by
    rw [hgrown.data]
    exact hplaced.ne_zero
  have hrestored := osMunmap_reservation hp hplaced.ne_zero hpos hplaced.page hplaced.fits
    hplaced.free
  unfold destroyWasm2cMemory
  rw [if_pos hdata, hgrown.data, hgrown.maxPages]
  exact congrArg (Prod.mk _) hrestored

theorem destroyWasm2cMemory_null {memory : WasmRtMemory} (h : memory.data = 0) :
    destroyWasm2cMemory w os memory = (memory, os) := by
  unfold destroyWasm2cMemory
  exact if_neg (fun hne => hne h)

/-- The address space is conserved: a creation that fails maps nothing; one that succeeds
    adds the free pages that cover its reservation, and the destruction of the memory,
    however it was grown, restores the map; a second one does nothing. -/
theorem create_destroy_conserves (w : Width) (os : PageMap) (hp : SupportedPages os)
    (initialPages : Nat) (cap : Option MemCapacity) (ans : OsAnswers) :
    let r := createWasm2cMemory w os initialPages cap ans
    (r.1.data = 0 → r.2 = os) ∧
    (r.1.data ≠ 0 →
      r.2.pageSize = os.pageSize ∧
      (∀ p, r.2.mapped p = true ↔
        os.mapped p = true ∨ Covers os r.1.data (reserveLength w (chosenMaxPages w cap)) p) ∧
      (∀ p, Covers os r.1.data (reserveLength w (chosenMaxPages w cap)) p →
        os.mapped p = false) ∧
      ∀ grown, GrownFrom r.1 grown →
        destroyWasm2cMemory w r.2 grown = ({ grown with data := 0 }, os) ∧
        ∀ os', destroyWasm2cMemory w os' { grown with data := 0 } =
          ({ grown with data := 0 }, os')) := by
  intro r
  have hr : createWasm2cMemory w os initialPages cap ans = (r.1, r.2) := rfl
  rcases createWasm2cMemory_reserved hp hr with ⟨h0, hos⟩ | ⟨hplaced, hos, hmax, -⟩
  · exact ⟨fun _ => hos, fun hne => absurd h0 hne⟩
  refine ⟨fun h0 => absurd h0 hplaced.ne_zero, fun _ => ?_⟩
  rw [← hmax, hos]
  refine ⟨rfl, fun p => ?_, fun p hcovers => ?_, fun grown hgrown => ⟨?_, fun os' => ?_⟩⟩
  · rw [PageMap.map_mapped, Bool.or_eq_true, inRange_iff_covers hplaced.page]
  · exact hplaced.free p ((inRange_iff_covers hplaced.page).mpr hcovers)
  · exact destroyWasm2cMemory_reserved hp hplaced hgrown
  · exact destroyWasm2cMemory_null rfl

/-- A 32-bit host with the default capacity: 257 pages of 64 KiB come and go, the memory
    being grown to 16 pages in between. -/
theorem default_capacity_returned :
    let r := createWasm2cMemory .w32 noPages 1 none grantSecondPage
    r.1.data = 65536 ∧ r.2.mapped 257 = true ∧ r.2.mapped 258 = false ∧
    destroyWasm2cMemory .w32 r.2 { r.1 with pages := 16, size := 16 * 65536 } =
      ({ r.1 with data := 0, pages := 16, size := 16 * 65536 }, noPages) := by
  have hmade : (createWasm2cMemory .w32 noPages 1 none grantSecondPage).1.data = 65536 ∧
      (createWasm2cMemory .w32 noPages 1 none grantSecondPage).2.mapped 257 = true ∧
      (createWasm2cMemory .w32 noPages 1 none grantSecondPage).2.mapped 258 = false := by
    decide +kernel
  have hconserved := create_destroy_conserves .w32 noPages noPages_supported 1 none grantSecondPage
  revert hmade hconserved
  generalize createWasm2cMemory .w32 noPages 1 none grantSecondPage = r
  intro hmade hconserved
  obtain ⟨-, -, -, hdestroyed⟩ := hconserved.2 (by rw [hmade.1]; decide)
  exact ⟨hmade.1, hmade.2.1, hmade.2.2, (hdestroyed _ (.resize r.1 16 (16 * 65536))).1⟩

end RlboxWasm2c

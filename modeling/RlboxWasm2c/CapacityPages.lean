import RlboxWasm2c.Reservation

/- The page count of `get_valid_wasm2c_memory_capacity`. A capacity is `Tightest` for a
   request when it is valid exactly for the requests that can be served, and then the
   default one if that is enough, else the least number of 64 KiB pages that holds the
   request, within the 65536 pages of a 32-bit memory.

   A request above the default is divided by 65535, not by 65536. The count never falls
   short and grows with the request, but it is one page too many as soon as the last byte
   asked for, in page `q` at offset `r`, has `q + r ≥ 65535`: `tightest_iff`. A host with
   64-bit pointers never divides, its default is all 4 GiB. -/
namespace RlboxWasm2c
open Words

variable {w : Width} {minCapacity : Nat}

/-- The requests that can be served: the default capacity, or what 32 bits can ask for. -/
def Servable (w : Width) (minCapacity : Nat) : Prop :=
  minCapacity ≤ w.heapDefaultMaxPages * wasmPageSize ∨ minCapacity ≤ 2 ^ 32 - 1

/-- The tightest legal capacity for a request. -/
structure Tightest (w : Width) (minCapacity : Nat) (c : MemCapacity) : Prop where
  valid_iff : c.isValid = true ↔ Servable w minCapacity
  size_eq : c.isValid = true → c.maxSize = c.maxPages * wasmPageSize
  holds : c.isValid = true → minCapacity ≤ c.maxSize
  limit : c.isValid = true → c.maxPages ≤ 65536
  default : c.isValid = true → minCapacity ≤ w.heapDefaultMaxPages * wasmPageSize →
    c.maxPages = w.heapDefaultMaxPages
  least : c.isValid = true → w.heapDefaultMaxPages * wasmPageSize < minCapacity →
    IsLeast { n | minCapacity ≤ n * wasmPageSize } c.maxPages

/-! ## What holds of every request -/

theorem getValid_isValid_iff :
    (getValidWasm2cMemoryCapacity w minCapacity true).isValid = true ↔ Servable w minCapacity := by
  unfold Servable
  rcases Nat.lt_or_ge (w.heapDefaultMaxPages * wasmPageSize) minCapacity with hgt | hle
  · rcases Nat.lt_or_ge (2 ^ 32 - 1) minCapacity with hout | hfits
    · rw [getValid_refused hgt hout]
      exact iff_of_false (by decide) (by omega)
    · rw [getValid_above hgt hfits]
      exact iff_of_true rfl (Or.inr hfits)
  · rw [getValid_default hle]
    exact iff_of_true rfl (Or.inl hle)

theorem getValid_maxSize
    (hv : (getValidWasm2cMemoryCapacity w minCapacity true).isValid = true) :
    (getValidWasm2cMemoryCapacity w minCapacity true).maxSize =
      (getValidWasm2cMemoryCapacity w minCapacity true).maxPages * wasmPageSize := by
  rcases getValid_cases hv with ⟨hle, -⟩ | ⟨hgt, hfits, -⟩
  · rw [getValid_default hle]
  · rw [getValid_above hgt hfits]

/-- Dividing by less counts no fewer pages. -/
theorem getValid_holds (hv : (getValidWasm2cMemoryCapacity w minCapacity true).isValid = true) :
    minCapacity ≤ (getValidWasm2cMemoryCapacity w minCapacity true).maxSize := by
  rw [getValid_maxSize hv]
  rcases getValid_cases hv with ⟨hle, hm⟩ | ⟨hgt, -, hm⟩
  · rwa [hm]
  · rw [hm]
    apply (le_mul_iff_count (by omega) (by decide)).mpr
    apply Nat.add_le_add_right
    exact Nat.div_le_div_left (by decide) (by decide)

/-- The default of a platform is below every page count above it. -/
theorem heapDefaultMaxPages_le_count (h : w.heapDefaultMaxPages * wasmPageSize < minCapacity) :
    w.heapDefaultMaxPages ≤ (minCapacity - 1) / (wasmPageSize - 1) + 1 := by
  have hdiv : w.heapDefaultMaxPages ≤ (minCapacity - 1) / (wasmPageSize - 1) := by
    rw [Nat.le_div_iff_mul_le (by decide)]
    unfold wasmPageSize at h ⊢
    omega
  omega

/-- A larger request never gets a smaller capacity. -/
theorem getValid_mono {larger : Nat} (hle : minCapacity ≤ larger)
    (hl : (getValidWasm2cMemoryCapacity w larger true).isValid = true) :
    (getValidWasm2cMemoryCapacity w minCapacity true).maxSize ≤
      (getValidWasm2cMemoryCapacity w larger true).maxSize := by
  have hv : (getValidWasm2cMemoryCapacity w minCapacity true).isValid = true := by
    rw [getValid_isValid_iff] at hl ⊢
    unfold Servable at hl ⊢
    omega
  rw [getValid_maxSize hv, getValid_maxSize hl]
  apply Nat.mul_le_mul_right
  rcases getValid_cases hv with ⟨-, hm⟩ | ⟨hgt, -, hm⟩
  · rcases getValid_cases hl with ⟨-, hm'⟩ | ⟨hgt', -, hm'⟩
    · rw [hm, hm']
    · rw [hm, hm']
      exact heapDefaultMaxPages_le_count hgt'
  · rcases getValid_cases hl with ⟨hle', -⟩ | ⟨-, -, hm'⟩
    · omega
    · rw [hm, hm']
      exact Nat.add_le_add_right (Nat.div_le_div_right (by omega)) 1

/-! ## When the count is the least -/

/-- The page count of a request above the default is the least exactly while dividing by
    65535 and by 65536 agree. -/
theorem getValid_least_iff (h : w.heapDefaultMaxPages * wasmPageSize < minCapacity)
    (hle : minCapacity ≤ 2 ^ 32 - 1) :
    IsLeast { n | minCapacity ≤ n * wasmPageSize }
      (getValidWasm2cMemoryCapacity w minCapacity true).maxPages ↔
    (minCapacity - 1) / wasmPageSize + (minCapacity - 1) % wasmPageSize < wasmPageSize - 1 := by
  have hleast := isLeast_count (x := minCapacity) (a := wasmPageSize) (by omega) (by decide)
  rw [getValid_above h hle]
  calc IsLeast { n | minCapacity ≤ n * wasmPageSize } ((minCapacity - 1) / (wasmPageSize - 1) + 1)
      ↔ (minCapacity - 1) / (wasmPageSize - 1) + 1 = (minCapacity - 1) / wasmPageSize + 1 := by
        constructor
        · intro hl
          exact hl.unique hleast
        · intro heq
          rwa [heq]
    _ ↔ (minCapacity - 1) / (wasmPageSize - 1) = (minCapacity - 1) / wasmPageSize := by omega
    _ ↔ (minCapacity - 1) / wasmPageSize + (minCapacity - 1) % wasmPageSize < wasmPageSize - 1 :=
        div_pred_eq_iff (by decide)

/-- It is never more than one page too many. -/
theorem getValid_maxPages_le (h : w.heapDefaultMaxPages * wasmPageSize < minCapacity)
    (hle : minCapacity ≤ 2 ^ 32 - 1) {n : Nat} (hn : minCapacity ≤ n * wasmPageSize) :
    (getValidWasm2cMemoryCapacity w minCapacity true).maxPages ≤ n + 1 := by
  have hcount := (le_mul_iff_count (by omega) (by decide)).mp hn
  rw [getValid_above h hle]
  show (minCapacity - 1) / (wasmPageSize - 1) + 1 ≤ n + 1
  unfold wasmPageSize at hcount ⊢
  omega

/-- The least count of a request that fits 32 bits is within the pages of a 32-bit memory. -/
theorem isLeast_pages_le {n : Nat} (hle : minCapacity ≤ 2 ^ 32 - 1)
    (h : IsLeast { n | minCapacity ≤ n * wasmPageSize } n) : n ≤ 65536 := by
  apply h.2
  show minCapacity ≤ 65536 * wasmPageSize
  unfold wasmPageSize
  omega

theorem heapDefaultMaxPages_le (w : Width) : w.heapDefaultMaxPages ≤ 65536 := by
  cases w <;> decide

/-- A capacity is the tightest one as soon as it is the least above the default. -/
theorem tightest_of_least
    (h : w.heapDefaultMaxPages * wasmPageSize < minCapacity → minCapacity ≤ 2 ^ 32 - 1 →
      IsLeast { n | minCapacity ≤ n * wasmPageSize }
        (getValidWasm2cMemoryCapacity w minCapacity true).maxPages) :
    Tightest w minCapacity (getValidWasm2cMemoryCapacity w minCapacity true) where
  valid_iff := getValid_isValid_iff
  size_eq := getValid_maxSize
  holds := getValid_holds
  limit hv := by
    rcases getValid_cases hv with ⟨-, hm⟩ | ⟨hgt, hle, -⟩
    · rw [hm]
      exact heapDefaultMaxPages_le w
    · exact isLeast_pages_le hle (h hgt hle)
  default hv hle := by
    rw [getValid_default hle]
  least hv hgt := by
    rcases getValid_cases hv with ⟨hle, -⟩ | ⟨-, hle, -⟩
    · omega
    · exact h hgt hle

/-- The capacity is the tightest legal one, and no larger request gets a smaller one,
    exactly when the host has 64-bit pointers, the default is enough, the request is
    refused, or the last byte of the request lies in a page and at an offset whose sum is
    below 65535. -/
theorem tightest_iff (w : Width) (minCapacity : Nat) :
    (Tightest w minCapacity (getValidWasm2cMemoryCapacity w minCapacity true) ∧
      ∀ larger, minCapacity ≤ larger →
        (getValidWasm2cMemoryCapacity w larger true).isValid = true →
        (getValidWasm2cMemoryCapacity w minCapacity true).maxSize ≤
          (getValidWasm2cMemoryCapacity w larger true).maxSize) ↔
    w = .w64 ∨ minCapacity ≤ w.heapDefaultMaxPages * wasmPageSize ∨ 2 ^ 32 ≤ minCapacity ∨
      (minCapacity - 1) / wasmPageSize + (minCapacity - 1) % wasmPageSize < wasmPageSize - 1 := by
  constructor
  · intro ⟨ht, _⟩
    rcases Nat.lt_or_ge (w.heapDefaultMaxPages * wasmPageSize) minCapacity with hgt | hle
    · rcases Nat.lt_or_ge (2 ^ 32 - 1) minCapacity with hout | hfits
      · exact Or.inr (Or.inr (Or.inl (by omega)))
      · have hv := ht.valid_iff.mpr (Or.inr hfits)
        exact Or.inr (Or.inr (Or.inr ((getValid_least_iff hgt hfits).mp (ht.least hv hgt))))
    · exact Or.inr (Or.inl hle)
  · intro hcond
    refine ⟨tightest_of_least ?_, fun larger hle hl => getValid_mono hle hl⟩
    intro hgt hfits
    rcases hcond with hw | hle | hout | hsum
    · rw [w32_of_above hgt hfits] at hw
      cases hw
    · omega
    · omega
    · exact (getValid_least_iff hgt hfits).mpr hsum

/-- 257 full pages on a 32-bit host: the capacity has 258. -/
theorem full_pages_not_tightest :
    ¬ (Tightest .w32 16842752 (getValidWasm2cMemoryCapacity .w32 16842752 true) ∧
      ∀ larger, 16842752 ≤ larger →
        (getValidWasm2cMemoryCapacity .w32 larger true).isValid = true →
        (getValidWasm2cMemoryCapacity .w32 16842752 true).maxSize ≤
          (getValidWasm2cMemoryCapacity .w32 larger true).maxSize) := by
  intro ⟨ht, _⟩
  have hpages : (getValidWasm2cMemoryCapacity .w32 16842752 true).maxPages = 258 := by decide
  have hleast := ht.least (by decide) (by decide)
  rw [hpages] at hleast
  have h257 : 258 ≤ 257 := hleast.2 (show 16842752 ≤ 257 * wasmPageSize by decide)
  exact absurd h257 (by decide)

end RlboxWasm2c

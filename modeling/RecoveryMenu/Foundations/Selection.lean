import Mathlib.Order.Defs.PartialOrder

set_option relaxedAutoImplicit false
set_option autoImplicit false

/-!
# Selections

Among the entries of a table, some of which are candidates, the one with the greatest key is
selected, and among candidates with the same key the first one.

## Main definitions

* `Selection.FirstMax`: the entry that is selected.

## Main results

* `Selection.FirstMax.unique`: no two entries are selected.
* `Selection.FirstMax.congr`: only the candidates and their keys matter.
-/

namespace Selection

variable {ι α : Type*} [PartialOrder ι] [PartialOrder α]

/-- The entry `i` is the first candidate with the greatest key. -/
structure FirstMax (C : ι → Prop) (key : ι → α) (i : ι) : Prop where
  candidate : C i
  key_le : ∀ j, C j → key j ≤ key i
  first : ∀ j, C j → key j = key i → i ≤ j

variable {C C' : ι → Prop} {key key' : ι → α}

/-- No two entries are selected. -/
theorem FirstMax.unique {i j : ι} (hi : FirstMax C key i) (hj : FirstMax C key j) : i = j := by
  have hkey : key i = key j := le_antisymm (hj.key_le i hi.candidate) (hi.key_le j hj.candidate)
  apply le_antisymm
  · exact hi.first j hj.candidate hkey.symm
  · exact hj.first i hi.candidate hkey

/-- **Locality.** The keys of entries that are no candidates do not matter. -/
theorem FirstMax.congr {i : ι} (h : FirstMax C key i) (hC : ∀ j, C j ↔ C' j)
    (hkey : ∀ j, C j → key j = key' j) : FirstMax C' key' i := by
  have hi := h.candidate
  refine ⟨(hC i).mp hi, fun j hj => ?_, fun j hj heq => ?_⟩
  · have hj' := (hC j).mpr hj
    rw [← hkey i hi, ← hkey j hj']
    exact h.key_le j hj'
  · have hj' := (hC j).mpr hj
    rw [← hkey i hi, ← hkey j hj'] at heq
    exact h.first j hj' heq

end Selection

import Mathlib.Data.Set.Basic

set_option relaxedAutoImplicit false
set_option autoImplicit false

/-!
# Layers of a picture

A layer has a value at some places and lets what is behind it through at the others. A picture is
painted layer by layer, the last one on top.

Some layers are tiles: each has a region of its own, and is opaque in all of it and nowhere else,
whatever is painted on it. A picture of tiles under a frame is kept up to date by painting the
tiles that have changed, and the frame again. That is what the last theorem says: the result is
the one of painting everything.

## Main definitions

* `Overlay.stack`, `Overlay.onto`: layers over each other, and over a memory.
* `Overlay.Tiles`: layers with regions.

## Main results

* `Overlay.onto_stack_append`: a picture is painted in parts.
* `Overlay.Tiles.repaint`: the tiles that have changed are enough.
-/

namespace Overlay

universe u v w z

variable {α : Type u} {β : Type v}

/-! ## Layers -/

/-- What is seen of layers, the last one on top. -/
def stack : List (α → Option β) → α → Option β
  | [], _ => none
  | layer :: layers, a => (stack layers a).or (layer a)

/-- What is seen of a layer on a memory. -/
def onto (layer : α → Option β) (m : α → β) (a : α) : β :=
  (layer a).getD (m a)

/-- A stack on a stack. -/
lemma stack_append (layers layers' : List (α → Option β)) (a : α) :
    stack (layers ++ layers') a = (stack layers' a).or (stack layers a) := by
  induction layers with
  | nil => simp [stack]
  | cons layer layers ih => rw [List.cons_append, stack, stack, ih, Option.or_assoc]

/-- A picture is painted in parts. -/
theorem onto_stack_append (layers layers' : List (α → Option β)) (m : α → β) :
    onto (stack (layers ++ layers')) m = onto (stack layers') (onto (stack layers) m) := by
  funext a
  rw [onto, onto, onto, stack_append]
  cases stack layers' a <;> rfl

/-- A stack is opaque where one of its layers is. -/
lemma isSome_stack {layers : List (α → Option β)} {a : α} :
    (stack layers a).isSome ↔ ∃ layer ∈ layers, (layer a).isSome := by
  induction layers with
  | nil => simp [stack]
  | cons layer layers ih =>
    rw [stack, Option.isSome_or, Bool.or_eq_true, ih, or_comm]
    simp only [List.mem_cons, exists_eq_or_imp]

/-- A layer that has a value. -/
lemma onto_of_isSome {layer : α → Option β} {a : α} (h : (layer a).isSome) (m m' : α → β) :
    onto layer m a = onto layer m' a := by
  obtain ⟨b, hb⟩ := Option.isSome_iff_exists.mp h
  rw [onto, onto, hb, Option.getD_some, Option.getD_some]

/-- A layer that has none. -/
lemma onto_of_eq_none {layer : α → Option β} {a : α} (h : layer a = none) (m : α → β) :
    onto layer m a = m a := by
  rw [onto, h, Option.getD_none]

/-- To paint a layer twice is to paint it once. -/
lemma onto_onto_self (layer : α → Option β) (m : α → β) :
    onto layer (onto layer m) = onto layer m := by
  funext a
  by_cases h : (layer a).isSome
  · exact onto_of_isSome h _ _
  · exact onto_of_eq_none (by simpa using h) _

/-! ## Tiles -/

/-- Layers with regions, for each of which something is chosen that is painted. -/
structure Tiles (ι : Type w) (V : Type z) (α : Type u) (β : Type v) where
  tile : ι → V → α → Option β
  region : ι → Set α
  isSome_iff : ∀ i v a, (tile i v a).isSome ↔ a ∈ region i
  unique : ∀ i j a, a ∈ region i → a ∈ region j → i = j

namespace Tiles

variable {ι : Type w} {V : Type z} (T : Tiles ι V α β)

/-- The tiles of a list, painted in its order. -/
def picture (is : List ι) (v : ι → V) : α → Option β :=
  stack (is.map fun i => T.tile i (v i))

variable {T} {is : List ι} {v v' : ι → V} {a : α}

/-- In the region of a tile that tile is seen. -/
theorem picture_of_mem {i : ι} (hi : i ∈ is) (ha : a ∈ T.region i) :
    T.picture is v a = T.tile i (v i) a := by
  have hsome : (T.tile i (v i) a).isSome := (T.isSome_iff i (v i) a).mpr ha
  induction is with
  | nil => exact absurd hi List.not_mem_nil
  | cons j is ih =>
    rw [picture, List.map_cons, stack]
    by_cases hmem : i ∈ is
    · obtain ⟨b, hb⟩ := Option.isSome_iff_exists.mp hsome
      have hrest : stack (is.map fun i => T.tile i (v i)) a = some b := (ih hmem).trans hb
      rw [hrest, hb, Option.some_or]
    · obtain rfl : i = j := (List.mem_cons.mp hi).resolve_right hmem
      have hnone : stack (is.map fun i => T.tile i (v i)) a = none := by
        rw [← Option.not_isSome_iff_eq_none, isSome_stack]
        rintro ⟨layer, hlayer, hopaque⟩
        obtain ⟨k, hk, rfl⟩ := List.mem_map.mp hlayer
        exact hmem (T.unique k i a ((T.isSome_iff k _ a).mp hopaque) ha ▸ hk)
      rw [hnone, Option.none_or]

/-- Outside of all regions none is. -/
theorem picture_of_not_mem (h : ∀ i ∈ is, a ∉ T.region i) : T.picture is v a = none := by
  rw [picture, ← Option.not_isSome_iff_eq_none, isSome_stack]
  rintro ⟨layer, hlayer, hopaque⟩
  obtain ⟨i, hi, rfl⟩ := List.mem_map.mp hlayer
  exact h i hi ((T.isSome_iff i _ a).mp hopaque)

/-- **The tiles that have changed are enough.** A memory shows tiles, what is fixed in front of
them and outside of their regions, and a frame. If the tiles that have changed are painted, and
then the frame, it shows what painting everything would.

**Proof sketch.** Under the frame nothing of the rest is seen. Elsewhere a place is in the region
of a tile that is painted, or of one that has not changed, or of none. -/
theorem repaint {changed : List ι} (hchanged : ∀ i ∈ changed, i ∈ is)
    (hv : ∀ i ∈ is, i ∉ changed → v i = v' i) {fixed frame : α → Option β}
    (hfixed : ∀ i ∈ is, ∀ a ∈ T.region i, fixed a = none) {m M : α → β}
    (hM : onto frame M = onto frame (onto fixed (onto (T.picture is v) m))) :
    onto frame (onto (T.picture changed v') M) =
      onto frame (onto fixed (onto (T.picture is v') m)) := by
  funext a
  by_cases hframe : (frame a).isSome
  · exact onto_of_isSome hframe _ _
  · have hnone : frame a = none := by simpa using hframe
    have hMa : M a = onto fixed (onto (T.picture is v) m) a := by
      have := congrFun hM a
      rwa [onto_of_eq_none hnone, onto_of_eq_none hnone] at this
    rw [onto_of_eq_none hnone, onto_of_eq_none hnone]
    by_cases hin : ∃ i ∈ is, a ∈ T.region i
    · obtain ⟨i, hi, ha⟩ := hin
      rw [onto_of_eq_none (hfixed i hi a ha)] at hMa ⊢
      rw [onto, picture_of_mem hi ha] at hMa
      rw [onto, onto, picture_of_mem hi ha]
      by_cases hmem : i ∈ changed
      · obtain ⟨b, hb⟩ := Option.isSome_iff_exists.mp ((T.isSome_iff i (v' i) a).mpr ha)
        rw [picture_of_mem hmem ha, hb, Option.getD_some, Option.getD_some]
      · have hout : ∀ j ∈ changed, a ∉ T.region j := fun j hj haj =>
          hmem (T.unique i j a ha haj ▸ hj)
        rw [picture_of_not_mem hout, Option.getD_none, hMa, hv i hi hmem]
    · have hout : ∀ i ∈ is, a ∉ T.region i := fun i hi ha => hin ⟨i, hi, ha⟩
      rw [onto, picture_of_not_mem fun i hi => hout i (hchanged i hi), Option.getD_none, hMa]
      -- nothing of the tiles is seen here
      simp only [onto, picture_of_not_mem hout]

end Tiles

end Overlay

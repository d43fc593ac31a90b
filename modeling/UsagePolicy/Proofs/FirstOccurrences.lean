import Mathlib.Data.List.Induction
import Mathlib.Data.List.Nodup
import Mathlib.Data.Set.Function
/-!
# First occurrences

A row without repetitions keeps each element where it occurs first. What comes behind a row adds
what is new in it, so the facts here are shown from the end of a row.
-/

namespace UsagePolicy

variable {α β : Type} [DecidableEq α] [DecidableEq β]

theorem eraseDups_concat (xs : List α) (x : α) :
    (xs ++ [x]).eraseDups = if x ∈ xs then xs.eraseDups else xs.eraseDups ++ [x] := by
  rw [List.eraseDups_append]
  by_cases h : x ∈ xs
  · simp [h, List.removeAll]
  · simp [h, List.removeAll, List.eraseDups_cons]

theorem nodup_eraseDups (xs : List α) : xs.eraseDups.Nodup := by
  induction xs using List.reverseRecOn with
  | nil => exact List.nodup_nil
  | append_singleton xs x ih =>
      rw [eraseDups_concat]
      by_cases h : x ∈ xs
      · rw [if_pos h]
        exact ih
      · have hx : x ∉ xs.eraseDups := fun hmem => h (List.mem_eraseDups.1 hmem)
        rw [if_neg h, ← List.concat_eq_append]
        exact ih.concat hx

theorem eraseDups_append_of_subset {xs ys : List α} (h : ys ⊆ xs) :
    (xs ++ ys).eraseDups = xs.eraseDups := by
  have hnone : ys.removeAll xs = [] := by
    rw [List.removeAll, List.filter_eq_nil_iff]
    intro y hy
    simpa using h hy
  rw [List.eraseDups_append, hnone, List.eraseDups_nil, List.append_nil]

/-- What is new behind a row depends on its elements only. -/
theorem eraseDups_append_congr {xs xs' : List α} (h : xs'.eraseDups = xs.eraseDups)
    (ys : List α) : (xs' ++ ys).eraseDups = (xs ++ ys).eraseDups := by
  have hmem : ∀ x, x ∈ xs' ↔ x ∈ xs := by
    intro x
    rw [← List.mem_eraseDups, h, List.mem_eraseDups]
  have hremove : ys.removeAll xs' = ys.removeAll xs := by
    simp only [List.removeAll, List.elem_eq_mem, hmem]
  rw [List.eraseDups_append, List.eraseDups_append, h, hremove]

/-- An element that occurs again contributes nothing new. -/
theorem eraseDups_flatMap_eraseDups (f : α → List β) (xs : List α) :
    (xs.eraseDups.flatMap f).eraseDups = (xs.flatMap f).eraseDups := by
  induction xs using List.reverseRecOn with
  | nil => rfl
  | append_singleton xs x ih =>
      rw [eraseDups_concat, List.flatMap_append, List.flatMap_singleton]
      by_cases h : x ∈ xs
      · rw [if_pos h, ih, eraseDups_append_of_subset]
        exact fun y hy => List.mem_flatMap.2 ⟨x, h, hy⟩
      · rw [if_neg h, List.flatMap_append, List.flatMap_singleton]
        exact eraseDups_append_congr ih (f x)

theorem eraseDups_map_of_injOn {f : α → β} {xs : List α} (hf : Set.InjOn f {x | x ∈ xs}) :
    (xs.map f).eraseDups = xs.eraseDups.map f := by
  induction xs using List.reverseRecOn with
  | nil => rfl
  | append_singleton xs x ih =>
      have hmem : f x ∈ xs.map f ↔ x ∈ xs := by
        rw [List.mem_map]
        constructor
        · rintro ⟨y, hy, hfy⟩
          have hlast : x ∈ xs ++ [x] := List.mem_append_right xs List.mem_cons_self
          rw [← hf (List.mem_append_left [x] hy) hlast hfy]
          exact hy
        · exact fun hx => ⟨x, hx, rfl⟩
      have hrest := ih (hf.mono fun y hy => List.mem_append_left [x] hy)
      rw [List.map_append, List.map_singleton, eraseDups_concat, eraseDups_concat, hrest]
      simp only [hmem]
      split
      · rfl
      · rw [List.map_append, List.map_singleton]

/-! ## Positions of first occurrences -/

theorem map_idxOf_self {xs : List α} (h : xs.Nodup) :
    xs.map (xs.idxOf ·) = List.range xs.length := by
  refine List.ext_getElem (by rw [List.length_map, List.length_range]) fun i hi _ => ?_
  rw [List.length_map] at hi
  rw [List.getElem_map, List.getElem_range]
  exact h.idxOf_getElem i hi

theorem idxOf_map_of_injOn {f : α → β} {xs : List α} (hf : Set.InjOn f {x | x ∈ xs}) {x : α}
    (h : x ∈ xs) : (xs.map f).idxOf (f x) = xs.idxOf x := by
  induction xs with
  | nil => cases h
  | cons y ys ih =>
      rw [List.map_cons]
      by_cases hyx : y = x
      · rw [hyx, List.idxOf_cons_self, List.idxOf_cons_self]
      · have hx : x ∈ ys := List.mem_of_ne_of_mem (Ne.symm hyx) h
        have hf' : f y ≠ f x := fun heq => hyx (hf List.mem_cons_self h heq)
        rw [List.idxOf_cons_ne _ hf', List.idxOf_cons_ne _ hyx,
          ih (hf.mono fun z hz => List.mem_cons_of_mem y hz) hx]

end UsagePolicy

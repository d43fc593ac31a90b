import Mathlib.Data.List.Induction
import UsagePolicy.Graph
/-!
# Graphs put together

Triples that are inserted one after another come behind those that a graph has, without those it has
already. Triples that are met again make no difference, so a graph can be rebuilt from its own
triples, and a list can be replaced by the triples of its graph.
-/

namespace UsagePolicy.Graph

variable {t : Triple}

theorem insert_of_mem {g : Graph} (h : t ∈ g.toList) : g.insert t = g := by
  rw [insert, dif_pos (contains_iff.2 h)]

theorem ofList_append (ts us : List Triple) : ofList (ts ++ us) = us.foldl insert (ofList ts) :=
  List.foldl_append

/-- What is added comes last, in its order and without what is there. -/
theorem toList_foldl_insert_eq (g : Graph) (ts : List Triple) :
    (ts.foldl insert g).toList = g.toList ++ (ofList ts).toList.filter (· ∉ g.toList) := by
  induction ts using List.reverseRecOn with
  | nil => exact (List.append_nil _).symm
  | append_singleton ts t ih =>
      rw [List.foldl_append, List.foldl_cons, List.foldl_nil, toList_insert, ih, ofList_append,
        List.foldl_cons, List.foldl_nil, toList_insert]
      by_cases hts : t ∈ (ofList ts).toList
      · have hmem : t ∈ g.toList ++ (ofList ts).toList.filter (· ∉ g.toList) := by
          simp only [List.mem_append, List.mem_filter, hts, true_and, decide_not,
            Bool.not_eq_true', decide_eq_false_iff_not]
          exact Decidable.em _
        rw [if_pos hmem, if_pos hts]
      · by_cases hg : t ∈ g.toList
        · simp [hts, hg]
        · simp [hts, hg]

theorem mem_toList_insert {g : Graph} {u : Triple} :
    t ∈ (g.insert u).toList ↔ t ∈ g.toList ∨ t = u := by
  rw [toList_insert]
  by_cases hu : u ∈ g.toList
  · rw [if_pos hu, or_iff_left_of_imp]
    rintro rfl
    exact hu
  · rw [if_neg hu, List.mem_append, List.mem_singleton]

theorem mem_toList_foldl_insert {g : Graph} {ts : List Triple} :
    t ∈ (ts.foldl insert g).toList ↔ t ∈ g.toList ∨ t ∈ ts := by
  induction ts generalizing g with
  | nil => simp
  | cons u ts ih => rw [List.foldl_cons, ih, mem_toList_insert, List.mem_cons, or_assoc]

theorem mem_ofList {ts : List Triple} : t ∈ (ofList ts).toList ↔ t ∈ ts := by
  rw [ofList, mem_toList_foldl_insert, toList_empty]
  simp

theorem toList_ofList_sublist (ts : List Triple) : (ofList ts).toList.Sublist ts := by
  induction ts using List.reverseRecOn with
  | nil => exact .slnil
  | append_singleton ts t ih =>
      rw [ofList_append, List.foldl_cons, List.foldl_nil, toList_insert]
      by_cases ht : t ∈ (ofList ts).toList
      · rw [if_pos ht]
        exact ih.trans (List.sublist_append_left ts [t])
      · rw [if_neg ht]
        exact ih.append_right [t]

/-- Triples that are met again are not inserted again. -/
theorem foldl_insert_ofList (g : Graph) (ts : List Triple) :
    (ofList ts).toList.foldl insert g = ts.foldl insert g := by
  induction ts using List.reverseRecOn with
  | nil => rfl
  | append_singleton ts t ih =>
      rw [ofList_append, List.foldl_cons, List.foldl_nil, toList_insert, List.foldl_append,
        List.foldl_cons, List.foldl_nil]
      by_cases hts : t ∈ (ofList ts).toList
      · have hmem : t ∈ (ts.foldl insert g).toList :=
          mem_toList_foldl_insert.2 (.inr (mem_ofList.1 hts))
        rw [if_pos hts, ih, insert_of_mem hmem]
      · rw [if_neg hts, List.foldl_append, ih, List.foldl_cons, List.foldl_nil]

theorem foldl_insert_of_subset {g : Graph} {ts : List Triple} (h : ts ⊆ g.toList) :
    ts.foldl insert g = g := by
  induction ts with
  | nil => rfl
  | cons t ts ih =>
      rw [List.cons_subset] at h
      rw [List.foldl_cons, insert_of_mem h.1, ih h.2]

theorem toList_ofList_of_nodup {ts : List Triple} (h : ts.Nodup) : (ofList ts).toList = ts := by
  induction ts using List.reverseRecOn with
  | nil => rfl
  | append_singleton ts t ih =>
      obtain ⟨hts, -, hdisjoint⟩ := List.nodup_append.1 h
      have ht : t ∉ (ofList ts).toList := fun hmem =>
        hdisjoint t (mem_ofList.1 hmem) t List.mem_cons_self rfl
      rw [ofList_append, List.foldl_cons, List.foldl_nil, toList_insert, if_neg ht, ih hts]

theorem toList_ofList_toList (g : Graph) : (ofList g.toList).toList = g.toList :=
  toList_ofList_of_nodup g.nodup

theorem ofList_toList_ofList (ts : List Triple) : ofList (ofList ts).toList = ofList ts :=
  foldl_insert_ofList empty ts

/-- A list may be taken apart and each part be replaced by the triples of its graph. -/
theorem ofList_flatMap_toList (parts : List (List Triple)) :
    ofList (parts.flatMap fun ts => (ofList ts).toList) = ofList parts.flatten := by
  induction parts using List.reverseRecOn with
  | nil => rfl
  | append_singleton parts ts ih =>
      rw [List.flatMap_append, List.flatten_append, ofList_append, ofList_append, ih,
        List.flatMap_singleton, List.flatten_singleton, foldl_insert_ofList]

end UsagePolicy.Graph

import UsagePolicy.Proofs.Graph.Querying
/-!
# Objects of a relation

What a graph answers through its index, read off the row of its triples. Triples that are added
come behind those that are there, so a relation keeps its objects in order and can only gain some
at the end. A relation that no added and no deleted triple is about stays as it is.
-/

namespace UsagePolicy.Graph

variable {g g' : Graph} {s p o : String}

theorem objects_eq (g : Graph) (s p : String) :
    g.objects s p =
      (g.toList.filter fun t => t.subject == s && t.predicate == p).map (·.object) := by
  rw [objects, query_eq]
  refine congrArg _ (List.filter_congr fun t _ => Bool.eq_iff_iff.2 ?_)
  simp [Pattern.matches_iff]

theorem mem_objects : o ∈ g.objects s p ↔ (⟨s, p, o⟩ : Triple) ∈ g.toList := by
  rw [objects_eq, List.mem_map]
  constructor
  · rintro ⟨t, ht, rfl⟩
    obtain ⟨hm, hc⟩ := List.mem_filter.1 ht
    simp only [Bool.and_eq_true, beq_iff_eq] at hc
    obtain ⟨rfl, rfl⟩ := hc
    exact hm
  · intro h
    exact ⟨_, List.mem_filter.2 ⟨h, by simp⟩, rfl⟩

theorem firstObject?_eq (g : Graph) (s p : String) : g.firstObject? s p = (g.objects s p).head? :=
  rfl

theorem mem_objects_of_firstObject? (h : g.firstObject? s p = some o) : o ∈ g.objects s p :=
  List.mem_of_head? h

/-- A relation has the same objects in graphs with the same triples of a sort that covers it. -/
theorem objects_eq_of_filter_eq {keep : Triple → Bool} (hkeep : ∀ o, keep ⟨s, p, o⟩ = true)
    (h : g'.toList.filter keep = g.toList.filter keep) : g'.objects s p = g.objects s p := by
  have hnarrow : ∀ ts : List Triple, ts.filter (fun t => t.subject == s && t.predicate == p) =
      (ts.filter keep).filter fun t => t.subject == s && t.predicate == p := by
    intro ts
    rw [List.filter_filter]
    refine List.filter_congr fun t _ => Bool.eq_iff_iff.2 ?_
    simp only [Bool.and_eq_true, beq_iff_eq]
    constructor
    · rintro ⟨rfl, rfl⟩
      exact ⟨⟨rfl, rfl⟩, hkeep t.object⟩
    · exact And.left
  rw [objects_eq, objects_eq, hnarrow, hnarrow g.toList, h]

/-! ## Added triples -/

/-- What is added comes last. -/
theorem toList_foldl_insert (g : Graph) (ts : List Triple) :
    ∃ news, (ts.foldl insert g).toList = g.toList ++ news ∧ news ⊆ ts := by
  refine ⟨_, toList_foldl_insert_eq g ts, fun t ht => ?_⟩
  exact (toList_ofList_sublist ts).subset (List.mem_filter.1 ht).1

theorem objects_foldl_insert (g : Graph) (ts : List Triple) (s p : String) :
    ∃ more, (ts.foldl insert g).objects s p = g.objects s p ++ more := by
  obtain ⟨news, hnews, -⟩ := g.toList_foldl_insert ts
  rw [objects_eq, objects_eq, hnews, List.filter_append, List.map_append]
  exact ⟨_, rfl⟩

theorem objects_foldl_insert_of_ne {ts : List Triple}
    (h : ∀ t ∈ ts, t.subject = s → t.predicate ≠ p) :
    (ts.foldl insert g).objects s p = g.objects s p := by
  obtain ⟨news, hnews, hsub⟩ := g.toList_foldl_insert ts
  have hnone : news.filter (fun t => t.subject == s && t.predicate == p) = [] := by
    rw [List.filter_eq_nil_iff]
    intro t ht
    have hne := h t (hsub ht)
    simpa using hne
  rw [objects_eq, objects_eq, hnews, List.filter_append, hnone, List.append_nil]

/-! ## Deleted triples -/

/-- The graph that keeps all but the triples of one sort. -/
def without (g : Graph) (dropped : Triple → Bool) : Graph :=
  ofList (g.toList.filter fun t => !dropped t)

theorem toList_without (g : Graph) (dropped : Triple → Bool) :
    (g.without dropped).toList = g.toList.filter fun t => !dropped t :=
  toList_ofList_of_nodup (g.nodup.filter _)

theorem filter_toList_without (g : Graph) (dropped : Triple → Bool) :
    ((g.without dropped).toList.filter fun t => !dropped t) =
      g.toList.filter fun t => !dropped t := by
  rw [toList_without, List.filter_filter]
  simp only [Bool.and_self]

theorem objects_without {dropped : Triple → Bool} (h : ∀ o, dropped ⟨s, p, o⟩ = false) :
    (g.without dropped).objects s p = g.objects s p := by
  have hkeep : ∀ o, (!dropped ⟨s, p, o⟩) = true := fun o => by rw [h o]; rfl
  exact objects_eq_of_filter_eq hkeep (g.filter_toList_without dropped)

end UsagePolicy.Graph

import UsagePolicy.Proofs.FirstOccurrences
import UsagePolicy.Proofs.Graph.Merging
/-!
# Graphs as rows of triples

What a graph answers can be read off the row of triples that were inserted. Each insertion tells
whether the triple occurs earlier in the row, the graph keeps the first occurrences in order, and a
query filters them, whether it follows the positions of a subject or scans.
-/

namespace UsagePolicy

/-- What a pattern asks of a triple: each given position has to be the same. -/
structure Pattern.Matches (p : Pattern) (t : Triple) : Prop where
  subject : ∀ s ∈ p.subject, t.subject = s
  predicate : ∀ r ∈ p.predicate, t.predicate = r
  object : ∀ o ∈ p.object, t.object = o

theorem Pattern.matches_iff {p : Pattern} {t : Triple} : p.Matches t ↔
    (∀ s ∈ p.subject, t.subject = s) ∧ (∀ r ∈ p.predicate, t.predicate = r) ∧
      ∀ o ∈ p.object, t.object = o :=
  ⟨fun h => ⟨h.subject, h.predicate, h.object⟩, fun h => ⟨h.1, h.2.1, h.2.2⟩⟩

instance (p : Pattern) : DecidablePred p.Matches :=
  fun _ => decidable_of_iff _ Pattern.matches_iff.symm

/-- Where the subject is settled, the predicate and the object decide. -/
theorem Pattern.matches_iff_admits {p : Pattern} {t : Triple} :
    p.Matches t ↔ (∀ s ∈ p.subject, t.subject = s) ∧ p.admits t = true := by
  have hopen : ∀ (position : Option String) (text : String),
      position.all (text == ·) = true ↔ ∀ x ∈ position, text = x := by
    intro position text
    cases position with
    | none => simp
    | some x => simp
  rw [matches_iff, admits, Bool.and_eq_true, hopen, hopen]

namespace Graph

/-- Inserts triples one after another, and tells of each whether the graph did not have it. -/
def insertAll (g : Graph) : List Triple → List Bool × Graph
  | [] => ([], g)
  | t :: ts =>
    let (new, g) := g.insertNew t
    let (news, g) := g.insertAll ts
    (new :: news, g)

/-! ## Insertions -/

theorem graph_insertAll (g : Graph) (ts : List Triple) :
    (g.insertAll ts).2 = ts.foldl insert g := by
  induction ts generalizing g with
  | nil => rfl
  | cons t ts ih => exact ih (g.insert t)

theorem insertNew_fst (g : Graph) (t : Triple) : (g.insertNew t).1 = decide (t ∉ g.toList) := by
  rw [insertNew, Bool.eq_iff_iff, decide_eq_true_eq, Bool.not_eq_true', Bool.eq_false_iff, ne_eq,
    contains_iff]

/-- A triple is new if neither the graph nor an earlier insertion has it. -/
theorem news_insertAll (g : Graph) (ts : List Triple) :
    (g.insertAll ts).1 = ts.mapIdx fun i t => decide (t ∉ g.toList ∧ t ∉ ts.take i) := by
  induction ts generalizing g with
  | nil => rfl
  | cons t ts ih =>
      have hnext : ∀ i u, (u ∉ (g.insert t).toList ∧ u ∉ ts.take i) ↔
          u ∉ g.toList ∧ u ∉ (t :: ts).take (i + 1) := by
        intro i u
        rw [mem_toList_insert, List.take_succ_cons, List.mem_cons, not_or, not_or, and_assoc]
      rw [List.mapIdx_cons, List.take_zero]
      show (g.insertNew t).1 :: ((g.insert t).insertAll ts).1 = _
      rw [insertNew_fst, ih]
      simp only [hnext, List.not_mem_nil, not_false_eq_true, and_true]

theorem toList_ofList (ts : List Triple) : (ofList ts).toList = ts.eraseDups := by
  induction ts using List.reverseRecOn with
  | nil => rfl
  | append_singleton ts t ih =>
      rw [ofList_append, List.foldl_cons, List.foldl_nil, toList_insert, eraseDups_concat, ih]
      simp only [List.mem_eraseDups]

/-! ## Queries -/

/-- The positions of a subject lead to the triples that a scan finds. -/
theorem query_eq (g : Graph) (p : Pattern) : g.query p = g.toList.filter fun t => p.Matches t := by
  obtain ⟨subject, predicate, object⟩ := p
  cases subject with
  | none =>
      refine List.filter_congr fun t _ => ?_
      rw [Bool.eq_iff_iff, decide_eq_true_eq, Pattern.matches_iff_admits]
      exact (and_iff_right nofun).symm
  | some s =>
      show (g.about s).filter _ = _
      rw [about_eq, List.filter_filter]
      refine List.filter_congr fun t _ => ?_
      rw [Bool.eq_iff_iff, Bool.and_eq_true, beq_iff_eq, decide_eq_true_eq,
        Pattern.matches_iff_admits, and_comm]
      simp

theorem refersTo_iff {g : Graph} {p o : String} :
    g.refersTo p o = true ↔ ∃ t ∈ g.toList, t.predicate = p ∧ t.object = o := by
  rw [refersTo, query_eq, Bool.not_eq_true', List.isEmpty_eq_false_iff_exists_mem]
  simp [Pattern.matches_iff]

/-- A graph answers like the row of triples that were inserted, without repetitions. -/
theorem insertAll_listed (ts : List Triple) :
    let news := (empty.insertAll ts).1
    let g := (empty.insertAll ts).2
    news = ts.mapIdx (fun i t => decide (t ∉ ts.take i)) ∧
    g.toList = ts.eraseDups ∧
    g.size = ts.eraseDups.length ∧
    ∀ p : Pattern,
      g.query p = ts.eraseDups.filter (fun t => p.Matches t) ∧ (g.query p).Nodup := by
  intro news g
  have hlist : g.toList = ts.eraseDups := by
    show (empty.insertAll ts).2.toList = _
    rw [graph_insertAll]
    exact toList_ofList ts
  have hnews : news = ts.mapIdx fun i t => decide (t ∉ ts.take i) := by
    show (empty.insertAll ts).1 = _
    rw [news_insertAll]
    simp only [toList_empty, List.not_mem_nil, not_false_eq_true, true_and]
  have hsize : g.size = ts.eraseDups.length := by
    rw [← hlist]
    exact Array.length_toList.symm
  refine ⟨hnews, hlist, hsize, fun p => ⟨?_, ?_⟩⟩
  · rw [query_eq, hlist]
  · rw [query_eq]
    exact g.nodup.filter _

end Graph

end UsagePolicy

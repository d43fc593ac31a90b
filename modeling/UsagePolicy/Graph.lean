import Std.Data.TreeMap
import Std.Data.TreeSet
/-!
# Policy graphs

A graph holds each triple once, in the order of insertion. A set tells which triples it has, and an
index leads from a subject to the positions of its triples. Nodes are texts: identifiers, blank
labels that start with `_:`, and quoted literals.
-/

namespace UsagePolicy

structure Triple where
  subject : String
  predicate : String
  object : String
  deriving DecidableEq

namespace Triple

instance : Ord Triple where
  compare := compareLex (compareOn subject) (compareLex (compareOn predicate) (compareOn object))

instance : Std.TransOrd Triple :=
  inferInstanceAs (Std.TransCmp
    (compareLex (compareOn subject) (compareLex (compareOn predicate) (compareOn object))))

instance : Std.LawfulEqOrd Triple where
  eq_of_compare {t u} h := by
    obtain ⟨hs, h⟩ := compareLex_eq_eq.1 h
    obtain ⟨hp, ho⟩ := compareLex_eq_eq.1 h
    obtain ⟨s, p, o⟩ := t
    obtain ⟨s', p', o'⟩ := u
    obtain rfl : s = s' := Std.compare_eq_iff_eq.1 hs
    obtain rfl : p = p' := Std.compare_eq_iff_eq.1 hp
    obtain rfl : o = o' := Std.compare_eq_iff_eq.1 ho
    rfl

end Triple

/-- Which triples are asked for; an open position matches everything. -/
structure Pattern where
  subject : Option String := none
  predicate : Option String := none
  object : Option String := none

/-- Whether a triple has the predicate and the object that are asked for. -/
def Pattern.admits (p : Pattern) (t : Triple) : Bool :=
  p.predicate.all (t.predicate == ·) && p.object.all (t.object == ·)

/-! ## Positions -/

/-- The positions of the triples that have a subject, in ascending order. -/
def subjectPositions (triples : Array Triple) (subject : String) : Array Nat :=
  (Array.range triples.size).filter fun i => triples[i]?.any (·.subject == subject)

theorem lt_size_of_mem_subjectPositions {triples : Array Triple} {s : String} {i : Nat}
    (h : i ∈ subjectPositions triples s) : i < triples.size :=
  Array.mem_range.1 (Array.mem_filter.1 h).1

theorem subjectPositions_push (triples : Array Triple) (t : Triple) (s : String) :
    subjectPositions (triples.push t) s =
      if t.subject = s then (subjectPositions triples s).push triples.size
      else subjectPositions triples s := by
  have hbefore : ∀ i ∈ List.range triples.size,
      (triples.push t)[i]?.any (·.subject == s) = triples[i]?.any (·.subject == s) := by
    intro i hi
    rw [Array.getElem?_push_lt (List.mem_range.1 hi),
      ← Array.getElem?_eq_getElem (List.mem_range.1 hi)]
  apply Array.toList_inj.1
  rw [subjectPositions, Array.size_push, Array.toList_filter, Array.toList_range,
    List.range_succ, List.filter_append, List.filter_congr hbefore]
  by_cases hs : t.subject = s
  · simp [subjectPositions, hs]
  · simp [subjectPositions, hs]

theorem pmap_getElem {triples : Array Triple} {positions : List Nat}
    (h : ∀ i ∈ positions, i < triples.size) :
    positions.pmap (fun i (_ : i < triples.size) => triples[i]) h =
      positions.filterMap (triples[·]?) := by
  induction positions with
  | nil => rfl
  | cons i positions ih =>
      have hi : i < triples.size := h i List.mem_cons_self
      rw [List.pmap_cons, List.filterMap_cons_some (Array.getElem?_eq_getElem hi), ih]

/-- At the positions of a subject stand the triples that have it. -/
theorem filterMap_subjectPositions (triples : Array Triple) (s : String) :
    (subjectPositions triples s).toList.filterMap (triples[·]?) =
      triples.toList.filter (·.subject == s) := by
  have hall : (List.range triples.size).filterMap (triples[·]?) = triples.toList := by
    obtain ⟨ts⟩ := triples
    simp only [List.size_toArray, List.getElem?_toArray]
    induction ts with
    | nil => rfl
    | cons t ts ih =>
        rw [List.length_cons, List.range_succ_eq_map, List.filterMap_cons, List.filterMap_map]
        exact congrArg (t :: ·) ih
  rw [subjectPositions, Array.toList_filter, Array.toList_range, List.filterMap_filter, ← hall,
    List.filter_filterMap]
  congr 1
  funext i
  cases triples[i]? with
  | none => rfl
  | some t => rfl

/-! ## Graphs -/

/-- Triples in the order of insertion, the positions of those that have a subject, and the set of
all of them. -/
structure Graph where
  triples : Array Triple
  bySubject : Std.TreeMap String (Array Nat)
  seen : Std.TreeSet Triple
  bySubject_eq : ∀ s, bySubject.getD s #[] = subjectPositions triples s
  mem_seen : ∀ t, t ∈ seen ↔ t ∈ triples
  nodup : triples.toList.Nodup

namespace Graph

def empty : Graph where
  triples := #[]
  bySubject := ∅
  seen := ∅
  bySubject_eq _ := Std.TreeMap.getD_emptyc
  mem_seen t := by simp
  nodup := .nil

instance : Inhabited Graph := ⟨empty⟩

def size (g : Graph) : Nat := g.triples.size

/-- The triples in the order of insertion. -/
def toList (g : Graph) : List Triple := g.triples.toList

def contains (g : Graph) (t : Triple) : Bool := g.seen.contains t

theorem contains_iff {g : Graph} {t : Triple} : g.contains t = true ↔ t ∈ g.toList :=
  Std.TreeSet.contains_iff_mem.trans ((g.mem_seen t).trans Array.mem_def)

/-- Adds a triple at the end, unless the graph has it already. -/
def insert (g : Graph) (t : Triple) : Graph :=
  if h : g.contains t = true then g
  else
    { triples := g.triples.push t
      bySubject :=
        g.bySubject.insert t.subject ((g.bySubject.getD t.subject #[]).push g.triples.size)
      seen := g.seen.insert t
      bySubject_eq := by
        intro s
        rw [Std.TreeMap.getD_insert, subjectPositions_push]
        simp only [g.bySubject_eq, Std.compare_eq_iff_eq]
        split
        · next hs => rw [hs]
        · rfl
      mem_seen := by
        intro u
        rw [Std.TreeSet.mem_insert, Std.compare_eq_iff_eq, g.mem_seen, Array.mem_push, or_comm,
          eq_comm]
      nodup := by
        rw [Array.toList_push, List.nodup_append]
        refine ⟨g.nodup, by simp, ?_⟩
        intro a ha b hb hab
        rw [List.mem_singleton] at hb
        subst hb hab
        exact h (contains_iff.2 ha) }

/-- Adds a triple, and tells whether the graph did not have it. -/
def insertNew (g : Graph) (t : Triple) : Bool × Graph :=
  (!g.contains t, g.insert t)

def ofList (ts : List Triple) : Graph :=
  ts.foldl insert empty

theorem lt_size_of_mem_bySubject {g : Graph} {s : String} {i : Nat}
    (h : i ∈ (g.bySubject.getD s #[]).toList) : i < g.triples.size := by
  rw [bySubject_eq] at h
  exact lt_size_of_mem_subjectPositions (Array.mem_def.2 h)

/-- The triples of a subject, which its positions lead to. -/
def about (g : Graph) (subject : String) : List Triple :=
  (g.bySubject.getD subject #[]).toList.pmap (fun i (_ : i < g.triples.size) => g.triples[i])
    fun _ => lt_size_of_mem_bySubject

theorem about_eq (g : Graph) (s : String) : g.about s = g.toList.filter (·.subject == s) := by
  rw [about, pmap_getElem, bySubject_eq, filterMap_subjectPositions, toList]

/-- The triples that match a pattern, in the order of insertion. -/
def query (g : Graph) (p : Pattern) : List Triple :=
  let candidates := match p.subject with
    | some s => g.about s
    | none => g.toList
  candidates.filter p.admits

def objects (g : Graph) (subject predicate : String) : List String :=
  (g.query { subject := some subject, predicate := some predicate }).map (·.object)

def firstObject? (g : Graph) (subject predicate : String) : Option String :=
  (g.objects subject predicate).head?

/-- Whether some triple with this predicate has this object. -/
def refersTo (g : Graph) (predicate object : String) : Bool :=
  !(g.query { predicate := some predicate, object := some object }).isEmpty

theorem toList_empty : empty.toList = [] := rfl

theorem toList_insert (g : Graph) (t : Triple) :
    (g.insert t).toList = if t ∈ g.toList then g.toList else g.toList ++ [t] := by
  by_cases h : t ∈ g.toList
  · simp [insert, contains_iff.2 h, h]
  · have hc : ¬ g.contains t = true := fun hc => h (contains_iff.1 hc)
    rw [if_neg h]
    simp [insert, hc, toList]

end Graph

end UsagePolicy

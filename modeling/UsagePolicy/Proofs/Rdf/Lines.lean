import UsagePolicy.Policy
import UsagePolicy.Proofs.Graph.Merging
/-!
# Documents of lines

A document of a line format is read line by line. Nothing is carried over a line break, so a
document can be cut at any line feed: it has the statements of both parts in order, and is malformed
if one of the parts is.
-/

namespace UsagePolicy

namespace Rdf.LineFormat

/-- The lines of a document, without the characters that end them. -/
def lines (text : String) : List String :=
  (text.toList.splitOnP isBreak).map String.ofList

theorem not_isBreak_of_mem_splitOnP {cs line : List Char} (h : line ∈ cs.splitOnP isBreak) :
    ∀ c ∈ line, isBreak c = false := by
  induction cs generalizing line with
  | nil =>
      rw [List.splitOnP_nil, List.mem_singleton] at h
      rw [h]
      exact List.forall_mem_nil _
  | cons d cs ih =>
      rw [List.splitOnP_cons_eq_if_modifyHead] at h
      by_cases hd : isBreak d = true
      · rw [if_pos hd, List.mem_cons] at h
        rcases h with rfl | h
        · exact List.forall_mem_nil _
        · exact ih h
      · rw [if_neg hd] at h
        -- the character goes before the first of the lines after it
        cases hlines : cs.splitOnP isBreak with
        | nil =>
            rw [hlines] at h
            cases h
        | cons first others =>
            rw [hlines] at h ih
            rcases List.mem_cons.1 h with rfl | h
            · have hfirst := ih List.mem_cons_self
              exact List.forall_mem_cons.2 ⟨Bool.eq_false_iff.2 hd, hfirst⟩
            · exact ih (List.mem_cons_of_mem first h)

/-- A line by itself is a document. -/
theorem parse?_line {line : List Char} (h : ∀ c ∈ line, isBreak c = false) (named : Bool) :
    parse? named (String.ofList line) = parseLine? named line := by
  rw [parse?, String.toList_ofList, List.splitOnP_eq_singleton h, List.mapM_cons, List.mapM_nil]
  cases parseLine? named line with
  | none => rfl
  | some statements => exact congrArg some (List.append_nil statements)

/-- The statements of a document are those of its lines, each of them read by itself. -/
theorem parse?_eq_lines (named : Bool) (text : String) :
    parse? named text = ((lines text).mapM (parse? named)).map List.flatten := by
  have hline : (text.toList.splitOnP isBreak).map (parseLine? named) =
      (lines text).map (parse? named) := by
    rw [lines, List.map_map]
    apply List.map_congr_left
    intro line hline
    exact (parse?_line (not_isBreak_of_mem_splitOnP hline) named).symm
  have hmapM : (text.toList.splitOnP isBreak).mapM (parseLine? named) =
      (lines text).mapM (parse? named) := by
    calc (text.toList.splitOnP isBreak).mapM (parseLine? named)
        = ((text.toList.splitOnP isBreak).map (parseLine? named)).mapM id := by
          rw [List.mapM_map, Function.id_comp]
      _ = ((lines text).map (parse? named)).mapM id := by rw [hline]
      _ = (lines text).mapM (parse? named) := by
          rw [List.mapM_map, Function.id_comp]
  rw [← hmapM]
  rfl

theorem parse?_append (named : Bool) (a b : String) :
    parse? named (a ++ "\n" ++ b) =
      (parse? named a).bind fun xs => (parse? named b).map (xs ++ ·) := by
  have hfeed : isBreak '\n' = true := rfl
  have hchars : (a ++ "\n" ++ b).toList = a.toList ++ '\n' :: b.toList := by simp
  rw [parse?, hchars, List.splitOnP_append_cons _ _ hfeed, List.mapM_append]
  simp only [parse?]
  cases (a.toList.splitOnP isBreak).mapM (parseLine? named) with
  | none => rfl
  | some xs =>
      cases (b.toList.splitOnP isBreak).mapM (parseLine? named) with
      | none => rfl
      | some ys => exact congrArg some List.flatten_append

end Rdf.LineFormat

theorem mapM_map_some {α β γ : Type} (f : α → Option β) (g : β → γ) (xs : List α) :
    xs.mapM (fun x => (f x).map g) = (xs.mapM f).map (List.map g) := by
  induction xs with
  | nil => rfl
  | cons x xs ih =>
      rw [List.mapM_cons, List.mapM_cons, ih]
      cases f x with
      | none => rfl
      | some y =>
          cases xs.mapM f with
          | none => rfl
          | some ys => rfl

/-! ## Graphs -/

namespace PolicyFormat

variable {format : PolicyFormat}

theorem parse?_eq_labelledGraph (h : format = .nTriples ∨ format = .nQuads) :
    ∃ named, format.parse? =
      fun text => (Rdf.LineFormat.parse? named text).map Rdf.labelledGraph := by
  rcases h with rfl | rfl
  · exact ⟨false, rfl⟩
  · exact ⟨true, rfl⟩

theorem parse?_append (h : format = .nTriples ∨ format = .nQuads) (a b : String) :
    format.parse? (a ++ "\n" ++ b) =
      (format.parse? a).bind fun g =>
        (format.parse? b).map fun g' => g'.toList.foldl Graph.insert g := by
  obtain ⟨named, hformat⟩ := parse?_eq_labelledGraph h
  simp only [hformat, Rdf.LineFormat.parse?_append]
  cases Rdf.LineFormat.parse? named a with
  | none => rfl
  | some xs =>
      cases Rdf.LineFormat.parse? named b with
      | none => rfl
      | some ys =>
          refine congrArg some ?_
          simp only [Rdf.labelledGraph]
          rw [List.map_append, Graph.ofList_append, Graph.foldl_insert_ofList]

theorem parse?_eq_lines (h : format = .nTriples ∨ format = .nQuads) (text : String) :
    format.parse? text =
      ((Rdf.LineFormat.lines text).mapM format.parse?).map fun graphs =>
        Graph.ofList (graphs.flatMap Graph.toList) := by
  obtain ⟨named, hformat⟩ := parse?_eq_labelledGraph h
  rw [hformat, mapM_map_some, Option.map_map]
  dsimp only
  rw [Rdf.LineFormat.parse?_eq_lines, Option.map_map]
  refine congrArg (Option.map · _) (funext fun parts => ?_)
  have hparts := Graph.ofList_flatMap_toList
    (parts.map (List.map (Rdf.Statement.toTriple Rdf.Blank.ownName)))
  rw [← List.map_flatten] at hparts
  rw [Function.comp_apply, Function.comp_apply, Rdf.labelledGraph, ← hparts, List.flatMap_map,
    List.flatMap_map]
  rfl

/-- A document of lines may be cut at a line feed: it is well-formed if both parts are, and has the
triples of the first part and then those of the second that the first does not have. A part that is
repeated changes nothing, and every line counts by itself. -/
theorem parse?_joined (h : format = .nTriples ∨ format = .nQuads) (a b : String) :
    ((format.parse? (a ++ "\n" ++ b)).isSome = true ↔
        (format.parse? a).isSome = true ∧ (format.parse? b).isSome = true) ∧
      (∀ g g', format.parse? a = some g → format.parse? b = some g' →
        ∃ both, format.parse? (a ++ "\n" ++ b) = some both ∧
          both.toList = g.toList ++ g'.toList.filter (· ∉ g.toList)) ∧
      format.parse? (a ++ "\n" ++ a) = format.parse? a ∧
      format.parse? a =
        ((Rdf.LineFormat.lines a).mapM format.parse?).map fun graphs =>
          Graph.ofList (graphs.flatMap Graph.toList) := by
  refine ⟨?_, ?_, ?_, parse?_eq_lines h a⟩
  · rw [parse?_append h]
    cases format.parse? a <;> cases format.parse? b <;> simp
  · intro g g' ha hb
    refine ⟨g'.toList.foldl Graph.insert g, ?_, ?_⟩
    · rw [parse?_append h, ha, hb, Option.bind_some, Option.map_some]
    · rw [Graph.toList_foldl_insert_eq, Graph.toList_ofList_toList]
  · rw [parse?_append h]
    cases format.parse? a with
    | none => rfl
    | some g =>
        rw [Option.bind_some, Option.map_some, Graph.foldl_insert_of_subset (List.Subset.refl _)]

/-- A quoted line break, the name of a graph, comments, a lone carriage return and a triple that
both parts have. -/
theorem parse?_joined_repeatedTriple :
    let a := "_:a <urn:p> \"x\\n\" <urn:g> . # <\r\n<urn:s> <urn:p> <urn:o> ."
    let b := "<urn:s><urn:p><urn:o>.\r# \"\n<urn:o> <urn:p> _:a ."
    ∃ both, nQuads.parse? (a ++ "\n" ++ b) = some both ∧
      both.toList =
        [⟨"_:a", "urn:p", "\"x\\n\""⟩, ⟨"urn:s", "urn:p", "urn:o"⟩, ⟨"urn:o", "urn:p", "_:a"⟩] := by
  intro a b
  have ha : (nQuads.parse? a).map Graph.toList =
      some [⟨"_:a", "urn:p", "\"x\\n\""⟩, ⟨"urn:s", "urn:p", "urn:o"⟩] := by decide +kernel
  have hb : (nQuads.parse? b).map Graph.toList =
      some [⟨"urn:s", "urn:p", "urn:o"⟩, ⟨"urn:o", "urn:p", "_:a"⟩] := by decide +kernel
  obtain ⟨g, hg, hglist⟩ := Option.map_eq_some_iff.1 ha
  obtain ⟨g', hg', hglist'⟩ := Option.map_eq_some_iff.1 hb
  obtain ⟨both, hboth, hlist⟩ := (parse?_joined (.inr rfl) a b).2.1 g g' hg hg'
  refine ⟨both, hboth, ?_⟩
  rw [hlist, hglist, hglist']
  decide

end PolicyFormat

end UsagePolicy

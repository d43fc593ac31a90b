import UsagePolicy.Proofs.Rdf.Iris
import UsagePolicy.Proofs.Rdf.Lines
import UsagePolicy.Proofs.Rdf.WellFormed
/-!
# Writing graphs

The nodes of a graph are texts, and these tell what they stand for: blank nodes begin with `_:`,
literals with a quote, and identifiers with a letter. So a graph that was read from a document of
lines can be written as such a document, and this is read as the same graph.
-/

namespace UsagePolicy

namespace Rdf

namespace LineFormat

/-- Blank nodes and literals are written as they are, identifiers in angle brackets. -/
def writeNode (id : String) : String :=
  if "_:".toList.isPrefixOf id.toList || "\"".toList.isPrefixOf id.toList then id
  else "<" ++ id ++ ">"

def writeTriple (t : Triple) : String :=
  writeNode t.subject ++ " " ++ writeNode t.predicate ++ " " ++ writeNode t.object ++ " ."

def writeTriples (ts : List Triple) : String :=
  ts.foldr (fun t rest => writeTriple t ++ "\n" ++ rest) ""

/-- A line for each triple, in order. -/
def write (g : Graph) : String :=
  writeTriples g.toList

end LineFormat

/-- What stands behind the closing quote of a literal. -/
def Qualifier.suffix : Qualifier → List Char
  | none => []
  | language tag => '@' :: tag.toList
  | datatype iri => '^' :: '^' :: '<' :: (iri.toList ++ ['>'])

namespace LineFormat

/-! ## Nodes -/

theorem writeNode_iri {iri : String} (h : isIri iri = true) :
    writeNode iri = "<" ++ iri ++ ">" := by
  obtain ⟨c, rest, hchars, hletter⟩ := head_of_isIri h
  have hblank : c ≠ '_' := by
    rintro rfl
    cases hletter
  have hquote : c ≠ '"' := by
    rintro rfl
    cases hletter
  have hmarks :
      ("_:".toList.isPrefixOf iri.toList || "\"".toList.isPrefixOf iri.toList) = false := by
    rw [hchars]
    simp [List.isPrefixOf, hblank.symm, hquote.symm]
  rw [writeNode, hmarks]
  rfl

theorem toList_ownName (label : String) :
    (Blank.labelled label).ownName.toList = '_' :: ':' :: label.toList := by
  simp [Blank.ownName, toString]

theorem toList_nodeText (l : Literal) :
    l.nodeText.toList =
      '"' :: (l.text.toList.flatMap Literal.escape ++ '"' :: l.qualifier.suffix) := by
  obtain ⟨text, qualifier⟩ := l
  cases qualifier with
  | none => simp [Literal.nodeText, Literal.quote, Qualifier.suffix]
  | language tag => simp [Literal.nodeText, Literal.quote, Qualifier.suffix, toString]
  | datatype iri => simp [Literal.nodeText, Literal.quote, Qualifier.suffix, toString]

theorem writeNode_iri_append {iri : String} (h : isIri iri = true) (rest : List Char) :
    (writeNode iri).toList ++ rest = '<' :: (iri.toList ++ '>' :: rest) := by
  rw [writeNode_iri h]
  simp

theorem writeNode_blank_append (label : String) (rest : List Char) :
    (writeNode (Blank.labelled label).ownName).toList ++ rest =
      '_' :: ':' :: (label.toList ++ rest) := by
  have hmark : "_:".toList.isPrefixOf (Blank.labelled label).ownName.toList = true := by
    rw [toList_ownName]
    rfl
  rw [writeNode, hmark, Bool.true_or, if_pos rfl, toList_ownName]
  rfl

theorem writeNode_literal_append (l : Literal) (rest : List Char) :
    (writeNode l.nodeText).toList ++ rest =
      '"' :: (l.text.toList.flatMap Literal.escape ++ '"' :: (l.qualifier.suffix ++ rest)) := by
  have hmark : "\"".toList.isPrefixOf l.nodeText.toList = true := by
    rw [toList_nodeText]
    rfl
  rw [writeNode, hmark, Bool.or_true, if_pos rfl, toList_nodeText, List.cons_append,
    List.append_assoc, List.cons_append]

/-! ## Reading nodes again -/

theorem readIdentifier_written {iri : String} (h : isIri iri = true) (rest : List Char) :
    readIdentifier ('<' :: (iri.toList ++ '>' :: rest)) = some (iri, rest) := by
  have hchars : ∀ c ∈ iri.toList, c ≠ '>' ∧ c ≠ '\\' := by
    intro c hc
    have hiri := isIriChar_of_isIri h c hc
    exact ⟨ne_of_class hiri (by decide), ne_of_class hiri (by decide)⟩
  have hresolve : resolveIri? none (String.ofList iri.toList) = some iri := by
    rw [String.ofList_toList, resolveIri?, if_pos h]
  rw [readIdentifier, readIri_append hchars]
  simp only [Option.bind_eq_bind, Option.bind_some, hresolve]
  rfl

theorem readResource_written {r : Resource} (h : r.WellFormed) (rest : List Char) :
    readResource ((writeNode (r.nodeText Blank.ownName)).toList ++ ' ' :: rest) =
      some (r, ' ' :: rest) := by
  cases r with
  | iri text =>
      have hread : ∀ tail, readResource ('<' :: tail) =
          (readIdentifier ('<' :: tail)).map fun r => (.iri r.1, r.2) := fun _ => rfl
      rw [Resource.nodeText, writeNode_iri_append h, hread, readIdentifier_written h,
        Option.map_some]
  | blank node =>
      cases node with
      | labelled label =>
          have hends : EndsLabel (' ' :: rest) := by
            rintro _ ⟨⟩
            decide
          have hread : ∀ tail, readResource ('_' :: ':' :: tail) = (readLabel tail).map fun r =>
              (.blank (.labelled (String.ofList r.1)), r.2) := fun _ => rfl
          rw [Resource.nodeText, writeNode_blank_append, hread, IsLabel.read_append h hends,
            Option.map_some, String.ofList_toList]
      | anonymous number => exact h.elim

/-- A literal may be followed by a mark of its language or datatype, so it matters that the point
comes next. -/
theorem readQualifier_suffix {q : Qualifier} (h : q.WellFormed) (text : String) :
    readQualifier text (q.suffix ++ [' ', '.']) = some (⟨text, q⟩, [' ', '.']) := by
  cases q with
  | none => rfl
  | language tag =>
      obtain ⟨hnormal, hchars⟩ := h
      have hread : ∀ tail, readQualifier text ('@' :: tail) =
          (LanguageTag.normalize? (String.ofList (tail.takeWhile isTagChar))).bind fun tag =>
            some (⟨text, .language tag⟩, tail.dropWhile isTagChar) := fun _ => rfl
      have htake : (tag.toList ++ [' ', '.']).takeWhile isTagChar = tag.toList := by
        rw [List.takeWhile_append_of_pos hchars]
        exact List.append_nil _
      have hdrop : (tag.toList ++ [' ', '.']).dropWhile isTagChar = [' ', '.'] := by
        rw [List.dropWhile_append_of_pos hchars]
        rfl
      rw [Qualifier.suffix, List.cons_append, hread, htake, hdrop, String.ofList_toList, hnormal,
        Option.bind_some]
  | datatype iri =>
      obtain ⟨hiri, hstring, hlang⟩ := h
      have hread : ∀ tail, readQualifier text ('^' :: '^' :: '<' :: tail) =
          (readIdentifier ('<' :: tail)).bind fun datatype =>
            (Literal.typed? text datatype.1).bind fun l => some (l, datatype.2) := fun _ => rfl
      have hsuffix : (Qualifier.datatype iri).suffix ++ [' ', '.'] =
          '^' :: '^' :: '<' :: (iri.toList ++ '>' :: [' ', '.']) := by
        simp [Qualifier.suffix]
      rw [hsuffix, hread, readIdentifier_written hiri, Option.bind_some, Literal.typed?,
        if_neg hlang, Literal.typed, if_neg hstring, Option.bind_some]

/-- An identifier begins with its bracket, a blank node with an underscore. -/
theorem head_writeNode {r : Resource} (h : r.WellFormed) (rest : List Char) :
    ∃ c tail, (writeNode (r.nodeText Blank.ownName)).toList ++ rest = c :: tail ∧
      (c = '<' ∨ c = '_') := by
  cases r with
  | iri text => exact ⟨'<', _, writeNode_iri_append h rest, .inl rfl⟩
  | blank node =>
      cases node with
      | labelled label => exact ⟨'_', _, writeNode_blank_append label rest, .inr rfl⟩
      | anonymous number => exact h.elim

theorem readTerm_written {t : Term} (h : t.WellFormed) :
    readTerm ((writeNode (t.nodeText Blank.ownName)).toList ++ [' ', '.']) =
      some (t, [' ', '.']) := by
  cases t with
  | resource r =>
      obtain ⟨c, tail, hchars, hmark⟩ := head_writeNode h [' ', '.']
      have hread : readTerm (c :: tail) =
          (readResource (c :: tail)).map fun r => (.resource r.1, r.2) := by
        rcases hmark with rfl | rfl
        · rfl
        · rfl
      rw [Term.nodeText, hchars, hread, ← hchars, readResource_written h, Option.map_some]
  | literal l =>
      have hread : ∀ tail, readTerm ('"' :: tail) = (readQuoted '"' tail).bind fun quoted =>
          (readQualifier (String.ofList quoted.1) quoted.2).bind fun l =>
            some (.literal l.1, l.2) := fun _ => rfl
      rw [Term.nodeText, writeNode_literal_append, hread, readQuoted_flatMap_escape,
        Option.bind_some, String.ofList_toList, readQualifier_suffix h, Option.bind_some]

/-! ## Reading lines again -/

theorem skipSpaces_resource {r : Resource} (h : r.WellFormed) (rest : List Char) :
    skipSpaces ((writeNode (r.nodeText Blank.ownName)).toList ++ rest) =
      (writeNode (r.nodeText Blank.ownName)).toList ++ rest := by
  obtain ⟨c, tail, hchars, hmark⟩ := head_writeNode h rest
  rw [hchars]
  rcases hmark with rfl | rfl
  · rfl
  · rfl

theorem skipSpaces_term {t : Term} (h : t.WellFormed) (rest : List Char) :
    skipSpaces ((writeNode (t.nodeText Blank.ownName)).toList ++ rest) =
      (writeNode (t.nodeText Blank.ownName)).toList ++ rest := by
  cases t with
  | resource r => exact skipSpaces_resource h rest
  | literal l =>
      rw [Term.nodeText, writeNode_literal_append]
      rfl

theorem toList_writeTriple (t : Triple) :
    (writeTriple t).toList =
      (writeNode t.subject).toList ++ ' ' ::
        ((writeNode t.predicate).toList ++ ' ' ::
          ((writeNode t.object).toList ++ [' ', '.'])) := by
  simp [writeTriple]

/-- Nothing stands between the object and the point, whether a graph may be named there or not. -/
theorem readStatement_written (named : Bool) {s : Statement} (h : s.WellFormed) :
    readStatement named (writeTriple (s.toTriple Blank.ownName)).toList = some (s, []) := by
  have hspace : ∀ cs, skipSpaces (' ' :: cs) = skipSpaces cs := fun _ => rfl
  have hsubject : ∀ rest, readResource (skipSpaces
      ((writeNode (s.subject.nodeText Blank.ownName)).toList ++ ' ' :: rest)) =
        some (s.subject, ' ' :: rest) := by
    intro rest
    rw [skipSpaces_resource h.subject, readResource_written h.subject]
  have hpredicate : ∀ rest,
      readIdentifier (skipSpaces (' ' :: ((writeNode s.predicate).toList ++ rest))) =
        some (s.predicate, rest) := by
    intro rest
    rw [hspace, writeNode_iri_append h.predicate]
    exact readIdentifier_written h.predicate rest
  have hobject : readTerm (skipSpaces
      (' ' :: ((writeNode (s.object.nodeText Blank.ownName)).toList ++ [' ', '.']))) =
        some (s.object, [' ', '.']) := by
    rw [hspace, skipSpaces_term h.object, readTerm_written h.object]
  have hgraph : skipGraphName [' ', '.'] = some [' ', '.'] := rfl
  have hpoint : readPoint [' ', '.'] = some [] := rfl
  rw [toList_writeTriple]
  simp only [readStatement, Statement.toTriple, hsubject, hpredicate, hobject, hgraph, hpoint,
    Option.bind_eq_bind, Option.bind_some, ite_self]
  rfl

/-! ## Written lines are lines -/

theorem not_isBreak {c : Char} (hfeed : c ≠ '\n') (hreturn : c ≠ '\r') : isBreak c = false := by
  rw [isBreak, beq_false_of_ne hfeed, beq_false_of_ne hreturn]
  rfl

/-- A class of characters without line breaks. -/
theorem not_isBreak_of_class {allowed : Char → Bool} (hfeed : allowed '\n' = false)
    (hreturn : allowed '\r' = false) {cs : List Char} (h : ∀ c ∈ cs, allowed c = true) :
    ∀ c ∈ cs, isBreak c = false := by
  intro c hc
  exact not_isBreak (ne_of_class (h c hc) hfeed) (ne_of_class (h c hc) hreturn)

theorem not_isBreak_iri {iri : String} (h : isIri iri = true) :
    ∀ c ∈ iri.toList, isBreak c = false :=
  not_isBreak_of_class (by decide) (by decide) (isIriChar_of_isIri h)

theorem not_isBreak_label {cs : List Char} (h : IsLabel cs) : ∀ c ∈ cs, isBreak c = false :=
  not_isBreak_of_class (by decide) (by decide) h.forall_mem

theorem not_isBreak_upperHexDigit : ∀ n < 16, isBreak (Text.upperHexDigit n) = false := by
  decide

theorem not_isBreak_escape (c : Char) : ∀ d ∈ Literal.escape c, isBreak d = false := by
  unfold Literal.escape
  split
  case h_8 hfeed hreturn _ _ _ =>
    split
    · next hcontrol =>
      have hhigh := not_isBreak_upperHexDigit (c.toNat / 16) (by omega)
      have hlow := not_isBreak_upperHexDigit (c.toNat % 16) (by omega)
      simp only [List.forall_mem_cons]
      exact ⟨by decide, by decide, by decide, by decide, hhigh, hlow, List.forall_mem_nil _⟩
    · exact List.forall_mem_singleton.2 (not_isBreak hfeed hreturn)
  -- seven characters have an escape of one letter
  all_goals simp [isBreak]

theorem not_isBreak_suffix {q : Qualifier} (h : q.WellFormed) :
    ∀ c ∈ q.suffix, isBreak c = false := by
  cases q with
  | none => exact List.forall_mem_nil _
  | language tag =>
      have htag := not_isBreak_of_class (by decide) (by decide) h.2
      exact List.forall_mem_cons.2 ⟨by decide, htag⟩
  | datatype iri =>
      simp only [Qualifier.suffix, List.forall_mem_cons, List.forall_mem_append]
      exact ⟨by decide, by decide, by decide, not_isBreak_iri h.1, by decide, List.forall_mem_nil _⟩

theorem not_isBreak_term {t : Term} (h : t.WellFormed) :
    ∀ c ∈ (writeNode (t.nodeText Blank.ownName)).toList, isBreak c = false := by
  rw [← List.append_nil (writeNode _).toList]
  cases t with
  | resource r =>
      cases r with
      | iri text =>
          rw [Term.nodeText, Resource.nodeText, writeNode_iri_append h]
          simp only [List.forall_mem_cons, List.forall_mem_append]
          exact ⟨by decide, not_isBreak_iri h, by decide, List.forall_mem_nil _⟩
      | blank node =>
          cases node with
          | labelled label =>
              rw [Term.nodeText, Resource.nodeText, writeNode_blank_append, List.append_nil]
              simp only [List.forall_mem_cons]
              exact ⟨by decide, by decide, not_isBreak_label h⟩
          | anonymous number => exact h.elim
  | literal l =>
      rw [Term.nodeText, writeNode_literal_append, List.append_nil]
      simp only [List.forall_mem_cons, List.forall_mem_append]
      refine ⟨by decide, fun c hc => ?_, by decide, not_isBreak_suffix h⟩
      obtain ⟨d, -, hd⟩ := List.mem_flatMap.1 hc
      exact not_isBreak_escape d c hd

theorem not_isBreak_writeTriple {s : Statement} (h : s.WellFormed) :
    ∀ c ∈ (writeTriple (s.toTriple Blank.ownName)).toList, isBreak c = false := by
  have hsubject := not_isBreak_term (t := .resource s.subject) h.subject
  have hpredicate := not_isBreak_term (t := .iri s.predicate) h.predicate
  have hobject := not_isBreak_term h.object
  rw [toList_writeTriple]
  simp only [List.forall_mem_cons, List.forall_mem_append]
  exact ⟨hsubject, by decide, hpredicate, by decide, hobject, by decide, by decide,
    List.forall_mem_nil _⟩

/-! ## Reading documents again -/

theorem parse?_writeTriple (named : Bool) {s : Statement} (h : s.WellFormed) :
    parse? named (writeTriple (s.toTriple Blank.ownName)) = some [s] := by
  have hhead : ∀ rest,
      isSilent ((writeNode (s.subject.nodeText Blank.ownName)).toList ++ rest) = false := by
    intro rest
    obtain ⟨c, tail, hchars, hmark⟩ := head_writeNode h.subject rest
    rw [hchars]
    rcases hmark with rfl | rfl
    · rfl
    · rfl
  have hsilent : isSilent (writeTriple (s.toTriple Blank.ownName)).toList = false := by
    rw [toList_writeTriple]
    exact hhead _
  have hline := parse?_line (not_isBreak_writeTriple h) named
  rw [String.ofList_toList] at hline
  rw [hline, parseLine?, hsilent, readStatement_written named h]
  rfl

theorem parse?_writeTriples (named : Bool) {statements : List Statement}
    (h : ∀ s ∈ statements, s.WellFormed) :
    parse? named (writeTriples (statements.map (Statement.toTriple Blank.ownName))) =
      some statements := by
  induction statements with
  | nil => rfl
  | cons s statements ih =>
      rw [List.forall_mem_cons] at h
      have hrest := ih h.2
      rw [List.map_cons, writeTriples, List.foldr_cons, parse?_append, parse?_writeTriple named h.1]
      rw [writeTriples] at hrest
      rw [Option.bind_some, hrest]
      rfl

end LineFormat

end Rdf

namespace PolicyFormat

open Rdf

/-- A graph that was read from N-Triples is read again from what is written for it, as N-Triples and
as N-Quads. -/
theorem parse?_write {text : String} {g : Graph} (h : nTriples.parse? text = some g) :
    nTriples.parse? (LineFormat.write g) = some g ∧
      nQuads.parse? (LineFormat.write g) = some g := by
  obtain ⟨statements, hstatements, hgraph⟩ := Option.map_eq_some_iff.1 h
  have hg : labelledGraph statements = g := hgraph
  have hwell : ∀ s ∈ statements, s.WellFormed := LineFormat.wellFormed_of_parse? hstatements
  -- the triples of the graph come from some of the statements
  have hsub := Graph.toList_ofList_sublist (statements.map (Statement.toTriple Blank.ownName))
  obtain ⟨kept, hkept, htriples⟩ := List.sublist_map_iff.1 hsub
  have hread : ∀ named,
      (LineFormat.parse? named (LineFormat.write g)).map labelledGraph = some g := by
    intro named
    have hparse := LineFormat.parse?_writeTriples named fun s hs => hwell s (hkept.subset hs)
    rw [← htriples] at hparse
    rw [← hg, LineFormat.write, labelledGraph, hparse, Option.map_some, labelledGraph, ← htriples,
      Graph.ofList_toList_ofList]
  exact ⟨hread false, hread true⟩

/-- Escapes in an identifier and in quotes, a control character, a label with a point, a language, a
datatype that is kept, one that is not, and a triple that comes twice. -/
theorem parse?_write_escaped :
    let text := "_:a.b <urn:\\u00e9> \"\\u0001\t\\\"\"@EN-gb.#\n" ++
      "<urn:s> <urn:p> \"1\"^^<urn:t> .\r" ++
      "<urn:s><urn:p>\"1\"^^<http://www.w3.org/2001/XMLSchema#string>.\n<urn:s><urn:p>\"1\"."
    let written := "_:a.b <urn:é> \"\\u0001\\t\\\"\"@en-gb .\n" ++
      "<urn:s> <urn:p> \"1\"^^<urn:t> .\n" ++
      "<urn:s> <urn:p> \"1\" .\n"
    ∃ g, nTriples.parse? text = some g ∧ LineFormat.write g = written ∧
      nTriples.parse? (LineFormat.write g) = some g ∧
      nQuads.parse? (LineFormat.write g) = some g := by
  intro text written
  have htext : (nTriples.parse? text).map Graph.toList = some
      [⟨"_:a.b", "urn:é", "\"\\u0001\\t\\\"\"@en-gb"⟩,
        ⟨"urn:s", "urn:p", "\"1\"^^<urn:t>"⟩,
        ⟨"urn:s", "urn:p", "\"1\""⟩] := by decide +kernel
  obtain ⟨g, hg, htriples⟩ := Option.map_eq_some_iff.1 htext
  have hwritten : LineFormat.write g = written := by
    rw [LineFormat.write, htriples]
    decide +kernel
  exact ⟨g, hg, hwritten, parse?_write hg⟩

end PolicyFormat

end UsagePolicy

import UsagePolicy.Policy
import UsagePolicy.Proofs.FirstOccurrences
import UsagePolicy.Proofs.Graph.Querying
import UsagePolicy.Proofs.Rdf.Writing
/-!
# Numbered blank nodes

The labels of blank nodes are not kept: each node gets the number of labels that appeared before it
did. A reader that goes through the statements once hands out the same numbers, as the next number
is the count of the names it has given. So labels matter only as far as they tell nodes apart.
-/

namespace UsagePolicy

/-- The texts of a triple, in order. -/
def Triple.texts (t : Triple) : List String := [t.subject, t.predicate, t.object]

namespace Rdf

/-- The text of a blank node with a number. -/
def blankId (n : Nat) : String := s!"_:b{n}"

/-- Whether a text of a graph stands for a blank node. -/
def isBlankId (id : String) : Bool := "_:".toList.isPrefixOf id.toList

def Resource.rename (f : Blank → Blank) : Resource → Resource
  | iri text => .iri text
  | blank node => .blank (f node)

def Term.rename (f : Blank → Blank) : Term → Term
  | resource r => .resource (r.rename f)
  | literal l => .literal l

/-- The statement with other blank nodes. -/
def Statement.rename (f : Blank → Blank) (s : Statement) : Statement :=
  ⟨s.subject.rename f, s.predicate, s.object.rename f⟩

def Resource.iris : Resource → List String
  | iri text => [text]
  | blank _ => []

def Term.iris : Term → List String
  | resource r => r.iris
  | literal _ => []

/-- The identifiers that stand in a statement. -/
def Statement.iris (s : Statement) : List String :=
  s.subject.iris ++ s.predicate :: s.object.iris

/-! ## Texts of blank nodes -/

theorem toList_blankId (n : Nat) :
    (blankId n).toList = '_' :: ':' :: 'b' :: (Nat.repr n).toList := by
  simp [blankId, toString]

theorem blankId_inj {m n : Nat} : blankId m = blankId n ↔ m = n := by
  rw [← String.toList_inj, toList_blankId, toList_blankId, List.cons_inj_right,
    List.cons_inj_right, List.cons_inj_right, String.toList_inj, Nat.repr_inj]

theorem isBlankId_blankId (n : Nat) : isBlankId (blankId n) = true := by
  rw [isBlankId, toList_blankId]
  rfl

theorem isBlankId_literal (l : Literal) : isBlankId l.nodeText = false := by
  rw [isBlankId, LineFormat.toList_nodeText]
  rfl

theorem isBlankId_iri {iri : String} (h : isIri iri = true) : isBlankId iri = false := by
  obtain ⟨c, rest, hchars, hletter⟩ := head_of_isIri h
  have hblank : '_' ≠ c := by
    rintro rfl
    cases hletter
  rw [isBlankId, hchars]
  simp [List.isPrefixOf, hblank]

theorem numbered_eq (appeared : List Blank) (b : Blank) :
    Blank.numbered appeared b = blankId (appeared.idxOf b) :=
  rfl

/-- A number stays as it is when further blank nodes appear. -/
theorem numbered_append {xs : List Blank} {b : Blank} (h : b ∈ xs) (ys : List Blank) :
    Blank.numbered (xs ++ ys).eraseDups b = Blank.numbered xs.eraseDups b := by
  rw [numbered_eq, numbered_eq, List.eraseDups_append,
    List.idxOf_append_of_mem (List.mem_eraseDups.2 h)]

theorem ownName_labelled (n : Nat) : (Blank.labelled s!"b{n}").ownName = blankId n := by
  rw [← String.toList_inj, toList_blankId, LineFormat.toList_ownName]
  simp [toString]

/-! ## Statements under other names -/

section Renaming

variable {name name' : Blank → String}

theorem Resource.blanks_rename (f : Blank → Blank) (r : Resource) :
    (r.rename f).blanks = r.blanks.map f := by
  cases r <;> rfl

theorem Term.blanks_rename (f : Blank → Blank) (o : Term) :
    (o.rename f).blanks = o.blanks.map f := by
  cases o with
  | resource r => exact r.blanks_rename f
  | literal l => rfl

theorem Statement.blanks_rename (f : Blank → Blank) (s : Statement) :
    (s.rename f).blanks = s.blanks.map f := by
  show (s.subject.rename f).blanks ++ (s.object.rename f).blanks = _
  rw [Resource.blanks_rename, Term.blanks_rename, ← List.map_append]
  rfl

theorem Resource.nodeText_rename (f : Blank → Blank) (r : Resource) :
    (r.rename f).nodeText name = r.nodeText (name ∘ f) := by
  cases r <;> rfl

theorem Term.nodeText_rename (f : Blank → Blank) (o : Term) :
    (o.rename f).nodeText name = o.nodeText (name ∘ f) := by
  cases o with
  | resource r => exact r.nodeText_rename f
  | literal l => rfl

theorem Statement.toTriple_rename (f : Blank → Blank) (s : Statement) :
    (s.rename f).toTriple name = s.toTriple (name ∘ f) :=
  congrArg₂ (Triple.mk · s.predicate ·) (s.subject.nodeText_rename f) (s.object.nodeText_rename f)

theorem Resource.nodeText_congr {r : Resource} (h : ∀ b ∈ r.blanks, name b = name' b) :
    r.nodeText name = r.nodeText name' := by
  cases r with
  | iri text => rfl
  | blank node => exact h node List.mem_cons_self

theorem Term.nodeText_congr {o : Term} (h : ∀ b ∈ o.blanks, name b = name' b) :
    o.nodeText name = o.nodeText name' := by
  cases o with
  | resource r => exact Resource.nodeText_congr h
  | literal l => rfl

theorem Statement.toTriple_congr {s : Statement} (h : ∀ b ∈ s.blanks, name b = name' b) :
    s.toTriple name = s.toTriple name' :=
  congrArg₂ (Triple.mk · s.predicate ·)
    (Resource.nodeText_congr fun b hb => h b (List.mem_append_left _ hb))
    (Term.nodeText_congr fun b hb => h b (List.mem_append_right _ hb))

theorem triples_congr {statements : List Statement}
    (h : ∀ b ∈ statements.flatMap Statement.blanks, name b = name' b) :
    statements.map (Statement.toTriple name) = statements.map (Statement.toTriple name') :=
  List.map_congr_left fun s hs =>
    Statement.toTriple_congr fun b hb => h b (List.mem_flatMap.2 ⟨s, hs, hb⟩)

theorem blanks_renamed (f : Blank → Blank) (statements : List Statement) :
    (statements.map (·.rename f)).flatMap Statement.blanks =
      (statements.flatMap Statement.blanks).map f := by
  rw [List.flatMap_map, List.map_flatMap]
  exact List.flatMap_congr fun s _ => s.blanks_rename f

theorem triples_renamed (f : Blank → Blank) (statements : List Statement) :
    (statements.map (·.rename f)).map (Statement.toTriple name) =
      statements.map (Statement.toTriple (name ∘ f)) := by
  rw [List.map_map]
  exact List.map_congr_left fun s _ => s.toTriple_rename f

end Renaming

/-! ## Blank nodes of a graph -/

/-- The texts of identifiers and literals are not those of blank nodes. -/
theorem Resource.filter_isBlankId {name : Blank → String} {r : Resource}
    (hname : ∀ b, isBlankId (name b) = true) (hiris : ∀ iri ∈ r.iris, isBlankId iri = false) :
    [r.nodeText name].filter isBlankId = r.blanks.map name := by
  cases r with
  | iri text =>
      have htext : isBlankId text = false := hiris text List.mem_cons_self
      simp [Resource.nodeText, Resource.blanks, htext]
  | blank node => simp [Resource.nodeText, Resource.blanks, hname node]

theorem Term.filter_isBlankId {name : Blank → String} {o : Term}
    (hname : ∀ b, isBlankId (name b) = true) (hiris : ∀ iri ∈ o.iris, isBlankId iri = false) :
    [o.nodeText name].filter isBlankId = o.blanks.map name := by
  cases o with
  | resource r => exact r.filter_isBlankId hname hiris
  | literal l => simp [Term.nodeText, Term.blanks, isBlankId_literal l]

theorem Statement.filter_isBlankId {name : Blank → String} {s : Statement}
    (hname : ∀ b, isBlankId (name b) = true) (hiris : ∀ iri ∈ s.iris, isBlankId iri = false) :
    (s.toTriple name).texts.filter isBlankId = s.blanks.map name := by
  have hsubject := s.subject.filter_isBlankId hname fun iri hi =>
    hiris iri (List.mem_append_left _ hi)
  have hobject := s.object.filter_isBlankId hname fun iri hi =>
    hiris iri (List.mem_append_right _ (List.mem_cons_of_mem _ hi))
  have hpredicate : [s.predicate].filter isBlankId = [] := by
    simp [hiris s.predicate (List.mem_append_right _ List.mem_cons_self)]
  show ([s.subject.nodeText name] ++ [s.predicate] ++ [s.object.nodeText name]).filter _ = _
  rw [List.filter_append, List.filter_append, hsubject, hpredicate, hobject, List.append_nil,
    ← List.map_append]
  rfl

/-- The blank nodes of a graph are those of the statements, in the same order. -/
theorem blankIds_ofList {statements : List Statement} (name : Blank → String)
    (hname : ∀ b, isBlankId (name b) = true)
    (hiris : ∀ s ∈ statements, ∀ iri ∈ s.iris, isBlankId iri = false) :
    (((Graph.ofList (statements.map (Statement.toTriple name))).toList.flatMap
        Triple.texts).filter isBlankId).eraseDups =
      ((statements.flatMap Statement.blanks).map name).eraseDups := by
  rw [Graph.toList_ofList, List.filter_flatMap, eraseDups_flatMap_eraseDups, List.flatMap_map,
    List.map_flatMap]
  exact congrArg _ (List.flatMap_congr fun s hs => s.filter_isBlankId hname (hiris s hs))

/-! ## Reading statements one after another -/

/-- What a reader has: the names that it gave to blank nodes, and the triples so far. -/
structure Reader where
  names : List (Blank × String) := []
  graph : Graph := .empty

namespace Reader

/-- The name of a blank node: the one it has, or else that of the next number. -/
def name (reader : Reader) (node : Blank) : String × Reader :=
  match reader.names.lookup node with
  | some text => (text, reader)
  | none =>
    let text := blankId reader.names.length
    (text, { reader with names := reader.names ++ [(node, text)] })

def resource (reader : Reader) : Resource → String × Reader
  | .iri text => (text, reader)
  | .blank node => reader.name node

def term (reader : Reader) : Term → String × Reader
  | .resource r => reader.resource r
  | .literal l => (l.nodeText, reader)

def statement (reader : Reader) (s : Statement) : Reader :=
  let subject := reader.resource s.subject
  let object := subject.2.term s.object
  { object.2 with graph := object.2.graph.insert ⟨subject.1, s.predicate, object.1⟩ }

/-- A reader has named the blank nodes that appeared, each by its place among the first
appearances. -/
structure Knows (reader : Reader) (appeared : List Blank) : Prop where
  count : reader.names.length = appeared.eraseDups.length
  lookup : ∀ b, reader.names.lookup b =
    if b ∈ appeared then some (Blank.numbered appeared.eraseDups b) else none

/-- What a step that reads a node gives: the text of the node under the names of all that appeared,
with the blank nodes that it names, and the graph as it was. -/
structure Reads (reader : Reader) (appeared nodes : List Blank) (text : (Blank → String) → String)
    (r : String × Reader) : Prop where
  text_eq : r.1 = text (Blank.numbered (appeared ++ nodes).eraseDups)
  knows : r.2.Knows (appeared ++ nodes)
  graph_eq : r.2.graph = reader.graph

variable {reader : Reader} {appeared : List Blank}

theorem Knows.append_nil (h : reader.Knows appeared) : reader.Knows (appeared ++ []) := by
  rw [List.append_nil]
  exact h

theorem reads_name_of_mem (h : reader.Knows appeared) {node : Blank} (hmem : node ∈ appeared) :
    reader.Reads appeared [node] (· node) (reader.name node) := by
  have hseen : (appeared ++ [node]).eraseDups = appeared.eraseDups :=
    eraseDups_append_of_subset (List.cons_subset.2 ⟨hmem, List.nil_subset _⟩)
  have hname : reader.name node = (Blank.numbered appeared.eraseDups node, reader) := by
    rw [name, h.lookup, if_pos hmem]
  have hmem_iff : ∀ b, b ∈ appeared ++ [node] ↔ b ∈ appeared := by
    intro b
    rw [List.mem_append, List.mem_singleton, or_iff_left_iff_imp]
    rintro rfl
    exact hmem
  rw [hname]
  refine ⟨congrArg (Blank.numbered · node) hseen.symm, ⟨?_, fun b => ?_⟩, rfl⟩
  · rw [hseen, h.count]
  · simp only [hseen, hmem_iff, h.lookup]

/-- The next number is the count of the names, which is the place of a node that is new. -/
theorem reads_name_of_notMem (h : reader.Knows appeared) {node : Blank} (hnew : node ∉ appeared) :
    reader.Reads appeared [node] (· node) (reader.name node) := by
  have hfirst : (appeared ++ [node]).eraseDups = appeared.eraseDups ++ [node] := by
    rw [eraseDups_concat, if_neg hnew]
  have hnumber : Blank.numbered (appeared ++ [node]).eraseDups node =
      blankId reader.names.length := by
    have hnot : node ∉ appeared.eraseDups := fun hnode => hnew (List.mem_eraseDups.1 hnode)
    rw [numbered_eq, hfirst, List.idxOf_append_of_notMem hnot, List.idxOf_cons_self, h.count,
      Nat.add_zero]
  have hname : reader.name node = (blankId reader.names.length,
      { reader with names := reader.names ++ [(node, blankId reader.names.length)] }) := by
    rw [name, h.lookup, if_neg hnew]
  rw [hname]
  refine ⟨hnumber.symm, ⟨?_, fun b => ?_⟩, rfl⟩
  · rw [hfirst, List.length_append, List.length_append, h.count]
    rfl
  · rw [List.lookup_append, h.lookup]
    by_cases hb : b ∈ appeared
    · rw [if_pos hb, if_pos (List.mem_append_left _ hb), numbered_append hb, Option.some_or]
    · rw [if_neg hb, Option.none_or]
      by_cases hbn : b = node
      · subst hbn
        simp [hnumber]
      · simp [hb, hbn]

theorem reads_name (h : reader.Knows appeared) (node : Blank) :
    reader.Reads appeared [node] (· node) (reader.name node) := by
  by_cases hmem : node ∈ appeared
  · exact reads_name_of_mem h hmem
  · exact reads_name_of_notMem h hmem

theorem reads_resource (h : reader.Knows appeared) (r : Resource) :
    reader.Reads appeared r.blanks r.nodeText (reader.resource r) := by
  cases r with
  | iri text => exact ⟨rfl, h.append_nil, rfl⟩
  | blank node => exact reads_name h node

theorem reads_term (h : reader.Knows appeared) (o : Term) :
    reader.Reads appeared o.blanks o.nodeText (reader.term o) := by
  cases o with
  | resource r => exact reads_resource h r
  | literal l => exact ⟨rfl, h.append_nil, rfl⟩

/-- A statement is stored under the numbers of what has appeared by its end. -/
theorem statement_spec (h : reader.Knows appeared) (s : Statement) :
    (reader.statement s).Knows (appeared ++ s.blanks) ∧
      (reader.statement s).graph =
        reader.graph.insert (s.toTriple (Blank.numbered (appeared ++ s.blanks).eraseDups)) := by
  have hs := reads_resource h s.subject
  have ho := reads_term hs.knows s.object
  have happ : appeared ++ s.subject.blanks ++ s.object.blanks = appeared ++ s.blanks :=
    List.append_assoc _ _ _
  have hsubject : (reader.resource s.subject).1 =
      s.subject.nodeText (Blank.numbered (appeared ++ s.blanks).eraseDups) := by
    rw [hs.text_eq, ← happ]
    exact Resource.nodeText_congr fun b hb =>
      (numbered_append (List.mem_append_right _ hb) _).symm
  have hobject := ho.text_eq
  have hknows := ho.knows
  rw [happ] at hobject hknows
  refine ⟨⟨hknows.count, hknows.lookup⟩, ?_⟩
  rw [statement, ho.graph_eq, hs.graph_eq, hsubject, hobject]
  rfl

end Reader

/-- The graph of statements that are read one after another. -/
def read (statements : List Statement) : Graph :=
  (statements.foldl Reader.statement {}).graph

theorem numberedGraph_append_singleton (statements : List Statement) (s : Statement) :
    numberedGraph (statements ++ [s]) =
      (numberedGraph statements).insert (s.toTriple
        (Blank.numbered (statements.flatMap Statement.blanks ++ s.blanks).eraseDups)) := by
  have hlabels : (statements ++ [s]).flatMap Statement.blanks =
      statements.flatMap Statement.blanks ++ s.blanks := by
    rw [List.flatMap_append, List.flatMap_singleton]
  have hearlier := triples_congr fun b (hb : b ∈ statements.flatMap Statement.blanks) =>
    numbered_append hb s.blanks
  rw [numberedGraph, hlabels, List.map_append, hearlier, Graph.ofList_append]
  rfl

/-- After any number of statements the reader knows the blank nodes in them, and has the graph in
which they are numbered. -/
theorem read_run (statements : List Statement) :
    (statements.foldl Reader.statement {}).Knows (statements.flatMap Statement.blanks) ∧
      read statements = numberedGraph statements := by
  induction statements using List.reverseRecOn with
  | nil => exact ⟨⟨rfl, fun b => by simp⟩, rfl⟩
  | append_singleton statements s ih =>
      obtain ⟨hknows, hread⟩ := ih
      obtain ⟨hstep, hgraph⟩ := Reader.statement_spec hknows s
      rw [read, List.foldl_append, List.foldl_cons, List.foldl_nil, hgraph,
        numberedGraph_append_singleton, ← hread, List.flatMap_append, List.flatMap_singleton]
      exact ⟨hstep, rfl⟩

/-! ## Numbers -/

theorem injOn_idxOf_eraseDups (labels : List Blank) :
    Set.InjOn (labels.eraseDups.idxOf ·) {b | b ∈ labels} := by
  intro a ha b _ hab
  exact (List.idxOf_inj (List.mem_eraseDups.2 ha)).1 hab

theorem numbers_eq (labels : List Blank) :
    (labels.map (labels.eraseDups.idxOf ·)).eraseDups = List.range labels.eraseDups.length := by
  rw [eraseDups_map_of_injOn (injOn_idxOf_eraseDups labels),
    map_idxOf_self (nodup_eraseDups labels)]

/-- Numbers do not depend on labels, as long as these tell the nodes apart. -/
theorem numberedGraph_rename {f : Blank → Blank} {statements : List Statement}
    (hf : Set.InjOn f {b | b ∈ statements.flatMap Statement.blanks}) :
    numberedGraph (statements.map (·.rename f)) = numberedGraph statements := by
  have hfirst : Set.InjOn f {b | b ∈ (statements.flatMap Statement.blanks).eraseDups} :=
    hf.mono fun b hb => List.mem_eraseDups.1 hb
  have hnumber : ∀ b ∈ statements.flatMap Statement.blanks,
      (Blank.numbered ((statements.flatMap Statement.blanks).eraseDups.map f) ∘ f) b =
        Blank.numbered (statements.flatMap Statement.blanks).eraseDups b := by
    intro b hb
    rw [Function.comp_apply, numbered_eq, numbered_eq,
      idxOf_map_of_injOn hfirst (List.mem_eraseDups.2 hb)]
  rw [numberedGraph, blanks_renamed, eraseDups_map_of_injOn hf, triples_renamed, numberedGraph,
    triples_congr hnumber]

theorem labelledGraph_rename (number : Blank → Nat) (statements : List Statement) :
    labelledGraph (statements.map (·.rename fun b => .labelled s!"b{number b}")) =
      Graph.ofList (statements.map (Statement.toTriple fun b => blankId (number b))) := by
  rw [labelledGraph, triples_renamed]
  exact congrArg Graph.ofList (triples_congr fun b _ => ownName_labelled (number b))

/-- The blank nodes of a document are numbered by first appearance, without gaps and one number for
each label. Nothing else in the statements changes, labels do not matter, and a reader that goes
through the statements once gives the same graph. -/
theorem numberedGraph_canonical (statements : List Statement) :
    let labels := statements.flatMap Statement.blanks
    let n := labels.eraseDups.length
    let graph := numberedGraph statements
    (∃ number : Blank → Nat,
      (labels.map number).eraseDups = List.range n ∧
      (∀ a ∈ labels, ∀ b ∈ labels, blankId (number a) = blankId (number b) ↔ a = b) ∧
      graph = labelledGraph (statements.map (·.rename fun b => .labelled s!"b{number b}"))) ∧
    ((∀ s ∈ statements, ∀ iri ∈ s.iris, isBlankId iri = false) →
      ((graph.toList.flatMap Triple.texts).filter isBlankId).eraseDups =
        (List.range n).map blankId) ∧
    (∀ f, Set.InjOn f {b | b ∈ labels} → numberedGraph (statements.map (·.rename f)) = graph) ∧
    read statements = graph ∧
    ∀ (format : PolicyFormat) (text : String), format.renamesBlankNodes = true →
      format.statements? text = some statements → format.parse? text = some graph := by
  intro labels n graph
  have hinj : Set.InjOn (labels.eraseDups.idxOf ·) {b | b ∈ labels} :=
    injOn_idxOf_eraseDups labels
  refine ⟨⟨labels.eraseDups.idxOf, numbers_eq labels, ?_, ?_⟩, ?_, ?_, (read_run statements).2, ?_⟩
  · intro a ha b hb
    rw [blankId_inj]
    exact hinj.eq_iff ha hb
  · exact (labelledGraph_rename _ statements).symm
  · intro hiris
    have hids := blankIds_ofList (Blank.numbered labels.eraseDups)
      (fun b => isBlankId_blankId _) hiris
    have hname : Set.InjOn (Blank.numbered labels.eraseDups) {b | b ∈ labels} :=
      fun a ha b hb hab => hinj ha hb (blankId_inj.1 hab)
    rw [← map_idxOf_self (nodup_eraseDups labels), List.map_map]
    exact hids.trans (eraseDups_map_of_injOn hname)
  · exact fun f hf => numberedGraph_rename hf
  · intro format text hformat hparsed
    rw [PolicyFormat.parse?, hparsed, Option.map_some, if_pos hformat]

/-- Two labels that change places, next to a literal that looks like a blank node. -/
theorem numberedGraph_canonical_exchanged :
    let statements : List Statement :=
      [⟨.blank (.labelled "y"), "urn:p", .blank (.labelled "x")⟩,
        ⟨.blank (.labelled "x"), "urn:q", .literal (.plain "_:b0")⟩,
        ⟨.blank (.labelled "y"), "urn:p", .blank (.labelled "x")⟩]
    let exchange : Blank → Blank := fun b =>
      if b = .labelled "x" then .labelled "y" else .labelled "x"
    let graph := numberedGraph statements
    (∀ s ∈ statements, ∀ iri ∈ s.iris, isIri iri = true) ∧
    Set.InjOn exchange {b | b ∈ statements.flatMap Statement.blanks} ∧
    ((graph.toList.flatMap Triple.texts).filter isBlankId).eraseDups = ["_:b0", "_:b1"] ∧
    numberedGraph (statements.map (·.rename exchange)) = graph ∧
    PolicyFormat.turtle.parse? "_:y <urn:p> _:x . _:x <urn:q> '_:b0' . _:y <urn:p> _:x ." =
      some graph := by
  intro statements exchange graph
  have hiris : ∀ s ∈ statements, ∀ iri ∈ s.iris, isIri iri = true := by decide +kernel
  have hinj : Set.InjOn exchange {b | b ∈ statements.flatMap Statement.blanks} := by
    have hpairs : ∀ a ∈ statements.flatMap Statement.blanks,
        ∀ b ∈ statements.flatMap Statement.blanks, exchange a = exchange b → a = b := by
      decide +kernel
    exact fun a ha b hb => hpairs a ha b hb
  obtain ⟨-, hids, hrename, -, hparse⟩ := numberedGraph_canonical statements
  exact ⟨hiris, hinj, hids fun s hs iri hi => isBlankId_iri (hiris s hs iri hi),
    hrename exchange hinj, hparse .turtle _ rfl (by decide +kernel)⟩

end Rdf

end UsagePolicy

import UsagePolicy.Operator
import UsagePolicy.Proofs.Graph.Lists
import UsagePolicy.Proofs.Rdf.Numbering
/-!
# Collections

A list that a document writes in parentheses becomes a chain of blank cells. Each cell is stated
when its item is read, before the link that leads to it, and then the cells are numbered. What the
graph has as members of the relation are still the items in the order in which they are written.
-/

namespace UsagePolicy

namespace Rdf.Turtle

/-! ## Words of a document -/

/-- A word that does not begin with a digit, and that is read as a token if no digit follows. -/
structure Spells (word : String) (t : Token) : Prop where
  head : ∃ c rest, word.toList = c :: rest ∧ c.isDigit = false
  tokens : ∀ rest : List Char, rest.head?.any Char.isDigit = false →
    tokens? (word.toList ++ rest) = (tokens? rest).map (t :: ·)

/-- The words of a document in order, with any white space before, between and behind them. -/
inductive Layout : (words : List String) → (text : List Char) → Prop
  | done : Layout [] []
  | space {words : List String} {text : List Char} {c : Char} (hspace : isSpace c = true)
      (htext : Layout words text) : Layout words (c :: text)
  | word {word : String} {words : List String} {text : List Char}
      (htext : Layout words text) : Layout (word :: words) (word.toList ++ text)

theorem tokens?_space {c : Char} (h : isSpace c = true) (rest : List Char) :
    tokens? (c :: rest) = tokens? rest := by
  rw [tokens?, if_pos h]

theorem tokens?_of_readToken {c : Char} {rest tail : List Char} {t : Token}
    (hspace : isSpace c = false) (hcomment : c ≠ '#') (h : readToken c rest = some (t, tail)) :
    tokens? (c :: rest) = (tokens? tail).map (t :: ·) := by
  rw [tokens?, if_neg (by simp [hspace]), if_neg hcomment]
  split
  · next heq =>
    rw [h] at heq
    cases heq
    rfl
  · next heq =>
    rw [h] at heq
    cases heq

theorem not_isDigit_of_isSpace {c : Char} (h : isSpace c = true) : c.isDigit = false := by
  simp only [isSpace, Bool.or_eq_true, beq_iff_eq] at h
  rcases h with ((rfl | rfl) | rfl) | rfl <;> decide

namespace Layout

variable {words : List String} {tokens : List Token} {text : List Char}

theorem head (h : Layout words text) (hwords : List.Forall₂ Spells words tokens) :
    text.head?.any Char.isDigit = false := by
  cases h with
  | done => rfl
  | space hspace _ => exact not_isDigit_of_isSpace hspace
  | word htext =>
      cases hwords with
      | cons hword _ =>
          obtain ⟨c, rest, hchars, hdigit⟩ := hword.head
          rw [hchars]
          exact hdigit

/-- Words are read as their tokens, whatever white space stands beside them. -/
theorem tokens?_eq (h : Layout words text) (hwords : List.Forall₂ Spells words tokens) :
    tokens? text = some tokens := by
  induction h generalizing tokens with
  | done =>
      cases hwords
      rw [tokens?]
  | space hspace _ ih => rw [tokens?_space hspace, ih hwords]
  | word htext ih =>
      cases hwords with
      | cons hword hrest => rw [hword.tokens _ (htext.head hrest), ih hrest, Option.map_some]

theorem intercalate (words : List String) : Layout words (" ".intercalate words).toList := by
  induction words with
  | nil => exact .done
  | cons word words ih =>
      cases words with
      | nil =>
          rw [String.intercalate_singleton, ← List.append_nil word.toList]
          exact .word .done
      | cons next words =>
          rw [String.intercalate_cons_cons, String.toList_append, String.toList_append,
            List.append_assoc]
          exact .word (.space rfl ih)

end Layout

/-- An identifier as it is written in full. -/
def bracketed (iri : String) : String := s!"<{iri}>"

theorem toList_bracketed_append (iri : String) (rest : List Char) :
    (bracketed iri).toList ++ rest = '<' :: (iri.toList ++ '>' :: rest) := by
  simp [bracketed, toString]

theorem spells_bracketed {iri : String} (h : isIri iri = true) :
    Spells (bracketed iri) (.iri iri) := by
  have hchars : ∀ c ∈ iri.toList, c ≠ '>' ∧ c ≠ '\\' := by
    intro c hc
    have hiri := isIriChar_of_isIri h c hc
    exact ⟨ne_of_class hiri (by decide), ne_of_class hiri (by decide)⟩
  refine ⟨⟨'<', iri.toList ++ ['>'], ?_, rfl⟩, fun rest _ => ?_⟩
  · rw [← toList_bracketed_append iri [], List.append_nil]
  · have hread : readToken '<' (iri.toList ++ '>' :: rest) = some (.iri iri, rest) := by
      show (readIri (iri.toList ++ '>' :: rest)).map _ = _
      rw [readIri_append hchars, Option.map_some, String.ofList_toList]
    rw [toList_bracketed_append, tokens?_of_readToken rfl (by decide) hread]

theorem spells_openParen : Spells "(" .openParen :=
  ⟨⟨'(', [], rfl, rfl⟩, fun _ _ => tokens?_of_readToken rfl (by decide) rfl⟩

theorem spells_closeParen : Spells ")" .closeParen :=
  ⟨⟨')', [], rfl, rfl⟩, fun _ _ => tokens?_of_readToken rfl (by decide) rfl⟩

theorem spells_point : Spells "." .point := by
  refine ⟨⟨'.', [], rfl, rfl⟩, fun rest hrest => ?_⟩
  have hread : readToken '.' rest = some (.point, rest) := by
    show (if ('.' == '.' && !(rest.head?.any Char.isDigit)) = true then _ else _) = _
    rw [hrest]
    rfl
  exact tokens?_of_readToken rfl (by decide) hread

/-! ## Statements of a collection -/

/-- The words that relate a subject to a list of identifiers. -/
def collectionWords (s p : String) (items : List String) : List String :=
  [bracketed s, bracketed p, "("] ++ items.map bracketed ++ [")", "."]

def collectionTokens (s p : String) (items : List String) : List Token :=
  [.iri s, .iri p, .openParen] ++ items.map Token.iri ++ [.closeParen, .point]

theorem spells_collection {s p : String} {items : List String} (hs : isIri s = true)
    (hp : isIri p = true) (hitems : ∀ item ∈ items, isIri item = true) :
    List.Forall₂ Spells (collectionWords s p items) (collectionTokens s p items) := by
  have hmiddle : List.Forall₂ Spells (items.map bracketed) (items.map Token.iri) := by
    rw [List.forall₂_map_left_iff, List.forall₂_map_right_iff, List.forall₂_same]
    exact fun item hitem => spells_bracketed (hitems item hitem)
  have hend : List.Forall₂ Spells [")", "."] [.closeParen, .point] :=
    .cons spells_closeParen (.cons spells_point .nil)
  exact .cons (spells_bracketed hs) (.cons (spells_bracketed hp) (.cons spells_openParen
    (List.rel_append hmiddle hend)))

/-- The cell of the item with a number. -/
def cell (n : Nat) : Resource := .blank (.anonymous n)

/-- What is stated from behind the item with a number to the end of the list. -/
def statementsBehind (n : Nat) : (items : List String) → List Statement
  | [] => [⟨cell n, Vocabulary.rest, .iri Vocabulary.nil⟩]
  | item :: items =>
    ⟨cell (n + 1), Vocabulary.first, .iri item⟩ ::
      ⟨cell n, Vocabulary.rest, .resource (cell (n + 1))⟩ :: statementsBehind (n + 1) items

def collectionStatements (s p : String) : (items : List String) → List Statement
  | [] => [⟨.iri s, p, .iri Vocabulary.nil⟩]
  | item :: items =>
    ⟨cell 0, Vocabulary.first, .iri item⟩ ::
      ⟨.iri s, p, .resource (cell 0)⟩ :: statementsBehind 0 items

namespace Reading

theorem readAll_cons {r r' : Reading} {t : Token} {statements : List Statement}
    (h : r.step t = some (r', statements)) (ts : List Token) :
    r.readAll (t :: ts) = (r'.readAll ts).map (statements.reverse ++ ·) := by
  rw [readAll, h]

/-- A reading without declarations that has made some blank nodes. -/
def plain (blanks : Nat) (frames : List Frame) (e : Expected) : Reading :=
  ⟨none, ∅, blanks, frames, e⟩

/-- Where a list in a place stands behind the item with a number. -/
def behind (place : Place) (n : Nat) : Reading :=
  plain (n + 1) [.list (.anonymous 0) (some place)] (.afterObject (.item (.anonymous n)))

theorem iri?_plain {text : String} (h : isIri text = true) (blanks : Nat) (frames : List Frame)
    (e : Expected) : (plain blanks frames e).iri? (.iri text) = some text := by
  show resolveIri? none text = _
  rw [resolveIri?, if_pos h]

variable {place : Place} {item : String}

theorem step_firstItem (h : isIri item = true) :
    (plain 0 [] (.inList (some place))).step (.iri item) =
      some (behind place 0, [place.fill (.resource (cell 0)),
        ⟨cell 0, Vocabulary.first, .iri item⟩]) := by
  show after _ (((plain 1 _ _).iri? (.iri item)).map _) = _
  rw [iri?_plain h]
  rfl

theorem step_nextItem (h : isIri item = true) (n : Nat) :
    (behind place n).step (.iri item) =
      some (behind place (n + 1), [⟨cell n, Vocabulary.rest, .resource (cell (n + 1))⟩,
        ⟨cell (n + 1), Vocabulary.first, .iri item⟩]) := by
  show after _ (((plain (n + 2) _ _).iri? (.iri item)).map _) = _
  rw [iri?_plain h]
  rfl

theorem readAll_behind (s p : String) (n : Nat) {items : List String}
    (h : ∀ item ∈ items, isIri item = true) :
    (behind (.property (.iri s) p) n).readAll (items.map Token.iri ++ [.closeParen, .point]) =
      some (statementsBehind n items) := by
  induction items generalizing n with
  | nil => rfl
  | cons item items ih =>
      rw [List.forall_mem_cons] at h
      rw [List.map_cons, List.cons_append, readAll_cons (step_nextItem h.1 n), ih (n + 1) h.2]
      rfl

theorem readAll_collection {s p : String} {items : List String} (hs : isIri s = true)
    (hp : isIri p = true) (hitems : ∀ item ∈ items, isIri item = true) :
    initial.readAll (collectionTokens s p items) = some (collectionStatements s p items) := by
  have hsubject : initial.step (.iri s) = some (plain 0 [] (.predicate (.iri s)), []) := by
    show ((plain 0 [] .statement).iri? (.iri s)).map _ = _
    rw [iri?_plain hs]
    rfl
  have hpredicate : (plain 0 [] (.predicate (.iri s))).step (.iri p) =
      some (plain 0 [] (.object (.property (.iri s) p)), []) := by
    show ((plain 0 [] (.predicate (.iri s))).iri? (.iri p)).map _ = _
    rw [iri?_plain hp]
    rfl
  have hopen : (plain 0 [] (.object (.property (.iri s) p))).step .openParen =
      some (plain 0 [] (.inList (some (.property (.iri s) p))), []) := rfl
  have hlist : (plain 0 [] (.inList (some (.property (.iri s) p)))).readAll
      (items.map Token.iri ++ [.closeParen, .point]) = some (collectionStatements s p items) := by
    cases items with
    | nil => rfl
    | cons item items =>
        rw [List.forall_mem_cons] at hitems
        rw [List.map_cons, List.cons_append, readAll_cons (step_firstItem hitems.1),
          readAll_behind s p 0 hitems.2]
        rfl
  show initial.readAll (_ :: _ :: _ :: (items.map Token.iri ++ _)) = _
  rw [readAll_cons hsubject, readAll_cons hpredicate, readAll_cons hopen, hlist]
  rfl

end Reading

/-- However the words stand, the statements of a collection are those of its items. -/
theorem parse?_collection {s p : String} {items : List String} (hs : isIri s = true)
    (hp : isIri p = true) (hitems : ∀ item ∈ items, isIri item = true) {text : String}
    (hlayout : Layout (collectionWords s p items) text.toList) :
    parse? text = some (collectionStatements s p items) := by
  rw [parse?, hlayout.tokens?_eq (spells_collection hs hp hitems), Option.bind_some,
    Reading.readAll_collection hs hp hitems]

/-! ## Cells of a graph -/

section Cells

variable {name : Blank → String} {s p : String} {items : List String} {t : Triple}

/-- The names of a row of cells, from the one with a number on. -/
def cellNames (name : Blank → String) (n count : Nat) : List String :=
  (List.range' n count).map fun i => name (.anonymous i)

theorem cellNames_succ (name : Blank → String) (n count : Nat) :
    cellNames name n (count + 1) = name (.anonymous n) :: cellNames name (n + 1) count := by
  rw [cellNames, List.range'_succ, List.map_cons]
  rfl

/-- Behind an item there is the link to the next cell, and the chain from there on. -/
theorem mem_statementsBehind (n : Nat) :
    t ∈ (statementsBehind n items).map (Statement.toTriple name) ↔
      t = ⟨name (.anonymous n), Vocabulary.rest,
          Graph.headOf (cellNames name (n + 1) items.length)⟩ ∨
        t ∈ Graph.chain (cellNames name (n + 1) items.length) items := by
  induction items generalizing n with
  | nil => simp [statementsBehind, cellNames, Graph.chain, Statement.toTriple, Graph.headOf,
      cell, Resource.nodeText, Term.iri, Term.nodeText]
  | cons item items ih =>
      rw [statementsBehind, List.map_cons, List.map_cons, List.mem_cons, List.mem_cons, ih (n + 1),
        List.length_cons, cellNames_succ, Graph.headOf_cons, Graph.chain, List.mem_cons,
        List.mem_cons]
      exact or_left_comm

theorem mem_collectionStatements :
    t ∈ (collectionStatements s p items).map (Statement.toTriple name) ↔
      t ∈ Graph.listLink s p (cellNames name 0 items.length) items := by
  cases items with
  | nil => exact Iff.rfl
  | cons item items =>
      rw [collectionStatements, List.map_cons, List.map_cons, List.mem_cons, List.mem_cons,
        mem_statementsBehind, Graph.listLink, List.length_cons, cellNames_succ, Graph.headOf_cons,
        Graph.chain, List.mem_cons, List.mem_cons, List.mem_cons]
      exact or_left_comm

theorem mem_blanks_statementsBehind (n : Nat) {i : Nat} (hn : n < i)
    (hi : i ≤ n + items.length) :
    .anonymous i ∈ (statementsBehind n items).flatMap Statement.blanks := by
  induction items generalizing n with
  | nil => exact absurd hi (Nat.not_le.2 hn)
  | cons item items ih =>
      rw [statementsBehind, List.flatMap_cons, List.flatMap_cons, List.mem_append, List.mem_append]
      by_cases hnext : i = n + 1
      · subst hnext
        exact .inl List.mem_cons_self
      · rw [List.length_cons] at hi
        exact .inr (.inr (ih (n + 1) (by omega) (by omega)))

theorem mem_blanks_collection {i : Nat} (hi : i < items.length) :
    .anonymous i ∈ (collectionStatements s p items).flatMap Statement.blanks := by
  cases items with
  | nil => cases hi
  | cons item items =>
      rw [collectionStatements, List.flatMap_cons, List.flatMap_cons, List.mem_append,
        List.mem_append]
      by_cases hfirst : i = 0
      · subst hfirst
        exact .inl List.mem_cons_self
      · rw [List.length_cons] at hi
        exact .inr (.inr (mem_blanks_statementsBehind 0 (by omega) (by omega)))

theorem nodup_cellNames {count : Nat}
    (hname : ∀ i < count, ∀ j < count, name (.anonymous i) = name (.anonymous j) → i = j) :
    (cellNames name 0 count).Nodup := by
  refine List.Nodup.map_on (fun i hi j hj hij => ?_) List.nodup_range'
  rw [List.mem_range'_1] at hi hj
  exact hname i (by omega) j (by omega) hij

end Cells

/-- In the graph the cells are told apart by their numbers, so they make one chain. -/
theorem members_numberedGraph {s p : String} (hp : p ∉ Vocabulary.linking) (items : List String) :
    (numberedGraph (collectionStatements s p items)).members s p = items := by
  let statements := collectionStatements s p items
  let name := Blank.numbered (statements.flatMap Statement.blanks).eraseDups
  have hname : ∀ i < items.length, ∀ j < items.length,
      name (.anonymous i) = name (.anonymous j) → i = j := by
    intro i hi j hj hij
    have hsame := injOn_idxOf_eraseDups (statements.flatMap Statement.blanks)
      (mem_blanks_collection hi) (mem_blanks_collection hj) (blankId_inj.1 hij)
    exact Blank.anonymous.inj hsame
  have hfresh : ∀ id ∈ cellNames name 0 items.length, Graph.empty.Fresh id := by
    intro id hid
    obtain ⟨i, -, rfl⟩ := List.mem_map.1 hid
    have hblank : isBlankId (name (.anonymous i)) = true := isBlankId_blankId _
    refine ⟨?_, List.forall_mem_nil _, List.forall_mem_nil _⟩
    intro hnil
    rw [hnil] at hblank
    exact absurd hblank (by decide)
  have hlength : (cellNames name 0 items.length).length = items.length := by
    rw [cellNames, List.length_map, List.length_range']
  exact Graph.members_listLink hp hlength hfresh (nodup_cellNames hname)
    fun _ => mem_collectionStatements

end Rdf.Turtle

theorem Operator.isIri_iri (op : Operator) : Rdf.isIri op.iri = true := by
  cases op <;> decide +kernel

theorem Operator.iri_notMem_linking (op : Operator) : op.iri ∉ Vocabulary.linking := by
  cases op <;> decide

namespace PolicyFormat

open Rdf.Turtle

/-- A document that lists identifiers as operands is read, and the graph has them as members in the
order in which they are listed. White space has no part in it. -/
theorem members_collection (op : Operator) {s : String} {items : List String}
    (hs : Rdf.isIri s = true) (hitems : ∀ item ∈ items, Rdf.isIri item = true) :
    let words := [bracketed s, bracketed op.iri, "("] ++ items.map bracketed ++ [")", "."]
    ∃ g, turtle.parse? (" ".intercalate words) = some g ∧ g.members s op.iri = items ∧
      ∀ text : String, Layout words text.toList → turtle.parse? text = some g := by
  intro words
  have hread : ∀ text : String, Layout words text.toList →
      turtle.parse? text = some (Rdf.numberedGraph (collectionStatements s op.iri items)) := by
    intro text hlayout
    show (Rdf.Turtle.parse? text).map _ = _
    rw [parse?_collection hs op.isIri_iri hitems hlayout]
    rfl
  exact ⟨_, hread _ (.intercalate words), members_numberedGraph op.iri_notMem_linking items, hread⟩

/-- Items that repeat, that are `nil` and that are the subject of the list, with a space between all
words and with no white space but a line break. -/
theorem members_collection_repeated :
    let items := ["urn:a", Vocabulary.nil, "urn:c", "urn:a"]
    let spaced := "<urn:c> <http://www.w3.org/ns/odrl/2/xone> ( <urn:a> " ++
      "<http://www.w3.org/1999/02/22-rdf-syntax-ns#nil> <urn:c> <urn:a> ) ."
    let dense := "<urn:c><http://www.w3.org/ns/odrl/2/xone>(<urn:a>" ++
      "<http://www.w3.org/1999/02/22-rdf-syntax-ns#nil>\n<urn:c><urn:a>)."
    Rdf.isIri "urn:c" = true ∧ (∀ item ∈ items, Rdf.isIri item = true) ∧
    ∃ g, turtle.parse? spaced = some g ∧ turtle.parse? dense = some g ∧
      g.members "urn:c" Vocabulary.xone = items := by
  intro items spaced dense
  have hsubject : Rdf.isIri "urn:c" = true := by decide +kernel
  have hitems : ∀ item ∈ items, Rdf.isIri item = true := by decide +kernel
  obtain ⟨g, hg, hmembers, hlayout⟩ := members_collection .xone hsubject hitems
  have hdense : Layout (collectionWords "urn:c" Operator.xone.iri items) dense.toList := by
    have hchars : dense.toList =
        (bracketed "urn:c").toList ++ ((bracketed Vocabulary.xone).toList ++
          ("(".toList ++ ((bracketed "urn:a").toList ++ ((bracketed Vocabulary.nil).toList ++
            '\n' :: ((bracketed "urn:c").toList ++ ((bracketed "urn:a").toList ++
              (")".toList ++ (".".toList ++ [])))))))) := by decide +kernel
    rw [hchars]
    exact .word (.word (.word (.word (.word (.space rfl (.word (.word (.word (.word .done)))))))))
  exact ⟨hsubject, hitems, g, hg, hlayout dense hdense, hmembers⟩

end PolicyFormat

end UsagePolicy

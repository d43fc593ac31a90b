import UsagePolicy.Proofs.Rdf.LanguageTags
import UsagePolicy.Proofs.Rdf.Lexical
import UsagePolicy.Rdf.LineFormat
/-!
# Well-formed statements

Whatever document of lines a statement was read from, its identifiers are valid, its labels can be
read again, its language tags are in normal form, and a datatype is written out only if the text
would mean something else without it.
-/

namespace UsagePolicy.Rdf

def Blank.WellFormed : Blank → Prop
  | labelled label => IsLabel label.toList
  | anonymous _ => False

def Resource.WellFormed : Resource → Prop
  | iri text => isIri text = true
  | blank node => node.WellFormed

def Qualifier.WellFormed : Qualifier → Prop
  | none => True
  | language tag =>
    LanguageTag.normalize? tag = some tag ∧ ∀ c ∈ tag.toList, isTagChar c = true
  | datatype iri => isIri iri = true ∧ iri ≠ Datatype.string ∧ iri ≠ Datatype.langString

def Term.WellFormed : Term → Prop
  | resource r => r.WellFormed
  | literal l => l.qualifier.WellFormed

structure Statement.WellFormed (s : Statement) : Prop where
  subject : s.subject.WellFormed
  predicate : isIri s.predicate = true
  object : s.object.WellFormed

namespace LanguageTag

/-- The normal form of a tag has no other characters than tags have. -/
theorem isTagChar_of_normalize? {cs : List Char} {tag : String}
    (h : normalize? (String.ofList cs) = some tag) (hcs : ∀ c ∈ cs, isTagChar c = true) :
    ∀ c ∈ tag.toList, isTagChar c = true := by
  obtain ⟨-, rfl⟩ := normalize?_eq_some h
  rw [Text.fold, String.toList_ofList, String.toList_ofList, List.forall_mem_map]
  intro c hc
  rw [isTagChar_toLower]
  exact hcs c hc

end LanguageTag

theorem Literal.wellFormed_of_typed? {text datatype : String} {l : Literal}
    (h : Literal.typed? text datatype = some l) (hiri : isIri datatype = true) :
    l.qualifier.WellFormed := by
  rw [typed?, Option.ite_none_left_eq_some, Option.some.injEq, typed] at h
  obtain ⟨hlang, h⟩ := h
  by_cases hstring : datatype = Datatype.string
  · rw [if_pos hstring] at h
    rw [← h]
    exact trivial
  · rw [if_neg hstring] at h
    rw [← h]
    exact ⟨hiri, hstring, hlang⟩

namespace LineFormat

variable {cs rest : List Char}

theorem isIri_of_readIdentifier {iri : String} (h : readIdentifier cs = some (iri, rest)) :
    isIri iri = true := by
  unfold readIdentifier at h
  split at h
  · obtain ⟨⟨text, _⟩, -, h⟩ := Option.bind_eq_some_iff.1 h
    obtain ⟨resolved, hresolve, h⟩ := Option.bind_eq_some_iff.1 h
    cases h
    rw [resolveIri?, Option.ite_none_right_eq_some] at hresolve
    obtain ⟨hiri, heq⟩ := hresolve
    cases heq
    exact hiri
  · cases h

theorem wellFormed_of_readResource {r : Resource} (h : readResource cs = some (r, rest)) :
    r.WellFormed := by
  unfold readResource at h
  split at h
  · obtain ⟨⟨label, _⟩, hlabel, heq⟩ := Option.map_eq_some_iff.1 h
    cases heq
    show IsLabel (String.ofList label).toList
    rw [String.toList_ofList]
    exact isLabel_of_readLabel hlabel
  · obtain ⟨⟨iri, _⟩, hiri, heq⟩ := Option.map_eq_some_iff.1 h
    cases heq
    exact isIri_of_readIdentifier hiri

theorem wellFormed_of_readQualifier {text : String} {l : Literal}
    (h : readQualifier text cs = some (l, rest)) : l.qualifier.WellFormed := by
  unfold readQualifier at h
  split at h
  · next tail _ =>
    obtain ⟨tag, htag, h⟩ := Option.bind_eq_some_iff.1 h
    cases h
    have hchars : ∀ c ∈ tail.takeWhile isTagChar, isTagChar c = true := fun _ =>
      List.mem_takeWhile_imp
    exact ⟨LanguageTag.normalize?_normalize? htag, LanguageTag.isTagChar_of_normalize? htag hchars⟩
  · obtain ⟨⟨datatype, _⟩, hdatatype, h⟩ := Option.bind_eq_some_iff.1 h
    obtain ⟨literal, hliteral, h⟩ := Option.bind_eq_some_iff.1 h
    cases h
    exact Literal.wellFormed_of_typed? hliteral (isIri_of_readIdentifier hdatatype)
  · cases h
    exact trivial

theorem wellFormed_of_readTerm {t : Term} (h : readTerm cs = some (t, rest)) : t.WellFormed := by
  unfold readTerm at h
  split at h
  · obtain ⟨⟨text, _⟩, -, h⟩ := Option.bind_eq_some_iff.1 h
    obtain ⟨⟨literal, _⟩, hliteral, h⟩ := Option.bind_eq_some_iff.1 h
    cases h
    exact wellFormed_of_readQualifier hliteral
  · obtain ⟨⟨r, _⟩, hr, heq⟩ := Option.map_eq_some_iff.1 h
    cases heq
    exact wellFormed_of_readResource hr

variable {named : Bool} {s : Statement}

theorem wellFormed_of_readStatement (h : readStatement named cs = some (s, rest)) :
    s.WellFormed := by
  unfold readStatement at h
  obtain ⟨⟨subject, _⟩, hsubject, h⟩ := Option.bind_eq_some_iff.1 h
  obtain ⟨⟨predicate, _⟩, hpredicate, h⟩ := Option.bind_eq_some_iff.1 h
  obtain ⟨⟨object, _⟩, hobject, h⟩ := Option.bind_eq_some_iff.1 h
  have hs : s = ⟨subject, predicate, object⟩ := by
    cases named with
    | false =>
        obtain ⟨_, -, h⟩ := Option.bind_eq_some_iff.1 h
        cases h
        rfl
    | true =>
        obtain ⟨_, -, h⟩ := Option.bind_eq_some_iff.1 h
        obtain ⟨_, -, h⟩ := Option.bind_eq_some_iff.1 h
        cases h
        rfl
  rw [hs]
  exact ⟨wellFormed_of_readResource hsubject, isIri_of_readIdentifier hpredicate,
    wellFormed_of_readTerm hobject⟩

theorem wellFormed_of_parseLine? {line : List Char} {statements : List Statement}
    (h : parseLine? named line = some statements) : ∀ s ∈ statements, s.WellFormed := by
  rw [parseLine?] at h
  by_cases hsilent : isSilent line = true
  · rw [if_pos hsilent] at h
    cases h
    exact List.forall_mem_nil _
  · rw [if_neg hsilent] at h
    split at h
    · next hread =>
      split at h
      · cases h
        exact List.forall_mem_singleton.2 (wellFormed_of_readStatement hread)
      · cases h
    · cases h

theorem wellFormed_of_parse? {text : String} {statements : List Statement}
    (h : parse? named text = some statements) : ∀ s ∈ statements, s.WellFormed := by
  obtain ⟨parts, hparts, rfl⟩ := Option.map_eq_some_iff.1 h
  clear h
  generalize text.toList.splitOnP isBreak = lines at hparts
  induction lines generalizing parts with
  | nil =>
      cases hparts
      exact List.forall_mem_nil _
  | cons line lines ih =>
      rw [List.mapM_cons] at hparts
      obtain ⟨first, hfirst, hparts⟩ := Option.bind_eq_some_iff.1 hparts
      obtain ⟨others, hothers, hparts⟩ := Option.bind_eq_some_iff.1 hparts
      cases hparts
      exact List.forall_mem_append.2 ⟨wellFormed_of_parseLine? hfirst, ih others hothers⟩

end LineFormat

end UsagePolicy.Rdf

import UsagePolicy.Proofs.CaseFile.Layers
import UsagePolicy.Proofs.Expectations
/-!
# Case files that resolve

What a case file needs to resolve, said of its texts alone: its labels are labels, its rounds are
rounds, its profile is known and its rules are named. One text that is not what it should be, in any
of its entries, and the file does not resolve.
-/

namespace UsagePolicy

/-! ## Labels -/

/-- The name of an outcome or one of its labels, up to ASCII case and surrounding white space. -/
def Outcome.IsLabel (text : String) : Prop :=
  ∃ o : Outcome, Text.sameFolded (Text.trim text) o.name = true ∨
    ∃ f : Facet, Text.sameFolded (Text.trim text) (f.label o) = true

theorem Outcome.ofLabel_of_name {text : String} {o : Outcome}
    (h : Text.fold (Text.trim text) = Text.fold o.name) : ofLabel text = .ok o := by
  unfold ofLabel
  rw [h]
  cases o <;> rfl

theorem Facet.ofLabel_of_label {text : String} {f : Facet} {o : Outcome}
    (h : Text.fold (Text.trim text) = Text.fold (f.label o)) : Outcome.ofLabel text = .ok o := by
  unfold Outcome.ofLabel
  rw [h]
  cases f <;> cases o <;> rfl

/-- What can be written for an outcome, in lower case. -/
def Outcome.words (o : Outcome) : List String :=
  Text.fold o.name :: [Facet.constraint, .duty, .permission, .prohibition, .action].map fun f =>
    Text.fold (f.label o)

theorem Outcome.name_or_label_of_mem_words {o : Outcome} {word : String} (h : word ∈ o.words) :
    word = Text.fold o.name ∨ ∃ f : Facet, word = Text.fold (f.label o) := by
  rcases List.mem_cons.1 h with hname | hlabel
  · exact .inl hname
  · obtain ⟨f, -, hf⟩ := List.mem_map.1 hlabel
    exact .inr ⟨f, hf.symm⟩

/-- A text is read as the outcome whose name or label it is. -/
theorem Outcome.ofLabel_eq_ok_iff {text : String} {o : Outcome} :
    ofLabel text = .ok o ↔ Text.sameFolded (Text.trim text) o.name = true ∨
      ∃ f : Facet, Text.sameFolded (Text.trim text) (f.label o) = true := by
  simp only [Text.sameFolded_iff]
  constructor
  · intro h
    unfold ofLabel at h
    dsimp only at h
    split at h
    · next hmem =>
      obtain rfl := Except.ok.inj h
      exact name_or_label_of_mem_words hmem
    split at h
    · next hmem =>
      obtain rfl := Except.ok.inj h
      exact name_or_label_of_mem_words hmem
    split at h
    · next hname =>
      obtain rfl := Except.ok.inj h
      exact .inl hname
    split at h
    · next hname =>
      obtain rfl := Except.ok.inj h
      exact .inl hname
    · cases h
  · rintro (h | ⟨f, h⟩)
    · exact ofLabel_of_name h
    · exact Facet.ofLabel_of_label h

theorem Outcome.exists_ofLabel_iff {text : String} :
    (∃ o, ofLabel text = .ok o) ↔ IsLabel text :=
  exists_congr fun _ => ofLabel_eq_ok_iff

theorem Category.exists_ofName_iff {text : String} :
    (∃ c, ofName text = .ok c) ↔ ∃ c : Category, c.name = text := by
  constructor
  · rintro ⟨c, h⟩
    exact ⟨c, name_of_ofName h⟩
  · rintro ⟨c, rfl⟩
    exact ⟨c, ofName_name c⟩

/-- A round between white space. -/
def Round.IsLabel (text : String) : Prop :=
  ∃ round : Round, Text.trim text = round.name

theorem Round.exists_ofLabel_iff {text : String} :
    (∃ round, ofLabel text = .ok round) ↔ IsLabel text := by
  unfold IsLabel ofLabel
  split
  · next h => exact iff_of_true ⟨.first, rfl⟩ ⟨.first, h⟩
  · next h => exact iff_of_true ⟨.second, rfl⟩ ⟨.second, h⟩
  · next hfirst hsecond =>
    refine iff_of_false nofun ?_
    rintro ⟨_ | _, h⟩
    · exact hfirst h
    · exact hsecond h

/-- The name of a kind of rule, or `duty`, up to ASCII case and surrounding white space. -/
def RuleKind.IsLabel (text : String) : Prop :=
  Text.fold (Text.trim text) = "duty" ∨ ∃ kind : RuleKind, Text.fold (Text.trim text) = kind.name

theorem RuleKind.exists_ofLabel_iff {text : String} :
    (∃ kind, ofLabel text = .ok kind) ↔ IsLabel text := by
  unfold IsLabel ofLabel
  split
  · next h => exact iff_of_true ⟨_, rfl⟩ (.inr ⟨.permission, h⟩)
  · next h => exact iff_of_true ⟨_, rfl⟩ (.inr ⟨.prohibition, h⟩)
  · next h => exact iff_of_true ⟨_, rfl⟩ (.inr ⟨.obligation, h⟩)
  · next h => exact iff_of_true ⟨_, rfl⟩ (.inl h)
  · next hpermission hprohibition hobligation hduty =>
    refine iff_of_false nofun ?_
    rintro (h | ⟨_ | _ | _, h⟩)
    · exact hduty h
    · exact hpermission h
    · exact hprohibition h
    · exact hobligation h

/-! ## Expectations -/

/-- `aborted`, with or without the code of a reason, or a verdict label, up to ASCII case and
surrounding white space. -/
def Expectation.IsText (text : String) : Prop :=
  Text.fold (Text.trim text) = "aborted" ∨
    (∃ reason : AbortReason, Text.fold (Text.trim text) = "aborted:" ++ reason.code) ∨
    ∃ label : VerdictLabel, Text.sameFolded label.name (Text.trim text) = true

theorem Expectation.exists_parse_iff {text : String} :
    (∃ e, parse text = .ok e) ↔ IsText text := by
  simp only [parse_eq_ok_iff]
  constructor
  · rintro ⟨e, h⟩
    cases e with
    | state label => exact .inr (.inr ⟨label, Text.sameFolded_iff.2 h.symm⟩)
    | aborted reason =>
        cases reason with
        | none => exact .inl h
        | some reason => exact .inr (.inl ⟨reason, h.trans (fold_text_aborted reason)⟩)
  · rintro (h | ⟨reason, h⟩ | ⟨label, h⟩)
    · exact ⟨.aborted none, h⟩
    · exact ⟨.aborted (some reason), h.trans (fold_text_aborted reason).symm⟩
    · exact ⟨.state label, (Text.sameFolded_iff.1 h).symm⟩

/-! ## Entries -/

/-- Every key is the name of a category, and every label is one of an outcome. -/
def Presets.AreDefaults (table : Std.TreeMap String String) : Prop :=
  ∀ key label : String, table[key]? = some label →
    (∃ c : Category, c.name = key) ∧ Outcome.IsLabel label

/-- Every label is one of an outcome. -/
def Presets.AreInstances (table : Std.TreeMap String String) : Prop :=
  ∀ node label : String, table[node]? = some label → Outcome.IsLabel label

theorem exists_readOptional_iff {α ε : Type} {read : String → Except ε α} {p : String → Prop}
    (h : ∀ text, (∃ a, read text = .ok a) ↔ p text) {text? : Option String} :
    (∃ a?, readOptional read text? = .ok a?) ↔ ∀ text ∈ text?, p text := by
  cases text? with
  | none => exact iff_of_true ⟨none, rfl⟩ nofun
  | some text =>
      rw [readOptional, Except.exists_map_eq_ok_iff, h]
      simp only [Option.mem_some_iff, forall_eq']

/-- If a step depends on the entry alone for its success, it succeeds along a table when every entry
allows it. -/
theorem exists_foldlM_toList_iff {σ β ε : Type} {step : σ → String × β → Except ε σ}
    (p : String → β → Prop) (h : ∀ s e, (∃ s', step s e = .ok s') ↔ p e.1 e.2)
    {table : Std.TreeMap String β} {s : σ} :
    (∃ s', table.toList.foldlM step s = .ok s') ↔
      ∀ (key : String) (v : β), table[key]? = some v → p key v := by
  rw [Except.exists_foldlM_eq_ok_iff h, Prod.forall]
  simp only [Std.TreeMap.mem_toList_iff_getElem?_eq_some]

namespace Presets

theorem exists_withDefaults_iff {p : Presets} {table : Std.TreeMap String String} :
    (∃ q, p.withDefaults table.toList = .ok q) ↔ AreDefaults table := by
  refine exists_foldlM_toList_iff
    (fun key label => (∃ c : Category, c.name = key) ∧ Outcome.IsLabel label) fun p entry => ?_
  rw [← Category.exists_ofName_iff, ← Outcome.exists_ofLabel_iff]
  split
  · next hkey => exact iff_of_false nofun (by simp [hkey])
  · next hkey =>
    split
    · next hlabel => exact iff_of_false nofun (by simp [hlabel])
    · next hlabel => exact iff_of_true ⟨_, rfl⟩ ⟨⟨_, hkey⟩, _, hlabel⟩

theorem exists_withInstances_iff {p : Presets} {table : Std.TreeMap String String} :
    (∃ q, p.withInstances table.toList = .ok q) ↔ AreInstances table := by
  refine exists_foldlM_toList_iff (fun _ label => Outcome.IsLabel label) fun p entry => ?_
  rw [← Outcome.exists_ofLabel_iff]
  split
  · next hlabel => exact iff_of_false nofun (by simp [hlabel])
  · next hlabel => exact iff_of_true ⟨_, rfl⟩ ⟨_, hlabel⟩

end Presets

/-- An entry whose texts are what they should be. Its round is not read if another takes its
place. -/
@[mk_iff]
structure CaseEntry.Valid (entry : CaseEntry) (o : Overrides) : Prop where
  round : o.round = none → ∀ text ∈ entry.round, Round.IsLabel text
  kind : ∀ text ∈ entry.kind, RuleKind.IsLabel text
  defaults : Presets.AreDefaults entry.presets.defaults
  instances : Presets.AreInstances entry.presets.instances
  expect : ∀ text ∈ entry.expect, Expectation.IsText text
  rule : ¬ Text.isBlankText entry.rule = true

namespace CaseEntry

variable {entry : CaseEntry} {override file : Option Round} {name : String}

theorem exists_resolveRound_iff :
    (∃ round, entry.resolveRound name override file = .ok round) ↔
      (override = none → ∀ text ∈ entry.round, Round.IsLabel text) := by
  unfold resolveRound
  split
  · exact iff_of_true ⟨_, rfl⟩ nofun
  · next text htext =>
    simp only [Except.mapError_eq_ok, Round.exists_ofLabel_iff, htext, Option.mem_some_iff,
      forall_eq', forall_const]
  · next hnone =>
    rw [hnone]
    exact iff_of_true ⟨_, rfl⟩ nofun

theorem exists_resolve_iff {o : Overrides} {base : Presets}
    (hoverride : override = none ↔ o.round = none) :
    (∃ c, entry.resolve name base override file = .ok c) ↔ entry.Valid o := by
  have hkind : (∃ kind, (readOptional RuleKind.ofLabel entry.kind).mapError
      (ResolveError.caseKind name) = .ok kind) ↔ ∀ text ∈ entry.kind, RuleKind.IsLabel text :=
    Except.exists_mapError_eq_ok_iff.trans
      (exists_readOptional_iff fun _ => RuleKind.exists_ofLabel_iff)
  have hexpect : (∃ expect, (readOptional Expectation.parse entry.expect).mapError
      (ResolveError.caseExpectation name) = .ok expect) ↔
        ∀ text ∈ entry.expect, Expectation.IsText text :=
    Except.exists_mapError_eq_ok_iff.trans
      (exists_readOptional_iff fun _ => Expectation.exists_parse_iff)
  have hrule : ∀ c : ResolvedCase, (∃ c', (if Text.isBlankText entry.rule then
      Except.error (ResolveError.caseRule name) else pure c) = .ok c') ↔
        ¬ Text.isBlankText entry.rule = true := by
    intro c
    split
    · next hblank => exact iff_of_false nofun (not_not_intro hblank)
    · next hblank => exact iff_of_true ⟨c, rfl⟩ hblank
  rw [resolve, Except.exists_bind_eq_ok_iff exists_resolveRound_iff fun round _ =>
    Except.exists_bind_eq_ok_iff hkind fun kind _ =>
    Except.exists_bind_eq_ok_iff
      (Except.exists_mapError_eq_ok_iff.trans Presets.exists_withDefaults_iff) fun p _ =>
    Except.exists_bind_eq_ok_iff
      (Except.exists_mapError_eq_ok_iff.trans Presets.exists_withInstances_iff) fun q _ =>
    Except.exists_bind_eq_ok_iff hexpect fun expect _ => hrule _, hoverride, valid_iff]

end CaseEntry

/-- A file whose texts are what they should be, under what the command line sets. -/
@[mk_iff]
structure CaseFile.Valid (file : CaseFile) (o : Overrides) : Prop where
  schema : ∀ text ∈ file.schema, text = schemaName
  profile : ∃ profile : Profile, profile.name = (o.profile <|> file.profile).getD "blank"
  defaults : Presets.AreDefaults file.defaults
  override : ∀ text ∈ o.round, Round.IsLabel text
  round : ∀ text ∈ file.round, Round.IsLabel text
  cases : ∀ (name : String) (entry : CaseEntry), file.cases[name]? = some entry → entry.Valid o

namespace CaseFile

variable {file : CaseFile} {o : Overrides}

theorem exists_resolveProfile_iff :
    (∃ profile, file.resolveProfile o = .ok profile) ↔
      ∃ profile : Profile, profile.name = (o.profile <|> file.profile).getD "blank" := by
  constructor
  · rintro ⟨profile, h⟩
    exact ⟨profile, name_of_resolveProfile h⟩
  · rintro ⟨profile, h⟩
    have hname : Profile.ofName? profile.name = some profile := by cases profile <;> decide
    refine ⟨profile, ?_⟩
    unfold resolveProfile
    rw [show Profile.blank.name = "blank" from rfl, ← h]
    dsimp only
    rw [hname]

theorem exists_readRound_iff {fault : String → ResolveError} {text? : Option String} :
    (∃ round?, readOptional (readRound fault) text? = .ok round?) ↔
      ∀ text ∈ text?, Round.IsLabel text := by
  refine exists_readOptional_iff fun text => ?_
  simp only [readRound, Except.mapError_eq_ok, Round.exists_ofLabel_iff]

/-- A round that is given is given to all cases. -/
theorem readRound_eq_none_iff {fault : String → ResolveError} {text? : Option String}
    {round? : Option Round} (h : readOptional (readRound fault) text? = .ok round?) :
    round? = none ↔ text? = none := by
  have hmap := map_of_readRound h
  rw [← Option.map_eq_none_iff, ← hmap, Option.map_eq_none_iff]

theorem exists_resolve_cases_iff {base : Presets} {override fileRound : Option Round}
    (hoverride : override = none ↔ o.round = none) :
    (∃ cases, file.cases.toList.mapM (fun entry =>
        entry.2.resolve entry.1 base override fileRound) = .ok cases) ↔
      ∀ (name : String) (entry : CaseEntry), file.cases[name]? = some entry → entry.Valid o := by
  simp only [Except.exists_mapM_eq_ok_iff, Prod.forall, CaseEntry.exists_resolve_iff hoverride,
    Std.TreeMap.mem_toList_iff_getElem?_eq_some]

/-- A file resolves if and only if it is valid. -/
theorem resolves_iff_valid (file : CaseFile) (o : Overrides) :
    (∃ resolved, file.resolve o = .ok resolved) ↔ file.Valid o := by
  unfold resolve
  extract_lets rest
  have hrest : (∃ resolved, rest () = .ok resolved) ↔
      (∃ profile : Profile, profile.name = (o.profile <|> file.profile).getD "blank") ∧
      Presets.AreDefaults file.defaults ∧ (∀ text ∈ o.round, Round.IsLabel text) ∧
      (∀ text ∈ file.round, Round.IsLabel text) ∧
      ∀ (name : String) (entry : CaseEntry), file.cases[name]? = some entry → entry.Valid o :=
    Except.exists_bind_eq_ok_iff exists_resolveProfile_iff fun profile _ =>
      Except.exists_bind_eq_ok_iff
        (Except.exists_mapError_eq_ok_iff.trans Presets.exists_withDefaults_iff) fun base _ =>
      Except.exists_bind_eq_ok_iff exists_readRound_iff fun override hread =>
      Except.exists_bind_eq_ok_iff exists_readRound_iff fun fileRound _ =>
      Except.exists_map_eq_ok_iff.trans
        (exists_resolve_cases_iff (readRound_eq_none_iff hread))
  rw [valid_iff, ← hrest]
  split
  · next text hschema =>
    rw [hschema]
    split
    · next hne => exact iff_of_false nofun fun h => hne (h.1 text rfl)
    · next heq =>
      exact (and_iff_right fun t ht => Option.some.inj ht ▸ not_not.1 heq).symm
  · next hschema =>
    rw [hschema]
    exact (and_iff_right nofun).symm

/-- The round of a case is not read if another takes its place. -/
example :
    let entry : CaseEntry := { policy := "p.nt", rule := "urn:r", round := some "3" }
    let file : CaseFile := { cases := .ofList [("a", entry)] }
    (file.resolve {}).isOk = false ∧ (file.resolve { round := some " 2" }).isOk = true := by
  decide +kernel

end CaseFile

end UsagePolicy

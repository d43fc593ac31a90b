import UsagePolicy.CaseFile.Resolve
import UsagePolicy.Proofs.Succeeding
/-!
# Layers of a case file

The defaults of a resolved case are those of the last layer that has one, among the profile, the
file and the case; its round is that of the first of command line, case and file that names one. So
a case depends on its own entry and on the options of the file, and not on any other case.
-/

namespace UsagePolicy

/-! ## Rows of entries -/

section

variable {σ β γ ε ε' : Type} {step : σ → String × β → Except ε σ} (read : β → Except ε' γ)
  (look : σ → Option γ) (key : String)

/-- Entries are taken one after the other. If an entry under a key sets what is looked up to what it
reads, and the others leave it alone, then it ends as what the entry of the key reads. -/
theorem look_of_foldlM {entries : List (String × β)} {s s' : σ}
    (hkeys : entries.Pairwise (·.1 ≠ ·.1))
    (hset : ∀ s v s', step s (key, v) = .ok s' → ∃ o, read v = .ok o ∧ look s' = some o)
    (hkeep : ∀ s e s', e.1 ≠ key → step s e = .ok s' → look s' = look s)
    (h : entries.foldlM step s = .ok s') :
    (∀ v, (key, v) ∈ entries → ∃ o, read v = .ok o ∧ look s' = some o) ∧
      ((∀ v, (key, v) ∉ entries) → look s' = look s) := by
  induction entries generalizing s with
  | nil =>
      obtain rfl : s = s' := Except.ok.inj h
      exact ⟨nofun, fun _ => rfl⟩
  | cons e entries ih =>
      rw [List.foldlM_cons] at h
      obtain ⟨s₁, hstep, h⟩ := Except.bind_eq_ok.1 h
      obtain ⟨hhead, htail⟩ := List.pairwise_cons.1 hkeys
      obtain ⟨hmem, hnot⟩ := ih htail h
      by_cases he : e.1 = key
      · obtain ⟨k, v⟩ := e
        obtain rfl : k = key := he
        obtain ⟨o, hread, hlook⟩ := hset s v s₁ hstep
        have hlast : look s' = some o := by
          rw [hnot fun v' hv' => hhead (k, v') hv' rfl, hlook]
        refine ⟨fun v' hv' => ?_, fun hnone => absurd List.mem_cons_self (hnone v)⟩
        rcases List.mem_cons.1 hv' with heq | hv'
        · cases heq
          exact ⟨o, hread, hlast⟩
        · exact absurd rfl (hhead (k, v') hv')
      · have hother : ∀ v, (key, v) ∈ e :: entries → (key, v) ∈ entries := by
          intro v hv
          rcases List.mem_cons.1 hv with heq | hv
          · exact absurd (congrArg Prod.fst heq).symm he
          · exact hv
        refine ⟨fun v hv => hmem v (hother v hv), fun hnone => ?_⟩
        rw [hnot fun v hv => hnone v (List.mem_cons_of_mem e hv), hkeep s e s₁ he hstep]

/-- For a table of entries: what is looked up ends as what the table has under the key, else it is
what it was. -/
theorem look_of_foldlM_toList {table : Std.TreeMap String β} {s s' : σ}
    (hset : ∀ s v s', step s (key, v) = .ok s' → ∃ o, read v = .ok o ∧ look s' = some o)
    (hkeep : ∀ s e s', e.1 ≠ key → step s e = .ok s' → look s' = look s)
    (h : table.toList.foldlM step s = .ok s') :
    (table[key]?.map read <|> (look s).map .ok) = (look s').map .ok := by
  have hkeys : table.toList.Pairwise (·.1 ≠ ·.1) :=
    Std.TreeMap.distinct_keys_toList.imp fun hne heq => hne (Std.compare_eq_iff_eq.2 heq)
  obtain ⟨hmem, hnot⟩ := look_of_foldlM read look key hkeys hset hkeep h
  cases hentry : table[key]? with
  | some v =>
      obtain ⟨o, hread, hlook⟩ := hmem v (Std.TreeMap.mem_toList_iff_getElem?_eq_some.2 hentry)
      rw [Option.map_some, hread, hlook]
      rfl
  | none =>
      have hnone : ∀ v, (key, v) ∉ table.toList := by
        intro v hv
        rw [Std.TreeMap.mem_toList_iff_getElem?_eq_some, hentry] at hv
        cases hv
      rw [hnot hnone]
      rfl

end

/-! ## Presets -/

theorem Category.name_of_ofName {text : String} {c : Category} (h : ofName text = .ok c) :
    c.name = text := by
  unfold ofName at h
  split at h
  · next hfind =>
    obtain rfl := Except.ok.inj h
    have hname := List.find?_some hfind
    exact beq_iff_eq.1 hname
  · cases h

namespace Presets

variable {p q : Presets}

theorem defaults_withDefaults {layer : Std.TreeMap String String}
    (h : p.withDefaults layer.toList = .ok q) (c : Category) :
    (layer[c.name]?.map Outcome.ofLabel <|> (p.defaults c).map .ok) = (q.defaults c).map .ok := by
  unfold withDefaults at h
  refine look_of_foldlM_toList Outcome.ofLabel (fun p : Presets => p.defaults c) c.name ?_ ?_ h
  · intro p label p' hstep
    dsimp only at hstep
    rw [Category.ofName_name] at hstep
    dsimp only at hstep
    split at hstep
    · cases hstep
    · next o ho =>
      rw [← Except.ok.inj hstep]
      exact ⟨o, ho, if_pos rfl⟩
  · intro p e p' hne hstep
    split at hstep
    · cases hstep
    · next c' hc =>
      split at hstep
      · cases hstep
      · rw [← Except.ok.inj hstep]
        have hcc : c ≠ c' := by
          rintro rfl
          exact hne (Category.name_of_ofName hc).symm
        exact if_neg hcc

/-- Presets of nodes are not touched by defaults. -/
theorem instances_withDefaults {entries : List (String × String)}
    (h : p.withDefaults entries = .ok q) : q.instances = p.instances := by
  induction entries generalizing p with
  | nil => rw [← Except.ok.inj h]
  | cons e entries ih =>
      rw [withDefaults, List.foldlM_cons] at h
      obtain ⟨p', hstep, h⟩ := Except.bind_eq_ok.1 h
      rw [ih h]
      split at hstep
      · cases hstep
      · split at hstep
        · cases hstep
        · rw [← Except.ok.inj hstep]
          rfl

theorem instances_withInstances {layer : Std.TreeMap String String}
    (h : p.withInstances layer.toList = .ok q) (node : String) :
    (layer[node]?.map Outcome.ofLabel <|> p.instances[node]?.map .ok) =
      q.instances[node]?.map .ok := by
  unfold withInstances at h
  refine look_of_foldlM_toList Outcome.ofLabel (fun p : Presets => p.instances[node]?) node ?_ ?_ h
  · intro p label p' hstep
    dsimp only at hstep
    split at hstep
    · cases hstep
    · next o ho =>
      rw [← Except.ok.inj hstep]
      exact ⟨o, ho, by rw [instances_setInstance, if_pos rfl]⟩
  · intro p e p' hne hstep
    split at hstep
    · cases hstep
    · rw [← Except.ok.inj hstep, instances_setInstance, if_neg hne]

theorem defaults_withInstances {entries : List (String × String)}
    (h : p.withInstances entries = .ok q) : q.defaults = p.defaults := by
  induction entries generalizing p with
  | nil => rw [← Except.ok.inj h]
  | cons e entries ih =>
      rw [withInstances, List.foldlM_cons] at h
      obtain ⟨p', hstep, h⟩ := Except.bind_eq_ok.1 h
      rw [ih h]
      split at hstep
      · cases hstep
      · rw [← Except.ok.inj hstep]
        rfl

end Presets

theorem Profile.instances_presets (profile : Profile) : profile.presets.instances = ∅ := by
  cases profile <;> rfl

/-! ## Options -/

theorem map_of_readOptional {α ε : Type} {read : String → Except ε α} {text? : Option String}
    {a? : Option α} (h : readOptional read text? = .ok a?) : text?.map read = a?.map .ok := by
  cases text? with
  | none =>
      rw [← Except.ok.inj h]
      rfl
  | some text =>
      obtain ⟨a, ha, rfl⟩ := Except.map_eq_ok.1 h
      rw [Option.map_some, ha]
      rfl

theorem CaseFile.map_of_readRound {fault : String → ResolveError} {text? : Option String}
    {round? : Option Round} (h : readOptional (readRound fault) text? = .ok round?) :
    text?.map Round.ofLabel = round?.map .ok := by
  cases text? with
  | none =>
      rw [← Except.ok.inj h]
      rfl
  | some text =>
      obtain ⟨round, hround, rfl⟩ := Except.map_eq_ok.1 h
      rw [Option.map_some, Except.mapError_eq_ok.1 hround]
      rfl

theorem CaseFile.name_of_resolveProfile {file : CaseFile} {o : Overrides} {profile : Profile}
    (h : file.resolveProfile o = .ok profile) :
    profile.name = (o.profile <|> file.profile).getD Profile.blank.name := by
  unfold resolveProfile at h
  dsimp only at h
  split at h
  · next hfind =>
    obtain rfl := Except.ok.inj h
    have hname := List.find?_some hfind
    exact beq_iff_eq.1 hname
  · cases h

theorem CaseEntry.ofLabel_of_resolveRound {name : String} {entry : CaseEntry}
    {override file : Option Round} {round : Round}
    (h : entry.resolveRound name override file = .ok round) :
    (override.map Except.ok <|> entry.round.map Round.ofLabel <|> file.map Except.ok).getD
      (.ok .first) = .ok round := by
  unfold resolveRound at h
  cases override with
  | some round' =>
      dsimp only at h
      rw [← Except.ok.inj h]
      rfl
  | none =>
      cases hround : entry.round with
      | some text =>
          rw [hround] at h
          have hread := Except.mapError_eq_ok.1 h
          exact hread
      | none =>
          rw [hround] at h
          rw [← Except.ok.inj h]
          cases file <;> rfl

/-! ## Cases -/

/-- A case as its entry and the layers below it make it: `none` where no layer says anything, and
no label that could not be read. -/
structure CaseEntry.Yields (entry : CaseEntry) (file : CaseFile) (o : Overrides) (profile : Profile)
    (c : ResolvedCase) : Prop where
  description : c.description = entry.description
  policy : c.policy = entry.policy
  rule : c.rule = entry.rule
  kind : c.kind.map .ok = entry.kind.map RuleKind.ofLabel
  expect : c.expect.map .ok = entry.expect.map Expectation.parse
  round : .ok c.round =
    ((o.round <|> entry.round <|> file.round).map Round.ofLabel).getD (.ok .first)
  defaults : ∀ category, (c.presets.defaults category).map .ok =
    (entry.presets.defaults[category.name]?.map Outcome.ofLabel <|>
      file.defaults[category.name]?.map Outcome.ofLabel <|>
        (profile.presets.defaults category).map .ok)
  instances : ∀ node : String, c.presets.instances[node]?.map Except.ok =
    entry.presets.instances[node]?.map Outcome.ofLabel

/-- What the options of a file and the command line come to, which all cases share. -/
structure CaseFile.Options (file : CaseFile) (o : Overrides) where
  profile : Profile
  base : Presets
  override : Option Round
  fileRound : Option Round
  resolveProfile : file.resolveProfile o = .ok profile
  withDefaults : profile.presets.withDefaults file.defaults.toList = .ok base
  readOverride : readOptional (readRound .overrideRound) o.round = .ok override
  readFile : readOptional (readRound .fileRound) file.round = .ok fileRound

namespace CaseFile

variable {file : CaseFile} {o : Overrides} {resolved : ResolvedCases}

theorem options_of_resolve (h : file.resolve o = .ok resolved) :
    ∃ opts : file.Options o, resolved.profile = opts.profile ∧
      List.Forall₂ (fun entry c =>
          entry.2.resolve entry.1 opts.base opts.override opts.fileRound = .ok c)
        file.cases.toList resolved.cases := by
  unfold resolve at h
  extract_lets rest at h
  have hrest : rest () = .ok resolved := by
    split at h
    · split at h
      · cases h
      · exact h
    · exact h
  obtain ⟨profile, hprofile, hrest⟩ := Except.bind_eq_ok.1 hrest
  obtain ⟨base, hbase, hrest⟩ := Except.bind_eq_ok.1 hrest
  obtain ⟨override, hoverride, hrest⟩ := Except.bind_eq_ok.1 hrest
  obtain ⟨fileRound, hfile, hrest⟩ := Except.bind_eq_ok.1 hrest
  obtain ⟨cases, hcases, hrest⟩ := Except.bind_eq_ok.1 hrest
  rw [← Except.ok.inj hrest]
  exact ⟨⟨profile, base, override, fileRound, hprofile, Except.mapError_eq_ok.1 hbase, hoverride,
    hfile⟩, rfl, Except.mapM_eq_ok.1 hcases⟩

end CaseFile

namespace CaseEntry

variable {file : CaseFile} {o : Overrides} {name : String} {entry : CaseEntry} {c : ResolvedCase}

theorem yields_of_resolve (opts : file.Options o)
    (h : entry.resolve name opts.base opts.override opts.fileRound = .ok c) :
    c.name = name ∧ entry.Yields file o opts.profile c := by
  obtain ⟨round, hround, h⟩ := Except.bind_eq_ok.1 h
  obtain ⟨kind, hkind, h⟩ := Except.bind_eq_ok.1 h
  obtain ⟨p, hp, h⟩ := Except.bind_eq_ok.1 h
  obtain ⟨q, hq, h⟩ := Except.bind_eq_ok.1 h
  obtain ⟨expect, hexpect, h⟩ := Except.bind_eq_ok.1 h
  split at h
  · cases h
  obtain rfl := Except.ok.inj h
  have hbase := opts.withDefaults
  have hp := Except.mapError_eq_ok.1 hp
  have hq := Except.mapError_eq_ok.1 hq
  refine ⟨rfl, rfl, rfl, rfl, (map_of_readOptional (Except.mapError_eq_ok.1 hkind)).symm,
    (map_of_readOptional (Except.mapError_eq_ok.1 hexpect)).symm, ?_, fun category => ?_,
    fun node => ?_⟩
  · have hoverride := CaseFile.map_of_readRound opts.readOverride
    have hfile := CaseFile.map_of_readRound opts.readFile
    rw [← ofLabel_of_resolveRound hround, ← hoverride, ← hfile]
    cases o.round <;> cases entry.round <;> rfl
  · rw [Presets.defaults_withInstances hq, ← Presets.defaults_withDefaults hp,
      ← Presets.defaults_withDefaults hbase]
  · rw [← Presets.instances_withInstances hq, Presets.instances_withDefaults hp,
      Presets.instances_withDefaults hbase, Profile.instances_presets]
    cases entry.presets.instances[node]? <;> simp

/-- Two entries with the same content. -/
structure Same (entry entry' : CaseEntry) : Prop where
  policy : entry'.policy = entry.policy
  rule : entry'.rule = entry.rule
  kind : entry'.kind = entry.kind
  round : entry'.round = entry.round
  expect : entry'.expect = entry.expect
  description : entry'.description = entry.description
  defaults : entry'.presets.defaults.Equiv entry.presets.defaults
  instances : entry'.presets.instances.Equiv entry.presets.instances

theorem Same.resolve_eq {entry' : CaseEntry} (h : entry.Same entry') (name : String)
    (base : Presets) (override fileRound : Option Round) :
    entry'.resolve name base override fileRound = entry.resolve name base override fileRound := by
  have hdefaults := h.defaults.toList_eq
  have hinstances := h.instances.toList_eq
  unfold resolve resolveRound
  rw [h.policy, h.rule, h.kind, h.round, h.expect, h.description, hdefaults, hinstances]

end CaseEntry

namespace CaseFile

/-- Two files with the same options for all their cases. -/
structure SameOptions (file file' : CaseFile) : Prop where
  profile : file'.profile = file.profile
  round : file'.round = file.round
  defaults : file'.defaults.Equiv file.defaults

variable {file file' : CaseFile} {o : Overrides} {resolved resolved' : ResolvedCases}

theorem SameOptions.options_eq (h : file.SameOptions file') (opts : file.Options o)
    (opts' : file'.Options o) :
    opts'.base = opts.base ∧ opts'.override = opts.override ∧ opts'.fileRound = opts.fileRound := by
  have hprofile := opts'.resolveProfile
  rw [resolveProfile, h.profile] at hprofile
  have hprofile := Except.ok.inj (hprofile.symm.trans opts.resolveProfile)
  have hbase := opts'.withDefaults
  rw [hprofile, h.defaults.toList_eq, opts.withDefaults] at hbase
  have hfile := opts'.readFile
  rw [h.round, opts.readFile] at hfile
  have hoverride := opts'.readOverride
  rw [opts.readOverride] at hoverride
  exact ⟨(Except.ok.inj hbase).symm, (Except.ok.inj hoverride).symm, (Except.ok.inj hfile).symm⟩

theorem exists_of_entry {opts : file.Options o}
    (h : List.Forall₂ (fun entry c =>
        entry.2.resolve entry.1 opts.base opts.override opts.fileRound = .ok c)
      file.cases.toList resolved.cases)
    {name : String} {entry : CaseEntry} (hentry : file.cases[name]? = some entry) :
    ∃ c ∈ resolved.cases,
      entry.resolve name opts.base opts.override opts.fileRound = .ok c := by
  have hmem : (name, entry) ∈ file.cases.toList :=
    Std.TreeMap.mem_toList_iff_getElem?_eq_some.2 hentry
  exact h.exists_right hmem

theorem names_of_resolve (h : file.resolve o = .ok resolved) :
    resolved.cases.map (·.name) = file.cases.keys := by
  obtain ⟨opts, -, hcases⟩ := options_of_resolve h
  have hnames : List.Forall₂ (· = ·) (resolved.cases.map (·.name))
      (file.cases.toList.map Prod.fst) := by
    rw [List.forall₂_map_left_iff, List.forall₂_map_right_iff]
    exact hcases.flip.imp fun c entry hc => (CaseEntry.yields_of_resolve opts hc).1
  rw [List.forall₂_eq_eq_eq] at hnames
  rw [hnames, Std.TreeMap.map_fst_toList_eq_keys]

theorem names_ordered (h : file.resolve o = .ok resolved) :
    (resolved.cases.map (·.name)).Pairwise (· < ·) := by
  have hordered : file.cases.keys.Pairwise fun a b => compare a b = .lt :=
    Std.TreeMap.ordered_keys
  rw [names_of_resolve h]
  exact hordered.imp fun hlt => compareOfLessAndEq_eq_lt.1 hlt

/-- The profile is that of the command line, else that of the file, else the blank one. There is one
case for each entry, in the order of their names, and it is what its entry yields; of two files with
the same options, an entry that both have resolves to the same case, whatever the others are. -/
theorem resolve_layered (h : file.resolve o = .ok resolved) :
    resolved.profile.name = (o.profile <|> file.profile).getD "blank" ∧
    resolved.cases.map (·.name) = file.cases.keys ∧
    (resolved.cases.map (·.name)).Pairwise (· < ·) ∧
    (∀ name entry, file.cases[name]? = some entry →
      ∃ c ∈ resolved.cases, c.name = name ∧ entry.Yields file o resolved.profile c) ∧
    ∀ file' resolved', file'.resolve o = .ok resolved' → file.SameOptions file' →
      ∀ name entry entry', file.cases[name]? = some entry → file'.cases[name]? = some entry' →
        entry.Same entry' → ∃ c ∈ resolved.cases, c ∈ resolved'.cases ∧ c.name = name := by
  obtain ⟨opts, hprofile, hcases⟩ := options_of_resolve h
  refine ⟨?_, names_of_resolve h, names_ordered h, fun name entry hentry => ?_, ?_⟩
  · rw [hprofile]
    exact name_of_resolveProfile opts.resolveProfile
  · obtain ⟨c, hc, hresolve⟩ := exists_of_entry hcases hentry
    rw [hprofile]
    exact ⟨c, hc, CaseEntry.yields_of_resolve opts hresolve⟩
  · intro file' resolved' h' hoptions name entry entry' hentry hentry' hsame
    obtain ⟨opts', -, hcases'⟩ := options_of_resolve h'
    obtain ⟨hbase, hoverride, hround⟩ := hoptions.options_eq opts opts'
    obtain ⟨c, hc, hresolve⟩ := exists_of_entry hcases hentry
    obtain ⟨c', hc', hresolve'⟩ := exists_of_entry hcases' hentry'
    rw [hbase, hoverride, hround, hsame.resolve_eq, hresolve] at hresolve'
    obtain rfl := Except.ok.inj hresolve'
    exact ⟨c, hc, hc', (CaseEntry.yields_of_resolve opts hresolve).1⟩

/-- A case whose presets go against the file, which goes against its profile. -/
def layeredEntry : CaseEntry where
  policy := "policy.nt"
  rule := "urn:rule"
  round := some "2"
  presets :=
    { defaults := .ofList [("action", "not-exercised")]
      instances := .ofList [("urn:c", " Error\n")] }

/-- A file with that case and another one. -/
def layeredFile (other : CaseEntry) : CaseFile where
  profile := some "restrictive"
  round := some "1"
  defaults := .ofList [("action", "Exercised"), ("duty", "Fulfilled")]
  cases := .ofList [("b", layeredEntry), ("a", other)]

/-- The same file with another case beside it, under a profile from the command line. -/
theorem resolve_layered_override :
    let file := layeredFile { policy := "policy.nt", rule := "urn:other" }
    let file' := layeredFile { policy := "missing.nt", rule := "urn:third", round := some "2" }
    let o : Overrides := { profile := some "permissive" }
    ∃ resolved resolved', file.resolve o = .ok resolved ∧ file'.resolve o = .ok resolved' ∧
      resolved.profile.name = "permissive" ∧ resolved.cases.map (·.name) = ["a", "b"] ∧
      (∃ c ∈ resolved.cases, c ∈ resolved'.cases ∧ c.name = "b") ∧
      ∃ c ∈ resolved.cases, c.name = "b" ∧ c.round = .second ∧
        c.presets.defaults .action = some .negative ∧ c.presets.defaults .duty = some .positive ∧
        c.presets.defaults .constraint = some .positive ∧
        c.presets.instances["urn:c"]? = some .error ∧ c.presets.instances["urn:d"]? = none := by
  intro file file' o
  have hsucceeds : (file.resolve o).isOk = true := by decide +kernel
  have hsucceeds' : (file'.resolve o).isOk = true := by decide +kernel
  obtain ⟨resolved, h⟩ := Except.exists_of_isOk hsucceeds
  obtain ⟨resolved', h'⟩ := Except.exists_of_isOk hsucceeds'
  obtain ⟨hprofile, hnames, -, hcases, hsame⟩ := resolve_layered h
  have hentry : file.cases["b"]? = some layeredEntry := by rfl
  have hentry' : file'.cases["b"]? = some layeredEntry := by rfl
  obtain ⟨c, hc, hname, hyields⟩ := hcases "b" layeredEntry hentry
  refine ⟨resolved, resolved', h, h', hprofile, ?_, ?_, c, hc, hname, ?_⟩
  · rw [hnames]
    decide +kernel
  · exact hsame file' resolved' h' ⟨rfl, rfl, .rfl⟩ "b" layeredEntry layeredEntry hentry hentry'
      ⟨rfl, rfl, rfl, rfl, rfl, rfl, .rfl, .rfl⟩
  · have hdefault : ∀ category o,
        (layeredEntry.presets.defaults[category.name]?.map Outcome.ofLabel <|>
          file.defaults[category.name]?.map Outcome.ofLabel <|>
            (resolved.profile.presets.defaults category).map .ok) = some (.ok o) →
          c.presets.defaults category = some o := by
      intro category o ho
      have hmap := (hyields.defaults category).trans ho
      simpa using hmap
    have hpermissive : resolved.profile = .permissive := by
      cases hp : resolved.profile <;> rw [hp] at hprofile <;> revert hprofile <;> decide
    rw [hpermissive] at hdefault
    have hround := hyields.round
    have hset : layeredEntry.presets.instances["urn:c"]? = some " Error\n" := by decide +kernel
    have hunset : layeredEntry.presets.instances["urn:d"]? = none := by decide +kernel
    have herror : Outcome.ofLabel " Error\n" = .ok .error := by decide +kernel
    refine ⟨Except.ok.inj hround, hdefault .action _ ?_, hdefault .duty _ ?_,
      hdefault .constraint _ ?_, ?_, ?_⟩
    · rfl
    · rfl
    · rfl
    · have hmap := hyields.instances "urn:c"
      rw [hset, Option.map_some, herror] at hmap
      simpa using hmap
    · have hmap := hyields.instances "urn:d"
      rw [hunset] at hmap
      simpa using hmap

end CaseFile

end UsagePolicy

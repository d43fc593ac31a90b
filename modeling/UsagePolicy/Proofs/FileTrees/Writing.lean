import UsagePolicy.Proofs.FileTrees
import UsagePolicy.Proofs.FileTrees.Places
import UsagePolicy.Run
/-!
# Trees that are written to

Writing makes directories where nothing is, and puts a text where no directory is. So a text that
was written is read back, and a file at another place is read as before.
-/

namespace UsagePolicy.FileTree

variable {t t' : FileTree} {path text : String}

/-! ## Files at their places -/

theorem foldl_enter_of_walk {here names parts : List String}
    (h : t.walk here parts = some names) : parts.foldl enter here = names := by
  induction parts generalizing here with
  | nil => exact Option.some.inj h
  | cons part rest ih =>
      rw [List.foldl_cons]
      unfold walk at h
      unfold enter
      split at h
      · cases h
      · split
        · next hstay =>
          rw [if_pos hstay] at h
          exact ih h
        · next hstay =>
          rw [if_neg hstay] at h
          split
          · next hup =>
            rw [if_pos hup] at h
            exact ih h
          · next hup =>
            rw [if_neg hup] at h
            exact ih h

theorem names_of_locate? {found : List String} (h : t.locate? path = some found) :
    names path = found := by
  unfold locate? at h
  split at h
  · cases h
  · exact foldl_enter_of_walk h

theorem read?_eq_some_iff :
    t.read? path = some text ↔
      t.locate? path = some (names path) ∧ t.entries[place path]? = some (.file (some text)) := by
  unfold read? place
  cases hfound : t.locate? path with
  | none => simp
  | some found =>
      rw [names_of_locate? hfound, Option.bind_some]
      constructor
      · intro h
        split at h
        · next hentry => exact ⟨rfl, by rw [hentry, h]⟩
        · cases h
      · rintro ⟨-, hentry⟩
        rw [hentry]

/-! ## One text -/

theorem agreesOn_nil_iff :
    t.AgreesOn t' [] ↔
      ∀ other : String, t.entries[other]? = some .directory →
        t'.entries[other]? = some .directory := by
  constructor
  · intro h other hentry
    rcases h other with heq | ⟨hne, -⟩
    · rw [heq, hentry]
    · exact absurd hentry hne
  · intro h other
    by_cases hentry : t.entries[other]? = some .directory
    · exact .inl (by rw [h other hentry, hentry])
    · exact .inr ⟨hentry, nofun⟩

/-- Directories are made where nothing is. -/
theorem entry_of_makeDirectories {here parts : List String}
    (h : t.makeDirectories here parts = some t') {other : String} {entry : FileEntry}
    (hentry : t.entries[other]? = some entry) : t'.entries[other]? = some entry := by
  induction parts generalizing t here with
  | nil =>
      obtain rfl := Option.some.inj h
      exact hentry
  | cons part rest ih =>
      unfold makeDirectories at h
      split at h
      · exact ih h hentry
      split at h
      · exact ih h hentry
      dsimp only at h
      split at h
      · exact ih h hentry
      · cases h
      · next hnothing =>
        refine ih h ?_
        have hne : ¬compare (key (here ++ [part])) other = .eq := by
          intro heq
          rw [Std.compare_eq_iff_eq.1 heq, hentry] at hnothing
          cases hnothing
        rw [Std.TreeMap.getElem?_insert, if_neg hne, hentry]

theorem put?_eq_some (h : t.put? path text = some t') :
    t.locate? path = some (names path) ∧ t.isDirectory (names path) = false ∧
      t' = ⟨t.entries.insert (place path) (.file (some text))⟩ := by
  unfold put? at h
  split at h
  · cases h
  split at h
  · cases h
  · cases h
  · next found _ hfound =>
    split at h
    · cases h
    · next hdir =>
      unfold place
      rw [names_of_locate? hfound]
      exact ⟨hfound, Bool.not_eq_true _ ▸ hdir, (Option.some.inj h).symm⟩

/-- What has become of a tree in which a text was written. -/
structure Wrote (t : FileTree) (path text : String) (t' : FileTree) : Prop where
  directories : t.AgreesOn t' []
  located : t'.locate? path = some (names path)
  written : t'.entries[place path]? = some (.file (some text))
  kept : ∀ other entry, other ≠ place path → t.entries[other]? = some entry →
    t'.entries[other]? = some entry

theorem wrote_of_put? (h : t.put? path text = some t') : t.Wrote path text t' := by
  obtain ⟨hlocated, hdir, rfl⟩ := put?_eq_some h
  have hkept : ∀ other entry, other ≠ place path → t.entries[other]? = some entry →
      (t.entries.insert (place path) (.file (some text)))[other]? = some entry := by
    intro other entry hother hentry
    have hne : ¬compare (place path) other = .eq := fun heq =>
      hother (Std.compare_eq_iff_eq.1 heq).symm
    rw [Std.TreeMap.getElem?_insert, if_neg hne, hentry]
  have hagrees : t.AgreesOn ⟨t.entries.insert (place path) (.file (some text))⟩ [] := by
    refine agreesOn_nil_iff.2 fun other hentry => hkept other .directory ?_ hentry
    rintro rfl
    have htrue : t.isDirectory (names path) = true := by
      unfold isDirectory
      unfold place at hentry
      rw [hentry]
      simp
    rw [hdir] at htrue
    cases htrue
  exact ⟨hagrees, hagrees.locate? hlocated, Std.TreeMap.getElem?_insert_self, hkept⟩

theorem wrote_of_write (h : t.write path text = .ok t') : t.Wrote path text t' := by
  unfold write at h
  dsimp only at h
  split at h
  · cases h
  · next made hmade =>
    split at h
    · cases h
    · next put hput =>
      obtain rfl := Except.ok.inj h
      have hwrote := wrote_of_put? hput
      refine ⟨agreesOn_nil_iff.2 fun other hentry => ?_, hwrote.located, hwrote.written,
        fun other entry hother hentry => ?_⟩
      · exact agreesOn_nil_iff.1 hwrote.directories other (entry_of_makeDirectories hmade hentry)
      · exact hwrote.kept other entry hother (entry_of_makeDirectories hmade hentry)

theorem read?_write (h : t.write path text = .ok t') : t'.read? path = some text :=
  have hwrote := wrote_of_write h
  read?_eq_some_iff.2 ⟨hwrote.located, hwrote.written⟩

/-- A file at another place is still there. -/
theorem read?_write_of_ne (h : t.write path text = .ok t') {other found : String}
    (hother : place other ≠ place path) (hread : t.read? other = some found) :
    t'.read? other = some found := by
  obtain ⟨hlocated, hentry⟩ := read?_eq_some_iff.1 hread
  have hwrote := wrote_of_write h
  exact read?_eq_some_iff.2
    ⟨hwrote.directories.locate? hlocated, hwrote.kept _ _ hother hentry⟩

/-! ## Several texts -/

theorem writeAll_append (files : FileTree) (first rest : List (String × String)) :
    files.writeAll (first ++ rest) =
      files.writeAll first >>= fun written => written.writeAll rest := by
  induction first generalizing files with
  | nil => rfl
  | cons output first ih =>
      rw [List.cons_append, writeAll, writeAll]
      cases files.write output.1 output.2 with
      | error error => rfl
      | ok written => exact ih written

theorem writeAll_cons {output : String × String} {rest : List (String × String)} :
    t.writeAll (output :: rest) = .ok t' ↔
      ∃ next, t.write output.1 output.2 = .ok next ∧ next.writeAll rest = .ok t' := by
  rw [writeAll]
  cases t.write output.1 output.2 with
  | error error => simp
  | ok next => simp

/-- A file stays as it is if all that is written stands at other places. -/
theorem read?_writeAll_of_notMem {outputs : List (String × String)} {other found : String}
    (h : t.writeAll outputs = .ok t') (hother : place other ∉ outputs.map fun o => place o.1)
    (hread : t.read? other = some found) : t'.read? other = some found := by
  induction outputs generalizing t with
  | nil =>
      obtain rfl := Except.ok.inj h
      exact hread
  | cons output rest ih =>
      obtain ⟨next, hnext, hrest⟩ := writeAll_cons.1 h
      rw [List.map_cons, List.mem_cons, not_or] at hother
      exact ih hrest hother.2 (read?_write_of_ne hnext hother.1 hread)

/-- Texts that are written at different places are all read back. -/
theorem read?_writeAll {outputs : List (String × String)} (h : t.writeAll outputs = .ok t')
    (hplaces : (outputs.map fun o => place o.1).Nodup) :
    ∀ output ∈ outputs, t'.read? output.1 = some output.2 := by
  induction outputs generalizing t with
  | nil => exact nofun
  | cons output rest ih =>
      obtain ⟨next, hnext, hrest⟩ := writeAll_cons.1 h
      rw [List.map_cons, List.nodup_cons] at hplaces
      intro output' houtput'
      rcases List.mem_cons.1 houtput' with rfl | houtput'
      · exact read?_writeAll_of_notMem hrest hplaces.1 (read?_write hnext)
      · exact ih hrest hplaces.2 output' houtput'

end UsagePolicy.FileTree

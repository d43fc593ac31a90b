import UsagePolicy.Policy
/-!
# Trees that agree on some paths

A file is found through the directories on the way to it. So a tree in which other files are
changed, added or taken away, but no directory, leads the same paths to the same texts.
-/

namespace UsagePolicy.FileTree

/-- What differs in the second tree was no directory, and none of the paths leads to it. -/
def AgreesOn (t t' : FileTree) (paths : List String) : Prop :=
  ∀ place, t'.entries[place]? = t.entries[place]? ∨
    t.entries[place]? ≠ some .directory ∧
      ∀ path ∈ paths, ∀ names, t.locate? path = some names → key names ≠ place

variable {t t' : FileTree} {paths : List String}

namespace AgreesOn

variable (h : t.AgreesOn t' paths)
include h

theorem isDirectory {names : List String} (hdir : t.isDirectory names = true) :
    t'.isDirectory names = true := by
  simp only [FileTree.isDirectory, Bool.or_eq_true, beq_iff_eq] at hdir ⊢
  refine hdir.imp id fun hentry => ?_
  rcases h (key names) with heq | ⟨hne, -⟩
  · rw [heq, hentry]
  · exact absurd hentry hne

theorem walk {here parts names : List String} (hwalk : t.walk here parts = some names) :
    t'.walk here parts = some names := by
  induction parts generalizing here with
  | nil => exact hwalk
  | cons part rest ih =>
      unfold FileTree.walk at hwalk ⊢
      by_cases hdir : t.isDirectory here = true
      · rw [h.isDirectory hdir]
        rw [hdir] at hwalk
        simp only [Bool.not_true, Bool.false_eq_true, if_false] at hwalk ⊢
        by_cases hstay : part = "" ∨ part = "."
        · rw [if_pos hstay] at hwalk ⊢
          exact ih hwalk
        · rw [if_neg hstay] at hwalk ⊢
          by_cases hup : part = ".."
          · rw [if_pos hup] at hwalk ⊢
            exact ih hwalk
          · rw [if_neg hup] at hwalk ⊢
            exact ih hwalk
      · rw [Bool.not_eq_true] at hdir
        rw [hdir] at hwalk
        cases hwalk

theorem locate? {path : String} {names : List String} (hpath : t.locate? path = some names) :
    t'.locate? path = some names := by
  unfold FileTree.locate? at hpath ⊢
  by_cases hempty : path = ""
  · rw [if_pos hempty] at hpath
    cases hpath
  · rw [if_neg hempty] at hpath ⊢
    exact h.walk hpath

theorem read? {path text : String} (hpath : path ∈ paths) (hread : t.read? path = some text) :
    t'.read? path = some text := by
  unfold FileTree.read? at hread ⊢
  cases hnames : t.locate? path with
  | none =>
      rw [hnames] at hread
      cases hread
  | some names =>
      have hentry : t'.entries[key names]? = t.entries[key names]? :=
        (h (key names)).resolve_right fun hother => hother.2 path hpath names hnames rfl
      rw [hnames] at hread
      rw [h.locate? hnames]
      simp only [Option.bind_some] at hread ⊢
      rw [hentry]
      exact hread

theorem loadPolicy {path : String} {policy : Policy} (hpath : path ∈ paths)
    (hload : t.loadPolicy path = .ok policy) : t'.loadPolicy path = .ok policy := by
  unfold FileTree.loadPolicy at hload ⊢
  split at hload
  · cases hload
  · split at hload
    · cases hload
    · next text htext =>
      rw [h.read? hpath htext]
      exact hload

end AgreesOn

end UsagePolicy.FileTree

import UsagePolicy.FileTree
/-!
# Places of paths

The place that a path leads to is worked out part by part. A file name is one part by itself, so in
one directory different file names lead to different places, wherever that directory is.
-/

namespace UsagePolicy.FileTree

/-- Goes on from a directory by one part of a path. -/
def enter (here : List String) (part : String) : List String :=
  if part = "" ∨ part = "." then here
  else if part = ".." then above here
  else here ++ [part]

theorem parts_append_slash (directory path : String) :
    parts (directory ++ "/" ++ path) = parts directory ++ parts path := by
  have hslash : (directory ++ "/" ++ path).toList = directory.toList ++ '/' :: path.toList := by
    simp
  unfold parts
  rw [hslash, List.splitOn_append_cons_self, List.map_append]

theorem parts_slash (directory : String) : parts (directory ++ "/") = parts directory ++ [""] := by
  have hparts := parts_append_slash directory ""
  rw [String.append_empty] at hparts
  exact hparts

theorem names_eq (path : String) : names path = (parts path).foldl enter (start path) := rfl

/-- The place of the entry that a path leads to. -/
def place (path : String) : String := key (names path)

/-- A part of a path that is the name of an entry. -/
structure IsFileName (name : String) : Prop where
  slash_notMem : '/' ∉ name.toList
  notMem_dots : name ∉ ["", ".", ".."]

namespace IsFileName

variable {name : String} (h : IsFileName name)
include h

theorem enter_eq (here : List String) : enter here name = here ++ [name] := by
  have hdots := h.notMem_dots
  simp only [List.mem_cons, List.not_mem_nil, or_false, not_or] at hdots
  rw [enter, if_neg (not_or.2 ⟨hdots.1, hdots.2.1⟩), if_neg hdots.2.2]

theorem parts_eq : parts name = [name] := by
  rw [parts, List.splitOn_eq_singleton h.slash_notMem, List.map_singleton, String.ofList_toList]

theorem head?_ne : name.toList.head? ≠ some '/' :=
  fun hhead => h.slash_notMem (List.mem_of_mem_head? hhead)

theorem start_eq : start name = [] :=
  if_neg h.head?_ne

theorem join_eq (directory : String) :
    Path.join directory name =
      if directory = "" ∨ directory.toList.getLast? = some '/' then directory ++ name
      else directory ++ "/" ++ name :=
  if_neg h.head?_ne

end IsFileName

theorem start_append_slash (directory name : String) :
    start (directory ++ "/" ++ name) = start (directory ++ "/") := by
  unfold start
  cases hd : directory.toList with
  | nil => simp [hd]
  | cons c cs => simp [hd]

/-- A slash at the end of a directory makes no difference. -/
theorem names_append_slash {directory : String} (hne : directory ≠ "") :
    names (directory ++ "/") = names directory := by
  have hstart : start (directory ++ "/") = start directory := by
    unfold start
    cases hd : directory.toList with
    | nil => exact absurd (String.toList_eq_nil_iff.1 hd) hne
    | cons c cs => simp [hd]
  rw [names_eq, names_eq, parts_slash, hstart, List.foldl_append]
  rfl

theorem IsFileName.names_append {name : String} (h : IsFileName name) (directory : String) :
    names (directory ++ "/" ++ name) = names (directory ++ "/") ++ [name] := by
  rw [names_eq, names_eq, parts_append_slash, parts_slash, h.parts_eq, start_append_slash,
    List.foldl_append, List.foldl_append]
  exact h.enter_eq _

/-- In a directory a name leads one step further, wherever the directory is. -/
theorem names_join {name : String} (h : IsFileName name) (directory : String) :
    names (Path.join directory name) = names directory ++ [name] := by
  rw [h.join_eq]
  split
  · next hends =>
    rcases hends with rfl | hlast
    · rw [String.empty_append, names_eq, h.parts_eq, h.start_eq]
      exact h.enter_eq []
    · obtain ⟨before, hbefore⟩ := List.getLast?_eq_some_iff.1 hlast
      have hdirectory : directory = String.ofList before ++ "/" := by
        rw [← String.toList_inj, hbefore]
        simp
      rw [hdirectory]
      exact h.names_append _
  · next hends => rw [h.names_append, names_append_slash (not_or.1 hends).1]

theorem exists_key_append (here : List String) :
    ∃ before, ∀ name, key (here ++ [name]) = before ++ name := by
  induction here with
  | nil => exact ⟨"", fun name => by simp [key]⟩
  | cons first here ih =>
      obtain ⟨before, hbefore⟩ := ih
      refine ⟨first ++ "/" ++ before, fun name => ?_⟩
      have hne : here ++ [name] ≠ [] := by simp
      rw [String.append_assoc, ← hbefore name]
      exact String.intercalate_cons_of_ne_nil hne

/-- The places of the names in a directory begin alike and end in the names. -/
theorem exists_place_join (directory : String) :
    ∃ before, ∀ name, IsFileName name → place (Path.join directory name) = before ++ name := by
  obtain ⟨before, hkey⟩ := exists_key_append (names directory)
  refine ⟨before, fun name hname => ?_⟩
  rw [place, names_join hname, hkey]

end UsagePolicy.FileTree

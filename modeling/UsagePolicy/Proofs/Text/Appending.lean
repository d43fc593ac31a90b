import Mathlib.Data.List.Infix
/-!
# Texts put together

When are the parts of two equal texts equal? If their ends have the same length, or if a mark
divides them that does not stand in the first parts, or not in the second ones. Texts differ if
their beginnings do.
-/

namespace UsagePolicy.Text

theorem append_ne_append {a b : String} (ha : ¬ a.toList <+: b.toList)
    (hb : ¬ b.toList <+: a.toList) (x y : String) : a ++ x ≠ b ++ y := by
  intro h
  have hlists := congrArg String.toList h
  rw [String.toList_append, String.toList_append] at hlists
  have hax : a.toList <+: b.toList ++ y.toList := ⟨x.toList, hlists⟩
  rcases List.prefix_or_prefix_of_prefix hax (List.prefix_append _ _) with h' | h'
  · exact ha h'
  · exact hb h'

theorem append_inj_of_length {s t a b : String} (h : s ++ a = t ++ b)
    (hlen : a.toList.length = b.toList.length) : s = t ∧ a = b := by
  have hlists := congrArg String.toList h
  rw [String.toList_append, String.toList_append] at hlists
  obtain ⟨hs, ha⟩ := List.append_inj' hlists hlen
  exact ⟨String.toList_inj.1 hs, String.toList_inj.1 ha⟩

/-! ## Marks -/

variable {mark : Char}

private theorem takeWhile_append_cons {cs : List Char} (h : mark ∉ cs) (rest : List Char) :
    (cs ++ mark :: rest).takeWhile (· != mark) = cs := by
  induction cs with
  | nil => simp
  | cons c cs ih =>
      rw [List.mem_cons, not_or] at h
      rw [List.cons_append, List.takeWhile_cons_of_pos (by simpa using Ne.symm h.1), ih h.2]

private theorem eq_of_mark {cs ds xs ys : List Char} (hc : mark ∉ cs) (hd : mark ∉ ds)
    (hx : xs.head? = some mark) (hy : ys.head? = some mark) (h : cs ++ xs = ds ++ ys) :
    cs = ds := by
  obtain ⟨xs, rfl⟩ := List.head?_eq_some_iff.1 hx
  obtain ⟨ys, rfl⟩ := List.head?_eq_some_iff.1 hy
  calc cs = (cs ++ mark :: xs).takeWhile (· != mark) := (takeWhile_append_cons hc xs).symm
    _ = (ds ++ mark :: ys).takeWhile (· != mark) := by rw [h]
    _ = ds := takeWhile_append_cons hd ys

/-- The first mark is the one after the first part. -/
theorem append_inj_of_mark {s t a b : String} (hs : mark ∉ s.toList) (ht : mark ∉ t.toList)
    (ha : a.toList.head? = some mark) (hb : b.toList.head? = some mark) (h : s ++ a = t ++ b) :
    s = t ∧ a = b := by
  have hlists := congrArg String.toList h
  rw [String.toList_append, String.toList_append] at hlists
  obtain rfl := String.toList_inj.1 (eq_of_mark hs ht ha hb hlists)
  exact ⟨rfl, (String.append_right_inj _).1 h⟩

/-- The last mark is the one before the second part. -/
theorem append_inj_of_lastMark {s t a b : String} (ha : mark ∉ a.toList) (hb : mark ∉ b.toList)
    (hs : s.toList.getLast? = some mark) (ht : t.toList.getLast? = some mark)
    (h : s ++ a = t ++ b) : s = t ∧ a = b := by
  have hlists := congrArg (fun text => text.toList.reverse) h
  simp only [String.toList_append, List.reverse_append] at hlists
  have ha' : mark ∉ a.toList.reverse := by rwa [List.mem_reverse]
  have hb' : mark ∉ b.toList.reverse := by rwa [List.mem_reverse]
  have hs' : s.toList.reverse.head? = some mark := by rwa [List.head?_reverse]
  have ht' : t.toList.reverse.head? = some mark := by rwa [List.head?_reverse]
  have hreverse := eq_of_mark ha' hb' hs' ht' hlists
  obtain rfl := String.toList_inj.1 (List.reverse_inj.1 hreverse)
  exact ⟨(String.append_left_inj _).1 h, rfl⟩

end UsagePolicy.Text

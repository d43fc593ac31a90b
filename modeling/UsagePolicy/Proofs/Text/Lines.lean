import Mathlib.Data.List.Infix
import UsagePolicy.Text.Lines
/-!
# Texts cut apart

How a text is cut into lines, or at a separator, is settled by what stands before the place of the
cut: what is put at the end of a line, or behind the separator, has no part in it.
-/

namespace UsagePolicy.Text

/-! ## Lines -/

variable {c : Char} {cs line : List Char}

theorem lineChars_cons (hfeed : c ≠ '\n') (hreturn : ∀ rest, c = '\r' → cs ≠ '\n' :: rest) :
    lineChars (c :: cs) = match lineChars cs with
      | [] => [[c]]
      | line :: lines => (c :: line) :: lines := by
  rw [lineChars.eq_def]
  split
  · next h => cases h
  · next h => exact absurd (List.cons_eq_cons.1 h).1 hfeed
  · next rest h => exact absurd (List.cons_eq_cons.1 h).2 (hreturn rest (List.cons_eq_cons.1 h).1)
  · next h =>
    cases h
    rfl

/-- A text without line breaks is a line, if a line break follows. -/
theorem lineChars_append (hfeed : '\n' ∉ line) (hreturn : '\r' ∉ line) (rest : List Char) :
    lineChars (line ++ '\n' :: rest) = line :: lineChars rest := by
  induction line with
  | nil => rfl
  | cons c line ih =>
      rw [List.mem_cons, not_or] at hfeed hreturn
      have hchar : ∀ rest', c = '\r' → line ++ '\n' :: rest ≠ '\n' :: rest' :=
        fun _ h => absurd h.symm hreturn.1
      rw [List.cons_append, lineChars_cons (Ne.symm hfeed.1) hchar, ih hfeed.2 hreturn.2]

/-- The text is cut in the same way whatever is put at its end, before a line break. -/
def CutsAlike (cs : List Char) : Prop :=
  ∃ lines line, ∀ x rest : List Char, x ≠ [] → '\n' ∉ x → '\r' ∉ x →
    lineChars (cs ++ (x ++ '\n' :: rest)) = lines ++ (line ++ x) :: lineChars rest

theorem CutsAlike.cons (h : CutsAlike cs) (hfeed : c ≠ '\n')
    (hreturn : ∀ rest, c = '\r' → cs ≠ '\n' :: rest) : CutsAlike (c :: cs) := by
  obtain ⟨lines, line, h⟩ := h
  have hstep : ∀ x rest : List Char, x ≠ [] → '\n' ∉ x → '\r' ∉ x →
      lineChars (c :: cs ++ (x ++ '\n' :: rest)) =
        match lines ++ (line ++ x) :: lineChars rest with
        | [] => [[c]]
        | line :: lines => (c :: line) :: lines := by
    intro x rest hx hxfeed hxreturn
    have hchar : ∀ rest', c = '\r' → cs ++ (x ++ '\n' :: rest) ≠ '\n' :: rest' := by
      rintro rest' hc heq
      cases cs with
      | nil =>
          cases x with
          | nil => exact hx rfl
          | cons d x =>
              obtain rfl := (List.cons_eq_cons.1 heq).1
              exact hxfeed List.mem_cons_self
      | cons d cs => exact hreturn cs hc (congrArg (· :: cs) (List.cons_eq_cons.1 heq).1)
    rw [List.cons_append, lineChars_cons hfeed hchar, h x rest hx hxfeed hxreturn]
  cases lines with
  | nil => exact ⟨[], c :: line, hstep⟩
  | cons first lines => exact ⟨(c :: first) :: lines, line, hstep⟩

theorem cutsAlike (cs : List Char) : CutsAlike cs := by
  induction cs using lineChars.induct with
  | case1 => exact ⟨[], [], fun x rest _ hfeed hreturn => lineChars_append hfeed hreturn rest⟩
  | case2 cs ih =>
      obtain ⟨lines, line, h⟩ := ih
      refine ⟨[] :: lines, line, fun x rest hx hfeed hreturn => ?_⟩
      rw [List.cons_append, lineChars, h x rest hx hfeed hreturn, List.cons_append]
  | case3 cs ih =>
      obtain ⟨lines, line, h⟩ := ih
      refine ⟨[] :: lines, line, fun x rest hx hfeed hreturn => ?_⟩
      rw [List.cons_append, List.cons_append, lineChars, h x rest hx hfeed hreturn,
        List.cons_append]
  | case4 c cs hfeed hreturn _ ih => exact ih.cons hfeed hreturn
  | case5 c cs hfeed hreturn _ _ _ ih => exact ih.cons hfeed hreturn

/-- What stands behind the next line break is cut into lines by itself. -/
def CutsOff (cs : List Char) : Prop :=
  ∃ line lines, ∀ rest, lineChars (cs ++ '\n' :: rest) = line :: (lines ++ lineChars rest)

theorem CutsOff.cons (h : CutsOff cs) (hfeed : c ≠ '\n')
    (hreturn : ∀ rest, c = '\r' → cs ≠ '\n' :: rest) : CutsOff (c :: cs) := by
  obtain ⟨line, lines, h⟩ := h
  by_cases hend : c = '\r' ∧ cs = []
  · obtain ⟨rfl, rfl⟩ := hend
    exact ⟨[], [], fun _ => rfl⟩
  · refine ⟨c :: line, lines, fun rest => ?_⟩
    have hchar : ∀ rest', c = '\r' → cs ++ '\n' :: rest ≠ '\n' :: rest' := by
      intro rest' hc heq
      cases cs with
      | nil => exact hend ⟨hc, rfl⟩
      | cons d cs => exact hreturn cs hc (congrArg (· :: cs) (List.cons_eq_cons.1 heq).1)
    rw [List.cons_append, lineChars_cons hfeed hchar, h rest]

theorem cutsOff (cs : List Char) : CutsOff cs := by
  induction cs using lineChars.induct with
  | case1 => exact ⟨[], [], fun _ => rfl⟩
  | case2 cs ih =>
      obtain ⟨line, lines, h⟩ := ih
      refine ⟨[], line :: lines, fun rest => ?_⟩
      rw [List.cons_append, lineChars, h]
      rfl
  | case3 cs ih =>
      obtain ⟨line, lines, h⟩ := ih
      refine ⟨[], line :: lines, fun rest => ?_⟩
      rw [List.cons_append, List.cons_append, lineChars, h]
      rfl
  | case4 c cs hfeed hreturn _ ih => exact ih.cons hfeed hreturn
  | case5 c cs hfeed hreturn _ _ _ ih => exact ih.cons hfeed hreturn

theorem lines_append (s : String) :
    ∃ ls, ∀ rest, lines (s ++ "\n" ++ rest) = ls ++ lines rest := by
  obtain ⟨first, others, h⟩ := cutsOff s.toList
  refine ⟨(first :: others).map String.ofList, fun rest => ?_⟩
  have hchars : (s ++ "\n" ++ rest).toList = s.toList ++ '\n' :: rest.toList := by
    simp
  rw [lines, lines, hchars, h, ← List.cons_append, List.map_append]

/-- A text without line breaks. -/
def OneLine (s : String) : Prop := '\n' ∉ s.toList ∧ '\r' ∉ s.toList

instance (s : String) : Decidable (OneLine s) :=
  inferInstanceAs (Decidable ('\n' ∉ s.toList ∧ '\r' ∉ s.toList))

theorem oneLine_append {s t : String} : OneLine (s ++ t) ↔ OneLine s ∧ OneLine t := by
  simp only [OneLine, String.toList_append, List.mem_append, not_or]
  exact and_and_and_comm

theorem oneLine_toString (n : Nat) : OneLine (toString n) := by
  have hdigit : ∀ c ∈ (toString n).toList, c.isDigit = true := by
    intro c hc
    exact Nat.isDigit_of_mem_toDigits (by decide) (by decide) (Nat.toList_repr ▸ hc)
  exact ⟨fun hc => absurd (hdigit _ hc) (by decide), fun hc => absurd (hdigit _ hc) (by decide)⟩

theorem lines_cons {s : String} (h : OneLine s) (rest : String) :
    lines (s ++ "\n" ++ rest) = s :: lines rest := by
  have hchars : (s ++ "\n" ++ rest).toList = s.toList ++ '\n' :: rest.toList := by
    simp
  rw [lines, lines, hchars, lineChars_append h.1 h.2, List.map_cons, String.ofList_toList]

/-! ## Separators -/

/-- Where a text is cut does not depend on what follows the separator. -/
theorem exists_splitOnce?_append (separator cs : List Char) :
    ∃ before, ∀ x, ∃ after,
      splitOnce? separator (cs ++ (separator ++ x)) = some (before, after) := by
  induction cs with
  | nil =>
      refine ⟨[], fun x => ?_⟩
      cases h : separator ++ x with
      | nil =>
        obtain ⟨rfl, rfl⟩ := List.append_eq_nil_iff.1 h
        exact ⟨[], rfl⟩
      | cons c rest =>
        have hprefix : separator.isPrefixOf (c :: rest) = true := by
          rw [← h]
          exact List.isPrefixOf_iff_prefix.2 (List.prefix_append separator x)
        rw [List.nil_append, splitOnce?, if_pos hprefix]
        exact ⟨_, rfl⟩
  | cons c cs ih =>
      obtain ⟨before, h⟩ := ih
      have hprefix : ∀ x, separator.isPrefixOf (c :: (cs ++ (separator ++ x))) =
          separator.isPrefixOf (c :: (cs ++ separator)) := by
        intro x
        rw [Bool.eq_iff_iff, List.isPrefixOf_iff_prefix, List.isPrefixOf_iff_prefix,
          ← List.append_assoc, ← List.cons_append]
        refine ⟨fun hx => ?_, fun hx => hx.trans (List.prefix_append _ x)⟩
        refine List.prefix_of_prefix_length_le hx (List.prefix_append _ x) ?_
        simp only [List.length_cons, List.length_append]
        omega
      by_cases hhere : separator.isPrefixOf (c :: (cs ++ separator)) = true
      · refine ⟨[], fun x => ?_⟩
        rw [List.cons_append, splitOnce?, hprefix x, if_pos hhere]
        exact ⟨_, rfl⟩
      · refine ⟨c :: before, fun x => ?_⟩
        obtain ⟨after, hafter⟩ := h x
        rw [List.cons_append, splitOnce?, hprefix x, if_neg hhere, hafter]
        exact ⟨after, rfl⟩

end UsagePolicy.Text

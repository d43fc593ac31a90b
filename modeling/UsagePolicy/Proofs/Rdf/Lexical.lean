import UsagePolicy.Proofs.Text.Hex
import UsagePolicy.Rdf.Lexical
import UsagePolicy.Rdf.Term
/-!
# Reading what was written

An identifier without angle brackets and backslashes is read up to its closing bracket. A quoted
text is read with each escape undone. A label that was read once is read again before a space,
whatever comes after.
-/

namespace UsagePolicy.Rdf

variable {cs : List Char}

/-! ## Identifiers -/

theorem readIri_append (h : ∀ c ∈ cs, c ≠ '>' ∧ c ≠ '\\') (rest : List Char) :
    readIri (cs ++ '>' :: rest) = some (cs, rest) := by
  induction cs with
  | nil => rw [List.nil_append, readIri]
  | cons c cs ih =>
      obtain ⟨hclose, hescape⟩ := h c List.mem_cons_self
      have hread := ih fun d hd => h d (List.mem_cons_of_mem c hd)
      rw [List.cons_append, readIri, hread]
      · rfl
      · exact hclose
      · exact hescape

/-! ## Quoted texts -/

theorem readQuoted_backslash {rest tail : List Char} {c : Char}
    (h : readEscape rest = some (c, tail)) :
    readQuoted '"' ('\\' :: rest) = (readQuoted '"' tail).map (consRead c) := by
  rw [readQuoted, if_neg (by decide), if_pos rfl]
  split
  · next heq =>
    rw [h] at heq
    cases heq
    rfl
  · next heq =>
    rw [h] at heq
    cases heq

theorem readQuoted_ordinary {c : Char} (hquote : c ≠ '"') (hescape : c ≠ '\\')
    (hbreak : ¬ (c = '\n' ∨ c = '\r')) (rest : List Char) :
    readQuoted '"' (c :: rest) = (readQuoted '"' rest).map (consRead c) := by
  rw [readQuoted, if_neg hquote, if_neg hescape, if_neg hbreak]

/-- What stands for a character is read as this character. -/
theorem readQuoted_escape (c : Char) (rest : List Char) :
    readQuoted '"' (Literal.escape c ++ rest) = (readQuoted '"' rest).map (consRead c) := by
  unfold Literal.escape
  split
  case h_8 hfeed hreturn _ hquote hescape =>
    split
    · next hcontrol =>
      apply readQuoted_backslash
      show readCode ('u' :: '0' :: '0' :: _ :: _ :: rest) = _
      rw [readCode, Text.hexNumber?_upperHexDigit _ (by omega), Option.bind_some,
        Text.charOfCode?_toNat, Option.map_some]
    · apply readQuoted_ordinary hquote hescape
      rintro (h | h)
      · exact hfeed h
      · exact hreturn h
  -- seven characters have an escape of one letter
  all_goals exact readQuoted_backslash rfl

theorem readQuoted_flatMap_escape (cs rest : List Char) :
    readQuoted '"' (cs.flatMap Literal.escape ++ '"' :: rest) = some (cs, rest) := by
  induction cs with
  | nil => rw [List.flatMap_nil, List.nil_append, readQuoted, if_pos rfl]
  | cons c cs ih =>
      rw [List.flatMap_cons, List.append_assoc, readQuoted_escape, ih, Option.map_some]
      rfl

/-! ## Labels -/

/-- A character that can stand in a label. -/
def isLabelPart (c : Char) : Bool :=
  isNamePart c || c == '.'

/-- No label goes on here. -/
def EndsLabel (rest : List Char) : Prop :=
  ∀ c, rest.head? = some c → isLabelPart c = false

theorem readLabelRest_of_endsLabel {rest : List Char} (h : EndsLabel rest) :
    readLabelRest rest = ([], rest) := by
  cases rest with
  | nil => rfl
  | cons c rest =>
      have hc := h c rfl
      rw [isLabelPart, Bool.or_eq_false_iff] at hc
      rw [readLabelRest, hc.1, hc.2]
      rfl

theorem head?_readLabelRest (h : cs.head?.any isNamePart = true) (rest : List Char) :
    ((readLabelRest cs).1 ++ rest).head? = cs.head? := by
  cases cs with
  | nil => cases h
  | cons c cs =>
      have hpart : isNamePart c = true := h
      rw [readLabelRest, hpart, Bool.true_or, if_pos rfl]
      rfl

/-- What was read of a label is read again if it ends there. -/
theorem readLabelRest_append (cs : List Char) {rest : List Char} (h : EndsLabel rest) :
    readLabelRest ((readLabelRest cs).1 ++ rest) = ((readLabelRest cs).1, rest) := by
  induction cs with
  | nil => exact readLabelRest_of_endsLabel h
  | cons c cs ih =>
      rw [readLabelRest]
      by_cases hc : (isNamePart c || (c == '.' && cs.head?.any isNamePart)) = true
      · rw [if_pos hc]
        -- a point that belongs to the label has the same character after it as before
        have hagain : (isNamePart c ||
            (c == '.' && ((readLabelRest cs).1 ++ rest).head?.any isNamePart)) = true := by
          rw [Bool.or_eq_true, Bool.and_eq_true] at hc ⊢
          rcases hc with hpart | ⟨hpoint, hnext⟩
          · exact .inl hpart
          · rw [head?_readLabelRest hnext]
            exact .inr ⟨hpoint, hnext⟩
        show readLabelRest (c :: ((readLabelRest cs).1 ++ rest)) = _
        rw [readLabelRest, if_pos hagain, ih]
        rfl
      · rw [if_neg hc]
        exact readLabelRest_of_endsLabel h

theorem mem_readLabelRest : ∀ c ∈ (readLabelRest cs).1, isLabelPart c = true := by
  fun_induction readLabelRest cs with
  | case1 => exact List.forall_mem_nil _
  | case2 c rest hc ih =>
      rw [Bool.or_eq_true, Bool.and_eq_true] at hc
      have hpart : isLabelPart c = true := by
        rw [isLabelPart, Bool.or_eq_true]
        exact hc.imp_right And.left
      exact List.forall_mem_cons.2 ⟨hpart, ih⟩
  | case3 => exact List.forall_mem_nil _

/-- The label of a blank node: it is read to its end. -/
def IsLabel (cs : List Char) : Prop :=
  readLabel cs = some (cs, [])

theorem readLabel_eq_some {label rest : List Char} (h : readLabel cs = some (label, rest)) :
    ∃ c more, isLabelStart c = true ∧ label = c :: (readLabelRest more).1 := by
  cases cs with
  | nil => cases h
  | cons c more =>
      rw [readLabel, Option.ite_none_right_eq_some] at h
      obtain ⟨hstart, h⟩ := h
      cases h
      exact ⟨c, more, hstart, rfl⟩

theorem isLabel_of_readLabel {label rest : List Char} (h : readLabel cs = some (label, rest)) :
    IsLabel label := by
  obtain ⟨c, more, hstart, rfl⟩ := readLabel_eq_some h
  have hends : EndsLabel [] := by rintro _ ⟨⟩
  have hmore := readLabelRest_append more hends
  rw [List.append_nil] at hmore
  rw [IsLabel, readLabel, if_pos hstart, hmore]
  rfl

namespace IsLabel

theorem read_append (h : IsLabel cs) {rest : List Char} (hends : EndsLabel rest) :
    readLabel (cs ++ rest) = some (cs, rest) := by
  obtain ⟨c, more, hstart, rfl⟩ := readLabel_eq_some h
  rw [List.cons_append, readLabel, if_pos hstart, readLabelRest_append more hends]
  rfl

theorem forall_mem (h : IsLabel cs) : ∀ c ∈ cs, isLabelPart c = true := by
  obtain ⟨c, more, hstart, rfl⟩ := readLabel_eq_some h
  have hpart : isLabelPart c = true := by
    rw [isLabelPart, isNamePart, hstart]
    rfl
  exact List.forall_mem_cons.2 ⟨hpart, mem_readLabelRest⟩

end IsLabel

end UsagePolicy.Rdf

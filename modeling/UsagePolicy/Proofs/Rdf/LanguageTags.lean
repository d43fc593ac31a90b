import Mathlib
import UsagePolicy.Rdf.LanguageTag
import UsagePolicy.Rdf.Lexical
/-!
# Normal language tags

Letters of either case make the same subtags, so the lower-case form of a well-formed tag is
well-formed, and it is its own normal form.
-/

namespace UsagePolicy

namespace Text

/-! ## Lower case -/

variable {c : Char}

theorem isDigit_of_isAlpha (h : c.isAlpha = true) : c.isDigit = false := by
  simp only [Char.isAlpha, Char.isUpper, Char.isLower, Char.isDigit, Bool.or_eq_true,
    Bool.and_eq_true, Bool.and_eq_false_iff, decide_eq_true_eq, decide_eq_false_iff_not, ge_iff_le,
    UInt32.le_iff_toNat_le] at h ⊢
  change (65 ≤ c.toNat ∧ c.toNat ≤ 90) ∨ (97 ≤ c.toNat ∧ c.toNat ≤ 122) at h
  change ¬ 48 ≤ c.toNat ∨ ¬ c.toNat ≤ 57
  omega

/-- Only letters have another lower case. -/
theorem toLower_of_not_isAlpha (h : ¬ c.isAlpha = true) : c.toLower = c := by
  apply Char.toLower_eq_of_not_isUpper
  intro hupper
  rw [Char.isAlpha, hupper, Bool.true_or] at h
  exact h rfl

theorem isDigit_toLower (c : Char) : c.toLower.isDigit = c.isDigit := by
  by_cases h : c.isAlpha = true
  · have hlower : c.toLower.isAlpha = true := by rw [Char.isAlpha_toLower_eq_isAlpha, h]
    rw [isDigit_of_isAlpha h, isDigit_of_isAlpha hlower]
  · rw [toLower_of_not_isAlpha h]

theorem isAlphanum_toLower (c : Char) : c.toLower.isAlphanum = c.isAlphanum := by
  rw [Char.isAlphanum, Char.isAlphanum, Char.isAlpha_toLower_eq_isAlpha, isDigit_toLower]

theorem toLower_eq_iff {d : Char} (hd : ¬ d.isAlpha = true) : c.toLower = d ↔ c = d := by
  constructor
  · rintro rfl
    rw [Char.isAlpha_toLower_eq_isAlpha] at hd
    exact (toLower_of_not_isAlpha hd).symm
  · rintro rfl
    exact toLower_of_not_isAlpha hd

theorem toLower_beq (c : Char) {d : Char} (hd : ¬ d.isAlpha = true) :
    (c.toLower == d) = (c == d) := by
  rw [Bool.eq_iff_iff, beq_iff_eq, beq_iff_eq, toLower_eq_iff hd]

theorem toLower_eq_x : c.toLower = 'x' ∨ c.toLower = 'X' ↔ c = 'x' ∨ c = 'X' := by
  by_cases h : c.isUpper = true
  · have hupper : c.toUpper = c := Char.toUpper_eq_of_not_isLower (Char.not_isLower_of_isUpper h)
    constructor
    · intro heq
      right
      rw [← hupper, ← Char.toUpper_toLower_eq_toUpper]
      rcases heq with heq | heq
      · rw [heq]
        rfl
      · rw [heq]
        rfl
    · rintro (rfl | rfl)
      · exact .inl rfl
      · exact .inl rfl
  · rw [Char.toLower_eq_of_not_isUpper h]

theorem fold_fold (s : String) : fold (fold s) = fold s := by
  simp [fold, Function.comp_def, Char.toLower_toLower_eq_toLower]

end Text

namespace Rdf.LanguageTag

/-! ## Subtags -/

namespace Position

theorem isRegion_toLower (subtag : List Char) :
    isRegion (subtag.map Char.toLower) = isRegion subtag := by
  simp only [isRegion, List.length_map, List.all_map, Function.comp_def,
    Char.isAlpha_toLower_eq_isAlpha, Text.isDigit_toLower]

theorem isVariant_toLower (subtag : List Char) :
    isVariant (subtag.map Char.toLower) = isVariant subtag := by
  cases subtag with
  | nil => rfl
  | cons c subtag =>
      simp only [isVariant, List.map_cons, List.length_cons, List.length_map, Text.isDigit_toLower]

theorem map_toLower_eq_x (subtag : List Char) :
    subtag.map Char.toLower = ['x'] ∨ subtag.map Char.toLower = ['X'] ↔
      subtag = ['x'] ∨ subtag = ['X'] := by
  cases subtag with
  | nil => simp
  | cons c subtag =>
      have hletter := Text.toLower_eq_x (c := c)
      rw [List.map_cons, List.cons_eq_cons, List.cons_eq_cons, List.cons_eq_cons,
        List.cons_eq_cons, List.map_eq_nil_iff, ← or_and_right, ← or_and_right, hletter]

theorem next_toLower (p : Position) (subtag : List Char) :
    p.next (subtag.map Char.toLower) = p.next subtag := by
  simp only [next, List.isEmpty_map, List.length_map, List.all_map, Function.comp_def,
    Char.isAlpha_toLower_eq_isAlpha, Text.isAlphanum_toLower, isRegion_toLower, isVariant_toLower,
    map_toLower_eq_x]

end Position

theorem splitOn_toLower (cs : List Char) :
    (cs.map Char.toLower).splitOn '-' = (cs.splitOn '-').map (List.map Char.toLower) := by
  induction cs with
  | nil => rfl
  | cons c cs ih =>
      rw [List.map_cons, List.splitOn_cons_eq_if_modifyHead, List.splitOn_cons_eq_if_modifyHead, ih]
      rw [Text.toLower_beq c (by decide)]
      by_cases hc : (c == '-') = true
      · rw [if_pos hc, if_pos hc]
        rfl
      · rw [if_neg hc, if_neg hc]
        cases cs.splitOn '-' with
        | nil => rfl
        | cons subtag others => rfl

theorem foldlM_next_toLower (p : Position) (subtags : List (List Char)) :
    (subtags.map (List.map Char.toLower)).foldlM Position.next p =
      subtags.foldlM Position.next p := by
  rw [List.foldlM_map]
  simp only [Position.next_toLower]

/-! ## Tags -/

theorem isTagChar_toLower (c : Char) : isTagChar c.toLower = isTagChar c := by
  rw [isTagChar, isTagChar, Text.isAlphanum_toLower, Text.toLower_beq c (by decide)]

theorem isPrivateUse_toLower {cs : List Char} (h : isPrivateUse cs = true) :
    isPrivateUse (cs.map Char.toLower) = true := by
  have hrest : ∀ rest : List Char,
      (!(rest.map Char.toLower).isEmpty && (rest.map Char.toLower).all isTagChar) =
        (!rest.isEmpty && rest.all isTagChar) := by
    intro rest
    simp only [List.isEmpty_map, List.all_map, Function.comp_def, isTagChar_toLower]
  unfold isPrivateUse at h
  split at h
  · next rest => exact (hrest rest).trans h
  · next rest => exact (hrest rest).trans h
  · cases h

theorem isWellFormed_fold {text : String} (h : isWellFormed text = true) :
    isWellFormed (Text.fold text) = true := by
  have hchars : (Text.fold text).toList = text.toList.map Char.toLower := String.toList_ofList
  rw [isWellFormed, Bool.or_eq_true, Bool.or_eq_true] at h ⊢
  rw [Text.fold_fold, hchars, splitOn_toLower, foldlM_next_toLower]
  exact h.imp_left (Or.imp_right isPrivateUse_toLower)

theorem normalize?_eq_some {text tag : String} (h : normalize? text = some tag) :
    isWellFormed text = true ∧ tag = Text.fold text := by
  rw [normalize?, Option.ite_none_right_eq_some, Option.some.injEq] at h
  exact ⟨h.1, h.2.symm⟩

/-- The normal form of a tag is its own normal form. -/
theorem normalize?_normalize? {text tag : String} (h : normalize? text = some tag) :
    normalize? tag = some tag := by
  obtain ⟨hwell, rfl⟩ := normalize?_eq_some h
  rw [normalize?, if_pos (isWellFormed_fold hwell), Text.fold_fold]

end Rdf.LanguageTag

end UsagePolicy

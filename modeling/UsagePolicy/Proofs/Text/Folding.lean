import Mathlib.Data.List.TakeWhile
import UsagePolicy.Text.Fold
/-!
# Texts up to case and white space

A text is compared without the white space around it and without regard to the case of its letters.
Both can be left out in either order, since no letter is white space, and white space that is put
around a text changes nothing.
-/

namespace UsagePolicy.Text

variable {cs before after : List Char}

theorem sameFolded_iff {s t : String} : sameFolded s t = true ↔ fold s = fold t :=
  beq_iff_eq

theorem exists_of_isPrefixOf {mark text : String}
    (h : mark.toList.isPrefixOf text.toList = true) :
    ∃ rest, text = mark ++ rest ∧
      String.ofList (text.toList.drop mark.toList.length) = rest := by
  obtain ⟨rest, hrest⟩ := List.isPrefixOf_iff_prefix.1 h
  refine ⟨String.ofList rest, ?_, ?_⟩
  · rw [← String.toList_inj, String.toList_append, String.toList_ofList, hrest]
  · rw [← hrest, List.drop_left]

theorem isBlank_toLower (c : Char) : isBlank c.toLower = isBlank c := by
  by_cases hcode : c.toNat < 128
  · have hcodes : ∀ n < 128, isBlank (Char.ofNat n).toLower = isBlank (Char.ofNat n) := by
      decide +kernel
    rw [← Char.ofNat_toNat c]
    exact hcodes c.toNat hcode
  · have hlower : c.toLower = c := by
      unfold Char.toLower
      split
      · next hupper =>
        have hle : c.toNat ≤ 90 := UInt32.le_iff_toNat_le.1 hupper.2
        omega
      · rfl
    rw [hlower]

theorem trimChars_map_toLower (cs : List Char) :
    trimChars (cs.map Char.toLower) = (trimChars cs).map Char.toLower := by
  have hblank : isBlank ∘ Char.toLower = isBlank := funext isBlank_toLower
  simp only [trimChars, List.dropWhile_map, ← List.map_reverse, hblank]

theorem trim_fold (s : String) : trim (fold s) = fold (trim s) := by
  rw [trim, fold, String.toList_ofList, trimChars_map_toLower, fold, trim, String.toList_ofList]

theorem trimChars_append (hbefore : ∀ c ∈ before, isBlank c = true)
    (hafter : ∀ c ∈ after, isBlank c = true) :
    trimChars (before ++ (cs ++ after)) = trimChars cs := by
  have hreverse : ∀ c ∈ after.reverse, isBlank c = true := fun c hc =>
    hafter c (List.mem_reverse.1 hc)
  rw [trimChars, trimChars, List.dropWhile_append_of_pos hbefore, List.dropWhile_append]
  split
  · next hempty =>
    rw [List.isEmpty_iff.1 hempty, List.dropWhile_eq_nil_iff.2 hafter]
  · rw [List.reverse_append, List.dropWhile_append_of_pos hreverse]

theorem trim_append {before after : String} (hbefore : isBlankText before = true)
    (hafter : isBlankText after = true) (s : String) : trim (before ++ s ++ after) = trim s := by
  rw [trim, trim, String.toList_append, String.toList_append, List.append_assoc,
    trimChars_append (List.all_eq_true.1 hbefore) (List.all_eq_true.1 hafter)]

end UsagePolicy.Text

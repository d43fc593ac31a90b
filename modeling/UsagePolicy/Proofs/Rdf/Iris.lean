import UsagePolicy.Proofs.Text.Hex
import UsagePolicy.Rdf.Iri
/-!
# Characters of identifiers

Each part of a valid identifier allows some characters only, so an identifier has neither angle
brackets nor quotes, backslashes, white space or control characters. It begins with a letter, which
is the first one of its scheme.
-/

namespace UsagePolicy

namespace Text

theorem splitOnce?_eq {separator cs before after : List Char}
    (h : splitOnce? separator cs = some (before, after)) : cs = before ++ separator ++ after := by
  induction cs generalizing before with
  | nil =>
      rw [splitOnce?] at h
      by_cases hempty : separator.isEmpty = true
      · rw [if_pos hempty] at h
        cases h
        rw [List.isEmpty_iff.1 hempty]
        rfl
      · rw [if_neg hempty] at h
        cases h
  | cons c cs ih =>
      rw [splitOnce?] at h
      by_cases hprefix : separator.isPrefixOf (c :: cs) = true
      · rw [if_pos hprefix] at h
        cases h
        exact (List.prefix_iff_eq_append.1 (List.isPrefixOf_iff_prefix.1 hprefix)).symm
      · rw [if_neg hprefix] at h
        obtain ⟨⟨before', after'⟩, hrest, heq⟩ := Option.map_eq_some_iff.1 h
        cases heq
        rw [ih hrest]
        rfl

end Text

namespace Rdf

/-! ## Parts of a row of characters -/

section Parts

variable {P : Char → Prop} {cs : List Char}

theorem forall_of_cutAt (mark : Char) (hmark : P mark)
    (hfirst : ∀ c ∈ (cutAt mark cs).1, P c)
    (hrest : ∀ part, (cutAt mark cs).2 = some part → ∀ c ∈ part, P c) : ∀ c ∈ cs, P c := by
  rw [← takeWhile_append_cutAt mark cs]
  intro c hc
  rcases List.mem_append.1 hc with hc | hc
  · exact hfirst c hc
  · cases hpart : (cutAt mark cs).2 with
    | none =>
        rw [hpart] at hc
        cases hc
    | some part =>
        rw [hpart] at hc
        rcases List.mem_cons.1 hc with rfl | hc
        · exact hmark
        · exact hrest part hpart c hc

theorem forall_of_splitOn (mark : Char) (hmark : P mark)
    (hparts : ∀ part ∈ cs.splitOn mark, ∀ c ∈ part, P c) : ∀ c ∈ cs, P c := by
  induction cs with
  | nil => exact List.forall_mem_nil _
  | cons d cs ih =>
      rw [List.splitOn_cons_eq_if_modifyHead] at hparts
      by_cases hd : d = mark
      · subst hd
        rw [if_pos (beq_self_eq_true d)] at hparts
        have hrest := ih fun part hpart => hparts part (List.mem_cons_of_mem _ hpart)
        exact List.forall_mem_cons.2 ⟨hmark, hrest⟩
      · rw [if_neg (by simpa using hd)] at hparts
        obtain ⟨first, others, heq⟩ := List.exists_cons_of_ne_nil (List.splitOn_ne_nil mark cs)
        rw [heq] at hparts ih
        have hfirst := hparts (d :: first) List.mem_cons_self
        refine List.forall_mem_cons.2 ⟨hfirst d List.mem_cons_self, ih ?_⟩
        refine List.forall_mem_cons.2 ⟨?_, ?_⟩
        · exact fun c hc => hfirst c (List.mem_cons_of_mem d hc)
        · exact fun part hpart => hparts part (List.mem_cons_of_mem _ hpart)

end Parts

/-! ## Characters of the parts -/

/-- A character of a class is not one outside of it. -/
theorem ne_of_class {allowed : Char → Bool} {c d : Char} (h : allowed c = true)
    (hd : allowed d = false) : c ≠ d := by
  rintro rfl
  rw [hd] at h
  cases h

/-- A character that can stand in an identifier: one of a query, or one that marks a part. -/
def isIriChar (c : Char) : Bool :=
  isQueryChar c || "#%[]".toList.contains c

section Characters

variable {c : Char} {cs : List Char}

theorem isIriChar_of_isPathChar (h : isPathChar c = true) : isIriChar c = true := by
  rw [isIriChar, isQueryChar, h]
  rfl

theorem isIriChar_of_isQueryChar (h : isQueryChar c = true) : isIriChar c = true := by
  rw [isIriChar, h]
  rfl

theorem isIriChar_of_isFragmentChar (h : isFragmentChar c = true) : isIriChar c = true := by
  apply isIriChar_of_isQueryChar
  rw [isFragmentChar] at h
  rw [isQueryChar, h]
  rfl

theorem isIriChar_of_isNameChar (h : isNameChar c = true) : isIriChar c = true := by
  apply isIriChar_of_isPathChar
  rw [isPathChar, h]
  rfl

theorem isIriChar_of_isAlphanum (h : c.isAlphanum = true) : isIriChar c = true := by
  apply isIriChar_of_isNameChar
  rw [isNameChar, isUnreserved, h]
  rfl

theorem isIriChar_of_isDigit (h : c.isDigit = true) : isIriChar c = true := by
  apply isIriChar_of_isAlphanum
  rw [Char.isAlphanum, h, Bool.or_true]

theorem isIriChar_of_isEncoded {allowed : Char → Bool} (h : isEncoded allowed cs = true)
    (hallowed : ∀ c, allowed c = true → isIriChar c = true) : ∀ c ∈ cs, isIriChar c = true := by
  fun_induction isEncoded allowed cs with
  | case1 => exact List.forall_mem_nil _
  | case2 a b rest ih =>
      rw [Bool.and_eq_true] at h
      obtain ⟨hhex, hrest⟩ := h
      have hdigits := Text.isAlphanum_of_hexNumber? hhex
      have ha := isIriChar_of_isAlphanum (hdigits a (by simp))
      have hb := isIriChar_of_isAlphanum (hdigits b (by simp))
      simp only [List.forall_mem_cons]
      exact ⟨by decide, ha, hb, ih hrest⟩
  | case3 c rest _ ih =>
      rw [Bool.and_eq_true] at h
      exact List.forall_mem_cons.2 ⟨hallowed c h.1, ih h.2⟩

theorem isIriChar_of_isOctet (h : isOctet cs = true) : ∀ c ∈ cs, isIriChar c = true := by
  simp only [isOctet, Bool.and_eq_true, List.all_eq_true] at h
  exact fun c hc => isIriChar_of_isDigit (h.1.2 c hc)

theorem isIriChar_of_isIpv4 (h : isIpv4 cs = true) : ∀ c ∈ cs, isIriChar c = true := by
  rw [isIpv4, Bool.and_eq_true, List.all_eq_true] at h
  exact forall_of_splitOn '.' (by decide) fun octet hoctet =>
    isIriChar_of_isOctet (h.2 octet hoctet)

theorem isIriChar_of_countGroups? {octetsAllowed : Bool} {groups : List (List Char)}
    (h : (countGroups? octetsAllowed groups).isSome = true) :
    ∀ group ∈ groups, ∀ c ∈ group, isIriChar c = true := by
  induction groups with
  | nil => exact List.forall_mem_nil _
  | cons group groups ih =>
      rw [countGroups?] at h
      split at h
      · next hdigits =>
        rw [Option.isSome_map] at h
        rw [Bool.and_eq_true] at hdigits
        have hgroup : ∀ c ∈ group, isIriChar c = true := fun c hc =>
          isIriChar_of_isAlphanum (Text.isAlphanum_of_hexNumber? hdigits.2 c hc)
        exact List.forall_mem_cons.2 ⟨hgroup, ih h⟩
      · split at h
        · next hoctets =>
          rw [Bool.and_eq_true, Bool.and_eq_true, List.isEmpty_iff] at hoctets
          obtain ⟨⟨-, rfl⟩, hoctets⟩ := hoctets
          exact List.forall_mem_singleton.2 (isIriChar_of_isIpv4 hoctets)
        · cases h

theorem isIriChar_of_countPart? {octetsAllowed : Bool} {n : Nat}
    (h : countPart? octetsAllowed cs = some n) : ∀ c ∈ cs, isIriChar c = true := by
  rw [countPart?] at h
  by_cases hempty : cs.isEmpty = true
  · rw [List.isEmpty_iff.1 hempty]
    exact List.forall_mem_nil _
  · rw [if_neg hempty] at h
    exact forall_of_splitOn ':' (by decide)
      (isIriChar_of_countGroups? (by rw [h, Option.isSome_some]))

theorem isIriChar_of_isIpv6 (h : isIpv6 cs = true) : ∀ c ∈ cs, isIriChar c = true := by
  rw [isIpv6] at h
  split at h
  · have hcount : countGroups? true (cs.splitOn ':') = some 8 := by simpa using h
    exact forall_of_splitOn ':' (by decide)
      (isIriChar_of_countGroups? (by rw [hcount, Option.isSome_some]))
  · next before after hparts =>
    rw [Text.splitOnce?_eq hparts]
    split at h
    · next hbefore hafter =>
      simp only [List.forall_mem_append, List.forall_mem_cons]
      exact ⟨⟨isIriChar_of_countPart? hbefore, by decide, by decide, List.forall_mem_nil _⟩,
        isIriChar_of_countPart? hafter⟩
    · cases h

theorem isIriChar_of_isFutureAddress (h : isFutureAddress cs = true) :
    ∀ c ∈ cs, isIriChar c = true := by
  cases cs with
  | nil => exact List.forall_mem_nil _
  | cons v rest =>
      simp only [isFutureAddress, Bool.and_eq_true, Option.any_eq_true] at h
      obtain ⟨⟨⟨hv, -⟩, hversion⟩, address, haddress, -, hall⟩ := h
      have hletter : isIriChar v = true := by
        rw [Bool.or_eq_true, beq_iff_eq, beq_iff_eq] at hv
        rcases hv with rfl | rfl
        · decide
        · decide
      refine List.forall_mem_cons.2 ⟨hletter, forall_of_cutAt '.' (by decide) ?_ ?_⟩
      · exact fun c hc => isIriChar_of_isAlphanum (Text.isAlphanum_of_hexNumber? hversion c hc)
      · intro part hpart c hc
        rw [haddress] at hpart
        cases hpart
        have hchar := List.all_eq_true.1 hall c hc
        rw [Bool.or_eq_true, Bool.and_eq_true, beq_iff_eq] at hchar
        rcases hchar with hchar | rfl
        · exact isIriChar_of_isNameChar hchar.1
        · decide

theorem isIriChar_of_isPort (h : isPort cs = true) : ∀ c ∈ cs, isIriChar c = true := by
  rw [isPort, List.all_eq_true] at h
  exact fun c hc => isIriChar_of_isDigit (h c hc)

theorem isIriChar_of_isHost (h : isHost cs = true) : ∀ c ∈ cs, isIriChar c = true := by
  unfold isHost at h
  split at h
  · next rest =>
    rw [Bool.and_eq_true, Bool.or_eq_true] at h
    obtain ⟨haddress, hafter⟩ := h
    refine List.forall_mem_cons.2 ⟨by decide, forall_of_cutAt ']' (by decide) ?_ ?_⟩
    · rcases haddress with haddress | haddress
      · exact isIriChar_of_isIpv6 haddress
      · exact isIriChar_of_isFutureAddress haddress
    · intro part hpart
      split at hafter
      · next hnone =>
        rw [hnone] at hpart
        cases hpart
        exact List.forall_mem_nil _
      · next port hport =>
        rw [hport] at hpart
        cases hpart
        exact List.forall_mem_cons.2 ⟨by decide, isIriChar_of_isPort hafter⟩
      · cases hafter
  · rw [Bool.and_eq_true] at h
    refine forall_of_cutAt ':' (by decide) ?_ ?_
    · exact isIriChar_of_isEncoded h.1 fun c => isIriChar_of_isNameChar
    · intro part hpart
      rw [hpart] at h
      exact isIriChar_of_isPort h.2

theorem isIriChar_of_isAuthority (h : isAuthority cs = true) : ∀ c ∈ cs, isIriChar c = true := by
  unfold isAuthority at h
  have hcut := takeWhile_append_cutAt '@' cs
  split at h
  · next user host heq =>
    rw [Bool.and_eq_true] at h
    refine forall_of_cutAt '@' (by decide) ?_ ?_
    · rw [heq]
      refine isIriChar_of_isEncoded h.1 fun c hc => ?_
      rw [Bool.or_eq_true, beq_iff_eq] at hc
      rcases hc with hc | rfl
      · exact isIriChar_of_isNameChar hc
      · decide
    · rw [heq]
      intro part hpart
      cases hpart
      exact isIriChar_of_isHost h.2
  · next host heq =>
    rw [heq] at hcut
    rw [← hcut]
    simpa using isIriChar_of_isHost h

theorem isIriChar_of_isScheme (h : isScheme cs = true) : ∀ c ∈ cs, isIriChar c = true := by
  cases cs with
  | nil => exact List.forall_mem_nil _
  | cons d rest =>
      rw [isScheme, Bool.and_eq_true, List.all_eq_true] at h
      have hletter : isIriChar d = true := by
        apply isIriChar_of_isAlphanum
        rw [Char.isAlphanum, h.1, Bool.true_or]
      refine List.forall_mem_cons.2 ⟨hletter, fun c hc => ?_⟩
      have hchar := h.2 c hc
      rw [Bool.or_eq_true] at hchar
      rcases hchar with hchar | hchar
      · exact isIriChar_of_isAlphanum hchar
      · have hmarks : "+-.".toList.all isIriChar = true := by decide
        exact List.all_eq_true.1 hmarks c (List.contains_iff_mem.1 hchar)

end Characters

/-! ## Identifiers -/

namespace Reference

theorem isScheme_of_cutScheme {cs scheme : List Char} (h : (cutScheme cs).1 = some scheme) :
    isScheme scheme = true := by
  unfold cutScheme at h
  split at h
  · split at h
    · next hscheme =>
      cases h
      exact hscheme
    · cases h
  · cases h

theorem isScheme_of_ofChars {cs scheme : List Char} (h : (ofChars cs).scheme = some scheme) :
    isScheme scheme = true :=
  isScheme_of_cutScheme h

end Reference

variable {text : String}

theorem forall_of_elim {P : Char → Prop} {part : Option (List Char)} {f : List Char → List Char}
    (h : ∀ cs, part = some cs → ∀ c ∈ f cs, P c) : ∀ c ∈ part.elim [] f, P c := by
  cases part with
  | none => exact List.forall_mem_nil _
  | some cs => exact h cs rfl

theorem isIriChar_of_isIri (h : isIri text = true) : ∀ c ∈ text.toList, isIriChar c = true := by
  rw [← Reference.toChars_ofChars text.toList]
  rw [isIri, Bool.and_eq_true] at h
  have hvalid := h.2
  simp only [Reference.isValid, Bool.and_eq_true, Option.all_eq_true] at hvalid
  obtain ⟨⟨⟨⟨hauthority, hpath⟩, hquery⟩, hfragment⟩, -⟩ := hvalid
  simp only [Reference.toChars, List.forall_mem_append]
  refine ⟨⟨⟨⟨forall_of_elim ?_, forall_of_elim ?_⟩, ?_⟩, forall_of_elim ?_⟩, forall_of_elim ?_⟩
  · intro scheme hscheme
    have hchars := isIriChar_of_isScheme (Reference.isScheme_of_ofChars hscheme)
    exact List.forall_mem_append.2 ⟨hchars, List.forall_mem_singleton.2 (by decide)⟩
  · intro authority hsome
    have hchars := isIriChar_of_isAuthority (hauthority authority hsome)
    exact List.forall_mem_cons.2 ⟨by decide, List.forall_mem_cons.2 ⟨by decide, hchars⟩⟩
  · exact isIriChar_of_isEncoded hpath fun c => isIriChar_of_isPathChar
  · intro query hsome
    have hchars := isIriChar_of_isEncoded (hquery query hsome) fun c => isIriChar_of_isQueryChar
    exact List.forall_mem_cons.2 ⟨by decide, hchars⟩
  · intro fragment hsome
    have hchars := isIriChar_of_isEncoded (hfragment fragment hsome) fun c =>
      isIriChar_of_isFragmentChar
    exact List.forall_mem_cons.2 ⟨by decide, hchars⟩

theorem head_of_isIri (h : isIri text = true) :
    ∃ c rest, text.toList = c :: rest ∧ c.isAlpha = true := by
  rw [isIri, Bool.and_eq_true] at h
  obtain ⟨scheme, hscheme⟩ := Option.isSome_iff_exists.1 h.1
  have hletters := Reference.isScheme_of_ofChars hscheme
  cases scheme with
  | nil => cases hletters
  | cons c letters =>
      rw [isScheme, Bool.and_eq_true] at hletters
      have hchars := Reference.toChars_ofChars text.toList
      rw [Reference.toChars, hscheme] at hchars
      exact ⟨c, _, hchars.symm, hletters.1⟩

end Rdf

end UsagePolicy

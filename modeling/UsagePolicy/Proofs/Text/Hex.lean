import UsagePolicy.Text.Digits
/-!
# Codes of characters

A character is found again under its code, and the two digits that write a code below 128 are read
as this code. Hexadecimal digits are letters and digits.
-/

namespace UsagePolicy.Text

theorem charOfCode?_toNat (c : Char) : charOfCode? c.toNat = some c := by
  have hvalid : c.toNat.isValidChar := c.valid
  rw [charOfCode?, if_pos hvalid, Char.ofNat_toNat]

theorem hexNumber?_lowerHexDigit :
    ∀ n < 0x80, hexNumber? ['0', '0', lowerHexDigit (n / 16), lowerHexDigit (n % 16)] = some n := by
  decide +kernel

theorem hexNumber?_upperHexDigit :
    ∀ n < 0x80, hexNumber? ['0', '0', upperHexDigit (n / 16), upperHexDigit (n % 16)] = some n := by
  decide +kernel

theorem isAlphanum_of_hexValue? {c : Char} (h : (hexValue? c).isSome = true) :
    c.isAlphanum = true := by
  have hranges : ('0' ≤ c ∧ c ≤ '9') ∨ ('a' ≤ c ∧ c ≤ 'f') ∨ ('A' ≤ c ∧ c ≤ 'F') := by
    rw [hexValue?] at h
    by_cases hdigit : '0' ≤ c ∧ c ≤ '9'
    · exact .inl hdigit
    · by_cases hlower : 'a' ≤ c ∧ c ≤ 'f'
      · exact .inr (.inl hlower)
      · by_cases hupper : 'A' ≤ c ∧ c ≤ 'F'
        · exact .inr (.inr hupper)
        · rw [if_neg hdigit, if_neg hlower, if_neg hupper] at h
          cases h
  simp only [Char.le_def, UInt32.le_iff_toNat_le] at hranges
  change (48 ≤ c.toNat ∧ c.toNat ≤ 57) ∨ (97 ≤ c.toNat ∧ c.toNat ≤ 102) ∨
    (65 ≤ c.toNat ∧ c.toNat ≤ 70) at hranges
  have hcodes : ∀ n < 128, (hexValue? (Char.ofNat n)).isSome = true →
      (Char.ofNat n).isAlphanum = true := by decide +kernel
  have hcode := hcodes c.toNat (by omega)
  rw [Char.ofNat_toNat] at hcode
  exact hcode h

theorem isAlphanum_of_hexNumber? {cs : List Char} (h : (hexNumber? cs).isSome = true) :
    ∀ c ∈ cs, c.isAlphanum = true := by
  unfold hexNumber? at h
  generalize 0 = n at h
  induction cs generalizing n with
  | nil => exact List.forall_mem_nil _
  | cons c cs ih =>
      rw [List.foldlM_cons] at h
      cases hc : hexValue? c with
      | none =>
          rw [hc] at h
          cases h
      | some value =>
          rw [hc] at h
          have hfirst : c.isAlphanum = true :=
            isAlphanum_of_hexValue? (by rw [hc, Option.isSome_some])
          exact List.forall_mem_cons.2 ⟨hfirst, ih _ h⟩

end UsagePolicy.Text

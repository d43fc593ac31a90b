import Mathlib.Algebra.Group.Nat.Defs
import Mathlib.Data.List.TakeWhile
import UsagePolicy.Timestamp
/-!
# Timestamps are read back

What a timestamp writes is read as this timestamp, with its offset and with all digits of its
fraction: zeros that are left out at the end are put in again.
-/

namespace UsagePolicy.Timestamp

/-! ## Digits -/

theorem isDigit_ofNat : ∀ d < 10, (Char.ofNat ('0'.toNat + d)).isDigit = true := by
  decide

theorem toNat_ofNat_sub : ∀ d < 10, (Char.ofNat ('0'.toNat + d)).toNat - '0'.toNat = d := by
  decide

theorem length_digits (width n : Nat) : (digits width n).length = width := by
  induction width generalizing n with
  | zero => rfl
  | succ width ih => rw [digits, List.length_append, ih, List.length_singleton]

theorem isDigit_of_mem_digits {width n : Nat} {c : Char} (h : c ∈ digits width n) :
    c.isDigit = true := by
  induction width generalizing n with
  | zero => cases h
  | succ width ih =>
      rw [digits, List.mem_append, List.mem_singleton] at h
      rcases h with h | rfl
      · exact ih h
      · exact isDigit_ofNat _ (Nat.mod_lt n (by decide))

theorem decimalNumber_digits (width n : Nat) :
    Text.decimalNumber (digits width n) = n % 10 ^ width := by
  induction width generalizing n with
  | zero => rw [digits, Nat.pow_zero, Nat.mod_one]; rfl
  | succ width ih =>
      have hdigit := toNat_ofNat_sub (n % 10) (Nat.mod_lt n (by decide))
      have hlast : Text.decimalNumber (digits (width + 1) n) =
          10 * Text.decimalNumber (digits width (n / 10)) + n % 10 := by
        rw [digits, Text.decimalNumber, List.foldl_append, List.foldl_cons, List.foldl_nil, hdigit]
        rfl
      rw [hlast, ih, Nat.pow_succ', Nat.mod_mul, Nat.add_comm]

theorem readDigits_digits {width n : Nat} (h : n < 10 ^ width) (rest : List Char) :
    readDigits width (digits width n ++ rest) = some (n, rest) := by
  have hlength := length_digits width n
  have htake : (digits width n ++ rest).take width = digits width n := List.take_left' hlength
  have hdrop : (digits width n ++ rest).drop width = rest := List.drop_left' hlength
  have hall : (digits width n).all Char.isDigit = true :=
    List.all_eq_true.2 fun c hc => isDigit_of_mem_digits hc
  rw [readDigits, htake, hdrop, if_pos ⟨hlength, hall⟩, decimalNumber_digits, Nat.mod_eq_of_lt h]

/-! ## Fractions -/

/-- The zeros that are dropped can be put in again. -/
theorem dropTrailingZeros_append (cs : List Char) :
    dropTrailingZeros cs ++ List.replicate (cs.length - (dropTrailingZeros cs).length) '0' =
      cs := by
  let zeros := cs.reverse.takeWhile (· == '0')
  have hsplit : dropTrailingZeros cs ++ zeros.reverse = cs := by
    rw [dropTrailingZeros, ← List.reverse_append, List.takeWhile_append_dropWhile,
      List.reverse_reverse]
  have hlength : cs.length - (dropTrailingZeros cs).length = zeros.reverse.length := by
    have hsum := congrArg List.length hsplit
    rw [List.length_append] at hsum
    omega
  have hzeros : zeros.reverse = List.replicate zeros.reverse.length '0' := by
    refine List.eq_replicate_iff.2 ⟨rfl, fun c hc => ?_⟩
    simpa using List.mem_takeWhile_imp (List.mem_reverse.1 hc)
  rw [hlength, ← hzeros, hsplit]

theorem takeWhile_of_head? {rest : List Char} (h : ∀ c ∈ rest.head?, c.isDigit = false) :
    rest.takeWhile Char.isDigit = [] ∧ rest.dropWhile Char.isDigit = rest := by
  cases rest with
  | nil => exact ⟨rfl, rfl⟩
  | cons c rest =>
      have hdigit : ¬ c.isDigit = true := by simp [h c rfl]
      exact ⟨List.takeWhile_cons_of_neg hdigit, List.dropWhile_cons_of_neg hdigit⟩

theorem readFraction_fractionText {n : Nat} (h : n < 1000000000) {rest : List Char}
    (hrest : ∀ c ∈ rest.head?, c.isDigit = false ∧ c ≠ '.') :
    readFraction (fractionText n ++ rest) = some (n, rest) := by
  have hdigits := dropTrailingZeros_append (digits 9 n)
  have hbound : n < 10 ^ 9 := h
  have hnumber : Text.decimalNumber (digits 9 n) = n := by
    rw [decimalNumber_digits, Nat.mod_eq_of_lt hbound]
  unfold fractionText
  rw [length_digits] at hdigits
  cases hds : dropTrailingZeros (digits 9 n) with
  | nil =>
      rw [hds] at hdigits
      have hzero : n = 0 := by
        rw [← hnumber, ← hdigits]
        rfl
      rw [hzero]
      cases rest with
      | nil => rfl
      | cons c rest =>
          have hpoint : c ≠ '.' := (hrest c rfl).2
          rw [List.nil_append, readFraction]
          intro cs hcs
          exact hpoint (List.head_eq_of_cons_eq hcs)
  | cons d ds =>
      rw [hds] at hdigits
      have hall : ∀ c ∈ d :: ds, c.isDigit = true := by
        intro c hc
        have hmem : c ∈ digits 9 n := by
          rw [← hdigits]
          exact List.mem_append_left _ hc
        exact isDigit_of_mem_digits hmem
      have hnine : ((d :: ds) ++ List.replicate 9 '0').take 9 = digits 9 n := by
        have hlength := congrArg List.length hdigits
        rw [length_digits, List.length_append, List.length_replicate] at hlength
        rw [List.take_append, List.take_of_length_le (by omega), List.take_replicate,
          Nat.min_eq_left (by omega), hdigits]
      obtain ⟨htake, hdrop⟩ := takeWhile_of_head? fun c hc => (hrest c hc).1
      show readFraction ('.' :: ((d :: ds) ++ rest)) = _
      rw [readFraction, List.takeWhile_append_of_pos hall, List.dropWhile_append_of_pos hall,
        htake, hdrop, List.append_nil]
      dsimp only
      rw [hnine, hnumber]
      rfl

/-! ## Offsets -/

theorem readOffset_signed {sign : Char} (hsign : sign = '+' ∨ sign = '-') {minutes : Nat}
    (h : minutes < 1440) :
    readOffset (sign :: (digits 2 (minutes / 60) ++ ':' :: digits 2 (minutes % 60))) =
      some (if sign = '-' then -(minutes : Int) else minutes, []) := by
  have hhours : ∀ rest, readDigits 2 (digits 2 (minutes / 60) ++ rest) =
      some (minutes / 60, rest) := readDigits_digits (by omega)
  have hminutes : readDigits 2 (digits 2 (minutes % 60) ++ []) = some (minutes % 60, []) :=
    readDigits_digits (by omega) []
  rw [List.append_nil] at hminutes
  have hzulu : ¬ (sign = 'Z' ∨ sign = 'z') := by
    rcases hsign with rfl | rfl <;> decide
  have hbounds : minutes / 60 < 24 ∧ minutes % 60 < 60 := by omega
  have htotal : ((minutes / 60 : Nat) : Int) * 60 + (minutes % 60 : Nat) = minutes := by omega
  rw [readOffset, if_neg hzulu, if_pos hsign]
  simp only [hhours, hminutes, readChar, beq_self_eq_true, if_true, Option.bind_eq_bind,
    Option.bind_some, hbounds, and_self, htotal]
  rfl

theorem readOffset_offsetText {offset : Int} (h : offset.natAbs < 1440) :
    readOffset (offsetText offset) = some (offset, []) := by
  unfold offsetText
  split
  · next hzero =>
    rw [hzero]
    rfl
  · split
    · next hnegative =>
      have hvalue : -(offset.natAbs : Int) = offset := by omega
      rw [readOffset_signed (.inr rfl) h, if_pos rfl, hvalue]
    · next hpositive =>
      have hvalue : (offset.natAbs : Int) = offset := by omega
      rw [readOffset_signed (.inl rfl) h, if_neg (by decide), hvalue]

theorem head?_offsetText (offset : Int) :
    ∀ c ∈ (offsetText offset).head?, c.isDigit = false ∧ c ≠ '.' := by
  unfold offsetText
  split
  · intro c hc
    obtain rfl : 'Z' = c := Option.some.inj hc
    decide
  · split
    · simp
    · simp

/-! ## Timestamps -/

theorem daysInMonth_le (year month : Nat) : daysInMonth year month ≤ 31 := by
  unfold daysInMonth
  split
  · split <;> omega
  · split <;> omega

theorem ofReading?_eq (t : Timestamp) :
    ofReading? t.year t.month t.day t.hour t.minute t.second t.nanosecond t.offset = some t := by
  obtain ⟨-, -, -, -, -, hsecond, -, -⟩ := t.valid
  rw [ofReading?, if_neg (by omega), ofParts?, dif_pos t.valid]

theorem ofChars?_toChars (t : Timestamp) : ofChars? t.toChars = some t := by
  obtain ⟨hyear, ⟨-, hmonth⟩, ⟨-, hday⟩, hhour, hminute, hsecond, hnanosecond, hoffset⟩ := t.valid
  have hmonths := daysInMonth_le t.year t.month
  have hyear := readDigits_digits (show t.year < 10 ^ 4 by omega)
  have hmonth := readDigits_digits (show t.month < 10 ^ 2 by omega)
  have hday := readDigits_digits (show t.day < 10 ^ 2 by omega)
  have hhour := readDigits_digits (show t.hour < 10 ^ 2 by omega)
  have hminute := readDigits_digits (show t.minute < 10 ^ 2 by omega)
  have hsecond := readDigits_digits (show t.second < 10 ^ 2 by omega)
  have hfraction := readFraction_fractionText hnanosecond (head?_offsetText t.offset)
  rw [toChars, ofChars?]
  simp only [List.append_assoc, List.cons_append, hyear, hmonth, hday, hhour, hminute, hsecond,
    hfraction, readOffset_offsetText hoffset, readChar, beq_self_eq_true, Bool.true_or, if_true,
    Option.bind_eq_bind, Option.bind_some, List.isEmpty_nil]
  exact t.ofReading?_eq

/-- A timestamp is read back from its text. -/
theorem parse?_render (t : Timestamp) : parse? t.render = some t := by
  rw [parse?, render, String.toList_ofList, ofChars?_toChars]

/-! ## Characters -/

/-- A character that times are written with. -/
def IsTimeChar (c : Char) : Prop :=
  c ∈ ['-', 'T', ':', '.', 'Z', '+'] ∨ c.isDigit = true

theorem isTimeChar_of_mem_digits {width n : Nat} : ∀ c ∈ digits width n, IsTimeChar c :=
  fun _ h => .inr (isDigit_of_mem_digits h)

theorem isTimeChar_of_mem_fractionText {n : Nat} : ∀ c ∈ fractionText n, IsTimeChar c := by
  unfold fractionText
  split
  · exact List.forall_mem_nil _
  · refine List.forall_mem_cons.2 ⟨.inl (by decide), fun c h => ?_⟩
    rw [dropTrailingZeros, List.mem_reverse] at h
    have hdigits := (List.dropWhile_sublist _).mem h
    exact isTimeChar_of_mem_digits c (List.mem_reverse.1 hdigits)

theorem isTimeChar_of_mem_offsetText {offset : Int} : ∀ c ∈ offsetText offset, IsTimeChar c := by
  unfold offsetText
  split
  · exact List.forall_mem_singleton.2 (.inl (by decide))
  · refine List.forall_mem_cons.2 ⟨.inl (by split <;> decide), ?_⟩
    rw [List.forall_mem_append, List.forall_mem_cons]
    exact ⟨isTimeChar_of_mem_digits, .inl (by decide), isTimeChar_of_mem_digits⟩

theorem isTimeChar_of_mem_toChars {t : Timestamp} : ∀ c ∈ t.toChars, IsTimeChar c := by
  have hpart : ∀ {mark : Char} {n : Nat}, mark ∈ ['-', 'T', ':', '.', 'Z', '+'] →
      ∀ c ∈ mark :: digits 2 n, IsTimeChar c := by
    intro mark n hmark
    exact List.forall_mem_cons.2 ⟨.inl hmark, isTimeChar_of_mem_digits⟩
  unfold toChars
  simp only [List.forall_mem_append]
  refine ⟨⟨⟨⟨⟨⟨⟨isTimeChar_of_mem_digits, hpart ?_⟩, hpart ?_⟩, hpart ?_⟩, hpart ?_⟩, hpart ?_⟩,
    isTimeChar_of_mem_fractionText⟩, isTimeChar_of_mem_offsetText⟩
  all_goals decide

theorem notMem_toChars_of_isBreak {t : Timestamp} {c : Char} (h : c = '\n' ∨ c = '\r') :
    c ∉ t.toChars := by
  intro hmem
  rcases h with rfl | rfl
  · exact absurd (isTimeChar_of_mem_toChars _ hmem) (by unfold IsTimeChar; decide)
  · exact absurd (isTimeChar_of_mem_toChars _ hmem) (by unfold IsTimeChar; decide)

end UsagePolicy.Timestamp

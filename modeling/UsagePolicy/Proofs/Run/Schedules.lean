import UsagePolicy.Proofs.Succeeding
import UsagePolicy.Run
/-!
# Steps side by side

What steps come to that are taken side by side depends on the schedule only where several of them
fail: it settles which of their errors is told, and each of them is told under some schedule.
-/

namespace UsagePolicy.Schedule

variable {ε α β : Type} {schedule : Schedule} {outcomes : List (Except ε α)} {results : List α}
  {e : ε}

theorem failures_eq_nil_iff :
    schedule.failures outcomes = [] ↔ ∀ outcome ∈ outcomes, ∃ a, outcome = .ok a := by
  induction outcomes generalizing schedule with
  | nil => simp [failures]
  | cons outcome outcomes ih =>
      cases outcome with
      | ok a => simp [failures, ih]
      | error e => simp [failures]

theorem mem_failures {turn : Nat} :
    (turn, e) ∈ schedule.failures outcomes ↔
      ∃ place, outcomes[place]? = some (.error e) ∧ schedule place = turn := by
  induction outcomes generalizing schedule with
  | nil => simp [failures]
  | cons outcome outcomes ih =>
      rw [← Nat.or_exists_add_one]
      cases outcome with
      | ok a => simp [failures, ih]
      | error e' => simp [failures, ih, eq_comm, and_comm]

theorem minOn?_failures_eq_none_iff :
    (schedule.failures outcomes).minOn? (·.1) = none ↔
      ∀ outcome ∈ outcomes, ∃ a, outcome = .ok a := by
  rw [← failures_eq_nil_iff, ← Option.not_isSome_iff_eq_none, List.isSome_minOn?_iff, not_not]

/-- If all steps succeed, no schedule makes a difference. -/
theorem collect_eq_ok_iff :
    schedule.collect outcomes = .ok results ↔ outcomes.mapM id = .ok results := by
  unfold collect
  cases hfirst : (schedule.failures outcomes).minOn? (·.1) with
  | none => rfl
  | some failure =>
      refine iff_of_false nofun fun hresults => ?_
      have hnone : (schedule.failures outcomes).minOn? (·.1) = none :=
        minOn?_failures_eq_none_iff.2 (Except.exists_mapM_eq_ok_iff.1 ⟨results, hresults⟩)
      rw [hfirst] at hnone
      cases hnone

theorem exists_collect_eq_ok_iff :
    (∃ results, schedule.collect outcomes = .ok results) ↔
      ∀ outcome ∈ outcomes, ∃ a, outcome = .ok a := by
  simp only [collect_eq_ok_iff]
  exact Except.exists_mapM_eq_ok_iff

/-- The error that is told is that of a failure whose turn is first. -/
theorem exists_turn_of_collect (h : schedule.collect outcomes = .error e) :
    ∃ turn, (turn, e) ∈ schedule.failures outcomes ∧
      ∀ failure ∈ schedule.failures outcomes, turn ≤ failure.1 := by
  unfold collect at h
  cases hfirst : (schedule.failures outcomes).minOn? (·.1) with
  | none =>
      obtain ⟨results, hresults⟩ :=
        Except.exists_mapM_eq_ok_iff.2 (minOn?_failures_eq_none_iff.1 hfirst)
      rw [hfirst] at h
      exact nomatch h.symm.trans hresults
  | some first =>
      rw [hfirst] at h
      obtain rfl := Except.error.inj h
      refine ⟨first.1, List.minOn?_mem hfirst, fun failure hfailure => ?_⟩
      have hle := List.apply_get_minOn?_le_of_mem (f := fun f : Nat × ε => f.1) hfailure
      simpa only [hfirst, Option.get_some] using hle

theorem mem_of_collect (h : schedule.collect outcomes = .error e) : .error e ∈ outcomes := by
  obtain ⟨turn, hmem, -⟩ := exists_turn_of_collect h
  obtain ⟨place, hplace, -⟩ := mem_failures.1 hmem
  exact List.mem_of_getElem? hplace

/-- Each of the steps that fail can be the one whose error is told. -/
theorem exists_collect_eq_error (h : .error e ∈ outcomes) :
    ∃ schedule : Schedule, schedule.collect outcomes = .error e := by
  obtain ⟨place, hplace⟩ := List.mem_iff_getElem?.1 h
  let first : Schedule := fun other => if other = place then 0 else 1
  refine ⟨first, ?_⟩
  cases hcollect : first.collect outcomes with
  | ok results =>
      obtain ⟨a, ha⟩ := exists_collect_eq_ok_iff.1 ⟨results, hcollect⟩ _ h
      cases ha
  | error e' =>
      obtain ⟨turn, hmem, hleast⟩ := exists_turn_of_collect hcollect
      have hturn : turn ≤ 0 := hleast (0, e) (mem_failures.2 ⟨place, hplace, if_pos rfl⟩)
      obtain ⟨place', hplace', hfirst⟩ := mem_failures.1 hmem
      have hsame : place' = place := by
        by_contra hne
        rw [show first place' = 1 from if_neg hne] at hfirst
        omega
      rw [hsame, hplace] at hplace'
      rw [Except.error.inj (Option.some.inj hplace')]

variable {R : α → β → Prop} {outcomes' : List (Except ε β)}

theorem failures_eq_of_agree (h : List.Forall₂ (Except.Agree R) outcomes outcomes')
    (schedule : Schedule) : schedule.failures outcomes = schedule.failures outcomes' := by
  induction h generalizing schedule with
  | nil => rfl
  | cons hstep _ ih =>
      cases hstep with
      | error e => exact congrArg _ (ih _)
      | ok _ => exact ih _

/-- Under one schedule, steps that agree fail with the same error or have related results. -/
theorem collect_agree (h : List.Forall₂ (Except.Agree R) outcomes outcomes')
    (schedule : Schedule) :
    Except.Agree (List.Forall₂ R) (schedule.collect outcomes) (schedule.collect outcomes') := by
  unfold collect
  rw [failures_eq_of_agree h]
  cases (schedule.failures outcomes').minOn? (·.1) with
  | some failure => exact .error failure.2
  | none => exact .mapM_id h

end UsagePolicy.Schedule

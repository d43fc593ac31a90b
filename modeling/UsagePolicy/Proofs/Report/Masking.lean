import UsagePolicy.Proofs.Text.Lines
import UsagePolicy.Proofs.Timestamps
import UsagePolicy.Report.Json
import UsagePolicy.Report.Log
import UsagePolicy.Report.Mask
/-!
# Masks hide the times

Two reports that differ in nothing but their times are the same once they are masked, and so are
their logs. Nothing is asked of the names and messages in them: a line break or a mark for a time
that stands in one of them is there in both.
-/

namespace UsagePolicy

/-! ## Times in logs -/

namespace Report

/-- A time behind its mark breaks no lines. -/
theorem notMem_stamp {c : Char} (h : c = '\n' ∨ c = '\r') (t : Timestamp) :
    c ∉ timeMark.toList ++ t.toChars := by
  have hmark : c ∉ timeMark.toList := by
    rcases h with rfl | rfl <;> decide
  rw [List.mem_append, not_or]
  exact ⟨hmark, Timestamp.notMem_toChars_of_isBreak h⟩

/-- Up to the line in which a time stands, a masked log does not depend on that time. -/
theorem exists_maskLog_append (before : String) :
    ∃ masked, ∀ (t : Timestamp) (rest : String),
      maskLog (before ++ (timeMark ++ (t.render ++ ("\n" ++ rest)))) = masked ++ maskLog rest := by
  obtain ⟨lines, line, hcut⟩ := Text.cutsAlike before.toList
  obtain ⟨head, hsplit⟩ := Text.exists_splitOnce?_append timeMark.toList line
  let stamped := s!"{String.ofList head}{timeMark}__TIMESTAMP__"
  refine ⟨String.join (lines.map fun l => s!"{maskLogLine (String.ofList l)}\n") ++
    s!"{stamped}\n", fun t rest => ?_⟩
  have hlines : Text.lines (before ++ (timeMark ++ (t.render ++ ("\n" ++ rest)))) =
      lines.map String.ofList ++
        String.ofList (line ++ (timeMark.toList ++ t.toChars)) :: Text.lines rest := by
    have h := hcut _ rest.toList (List.append_ne_nil_of_left_ne_nil (by decide) _)
      (notMem_stamp (.inl rfl) t) (notMem_stamp (.inr rfl) t)
    rw [List.append_assoc] at h
    simp only [Text.lines, String.toList_append, Timestamp.render, String.toList_ofList]
    rw [show "\n".toList = ['\n'] from rfl, List.singleton_append, h, List.map_append,
      List.map_cons]
  obtain ⟨after, hafter⟩ := hsplit t.toChars
  have hline : maskLogLine (String.ofList (line ++ (timeMark.toList ++ t.toChars))) = stamped := by
    rw [maskLogLine, String.toList_ofList, hafter]
  rw [maskLog, hlines, List.map_append, List.map_cons, hline, String.join_append,
    String.join_cons, ← String.append_assoc, List.map_map]
  rfl

/-- The times of a log are masked, whatever else stands in it. -/
theorem maskLog_renderLog (case : String) (lines : List String) (s s' f f' : Timestamp) :
    maskLog (renderLog case s.render f.render lines) =
      maskLog (renderLog case s'.render f'.render lines) := by
  obtain ⟨opening, hopening⟩ := exists_maskLog_append (" " ++ ("START with test case: " ++ case))
  obtain ⟨closing, hclosing⟩ := exists_maskLog_append
    (String.join (lines.map fun line => s!" {line}\n") ++
      (" " ++ ("CLOSING test case: " ++ case)))
  have hmasked : ∀ s f : Timestamp, maskLog (renderLog case s.render f.render lines) =
      opening ++ (closing ++ maskLog "") := by
    intro s f
    rw [← hclosing f, ← hopening s]
    congr 1
    simp [renderLog, toString, String.append_assoc]
  rw [hmasked, hmasked]

/-! ## Times in reports -/

theorem maskTimesOfMembers_eq_map (members : List (String × Json)) :
    maskTimesOfMembers members = members.map fun m =>
      (m.1, if m.1 ∈ timeKeys then .string "__TIMESTAMP__" else maskTimes m.2) := by
  induction members with
  | nil => rfl
  | cons m members ih => rw [maskTimesOfMembers, ih, List.map_cons]

variable {key : String}

theorem maskTimes_time (h : key ∈ timeKeys) (before after : List (String × Json)) (v v' : Json) :
    maskTimes (.object (before ++ (key, v) :: after)) =
      maskTimes (.object (before ++ (key, v') :: after)) := by
  simp only [maskTimes, maskTimesOfMembers_eq_map, List.map_append, List.map_cons, if_pos h]

/-- What a time is has no part in what a value with it is masked to. -/
theorem mask_time (h : key ∈ timeKeys) (before after : List (String × Json)) (v v' : Json) :
    mask (.object (before ++ (key, v) :: after)) =
      mask (.object (before ++ (key, v') :: after)) := by
  have hkey : key ≠ "tool" := by
    rintro rfl
    exact absurd h (by decide)
  have hkeys : hasKey (before ++ (key, v) :: after) = hasKey (before ++ (key, v') :: after) := by
    funext name
    simp only [hasKey, List.any_append, List.any_cons]
  unfold mask maskVersion
  dsimp only
  rw [hkeys]
  split
  · simp only [modifyMember, List.map_append, List.map_cons, if_neg hkey]
    exact maskTimes_time h _ _ v v'
  · exact maskTimes_time h before after v v'

theorem mask_record_set (h : key ∈ timeKeys) {members members' : List (String × Option Json)}
    {i : Nat} {v v' : Json} (hget : members[i]? = some (key, some v))
    (hset : members' = members.set i (key, some v')) :
    mask (.record members') = mask (.record members) := by
  obtain ⟨hlength, hget⟩ := List.getElem?_eq_some_iff.1 hget
  obtain ⟨before, after, hmembers, -, hsplit⟩ := List.exists_of_set hlength
  rw [hset, hsplit, hmembers, hget]
  simp only [Json.record, List.filterMap_append, List.filterMap_cons, Option.map_some]
  exact mask_time h _ _ v' v

end Report

namespace CaseReport

/-- The report of the same evaluation, had the clock shown other times. -/
def withTimes (r : CaseReport) (startedAt finishedAt : Timestamp) : CaseReport :=
  { r with startedAt := startedAt, finishedAt := finishedAt }

theorem mask_toJson_withTimes (r : CaseReport) (s s' f f' : Timestamp) :
    Report.mask (r.withTimes s f).toJson = Report.mask (r.withTimes s' f').toJson := by
  have hstarted : Report.mask (r.withTimes s' f).toJson = Report.mask (r.withTimes s f).toJson :=
    Report.mask_record_set (i := 8) (by decide) rfl rfl
  have hfinished : Report.mask (r.withTimes s' f').toJson = Report.mask (r.withTimes s' f).toJson :=
    Report.mask_record_set (i := 9) (by decide) rfl rfl
  exact (hfinished.trans hstarted).symm

theorem maskLog_log_withTimes (r : CaseReport) (s s' f f' : Timestamp) :
    Report.maskLog (r.withTimes s f).log = Report.maskLog (r.withTimes s' f').log :=
  Report.maskLog_renderLog r.name r.lines s s' f f'

end CaseReport

end UsagePolicy

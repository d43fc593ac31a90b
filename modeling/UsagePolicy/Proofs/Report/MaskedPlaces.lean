import UsagePolicy.Proofs.Json.Places
import UsagePolicy.Proofs.Report.Masking
/-!
# Places that a mask hides

A mask puts placeholders at the places of times and, in what looks like a case report, at the
version of its tool. All other places keep their shapes. So a second mask finds nothing to hide, and
values that differ at hidden places only are masked to the same value.
-/

namespace UsagePolicy

open Json (Place Step mapMembers)

namespace Report

variable {v v' : Json} {place : Place} {step : Step} {key : String} {change : Json → Json}

/-! ## Hidden places -/

/-- The step to what stands under a key of times. -/
def IsTime (step : Step) : Prop :=
  step = .member "started_at" ∨ step = .member "finished_at"

instance (step : Step) : Decidable (IsTime step) :=
  inferInstanceAs (Decidable (_ ∨ _))

/-- An object with the keys of a case report. -/
def LooksLikeReport (v : Json) : Prop :=
  ∀ key ∈ ["schema", "tool", "case", "verdict", "trace"], (v.child? (.member key)).isSome = true

instance (v : Json) : Decidable (LooksLikeReport v) :=
  inferInstanceAs (Decidable (∀ _ ∈ _, _))

def versionPlace : Place := [.member "tool", .member "version"]

/-- Places of times and, in what looks like a case report, of the version of the tool, with all
places inside them. -/
def Hidden (v : Json) (place : Place) : Prop :=
  (∃ step ∈ place, IsTime step) ∨ LooksLikeReport v ∧ versionPlace <+: place

theorem isTime_member : IsTime (.member key) ↔ key ∈ timeKeys := by
  simp [IsTime, timeKeys]

theorem looksLikeReport_of_shape (h : v.shape = v'.shape) :
    LooksLikeReport v ↔ LooksLikeReport v' := by
  simp only [LooksLikeReport, Json.isSome_child?_of_shape h]

theorem looksLikeReport_object (members : List (String × Json)) :
    LooksLikeReport (.object members) ↔ reportKeys.all (hasKey members) = true := by
  rw [List.all_eq_true]
  unfold LooksLikeReport
  simp only [Json.isSome_child?_iff]
  show (∀ key ∈ reportKeys, key ∈ members.map Prod.fst) ↔ _
  simp [hasKey]

theorem not_hidden_nil (v : Json) : ¬Hidden v [] := by
  simp [Hidden, versionPlace]

theorem not_hidden_iff :
    ¬Hidden v place ↔
      (∀ step ∈ place, ¬IsTime step) ∧ ¬(LooksLikeReport v ∧ versionPlace <+: place) := by
  simp only [Hidden, not_or, not_exists, not_and]

/-! ## Changes under a key -/

/-- Changes what stands under a key, if the value is an object. -/
def modifyUnder (key : String) (change : Json → Json) : Json → Json
  | .object members => .object (modifyMember key change members)
  | v => v

theorem modifyMember_eq (key : String) (change : Json → Json) (members : List (String × Json)) :
    modifyMember key change members =
      mapMembers (fun name v => if name = key then change v else v) members := by
  apply List.map_congr_left
  intro m _
  by_cases hm : m.1 = key
  · simp [hm]
  · simp [hm]

theorem shape_modifyUnder (key : String) (change : Json → Json) (v : Json) :
    (modifyUnder key change v).shape = v.shape := by
  cases v with
  | object members => simp [modifyUnder, modifyMember_eq, Json.shape]
  | _ => rfl

theorem child?_modifyUnder (key : String) (change : Json → Json) (v : Json) (step : Step) :
    (modifyUnder key change v).child? step =
      (v.child? step).map (if step = .member key then change else id) := by
  cases v with
  | object members =>
      cases step with
      | item index => rfl
      | member name =>
          rw [modifyUnder, modifyMember_eq]
          simp only [Json.child?, Json.lookup?_mapMembers, Step.member.injEq]
          split <;> rfl
  | array items =>
      cases step with
      | item index => simp [modifyUnder]
      | member name => rfl
  | _ => rfl

/-- What is changed keeps its shapes where the change keeps them. -/
theorem shapeAt?_modifyUnder (h : ∀ rest, place = .member key :: rest → ∀ w : Json,
    (change w).shapeAt? rest = w.shapeAt? rest) (v : Json) :
    (modifyUnder key change v).shapeAt? place = v.shapeAt? place := by
  cases place with
  | nil => simp [shape_modifyUnder]
  | cons step rest =>
      rw [Json.shapeAt?_cons, Json.shapeAt?_cons, child?_modifyUnder, Option.bind_map]
      congr 1
      funext w
      by_cases hstep : step = .member key
      · rw [Function.comp_apply, if_pos hstep]
        exact h rest (by rw [hstep]) w
      · rw [Function.comp_apply, if_neg hstep]
        rfl

theorem modifyUnder_modifyUnder (h : ∀ w, change (change w) = change w) (v : Json) :
    modifyUnder key change (modifyUnder key change v) = modifyUnder key change v := by
  cases v with
  | object members =>
      simp only [modifyUnder, modifyMember_eq, Json.mapMembers_mapMembers]
      congr 2
      funext name w
      by_cases hname : name = key
      · simp [hname, h]
      · simp [hname]
  | _ => rfl

theorem ordered_modifyUnder (hchange : ∀ w : Json, w.Ordered → (change w).Ordered)
    (h : v.Ordered) : (modifyUnder key change v).Ordered := by
  cases v with
  | object members =>
      rw [modifyUnder, modifyMember_eq]
      apply Json.ordered_mapMembers h
      intro m hm
      have hvalue : m.2.Ordered := (Json.ordered_object.1 h).2 m hm
      split
      · exact hchange m.2 hvalue
      · exact hvalue
  | _ => exact h

/-! ## The version -/

/-- Hides the version of a tool. -/
def maskTool : Json → Json :=
  modifyUnder "version" fun _ => .string "__VERSION__"

theorem maskVersion_eq (v : Json) :
    maskVersion v = if LooksLikeReport v then modifyUnder "tool" maskTool v else v := by
  cases v with
  | object members =>
      simp only [maskVersion, looksLikeReport_object]
      congr 2
  | _ => exact (ite_self _).symm

theorem shapeAt?_maskVersion (h : ¬(LooksLikeReport v ∧ versionPlace <+: place)) :
    (maskVersion v).shapeAt? place = v.shapeAt? place := by
  rw [maskVersion_eq]
  split
  · next hreport =>
    apply shapeAt?_modifyUnder
    rintro rest rfl w
    apply shapeAt?_modifyUnder
    rintro rest rfl
    exact absurd ⟨hreport, rest, rfl⟩ h
  · rfl

theorem at?_maskVersion (h : LooksLikeReport v) :
    (maskVersion v).at? versionPlace =
      (v.at? versionPlace).map fun _ => .string "__VERSION__" := by
  rw [maskVersion_eq, if_pos h]
  simp [versionPlace, maskTool, Json.at?_cons, child?_modifyUnder, Option.map_bind,
    Option.bind_map]

theorem maskVersion_maskVersion (v : Json) : maskVersion (maskVersion v) = maskVersion v := by
  have htool : ∀ w, maskTool (maskTool w) = maskTool w :=
    modifyUnder_modifyUnder fun _ => rfl
  rw [maskVersion_eq (maskVersion v), maskVersion_eq v]
  by_cases h : LooksLikeReport v
  · have h' : LooksLikeReport (modifyUnder "tool" maskTool v) :=
      (looksLikeReport_of_shape (shape_modifyUnder "tool" maskTool v)).2 h
    rw [if_pos h, if_pos h', modifyUnder_modifyUnder htool]
  · rw [if_neg h, if_neg h]

theorem ordered_maskVersion (h : v.Ordered) : (maskVersion v).Ordered := by
  have htool : ∀ w : Json, w.Ordered → (maskTool w).Ordered :=
    fun _ => ordered_modifyUnder fun _ _ => .string _
  rw [maskVersion_eq]
  split
  · exact ordered_modifyUnder htool h
  · exact h

/-! ## Times -/

/-- Hides the times in what stands under a key, which may be one. -/
def maskUnder (key : String) (v : Json) : Json :=
  if key ∈ timeKeys then .string "__TIMESTAMP__" else maskTimes v

theorem maskTimesOfMembers_eq (members : List (String × Json)) :
    maskTimesOfMembers members = mapMembers maskUnder members :=
  maskTimesOfMembers_eq_map members

theorem maskTimesOfItems_eq_map (items : List Json) :
    maskTimesOfItems items = items.map maskTimes := by
  induction items with
  | nil => rfl
  | cons v items ih => rw [maskTimesOfItems, ih, List.map_cons]

theorem shape_maskTimes (v : Json) : (maskTimes v).shape = v.shape := by
  cases v with
  | array items => simp [maskTimes, maskTimesOfItems_eq_map, Json.shape]
  | object members => simp [maskTimes, maskTimesOfMembers_eq, Json.shape]
  | _ => rfl

theorem child?_maskTimes (v : Json) (step : Step) :
    (maskTimes v).child? step =
      (v.child? step).map
        (if IsTime step then fun _ => .string "__TIMESTAMP__" else maskTimes) := by
  cases v with
  | array items =>
      cases step with
      | item index => simp [maskTimes, maskTimesOfItems_eq_map, Json.child?, IsTime]
      | member key => rfl
  | object members =>
      cases step with
      | item index => rfl
      | member key =>
          rw [maskTimes, maskTimesOfMembers_eq]
          simp only [Json.child?, Json.lookup?_mapMembers, isTime_member]
          unfold maskUnder
          split <;> rfl
  | _ => simp [maskTimes, Json.child?]

theorem at?_maskTimes (h : ∀ step ∈ place, ¬IsTime step) (v : Json) :
    (maskTimes v).at? place = (v.at? place).map maskTimes := by
  induction place generalizing v with
  | nil => rfl
  | cons step rest ih =>
      have hstep : ¬IsTime step := h step List.mem_cons_self
      have hrest : ∀ step ∈ rest, ¬IsTime step := fun s hs => h s (List.mem_cons_of_mem step hs)
      rw [Json.at?_cons, Json.at?_cons, child?_maskTimes, if_neg hstep, Option.bind_map,
        Option.map_bind]
      congr 1
      funext w
      exact ih hrest w

theorem shapeAt?_maskTimes (h : ∀ step ∈ place, ¬IsTime step) (v : Json) :
    (maskTimes v).shapeAt? place = v.shapeAt? place := by
  rw [Json.shapeAt?, at?_maskTimes h, Option.map_map]
  congr 1
  funext w
  exact shape_maskTimes w

mutual

theorem maskTimes_maskTimes : ∀ v : Json, maskTimes (maskTimes v) = maskTimes v
  | .array items => by
    rw [maskTimes, maskTimes, maskTimesOfItems_maskTimesOfItems items]
  | .object members => by
    rw [maskTimes, maskTimes, maskTimesOfMembers_maskTimesOfMembers members]
  | .null | .bool _ | .number _ | .string _ => rfl

theorem maskTimesOfItems_maskTimesOfItems :
    ∀ items : List Json, maskTimesOfItems (maskTimesOfItems items) = maskTimesOfItems items
  | [] => rfl
  | v :: items => by
    rw [maskTimesOfItems, maskTimesOfItems, maskTimes_maskTimes v,
      maskTimesOfItems_maskTimesOfItems items]

theorem maskTimesOfMembers_maskTimesOfMembers :
    ∀ members : List (String × Json),
      maskTimesOfMembers (maskTimesOfMembers members) = maskTimesOfMembers members
  | [] => rfl
  | (key, v) :: members => by
    rw [maskTimesOfMembers, maskTimesOfMembers, maskTimesOfMembers_maskTimesOfMembers members]
    by_cases hkey : key ∈ timeKeys
    · rw [if_pos hkey, if_pos hkey]
    · rw [if_neg hkey, if_neg hkey, maskTimes_maskTimes v]

end

theorem ordered_maskTimes (h : v.Ordered) : (maskTimes v).Ordered := by
  induction h with
  | null => exact .null
  | bool value => exact .bool value
  | number text => exact .number text
  | string text => exact .string text
  | array _ ih =>
      rw [maskTimes, maskTimesOfItems_eq_map]
      apply Json.Ordered.array
      intro w hw
      obtain ⟨v, hv, rfl⟩ := List.mem_map.1 hw
      exact ih v hv
  | object hkeys hmembers ih =>
      rw [maskTimes, maskTimesOfMembers_eq]
      apply Json.ordered_mapMembers (.object hkeys hmembers)
      intro m hm
      unfold maskUnder
      split
      · exact .string _
      · exact ih m hm

/-! ## Times and the version -/

theorem maskTimes_modifyUnder (hkey : key ∉ timeKeys)
    (hchange : ∀ w, maskTimes (change w) = change (maskTimes w)) (v : Json) :
    maskTimes (modifyUnder key change v) = modifyUnder key change (maskTimes v) := by
  cases v with
  | object members =>
      simp only [modifyUnder, maskTimes, maskTimesOfMembers_eq, modifyMember_eq,
        Json.mapMembers_mapMembers]
      congr 2
      funext name w
      by_cases hname : name = key
      · simp [maskUnder, hname, hkey, hchange]
      · simp [hname]
  | _ => rfl

/-- The times and the version are hidden one after the other, in any order. -/
theorem maskVersion_maskTimes (v : Json) :
    maskVersion (maskTimes v) = maskTimes (maskVersion v) := by
  have htool : ∀ w, maskTimes (maskTool w) = maskTool (maskTimes w) :=
    maskTimes_modifyUnder (by decide) fun _ => rfl
  rw [maskVersion_eq, maskVersion_eq]
  simp only [looksLikeReport_of_shape (shape_maskTimes v)]
  split
  · exact (maskTimes_modifyUnder (by decide) htool v).symm
  · rfl

theorem mask_mask (v : Json) : mask (mask v) = mask v :=
  calc mask (mask v) = maskTimes (maskVersion (maskTimes (maskVersion v))) := rfl
    _ = maskTimes (maskTimes (maskVersion (maskVersion v))) := by rw [maskVersion_maskTimes]
    _ = maskTimes (maskVersion v) := by rw [maskTimes_maskTimes, maskVersion_maskVersion]

theorem shapeAt?_mask (h : ¬Hidden v place) : (mask v).shapeAt? place = v.shapeAt? place := by
  obtain ⟨htimes, hversion⟩ := not_hidden_iff.1 h
  rw [mask, shapeAt?_maskTimes htimes, shapeAt?_maskVersion hversion]

theorem ordered_mask (h : v.Ordered) : (mask v).Ordered :=
  ordered_maskTimes (ordered_maskVersion h)

/-! ## Placeholders -/

theorem map_const_of_isSome {a b : Option Json} (h : a.isSome = b.isSome) (w : Json) :
    (a.map fun _ => w) = b.map fun _ => w := by
  rcases Json.both_of_isSome_eq h with ⟨rfl, rfl⟩ | ⟨_, _, rfl, rfl⟩
  · rfl
  · rfl

theorem at?_mask_time (h : ¬Hidden v place) (hstep : IsTime step) :
    (mask v).at? (place ++ [step]) =
      (v.at? (place ++ [step])).map fun _ => .string "__TIMESTAMP__" := by
  obtain ⟨htimes, hversion⟩ := not_hidden_iff.1 h
  have hmasked : (mask v).at? (place ++ [step]) =
      ((maskVersion v).at? (place ++ [step])).map fun _ => .string "__TIMESTAMP__" := by
    rw [mask, Json.at?_concat, Json.at?_concat, at?_maskTimes htimes, Option.bind_map,
      Option.map_bind]
    congr 1
    funext w
    rw [Function.comp_apply, child?_maskTimes, if_pos hstep]
    rfl
  rw [hmasked]
  exact map_const_of_isSome (Json.isSome_at?_concat (shapeAt?_maskVersion hversion) step) _

theorem at?_mask_version (h : LooksLikeReport v) :
    (mask v).at? versionPlace =
      (v.at? versionPlace).map fun _ => .string "__VERSION__" := by
  rw [mask, at?_maskTimes (by decide), at?_maskVersion h, Option.map_map]
  rfl

/-! ## Values that differ at hidden places -/

/-- On the way to a hidden place there is a first step to a hidden one. -/
theorem exists_first_of_hidden (h : Hidden v place) :
    ∃ before step rest, place = before ++ [step] ++ rest ∧ ¬Hidden v before ∧
      (IsTime step ∨ LooksLikeReport v ∧ before ++ [step] = versionPlace) := by
  -- By induction from the end, since what begins with a hidden place is hidden too.
  induction place using List.reverseRecOn with
  | nil => exact absurd h (not_hidden_nil v)
  | append_singleton before step ih =>
      by_cases hbefore : Hidden v before
      · obtain ⟨before, first, rest, rfl, hfirst⟩ := ih hbefore
        exact ⟨before, first, rest ++ [step], by simp, hfirst⟩
      · refine ⟨before, step, [], by simp, hbefore, ?_⟩
        rcases h with ⟨s, hs, htime⟩ | ⟨hreport, hversion⟩
        · rcases List.mem_append.1 hs with hs | hs
          · exact absurd (.inl ⟨s, hs, htime⟩) hbefore
          · exact .inl (List.mem_singleton.1 hs ▸ htime)
        · rcases List.prefix_concat_iff.1 hversion with heq | hprefix
          · exact .inr ⟨hreport, heq.symm⟩
          · exact absurd (.inr ⟨hreport, hprefix⟩) hbefore

/-- The second value has the shapes of the first at all places where that hides nothing. -/
def ShownAlike (v v' : Json) : Prop :=
  ∀ place, ¬Hidden v place → v'.shapeAt? place = v.shapeAt? place

namespace ShownAlike

variable (h : ShownAlike v v')
include h

theorem looksLikeReport : LooksLikeReport v' ↔ LooksLikeReport v :=
  looksLikeReport_of_shape (Option.some.inj (h [] (not_hidden_nil v)))

theorem hidden : Hidden v' place ↔ Hidden v place := by
  rw [Hidden, Hidden, h.looksLikeReport]

theorem at?_mask (hplace : Hidden v place) : (mask v').at? place = (mask v).at? place := by
  obtain ⟨before, step, rest, rfl, hbefore, hfirst⟩ := exists_first_of_hidden hplace
  -- The shapes before the first hidden step agree, so it can be taken in both values or in neither.
  have hsome := Json.isSome_at?_concat (h before hbefore) step
  have hmasked : (mask v').at? (before ++ [step]) = (mask v).at? (before ++ [step]) := by
    rcases hfirst with htime | ⟨hreport, hversion⟩
    · rw [at?_mask_time (h.hidden.not.2 hbefore) htime, at?_mask_time hbefore htime]
      exact map_const_of_isSome hsome _
    · rw [hversion] at hsome ⊢
      rw [at?_mask_version (h.looksLikeReport.2 hreport), at?_mask_version hreport]
      exact map_const_of_isSome hsome _
  rw [Json.at?_append _ (before ++ [step]), Json.at?_append _ (before ++ [step]), hmasked]

theorem same_mask : (mask v').Same (mask v) := by
  intro place
  by_cases hplace : Hidden v place
  · rw [Json.shapeAt?, h.at?_mask hplace]
    rfl
  · rw [shapeAt?_mask hplace, shapeAt?_mask (h.hidden.not.2 hplace), h place hplace]

end ShownAlike

/-- A mask changes nothing the second time, and the first time only what is hidden: other places
keep their shapes, what stands under a key of times at a place that is shown becomes a placeholder,
and so does the version of the tool of what looks like a case report. Values that differ at hidden
places only are masked to the same value, and to equal ones if their members are ordered. -/
theorem mask_hidden_only (v : Json) :
    mask (mask v) = mask v ∧
    (∀ place, ¬Hidden v place → (mask v).shapeAt? place = v.shapeAt? place) ∧
    (∀ place step, ¬Hidden v place → IsTime step →
      (mask v).at? (place ++ [step]) =
        (v.at? (place ++ [step])).map fun _ => .string "__TIMESTAMP__") ∧
    (LooksLikeReport v →
      (mask v).at? versionPlace = (v.at? versionPlace).map fun _ => .string "__VERSION__") ∧
    ∀ v', ShownAlike v v' →
      (mask v').Same (mask v) ∧ (v.Ordered → v'.Ordered → mask v' = mask v) := by
  refine ⟨mask_mask v, fun _ => shapeAt?_mask, fun _ _ => at?_mask_time, at?_mask_version, ?_⟩
  intro v' h
  refine ⟨h.same_mask, fun hv hv' => ?_⟩
  exact (ordered_mask hv').eq_of_same (ordered_mask hv) h.same_mask

/-- What a report can look like, with a time at its root and one inside it. -/
def timedReport (version time : String) : Json :=
  .object [("case", .string "c"), ("schema", .null), ("started_at", .string time),
    ("tool", .object [("name", .string "odrl-eval"), ("version", .string version)]),
    ("trace", .array []), ("verdict", .object [("finished_at", .string time)])]

/-- Two reports that only a version and times tell apart. -/
theorem mask_hidden_only_timed :
    let v := timedReport "0.1.0" "2026-01-01T00:00:00Z"
    let v' := timedReport "0.2.0" "2027-01-01T00:00:00Z"
    (mask v).at? versionPlace = some (.string "__VERSION__") ∧
      (mask v).at? [.member "verdict", .member "finished_at"] = some (.string "__TIMESTAMP__") ∧
      mask v' = mask v := by
  intro v v'
  have hreport : LooksLikeReport v := by decide
  have hverdict : ¬Hidden v [.member "verdict"] := by
    rw [not_hidden_iff]
    decide
  have halike : ShownAlike v v' := by
    intro place hplace
    obtain ⟨htimes, hversion⟩ := not_hidden_iff.1 hplace
    -- The second report comes from the first by three changes, each at a hidden place.
    let restarted := modifyUnder "started_at" (fun _ => .string "2027-01-01T00:00:00Z") v
    let finished := modifyUnder "verdict"
      (modifyUnder "finished_at" fun _ => .string "2027-01-01T00:00:00Z") restarted
    have hrestarted : restarted.shapeAt? place = v.shapeAt? place := by
      apply shapeAt?_modifyUnder
      rintro rest rfl
      exact absurd (.inl rfl) (htimes _ List.mem_cons_self)
    have hfinished : finished.shapeAt? place = restarted.shapeAt? place := by
      apply shapeAt?_modifyUnder
      rintro rest rfl w
      apply shapeAt?_modifyUnder
      rintro rest rfl
      exact absurd (.inr rfl) (htimes (.member "finished_at") (by simp))
    have hv' : v' = modifyUnder "tool" (modifyUnder "version" fun _ => .string "0.2.0") finished :=
      rfl
    rw [← hrestarted, ← hfinished, hv']
    apply shapeAt?_modifyUnder
    rintro rest rfl w
    apply shapeAt?_modifyUnder
    rintro rest rfl
    exact absurd ⟨hreport, rest, rfl⟩ hversion
  have hordered : ∀ version time, (timedReport version time).Ordered := by
    intro version time
    simp [timedReport, -String.lt_iff_ltb]
  obtain ⟨-, -, htime, hversion, hsame⟩ := mask_hidden_only v
  refine ⟨hversion hreport, htime _ (.member "finished_at") hverdict (.inr rfl), ?_⟩
  exact (hsame v' halike).2 (hordered _ _) (hordered _ _)

end Report

end UsagePolicy

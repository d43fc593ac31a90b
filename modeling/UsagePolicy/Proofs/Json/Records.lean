import Mathlib.Data.List.Nodup
import UsagePolicy.Proofs.Json.Scanning
/-!
# Reading records

The fields of a record are read back, also those that were left out, if no two have the same name.
-/

namespace UsagePolicy.Json

variable {α : Type}

/-! ## Fields -/

theorem lookup?_eq_some_iff {members : List (String × Json)} (h : (members.map Prod.fst).Nodup)
    {name : String} {v : Json} : lookup? name members = some v ↔ (name, v) ∈ members := by
  constructor
  · intro hlookup
    obtain ⟨⟨n, w⟩, hfind, rfl⟩ := Option.map_eq_some_iff.1 hlookup
    have hname := List.find?_some hfind
    rw [beq_iff_eq] at hname
    subst hname
    exact List.mem_reverse.1 (List.mem_of_find?_eq_some hfind)
  · intro hmem
    have hfound : (members.reverse.find? (·.1 == name)).isSome = true :=
      List.find?_isSome.2 ⟨(name, v), List.mem_reverse.2 hmem, by simp⟩
    obtain ⟨m, hfind⟩ := Option.isSome_iff_exists.1 hfound
    have hm := List.mem_reverse.1 (List.mem_of_find?_eq_some hfind)
    have hname : m.1 = name := by simpa using List.find?_some hfind
    have heq : m = (name, v) := List.inj_on_of_nodup_map h hm hmem hname
    rw [lookup?, hfind, heq]
    rfl

/-- The members of a record that are written. -/
abbrev written (members : List (String × Option Json)) : List (String × Json) :=
  members.filterMap fun m => m.2.map (m.1, ·)

theorem names_written_sublist (members : List (String × Option Json)) :
    ((written members).map Prod.fst).Sublist (members.map Prod.fst) := by
  induction members with
  | nil => exact .slnil
  | cons m members ih =>
      obtain ⟨n, v?⟩ := m
      cases v? with
      | none => exact ih.cons n
      | some v => exact ih.cons_cons n

section

variable {members : List (String × Option Json)} (h : (members.map Prod.fst).Nodup)
include h

theorem lookup?_written {name : String} {v? : Option Json} (hm : (name, v?) ∈ members) :
    lookup? name (written members) = v? := by
  have hwritten : ∀ v, lookup? name (written members) = some v ↔ v? = some v := by
    intro v
    have hnodup := h.sublist (names_written_sublist members)
    rw [lookup?_eq_some_iff hnodup, List.mem_filterMap]
    constructor
    · rintro ⟨⟨n, w?⟩, hmem, hpair⟩
      obtain ⟨w, hw, heq⟩ := Option.map_eq_some_iff.1 hpair
      obtain ⟨rfl, rfl⟩ := Prod.mk.inj heq
      have hsame := List.inj_on_of_nodup_map h hm hmem rfl
      rw [(Prod.mk.inj hsame).2]
      exact hw
    · rintro rfl
      exact ⟨(name, some v), hm, rfl⟩
  exact Option.ext hwritten

theorem fields?_record :
    (record members).fields? (members.map Prod.fst) = some (members.map Prod.snd) := by
  rw [record, fields?, List.map_map]
  refine congrArg some (List.map_congr_left fun m hm => ?_)
  exact lookup?_written h hm

end

/-! ## Plain records -/

attribute [simp] Plain.null Plain.bool Plain.string

section

variable {height : Nat}

@[simp]
theorem plain_array {vs : List Json} : Plain (height + 1) (array vs) ↔ ∀ v ∈ vs, Plain height v :=
  ⟨fun | .array h => h, .array⟩

@[simp]
theorem plain_object {ms : List (String × Json)} :
    Plain (height + 1) (object ms) ↔ ∀ m ∈ ms, Plain height m.2 :=
  ⟨fun | .object h => h, .object⟩

theorem Plain.record {members : List (String × Option Json)}
    (h : ∀ m ∈ members, ∀ v ∈ m.2, Plain height v) : Plain (height + 1) (record members) := by
  refine .object fun m hm => ?_
  obtain ⟨⟨n, v?⟩, hmem, hpair⟩ := List.mem_filterMap.1 hm
  obtain ⟨v, hv, rfl⟩ := Option.map_eq_some_iff.1 hpair
  exact h _ hmem v hv

end

/-! ## Values of fields -/

theorem choice?_string {all : List α} {name : α → String} {a : α}
    (h : all.find? (name · == name a) = some a) : choice? all name (.string (name a)) = some a :=
  h

/-- What is never null is read back also if it is optional. -/
theorem optional?_map {read : Json → Option α} {write : α → Json}
    (hread : ∀ a, read (write a) = some a) (hnull : ∀ a, write a ≠ .null) (a? : Option α) :
    optional? read (a?.map write) = some a? := by
  cases a? with
  | none => rfl
  | some a =>
      rw [Option.map_some, optional?, hread]
      · rfl
      · simpa using hnull a

theorem mapM_map {read : Json → Option α} {write : α → Json} (h : ∀ a, read (write a) = some a)
    (as : List α) : (as.map write).mapM read = some as := by
  induction as with
  | nil => rfl
  | cons a as ih => rw [List.map_cons, List.mapM_cons, h, ih]; rfl

end UsagePolicy.Json

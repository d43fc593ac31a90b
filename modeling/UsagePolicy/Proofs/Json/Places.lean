import Mathlib.Data.List.Sort
import Mathlib.Data.String.Basic
import UsagePolicy.Proofs.Json.Records
/-!
# Places in values

A place is the way from a value to one inside it, over positions of items and keys of members. At
each of its places a value has a shape: a scalar, the length of an array, or the keys of an object.
All these shapes together make up the value, but for the order of the members of an object and for
members that a later one with the same key overrides.
-/

namespace UsagePolicy.Json

/-- A step to an item of an array, or to what stands under a key of an object. -/
inductive Step
  | item (index : Nat)
  | member (key : String)
  deriving DecidableEq

/-- Where a value stands in another. -/
abbrev Place := List Step

/-- The value one step inside. -/
def child? (v : Json) (step : Step) : Option Json :=
  match v, step with
  | array items, .item index => items[index]?
  | object members, .member key => lookup? key members
  | _, _ => none

/-- The value at a place. -/
def at? (v : Json) (place : Place) : Option Json :=
  place.foldlM child? v

/-- What a value is by itself, whatever stands inside it. -/
inductive Shape
  | null
  | bool (value : Bool)
  | number (text : String)
  | string (text : String)
  | array (length : Nat)
  | object (keys : Set String)

def shape : Json → Shape
  | null => .null
  | bool value => .bool value
  | number text => .number text
  | string text => .string text
  | array items => .array items.length
  | object members => .object {key | key ∈ members.map Prod.fst}

def shapeAt? (v : Json) (place : Place) : Option Shape :=
  (v.at? place).map shape

/-- Two documents of one value: neither the order of members counts nor one that is overridden. -/
def Same (v v' : Json) : Prop :=
  ∀ place, v.shapeAt? place = v'.shapeAt? place

/-- Two values that may be missing, if they are so together. -/
theorem both_of_isSome_eq {v? v'? : Option Json} (h : v?.isSome = v'?.isSome) :
    v? = none ∧ v'? = none ∨ ∃ v v', v? = some v ∧ v'? = some v' := by
  cases v? with
  | none =>
      cases v'? with
      | none => exact .inl ⟨rfl, rfl⟩
      | some v' => cases h
  | some v =>
      cases v'? with
      | none => cases h
      | some v' => exact .inr ⟨v, v', rfl, rfl⟩

/-! ## Members -/

variable {key : String} {members : List (String × Json)} {change : String → Json → Json}

theorem isSome_lookup? (members : List (String × Json)) :
    (lookup? key members).isSome = true ↔ key ∈ members.map Prod.fst := by
  simp [lookup?]

/-- Changes the values of members, each in a way that its key may decide. -/
def mapMembers (change : String → Json → Json) (members : List (String × Json)) :
    List (String × Json) :=
  members.map fun m => (m.1, change m.1 m.2)

@[simp]
theorem keys_mapMembers (change : String → Json → Json) (members : List (String × Json)) :
    (mapMembers change members).map Prod.fst = members.map Prod.fst := by
  simp [mapMembers]

theorem lookup?_mapMembers (change : String → Json → Json) (key : String)
    (members : List (String × Json)) :
    lookup? key (mapMembers change members) = (lookup? key members).map (change key) := by
  unfold lookup? mapMembers
  rw [← List.map_reverse, List.find?_map]
  show Option.map _ (Option.map _ (members.reverse.find? (·.1 == key))) = _
  cases hfound : members.reverse.find? (·.1 == key) with
  | none => rfl
  | some m =>
      have hkey : m.1 = key := by simpa using List.find?_some hfound
      simp [hkey]

theorem mapMembers_mapMembers (change change' : String → Json → Json)
    (members : List (String × Json)) :
    mapMembers change (mapMembers change' members) =
      mapMembers (fun key v => change key (change' key v)) members :=
  List.map_map

/-! ## Steps -/

variable {v v' : Json} {step : Step} {place : Place}

@[simp]
theorem at?_nil (v : Json) : v.at? [] = some v := rfl

theorem at?_cons (v : Json) (step : Step) (place : Place) :
    v.at? (step :: place) = (v.child? step).bind (·.at? place) := rfl

theorem at?_append (v : Json) (place place' : Place) :
    v.at? (place ++ place') = (v.at? place).bind (·.at? place') :=
  List.foldlM_append

theorem at?_concat (v : Json) (place : Place) (step : Step) :
    v.at? (place ++ [step]) = (v.at? place).bind (·.child? step) := by
  rw [at?_append]
  congr 1
  funext w
  simp [at?_cons]

@[simp]
theorem shapeAt?_nil (v : Json) : v.shapeAt? [] = some v.shape := rfl

theorem shapeAt?_cons (v : Json) (step : Step) (place : Place) :
    v.shapeAt? (step :: place) = (v.child? step).bind (·.shapeAt? place) := by
  rw [shapeAt?, at?_cons, Option.map_bind]
  rfl

/-- The shape of a value decides which steps lead inside. -/
def Shape.Leads : Shape → Step → Prop
  | .array length, .item index => index < length
  | .object keys, .member key => key ∈ keys
  | _, _ => False

theorem isSome_child?_iff (v : Json) (step : Step) :
    (v.child? step).isSome = true ↔ v.shape.Leads step := by
  cases v with
  | array items =>
      cases step with
      | item index => simp [child?, shape, Shape.Leads]
      | member key => simp [child?, shape, Shape.Leads]
  | object members =>
      cases step with
      | item index => simp [child?, shape, Shape.Leads]
      | member key => exact isSome_lookup? members
  | _ => simp [child?, shape, Shape.Leads]

theorem isSome_child?_of_shape (h : v.shape = v'.shape) (step : Step) :
    (v.child? step).isSome = (v'.child? step).isSome := by
  rw [Bool.eq_iff_iff, isSome_child?_iff, isSome_child?_iff, h]

theorem isSome_at?_concat (h : v.shapeAt? place = v'.shapeAt? place) (step : Step) :
    (v.at? (place ++ [step])).isSome = (v'.at? (place ++ [step])).isSome := by
  unfold shapeAt? at h
  rw [at?_concat, at?_concat]
  cases hw : v.at? place with
  | none =>
      rw [hw, Option.map_none, eq_comm, Option.map_eq_none_iff] at h
      rw [h]
  | some w =>
      rw [hw, Option.map_some, eq_comm, Option.map_eq_some_iff] at h
      obtain ⟨w', hw', hshape⟩ := h
      rw [hw']
      exact isSome_child?_of_shape hshape.symm step

namespace Same

variable (h : v.Same v')
include h

theorem shape_eq : v.shape = v'.shape :=
  Option.some.inj (h [])

theorem child? {w w' : Json} (hw : v.child? step = some w) (hw' : v'.child? step = some w') :
    w.Same w' := by
  intro place
  have hplace := h (step :: place)
  rw [shapeAt?_cons, shapeAt?_cons, hw, hw'] at hplace
  exact hplace

/-- Values are the same all the way down if sameness one step inside is equality. -/
theorem child?_eq (step : Step)
    (heq : ∀ w w', v.child? step = some w → v'.child? step = some w' → w.Same w' → w = w') :
    v.child? step = v'.child? step := by
  rcases both_of_isSome_eq (isSome_child?_of_shape h.shape_eq step) with
    ⟨hw, hw'⟩ | ⟨w, w', hw, hw'⟩
  · rw [hw, hw']
  · rw [hw, hw', heq w w' hw hw' (h.child? hw hw')]

end Same

/-! ## Ordered values -/

/-- Every object lists its members in the order of their keys, each key once. -/
inductive Ordered : Json → Prop
  | null : Ordered null
  | bool (value : Bool) : Ordered (bool value)
  | number (text : String) : Ordered (number text)
  | string (text : String) : Ordered (string text)
  | array {items : List Json} (h : ∀ v ∈ items, Ordered v) : Ordered (array items)
  | object {members : List (String × Json)} (hkeys : (members.map Prod.fst).Pairwise (· < ·))
      (h : ∀ m ∈ members, Ordered m.2) : Ordered (object members)

attribute [simp] Ordered.null Ordered.bool Ordered.number Ordered.string

@[simp]
theorem ordered_array {items : List Json} : Ordered (array items) ↔ ∀ v ∈ items, Ordered v :=
  ⟨fun | .array h => h, .array⟩

@[simp]
theorem ordered_object {members : List (String × Json)} :
    Ordered (object members) ↔
      (members.map Prod.fst).Pairwise (· < ·) ∧ ∀ m ∈ members, Ordered m.2 :=
  ⟨fun | .object hkeys h => ⟨hkeys, h⟩, fun h => .object h.1 h.2⟩

theorem ordered_mapMembers (h : (object members).Ordered)
    (hchange : ∀ m ∈ members, (change m.1 m.2).Ordered) :
    (object (mapMembers change members)).Ordered := by
  rw [ordered_object, keys_mapMembers]
  refine ⟨(ordered_object.1 h).1, ?_⟩
  intro w hw
  obtain ⟨m, hm, rfl⟩ := List.mem_map.1 hw
  exact hchange m hm

theorem eq_of_lookup? {members' : List (String × Json)}
    (hkeys : (members.map Prod.fst).Pairwise (· < ·))
    (hkeys' : (members'.map Prod.fst).Pairwise (· < ·))
    (h : ∀ key, lookup? key members = lookup? key members') : members = members' := by
  have hnodup : (members.map Prod.fst).Nodup := hkeys.imp ne_of_lt
  have hnodup' : (members'.map Prod.fst).Nodup := hkeys'.imp ne_of_lt
  -- No key is repeated, so the members are those that are found; and they stand in one order only.
  have hmem : ∀ m, m ∈ members ↔ m ∈ members' := by
    intro m
    rw [← lookup?_eq_some_iff hnodup, ← lookup?_eq_some_iff hnodup', h m.1]
  have hperm : members.Perm members' :=
    (List.perm_ext_iff_of_nodup hnodup.of_map hnodup'.of_map).2 hmem
  apply hperm.eq_of_pairwise _ (List.pairwise_map.1 hkeys) (List.pairwise_map.1 hkeys')
  intro m m' _ _ hlt hgt
  exact absurd hgt (lt_asymm hlt)

/-- Ordered values are the same only if they are equal. -/
theorem Ordered.eq_of_same (hv : v.Ordered) (hv' : v'.Ordered) (h : v.Same v') : v = v' := by
  induction hv generalizing v' with
  | null => cases hv' <;> cases h.shape_eq; rfl
  | bool value => cases hv' <;> cases h.shape_eq; rfl
  | number text => cases hv' <;> cases h.shape_eq; rfl
  | string text => cases hv' <;> cases h.shape_eq; rfl
  | @array items hitems ih =>
      cases hv' with
      | @array items' hitems' =>
          congr 1
          ext1 index
          apply h.child?_eq (.item index)
          intro w w' hw hw'
          exact ih w (List.mem_of_getElem? hw) (hitems' w' (List.mem_of_getElem? hw'))
      | _ => cases h.shape_eq
  | @object members hkeys hmembers ih =>
      cases hv' with
      | @object members' hkeys' hmembers' =>
          congr 1
          apply eq_of_lookup? hkeys hkeys'
          intro key
          apply h.child?_eq (.member key)
          intro w w' hw hw'
          have hmem := (lookup?_eq_some_iff (hkeys.imp ne_of_lt)).1 hw
          have hmem' := (lookup?_eq_some_iff (hkeys'.imp ne_of_lt)).1 hw'
          exact ih _ hmem (hmembers' _ hmem')
      | _ => cases h.shape_eq

end UsagePolicy.Json

import Mathlib.Data.List.Forall2
/-!
# Steps that succeed

A chain of steps that can fail succeeds when every step does, each on what the one before it came
to. A step that is taken for every element of a list comes to one result for each. Two chains whose
steps agree fail together, and with the same error.
-/

namespace List.Forall₂

variable {α β : Type} {R : α → β → Prop} {xs : List α} {ys : List β}

theorem exists_right (h : List.Forall₂ R xs ys) {x : α} (hx : x ∈ xs) : ∃ y ∈ ys, R x y := by
  induction h with
  | nil => cases hx
  | cons hxy _ ih =>
      rcases List.mem_cons.1 hx with rfl | hx
      · exact ⟨_, List.mem_cons_self, hxy⟩
      · obtain ⟨y, hy, hxy⟩ := ih hx
        exact ⟨y, List.mem_cons_of_mem _ hy, hxy⟩

theorem exists_left (h : List.Forall₂ R xs ys) {y : β} (hy : y ∈ ys) : ∃ x ∈ xs, R x y :=
  h.flip.exists_right hy

variable {γ δ : Type} {f : Nat → α → γ} {g : Nat → α → δ}

/-- What is related to values that depend on their places is related to each at its place. -/
theorem of_mapIdx {R : γ → β → Prop} (h : List.Forall₂ R (xs.mapIdx f) ys) :
    List.Forall₂ (fun x y => ∃ place, R (f place x) y) xs ys := by
  induction xs generalizing f ys with
  | nil =>
      rw [List.mapIdx_nil, List.forall₂_nil_left_iff] at h
      exact h ▸ .nil
  | cons x xs ih =>
      rw [List.mapIdx_cons, List.forall₂_cons_left_iff] at h
      obtain ⟨y, ys', hxy, h, rfl⟩ := h
      exact .cons ⟨0, hxy⟩ ((ih h).imp fun _ _ ⟨place, hplace⟩ => ⟨place + 1, hplace⟩)

theorem mapIdx {R : γ → δ → Prop} (h : ∀ place x, R (f place x) (g place x)) (xs : List α) :
    List.Forall₂ R (xs.mapIdx f) (xs.mapIdx g) := by
  induction xs generalizing f g with
  | nil => exact .nil
  | cons x xs ih =>
      rw [List.mapIdx_cons, List.mapIdx_cons]
      exact .cons (h 0 x) (ih fun place => h (place + 1))

end List.Forall₂

namespace Except

variable {ε ε' α β : Type}

theorem exists_of_isOk {x : Except ε α} (h : x.isOk = true) : ∃ a, x = .ok a := by
  cases x with
  | error e => cases h
  | ok a => exact ⟨a, rfl⟩

theorem exists_of_any {x : Except ε α} {p : α → Bool} (h : x.toOption.any p = true) :
    ∃ a, x = .ok a ∧ p a = true := by
  cases x with
  | error e => cases h
  | ok a => exact ⟨a, rfl, h⟩

theorem bind_eq_ok {x : Except ε α} {f : α → Except ε β} {b : β} :
    (x >>= f) = .ok b ↔ ∃ a, x = .ok a ∧ f a = .ok b := by
  cases x with
  | error e => simp [bind, Except.bind]
  | ok a => simp [bind, Except.bind]

theorem map_eq_ok {x : Except ε α} {f : α → β} {b : β} :
    x.map f = .ok b ↔ ∃ a, x = .ok a ∧ f a = b := by
  cases x with
  | error e => simp [Except.map]
  | ok a => simp [Except.map]

theorem mapError_eq_ok {x : Except ε α} {f : ε → ε'} {a : α} :
    x.mapError f = .ok a ↔ x = .ok a := by
  cases x with
  | error e => simp [Except.mapError]
  | ok a' => simp [Except.mapError]

theorem mapM_eq_ok {f : α → Except ε β} {xs : List α} {ys : List β} :
    xs.mapM f = .ok ys ↔ List.Forall₂ (fun x y => f x = .ok y) xs ys := by
  induction xs generalizing ys with
  | nil =>
      rw [List.mapM_nil, List.forall₂_nil_left_iff]
      exact ⟨fun h => (Except.ok.inj h).symm, fun h => congrArg _ h.symm⟩
  | cons x xs ih =>
      rw [List.mapM_cons, List.forall₂_cons_left_iff, bind_eq_ok]
      constructor
      · rintro ⟨y, hy, h⟩
        obtain ⟨ys', hys, h⟩ := bind_eq_ok.1 h
        exact ⟨y, ys', hy, ih.1 hys, (Except.ok.inj h).symm⟩
      · rintro ⟨y, ys', hy, hys, rfl⟩
        exact ⟨y, hy, bind_eq_ok.2 ⟨ys', ih.2 hys, rfl⟩⟩

/-- If a step succeeds on every element, it succeeds on all of them. -/
theorem exists_mapM_eq_ok_iff {f : α → Except ε β} {xs : List α} :
    (∃ ys, xs.mapM f = .ok ys) ↔ ∀ x ∈ xs, ∃ y, f x = .ok y := by
  simp only [mapM_eq_ok]
  constructor
  · rintro ⟨ys, hys⟩ x hx
    obtain ⟨y, -, hy⟩ := hys.exists_right hx
    exact ⟨y, hy⟩
  · intro h
    induction xs with
    | nil => exact ⟨[], .nil⟩
    | cons x xs ih =>
        obtain ⟨y, hy⟩ := h x List.mem_cons_self
        obtain ⟨ys, hys⟩ := ih fun x hx => h x (List.mem_cons_of_mem _ hx)
        exact ⟨y :: ys, .cons hy hys⟩

/-- Two steps succeed if the first does, and the second wherever the first leads. -/
theorem exists_bind_eq_ok_iff {x : Except ε α} {f : α → Except ε β} {p q : Prop}
    (hx : (∃ a, x = .ok a) ↔ p) (hf : ∀ a, x = .ok a → ((∃ b, f a = .ok b) ↔ q)) :
    (∃ b, (x >>= f) = .ok b) ↔ p ∧ q := by
  simp only [bind_eq_ok]
  constructor
  · rintro ⟨b, a, ha, hb⟩
    exact ⟨hx.1 ⟨a, ha⟩, (hf a ha).1 ⟨b, hb⟩⟩
  · rintro ⟨hp, hq⟩
    obtain ⟨a, ha⟩ := hx.2 hp
    obtain ⟨b, hb⟩ := (hf a ha).2 hq
    exact ⟨b, a, ha, hb⟩

theorem exists_map_eq_ok_iff {x : Except ε α} {f : α → β} :
    (∃ b, x.map f = .ok b) ↔ ∃ a, x = .ok a := by
  cases x with
  | error e => simp [Except.map]
  | ok a => simp [Except.map]

theorem exists_mapError_eq_ok_iff {x : Except ε α} {f : ε → ε'} :
    (∃ a, x.mapError f = .ok a) ↔ ∃ a, x = .ok a :=
  exists_congr fun _ => mapError_eq_ok

/-- If a step depends on the element alone for its success, it succeeds along a list when every
element allows it. -/
theorem exists_foldlM_eq_ok_iff {step : β → α → Except ε β} {p : α → Prop}
    (h : ∀ b a, (∃ b', step b a = .ok b') ↔ p a) {as : List α} {b : β} :
    (∃ b', as.foldlM step b = .ok b') ↔ ∀ a ∈ as, p a := by
  induction as generalizing b with
  | nil => exact iff_of_true ⟨b, rfl⟩ (List.forall_mem_nil p)
  | cons a as ih =>
      rw [List.foldlM_cons, exists_bind_eq_ok_iff (h b a) fun _ _ => ih, List.forall_mem_cons]

/-! ## Outcomes that agree -/

/-- Two outcomes that are one and the same error, or two results in a relation. -/
@[mk_iff]
inductive Agree (R : α → β → Prop) : Except ε α → Except ε β → Prop
  | error (e : ε) : Agree R (.error e) (.error e)
  | ok {a : α} {b : β} (h : R a b) : Agree R (.ok a) (.ok b)

namespace Agree

variable {γ δ : Type} {R : α → β → Prop} {S : γ → δ → Prop}

/-- After one and the same step, outcomes agree if they do whatever the step comes to. -/
theorem bind_left (x : Except ε α) {f : α → Except ε γ} {g : α → Except ε δ}
    (h : ∀ a, Agree S (f a) (g a)) : Agree S (x >>= f) (x >>= g) := by
  cases x with
  | error e => exact .error e
  | ok a => exact h a

/-- A step can follow that takes related results to outcomes that agree. -/
theorem bind {x : Except ε α} {y : Except ε β} {f : α → Except ε γ} {g : β → Except ε δ}
    (h : Agree R x y) (hstep : ∀ a b, R a b → Agree S (f a) (g b)) :
    Agree S (x >>= f) (y >>= g) := by
  cases h with
  | error e => exact .error e
  | ok h => exact hstep _ _ h

/-- Rows of outcomes that agree one by one agree when they are taken together. -/
theorem mapM_id {xs : List (Except ε α)} {ys : List (Except ε β)}
    (h : List.Forall₂ (Agree R) xs ys) : Agree (List.Forall₂ R) (xs.mapM id) (ys.mapM id) := by
  induction h with
  | nil => exact .ok .nil
  | cons hstep _ ih =>
      rw [List.mapM_cons, List.mapM_cons]
      exact .bind hstep fun a b hab => .bind ih fun as bs hrest => .ok (.cons hab hrest)

end Agree

end Except

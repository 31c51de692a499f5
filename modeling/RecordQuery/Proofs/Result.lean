import Mathlib.Data.List.Forall2

/-!
# Results of several steps

A step gives a result or fails, and several steps in a row fail with the first that does. So from
the result of a whole its steps are read off: of a `map` and a bind each of them, of `List.mapM` one
for every element.
-/

namespace RecordQuery

theorem map_ok_iff {x : Except ε α} {f : α → β} {b : β} :
    x.map f = .ok b ↔ ∃ a, x = .ok a ∧ b = f a := by
  cases x <;> simp [Except.map, eq_comm]

theorem map_error_iff {x : Except ε α} {f : α → β} {e : ε} :
    x.map f = .error e ↔ x = .error e := by
  cases x <;> simp [Except.map]

theorem bind_ok_iff {x : Except ε α} {f : α → Except ε β} {b : β} :
    (x >>= f) = .ok b ↔ ∃ a, x = .ok a ∧ f a = .ok b := by
  cases x <;> simp [bind, Except.bind]

theorem bind_error_iff {x : Except ε α} {f : α → Except ε β} {e : ε} :
    (x >>= f) = .error e ↔ x = .error e ∨ ∃ a, x = .ok a ∧ f a = .error e := by
  cases x <;> simp [bind, Except.bind]

variable {f : α → Except ε β} {xs : List α} {ys : List β}

/-- What can be told of every result from what it comes from. -/
theorem map_eq_of_forall₂ {R : α → β → Prop} {g : β → γ} {k : α → γ}
    (h : List.Forall₂ R xs ys) (hR : ∀ x y, R x y → g y = k x) : ys.map g = xs.map k := by
  induction h with
  | nil => rfl
  | cons first _ ih => rw [List.map_cons, List.map_cons, hR _ _ first, ih]

theorem mapM_cons_ok_iff {x : α} :
    (x :: xs).mapM f = .ok ys ↔ ∃ y zs, f x = .ok y ∧ xs.mapM f = .ok zs ∧ ys = y :: zs := by
  rw [List.mapM_cons]
  cases f x with
  | error e => simp [bind, Except.bind]
  | ok y => cases xs.mapM f <;> simp [bind, Except.bind, pure, Except.pure, eq_comm]

theorem mapM_ok_iff : xs.mapM f = .ok ys ↔ List.Forall₂ (fun x y => f x = .ok y) xs ys := by
  induction xs generalizing ys with
  | nil => simp [pure, Except.pure, eq_comm]
  | cons x xs ih => rw [mapM_cons_ok_iff, List.forall₂_cons_left_iff]; simp only [ih]

theorem mapM_ok_mem (h : xs.mapM f = .ok ys) {y : β} (hy : y ∈ ys) : ∃ x ∈ xs, f x = .ok y := by
  have each := mapM_ok_iff.mp h
  clear h
  induction each with
  | nil => cases hy
  | @cons x y' xs ys first _ ih =>
    obtain rfl | hy := List.mem_cons.mp hy
    · exact ⟨x, List.mem_cons_self, first⟩
    · obtain ⟨x', hx', hf⟩ := ih hy
      exact ⟨x', List.mem_cons_of_mem _ hx', hf⟩

theorem ok_of_mapM_ok (h : xs.mapM f = .ok ys) {x : α} (hx : x ∈ xs) : ∃ y ∈ ys, f x = .ok y := by
  have each := mapM_ok_iff.mp h
  clear h
  induction each with
  | nil => cases hx
  | @cons x' y xs ys first _ ih =>
    obtain rfl | hx := List.mem_cons.mp hx
    · exact ⟨y, List.mem_cons_self, first⟩
    · obtain ⟨y', hy', hf⟩ := ih hx
      exact ⟨y', List.mem_cons_of_mem _ hy', hf⟩

/-- A traversal succeeds if every element does. -/
theorem exists_mapM_ok (h : ∀ x ∈ xs, ∃ y, f x = .ok y) : ∃ ys, xs.mapM f = .ok ys := by
  induction xs with
  | nil => exact ⟨[], rfl⟩
  | cons x xs ih =>
    obtain ⟨y, hy⟩ := h x List.mem_cons_self
    obtain ⟨ys, hys⟩ := ih fun x hx => h x (List.mem_cons_of_mem _ hx)
    exact ⟨y :: ys, mapM_cons_ok_iff.mpr ⟨y, ys, hy, hys, rfl⟩⟩

/-- What every step keeps, a run keeps. -/
theorem foldlM_ok_keeps {step : σ → α → Except ε σ} {view : σ → γ}
    (keeps : ∀ p x q, step p x = .ok q → view q = view p) {p q : σ}
    (h : xs.foldlM step p = .ok q) : view q = view p := by
  induction xs generalizing p with
  | nil =>
    cases h
    rfl
  | cons x xs ih =>
    rw [List.foldlM_cons] at h
    obtain ⟨p', first, rest⟩ := bind_ok_iff.mp h
    rw [ih rest, keeps p x p' first]

theorem mapM_ok_map {g : β → γ} {k : α → γ} (hf : ∀ x y, f x = .ok y → g y = k x)
    (h : xs.mapM f = .ok ys) : ys.map g = xs.map k :=
  map_eq_of_forall₂ (mapM_ok_iff.mp h) hf

/-! ## Two results -/

/-- Both results are there and related, or both steps fail with the same error. -/
inductive Alike (R : α → β → Prop) : Except ε α → Except ε β → Prop
  | ok {a : α} {b : β} (h : R a b) : Alike R (.ok a) (.ok b)
  | error (e : ε) : Alike R (.error e) (.error e)

namespace Alike

variable {R : α → β → Prop} {x : Except ε α} {y : Except ε β}

theorem of_ok {a : α} {b : β} (h : Alike R (.ok a : Except ε α) (.ok b)) : R a b := by
  cases h
  assumption

theorem mono {S : α → β → Prop} (h : Alike R x y) (hS : ∀ a b, R a b → S a b) : Alike S x y := by
  cases h with
  | ok h => exact .ok (hS _ _ h)
  | error e => exact .error e

theorem mapM {f : γ → Except ε α} {g : γ → Except ε β} {xs : List γ}
    (h : ∀ x ∈ xs, Alike R (f x) (g x)) :
    Alike (List.Forall₂ R) (xs.mapM f) (xs.mapM g) := by
  induction xs with
  | nil => exact .ok .nil
  | cons x xs ih =>
    have first := h x List.mem_cons_self
    have rest := ih fun x' hx => h x' (List.mem_cons_of_mem _ hx)
    rw [List.mapM_cons, List.mapM_cons]
    generalize f x = fx, g x = gx at first
    generalize xs.mapM f = fs, xs.mapM g = gs at rest
    cases first with
    | error e => exact .error e
    | ok one =>
      cases rest with
      | error e => exact .error e
      | ok more => exact .ok (.cons one more)

end Alike

end RecordQuery

import Mathlib.Data.List.Forall2
import TestLens.Run

namespace TestLens

section Option

variable {α β : Type} {f : α → Option β} {xs : List α} {ys : List β}

theorem mapM_eq_some_iff : xs.mapM f = some ys ↔ List.Forall₂ (fun x y => f x = some y) xs ys := by
  induction xs generalizing ys
  case nil => simp [eq_comm]
  case cons x xs hi =>
    simp only [List.mapM_cons, Option.bind_eq_bind, Option.bind_eq_some_iff, hi, Option.pure_def,
      Option.some.injEq, List.forall₂_cons_left_iff]
    simp only [eq_comm, exists_and_left]

theorem mapM_eq_some_map {g : α → β} (h : ∀ x ∈ xs, f x = some (g x)) :
    xs.mapM f = some (xs.map g) := by
  rw [mapM_eq_some_iff, List.forall₂_map_right_iff, List.forall₂_same]
  exact h

theorem mapM_eq_some_iff_forall {p : α → Prop} {g : α → β}
    (hf : ∀ x y, f x = some y ↔ p x ∧ g x = y) :
    xs.mapM f = some ys ↔ (∀ x ∈ xs, p x) ∧ xs.map g = ys := by
  simp only [mapM_eq_some_iff, hf, List.forall₂_and_left]
  rw [← List.forall₂_map_left_iff, List.forall₂_eq_eq_eq]

end Option

namespace Run

variable {α β : Type}

theorem bind_eq_ok_iff {x : Run α} {f : α → Run β} {b : β} :
    (x >>= f).result = .ok b ↔ ∃ a, x.result = .ok a ∧ (f a).result = .ok b := by
  obtain ⟨log, _ | a⟩ := x <;> simp

theorem bind_eq_error_iff {x : Run α} {f : α → Run β} {e : Failure} :
    (x >>= f).result = .error e ↔
      x.result = .error e ∨ ∃ a, x.result = .ok a ∧ (f a).result = .error e := by
  obtain ⟨log, _ | a⟩ := x <;> simp

theorem mapM_eq_ok_iff {f : α → Run β} {xs : List α} {ys : List β} :
    (xs.mapM f).result = .ok ys ↔ List.Forall₂ (fun x y => (f x).result = .ok y) xs ys := by
  induction xs generalizing ys
  case nil => simp [eq_comm]
  case cons x xs hi =>
    simp only [List.mapM_cons, bind_eq_ok_iff, hi, pure_eq, Except.ok.injEq,
      List.forall₂_cons_left_iff]
    simp only [eq_comm, exists_and_left]

-- A traversal fails like its first element that fails.
theorem mapM_eq_error_iff {f : α → Run β} {xs : List α} {e : Failure} :
    (xs.mapM f).result = .error e ↔
      ∃ before x after, xs = before ++ x :: after ∧ (∀ y ∈ before, ∃ b, (f y).result = .ok b) ∧
        (f x).result = .error e := by
  induction xs
  case nil => simp
  case cons x xs hi =>
    simp only [List.mapM_cons, bind_eq_error_iff, hi, pure_eq, reduceCtorEq, and_false, exists_false,
      or_false]
    constructor
    case mp =>
      intro h
      cases h
      case inl hx => exact ⟨[], x, xs, rfl, nofun, hx⟩
      case inr h =>
        have ⟨b, hx, before, y, after, hs, hb, hy⟩ := h
        refine ⟨x :: before, y, after, by simp [hs], ?_, hy⟩
        exact List.forall_mem_cons.mpr ⟨⟨b, hx⟩, hb⟩
    case mpr =>
      intro ⟨before, y, after, hs, hb, hy⟩
      cases before
      case nil =>
        obtain ⟨rfl, rfl⟩ := List.cons.inj hs
        exact .inl hy
      case cons z before =>
        obtain ⟨rfl, rfl⟩ := List.cons.inj hs
        have ⟨⟨b, hx⟩, hb⟩ := List.forall_mem_cons.mp hb
        exact .inr ⟨b, hx, before, y, after, rfl, hb, hy⟩

end Run

end TestLens

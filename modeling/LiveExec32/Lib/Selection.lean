import Mathlib.Algebra.Order.Ring.Int
import Mathlib.Data.List.Basic

/-! # Scanning a list for its best element

The loop `for (x : xs) if (!selected || better(x, selected)) selected = x;`. The comparison only has
to agree with an order on the elements scanned: `select_spec` is what the loop returns then. -/

namespace Selection

variable {α κ : Type}

/-- One round of the scan. -/
def consider (better : α → α → Bool) (selected : Option α) (x : α) : Option α :=
  match selected with
  | none => some x
  | some s => if better x s then some x else some s

/-- The element the scan ends with. -/
def select (better : α → α → Bool) (xs : List α) : Option α := xs.foldl (consider better) none

variable {better : α → α → Bool}

theorem foldl_consider_mem (xs : List α) (selected : Option α) {m : α}
    (h : xs.foldl (consider better) selected = some m) : m ∈ xs ∨ selected = some m := by
  induction xs generalizing selected with
  | nil => exact .inr h
  | cons _ _ ih =>
    rcases ih _ h with hmem | hx
    · exact .inl (List.mem_cons_of_mem _ hmem)
    · unfold consider at hx
      split at hx
      · cases hx
        exact .inl List.mem_cons_self
      · split at hx
        · cases hx
          exact .inl List.mem_cons_self
        · exact .inr hx

/-- Whatever the comparison, the scan returns an element of the list. -/
theorem select_mem {xs : List α} {m : α} (h : select better xs = some m) : m ∈ xs :=
  (foldl_consider_mem xs none h).resolve_right (by simp)

variable [LinearOrder κ] {key : α → κ}

/-- The scan continued from a selected element keeps the least key seen. -/
theorem foldl_consider (xs : List α) (s : α)
    (hbetter : ∀ x ∈ s :: xs, ∀ y ∈ s :: xs, (better x y ↔ key x < key y)) :
    ∃ m, xs.foldl (consider better) (some s) = some m ∧ m ∈ s :: xs ∧
      ∀ y ∈ s :: xs, key m ≤ key y := by
  induction xs generalizing s with
  | nil => exact ⟨s, rfl, by simp, by simp⟩
  | cons x rest ih =>
    have hxs := hbetter x (by simp) s (by simp)
    simp only [List.foldl_cons, consider]
    split
    · rename_i hx
      obtain ⟨m, hm, hmem, hle⟩ := ih x fun a ha b hb =>
        hbetter a (List.mem_cons_of_mem _ ha) b (List.mem_cons_of_mem _ hb)
      refine ⟨m, hm, List.mem_cons_of_mem _ hmem, fun y hy => ?_⟩
      rcases List.mem_cons.1 hy with rfl | hy
      · exact (hle x (by simp)).trans (hxs.1 hx).le
      · exact hle y hy
    · rename_i hx
      have hsub : ∀ a ∈ s :: rest, a ∈ s :: x :: rest := by simp +contextual
      obtain ⟨m, hm, hmem, hle⟩ := ih s fun a ha b hb =>
        hbetter a (hsub a ha) b (hsub b hb)
      refine ⟨m, hm, hsub m hmem, fun y hy => ?_⟩
      have hsx : key s ≤ key x := not_lt.1 (fun hlt => hx (hxs.2 hlt))
      rcases List.mem_cons.1 hy with rfl | hy
      · exact hle _ (by simp)
      · rcases List.mem_cons.1 hy with rfl | hy
        · exact (hle s (by simp)).trans hsx
        · exact hle y (by simp [hy])

/-- **The scan finds an element with the least key**, and finds nothing only in an empty list. -/
theorem select_spec (xs : List α) (hbetter : ∀ x ∈ xs, ∀ y ∈ xs, (better x y ↔ key x < key y)) :
    (xs = [] ∧ select better xs = none) ∨
      ∃ m, select better xs = some m ∧ m ∈ xs ∧ ∀ y ∈ xs, key m ≤ key y := by
  cases xs with
  | nil => exact .inl ⟨rfl, rfl⟩
  | cons x rest => exact .inr (foldl_consider rest x hbetter)

end Selection

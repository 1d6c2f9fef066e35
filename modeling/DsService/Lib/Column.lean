import Mathlib.Algebra.Order.Ring.Nat
import Mathlib.Logic.Function.Basic
import Mathlib.Data.List.Basic

/-!
# Columns as functions

A column of `n` values, read as the function of its index. `tab n f` is the column that lists `f`
at the indices below `n`; writing, appending and reading a column are then updates and
applications of functions.
-/

/-- The column of length `n` that holds `f i` at `i`. -/
def tab {β : Type} (n : Nat) (f : Nat → β) : List β := (List.range n).map f

namespace tab

variable {β γ : Type} {n i : Nat} {f g : Nat → β}

/-- A column has the length it is made with. -/
@[simp] theorem length : (tab n f).length = n := by simp [tab]

/-- A column has the value of its function at every index. -/
theorem getElem? (h : i < n) : (tab n f)[i]? = some (f i) := by simp [tab, h]

/-- Writing in bounds updates the function. -/
theorem set (b : β) : (tab n f).set i b = tab n (Function.update f i b) := by
  apply List.ext_getElem?
  intro j
  rw [List.getElem?_set]
  simp only [tab, List.length_map, List.length_range, List.getElem?_map]
  by_cases hj : j < n
  · by_cases hij : i = j
    · subst hij; simp [hj]
    · simp [hij, hj, Function.update_of_ne (Ne.symm hij)]
  · simp [Nat.not_lt.1 hj]; omega

/-- Appending extends the function. -/
theorem append (b : β) : tab n f ++ [b] = tab (n + 1) (Function.update f n b) := by
  simp only [tab, List.range_succ, List.map_append, List.map_cons, List.map_nil,
    Function.update_self]
  congr 1
  apply List.map_congr_left
  intro j hj
  have hne : j ≠ n := by have := List.mem_range.1 hj; omega
  rw [Function.update_of_ne hne]

/-- A column depends on the indices it has. -/
theorem congr (h : ∀ j, j < n → f j = g j) : tab n f = tab n g :=
  List.map_congr_left fun j hj => h j (List.mem_range.1 hj)

/-- A column determines the function below its length. -/
theorem inj (h : tab n f = tab n g) (hi : i < n) : f i = g i := by
  have := congrArg (·[i]?) h
  simpa [getElem? hi] using this

/-- A column of fields after one record was replaced. -/
theorem field_update (p : β → γ) (b : β) :
    tab n (fun j => p (Function.update f i b j)) =
      tab n (Function.update (fun j => p (f j)) i (p b)) := by
  apply congr
  intro j _
  by_cases hj : j = i
  · subst hj; simp
  · simp [Function.update_of_ne hj]

/-! ## Sums of a column -/

/-- A column with one index more. -/
theorem succ : tab (n + 1) f = tab n f ++ [f n] := by
  simp [tab, List.range_succ]

/-- Of two columns the larger has the larger sum. -/
theorem sum_le {f g : Nat → Nat} (h : ∀ j, j < n → f j ≤ g j) : (tab n f).sum ≤ (tab n g).sum := by
  induction n with
  | zero => exact Nat.le_refl _
  | succ n ih =>
      have h1 := ih fun j hj => h j (Nat.lt_succ_of_lt hj)
      have h2 := h n (Nat.lt_succ_self n)
      rw [succ, succ, List.sum_append, List.sum_append, List.sum_singleton, List.sum_singleton]
      omega

/-- Changing one value of a column changes its sum by the difference. -/
theorem sum_update {f : Nat → Nat} (b : Nat) (hi : i < n) :
    (tab n (Function.update f i b)).sum + f i = (tab n f).sum + b := by
  induction n with
  | zero => exact absurd hi (Nat.not_lt_zero _)
  | succ n ih =>
      rw [succ, succ, List.sum_append, List.sum_append, List.sum_singleton, List.sum_singleton]
      by_cases hin : i = n
      · subst hin
        have hcol : tab i (Function.update f i b) = tab i f :=
          congr fun j hj => Function.update_of_ne (Nat.ne_of_lt hj) _ _
        rw [hcol, Function.update_self]
        omega
      · have h1 := ih (by omega)
        rw [Function.update_of_ne (Ne.symm hin)]
        omega

/-- Counting a list index by index: each index below `n` adds its occurrences, if it is counted. -/
theorem sum_count {P : Nat → Bool} {l : List Nat} (h : ∀ p ∈ l, p < n) :
    (tab n fun p => if P p then l.count p else 0).sum = l.countP P := by
  induction l with
  | nil => simp [tab]
  | cons q l ih =>
      have hq : q < n := h q (List.mem_cons_self ..)
      have hcol : (tab n fun p => if P p then (q :: l).count p else 0) =
          tab n (Function.update (fun p => if P p then l.count p else 0) q
            (if P q then l.count q + 1 else 0)) := by
        refine congr fun p _ => ?_
        rcases eq_or_ne p q with rfl | hne
        · simp
        · simp [hne, List.count_cons_of_ne hne.symm]
      have hsum := sum_update (f := fun p => if P p then l.count p else 0)
        (if P q then l.count q + 1 else 0) hq
      rw [hcol, List.countP_cons]
      have hl := ih fun p hp => h p (List.mem_cons_of_mem _ hp)
      cases hP : P q <;> simp only [hP, if_true, Bool.false_eq_true, if_false] at hsum ⊢ <;> omega

end tab

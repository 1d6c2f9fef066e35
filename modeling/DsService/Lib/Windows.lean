import Mathlib.Data.List.Perm.Basic
import Mathlib.Algebra.Order.Ring.Nat

/-!
# Windows

A sequence of bounds that does not decrease cuts a half open interval into the windows between
neighbours. A point of the interval lies in exactly one of them (`existsUnique_window`), so
filtering a list by each window in turn yields a permutation of filtering it by the interval
(`flatMap_windows_perm`), also where windows are empty.
-/

variable {β γ : Type} [LinearOrder β] {b : Nat → β}

/-- Bounds that do not decrease from one to the next are monotone. -/
theorem bounds_le {m : Nat} (hmono : ∀ i, i < m → b i ≤ b (i + 1)) {i j : Nat} (hij : i ≤ j)
    (hj : j ≤ m) : b i ≤ b j := by
  induction hij with
  | refl => exact le_rfl
  | @step j _ ih => exact (ih (by omega)).trans (hmono j (by omega))

/-- **A point of the interval lies in exactly one window.** -/
theorem existsUnique_window {m : Nat} (hmono : ∀ i, i < m → b i ≤ b (i + 1)) {x : β}
    (h0 : b 0 ≤ x) (hm : x < b m) : ∃! i, i < m ∧ b i ≤ x ∧ x < b (i + 1) := by
  have hex : ∃ i, i < m ∧ b i ≤ x ∧ x < b (i + 1) := by
    induction m with
    | zero => exact absurd hm (not_lt.2 h0)
    | succ m ih =>
        rcases lt_or_ge x (b m) with hlt | hge
        · obtain ⟨i, hi, hx⟩ := ih (fun i hi => hmono i (by omega)) hlt
          exact ⟨i, by omega, hx⟩
        · exact ⟨m, by omega, hge, hm⟩
  obtain ⟨i, hi, hlo, hhi⟩ := hex
  refine ⟨i, ⟨hi, hlo, hhi⟩, fun j hj => ?_⟩
  obtain ⟨hj, hlo', hhi'⟩ := hj
  -- the point is below the end of either window, so neither window comes after the other
  rcases Nat.lt_trichotomy j i with hlt | heq | hlt
  · exact absurd (hhi'.trans_le ((bounds_le hmono hlt (by omega)).trans hlo)) (lt_irrefl _)
  · exact heq
  · exact absurd (hhi.trans_le ((bounds_le hmono hlt (by omega)).trans hlo')) (lt_irrefl _)

/-- **The windows together are the interval.** -/
theorem flatMap_windows_perm (f : γ → β) (l : List γ) {m : Nat}
    (hmono : ∀ i, i < m → b i ≤ b (i + 1)) :
    ((List.range m).flatMap fun i => l.filter fun c => b i ≤ f c ∧ f c < b (i + 1)).Perm
      (l.filter fun c => b 0 ≤ f c ∧ f c < b m) := by
  induction m with
  | zero =>
      rw [List.filter_eq_nil_iff.2 fun c _ => by simp [not_lt]]
      exact .refl _
  | succ m ih =>
      have ih := ih fun i hi => hmono i (by omega)
      rw [List.range_succ, List.flatMap_append, List.flatMap_singleton]
      -- the new interval is the old one with the last window
      have hlow : l.filter (fun c => b 0 ≤ f c ∧ f c < b m) =
          (l.filter fun c => b 0 ≤ f c ∧ f c < b (m + 1)).filter fun c => f c < b m := by
        rw [List.filter_filter]
        refine List.filter_congr fun c _ => ?_
        have := hmono m (by omega)
        simp only [← Bool.decide_and, decide_eq_decide]
        exact ⟨fun h => ⟨h.2, h.1, h.2.trans_le this⟩, fun h => ⟨h.2.1, h.1⟩⟩
      have hhigh : l.filter (fun c => b m ≤ f c ∧ f c < b (m + 1)) =
          (l.filter fun c => b 0 ≤ f c ∧ f c < b (m + 1)).filter fun c => !decide (f c < b m) := by
        rw [List.filter_filter]
        refine List.filter_congr fun c _ => ?_
        have := bounds_le hmono (Nat.zero_le m) (by omega)
        simp only [← decide_not, ← Bool.decide_and, decide_eq_decide, not_lt]
        exact ⟨fun h => ⟨h.1, this.trans h.1, h.2⟩, fun h => ⟨h.1, h.2.2⟩⟩
      rw [hhigh]
      refine (ih.append_right _).trans ?_
      rw [hlow]
      exact List.filter_append_perm _ _

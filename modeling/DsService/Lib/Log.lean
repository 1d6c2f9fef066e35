import DsService.Lib.Register
import Mathlib.Data.List.TakeWhile

/-!
# Logs

A `Log` is a part of the state to which some requests append. Where a history of overlapping calls
has an order (`Linearizes`), the calls that appended stand in the log in this order (`appenders`),
and each call finds a prefix of it, of `seen` entries (`Linearizes.log_pre`): those of the calls
before it (`Linearizes.mem_seen`), and no fewer than an earlier call (`Linearizes.seen_le`).
-/

namespace Locking

variable {σ ο ρ κ β : Type}

/-- A part of the state that is empty at the start, and to which some requests append. -/
structure Log (M : Machine σ ο ρ) (cell : σ → List β) (appends : ο → Option β) : Prop where
  init : cell M.init = []
  step : ∀ {m op r m'}, M.step m op = some (r, m') → cell m' = cell m ++ (appends op).toList

/-- The log holds what was appended. -/
theorem Log.cell_eq {M : Machine σ ο ρ} {cell : σ → List β} {appends : ο → Option β}
    (hlog : Log M cell appends) {es : List (Machine.Event σ ο ρ)} {m : σ} (h : M.Run es m) :
    cell m = es.filterMap fun e => appends e.op := by
  induction h with
  | nil => exact hlog.init
  | snoc _ hs ih =>
    rw [hlog.step hs, ih, List.filterMap_append]
    congr 1

/-- The calls that appended, with what they appended. -/
def appenders (appends : ο → Option β) (l : List (κ × Machine.Event σ ο ρ)) : List (κ × β) :=
  l.filterMap fun p => (appends p.2.op).map (p.1, ·)

/-- An appender is a call of the run that appends. -/
theorem mem_appenders {appends : ο → Option β} {l : List (κ × Machine.Event σ ο ρ)} {i : κ}
    {b : β} : (i, b) ∈ appenders appends l ↔ ∃ e, (i, e) ∈ l ∧ appends e.op = some b := by
  unfold appenders
  rw [List.mem_filterMap]
  constructor
  · rintro ⟨⟨i', e⟩, he, heq⟩
    obtain ⟨b', hb, hpair⟩ := Option.map_eq_some_iff.1 heq
    cases hpair
    exact ⟨e, he, hb⟩
  · rintro ⟨e, he, hb⟩
    exact ⟨(i, e), he, by rw [hb]; rfl⟩

/-- The calls that appended stand in the order of all calls. -/
theorem appenders_sublist (appends : ο → Option β) (l : List (κ × Machine.Event σ ο ρ)) :
    ((appenders appends l).map Prod.fst).Sublist (l.map Prod.fst) := by
  induction l with
  | nil => exact .slnil
  | cons p l ih =>
    unfold appenders
    cases hb : appends p.2.op with
    | none =>
      rw [List.filterMap_cons_none (by rw [hb]; rfl)]
      exact ih.cons _
    | some b =>
      rw [List.filterMap_cons_some (by rw [hb]; rfl)]
      exact ih.cons_cons _

variable [DecidableEq κ]

/-- How many calls before `j` appended. -/
def seen (appends : ο → Option β) (l : List (κ × Machine.Event σ ο ρ)) (j : κ) : Nat :=
  (appenders appends (l.takeWhile fun p => p.1 ≠ j)).length

/-- Nothing is seen that was not appended. -/
theorem seen_le_length (appends : ο → Option β) (l : List (κ × Machine.Event σ ο ρ)) (j : κ) :
    seen appends l j ≤ (appenders appends l).length :=
  ((List.takeWhile_prefix _).filterMap _).length_le

namespace Linearizes

variable {M : Machine σ ο ρ} {H : List (Visible κ ο ρ)} {l : List (κ × Machine.Event σ ο ρ)}
  {m : σ} {cell : σ → List β} {appends : ο → Option β} {i j k : κ} {e f : Machine.Event σ ο ρ}
variable (h : Linearizes M H l m)
include h

/-- The entries that a call finds are those of the calls before it. -/
theorem take_seen (he : (j, e) ∈ l) : (appenders appends l).take (seen appends l j) =
    appenders appends (l.takeWhile fun p => p.1 ≠ j) := by
  obtain ⟨l₁, l₂, hl, htake, -⟩ := h.split he
  have happend : appenders appends l =
      appenders appends l₁ ++ appenders appends ((j, e) :: l₂) := by
    rw [hl]
    exact List.filterMap_append
  rw [seen, htake, happend]
  exact List.take_left

/-- The cell before a call holds what was appended up to it. -/
theorem log_pre (hlog : Log M cell appends) (he : (j, e) ∈ l) :
    cell e.pre = ((appenders appends l).take (seen appends l j)).map Prod.snd := by
  rw [h.take_seen he]
  obtain ⟨l₁, l₂, hl, htake, -⟩ := h.split he
  have hrun := h.run
  rw [hl, List.map_append, List.map_cons] at hrun
  rw [hlog.cell_eq hrun.split.1, htake, appenders, List.filterMap_map, List.map_filterMap]
  simp [Function.comp_def]

/-- A call sees what stands before it. -/
theorem mem_seen (he : (j, e) ∈ l) {b : β} :
    (i, b) ∈ (appenders appends l).take (seen appends l j) ↔
      (i, b) ∈ appenders appends l ∧ [i, j].Sublist (l.map Prod.fst) := by
  rw [h.take_seen he, mem_appenders, mem_appenders]
  obtain ⟨l₁, l₂, hl, htake, hbefore⟩ := h.split he
  rw [htake]
  constructor
  · rintro ⟨f, hf, hb⟩
    have hfl : (i, f) ∈ l := hl ▸ List.mem_append_left _ hf
    exact ⟨⟨f, hfl, hb⟩, (hbefore hfl).2 hf⟩
  · rintro ⟨⟨f, hf, hb⟩, hsub⟩
    exact ⟨f, (hbefore hf).1 hsub, hb⟩

/-- A later call finds no fewer entries. -/
theorem seen_le (he : (j, e) ∈ l) (hf : (k, f) ∈ l) (hjk : [j, k].Sublist (l.map Prod.fst)) :
    seen appends l j ≤ seen appends l k := by
  obtain ⟨l₁, l₂, -, htake, hbefore⟩ := h.split hf
  have hmem : (j, e) ∈ l.takeWhile fun p => p.1 ≠ k := htake ▸ (hbefore he).1 hjk
  rcases List.prefix_or_prefix_of_prefix (List.takeWhile_prefix fun p => p.1 ≠ j)
    (List.takeWhile_prefix (l := l) fun p => p.1 ≠ k) with hinit | hinit
  · exact (hinit.filterMap _).length_le
  · have hne := List.mem_takeWhile_imp (hinit.subset hmem)
    simp at hne

end Linearizes

end Locking

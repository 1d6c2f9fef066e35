import DsService.Lib.History

/-!
# Locality

A request that `ActsOn` one cell of the state is answered from that cell and changes no other. So
states that agree on a set of cells go on to agree on it, whether the request is about a cell of the
set and both serve it (`ActsOn.agree`) or about another and one of them does (`ActsOn.leave`).
-/

namespace Machine

variable {σ ο ρ κ β : Type}

/-- A machine that leaves undefined all requests but some. -/
def restrict (M : Machine σ ο ρ) (ok : ο → Prop) [DecidablePred ok] : Machine σ ο ρ where
  init := M.init
  step m op := if ok op then M.step m op else none

/-- A restricted machine makes the steps that it is allowed. -/
theorem restrict_step {M : Machine σ ο ρ} {ok : ο → Prop} [DecidablePred ok] {m m' : σ} {op : ο}
    {r : ρ} : (M.restrict ok).step m op = some (r, m') ↔ ok op ∧ M.step m op = some (r, m') := by
  unfold restrict
  dsimp only
  split
  · next h => exact ⟨fun hs => ⟨h, hs⟩, fun hs => hs.2⟩
  · next h => simp [h]

/-- A run of such requests is a run of the restricted machine. -/
theorem Run.restrict {M : Machine σ ο ρ} {ok : ο → Prop} [DecidablePred ok]
    {es : List (Event σ ο ρ)} {m : σ} (h : M.Run es m) (hok : ∀ e ∈ es, ok e.op) :
    (M.restrict ok).Run es m := by
  induction h with
  | nil => exact .nil
  | @snoc es m m' op r _ hs ih =>
      have hlast : ok op := hok ⟨m, op, r, m'⟩ (by simp)
      exact .snoc (ih fun e he => hok e (List.mem_append_left _ he)) (restrict_step.2 ⟨hlast, hs⟩)

/-- The request reads and writes the cell `k` alone. -/
structure ActsOn (step : σ → ο → Option (ρ × σ)) (cell : σ → κ → β) (op : ο) (k : κ) : Prop where
  /-- States with the same cell answer alike and get the same cell. -/
  alike : ∀ {m n r m'}, cell m k = cell n k → step m op = some (r, m') →
    ∃ n', step n op = some (r, n') ∧ cell m' k = cell n' k
  /-- The other cells stay. -/
  other : ∀ {m r m' k'}, step m op = some (r, m') → k' ≠ k → cell m' k' = cell m k'

namespace ActsOn

variable {step : σ → ο → Option (ρ × σ)} {cell : σ → κ → β} {op : ο} {k : κ} {m m' n : σ} {r : ρ}
variable {K : κ → Prop}

/-- Two states that agree on a set of cells answer a request about one of them alike, and agree
after it. -/
theorem agree (h : ActsOn step cell op k) (hk : K k) (hagree : ∀ k, K k → cell m k = cell n k)
    (hs : step m op = some (r, m')) :
    ∃ n', step n op = some (r, n') ∧ ∀ k, K k → cell m' k = cell n' k := by
  obtain ⟨n', hn, hcell⟩ := h.alike (hagree k hk) hs
  refine ⟨n', hn, fun k' hk' => ?_⟩
  by_cases heq : k' = k
  · rw [heq, hcell]
  · rw [h.other hs heq, h.other hn heq, hagree k' hk']

/-- Two states that agree on a set of cells agree on it after one of them serves a request about
another cell. -/
theorem leave (h : ActsOn step cell op k) (hk : ¬ K k) (hagree : ∀ k, K k → cell m k = cell n k)
    (hs : step m op = some (r, m')) : ∀ k, K k → cell m' k = cell n k := by
  intro k' hk'
  have hne : k' ≠ k := by
    rintro rfl
    exact hk hk'
  rw [h.other hs hne, hagree k' hk']

end ActsOn

end Machine

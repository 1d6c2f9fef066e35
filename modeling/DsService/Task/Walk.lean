import DsService.Task.Rows
import DsService.Lib.Worklist

/-!
# The downward walk

`propagate_to_children` on the rows: the walk ends exactly the rows that `Swept` gives, the live
rows that a path of live rows along `children` joins to the start. Termination is in the measure.
Each turn pops one row, and a turn that pushes the children of a row takes those edges out of
`liveEdges`, since the row is final afterwards.
-/

namespace DsService

namespace Rows

variable {Q α : Type} {v : Rows Q α} {c i : Nat}

/-- The row has not ended. -/
def Live (v : Rows Q α) (i : Nat) : Prop := (v.row i).state.isLive = true

/-- The children of a row. -/
def childrenOf (v : Rows Q α) (i : Nat) : List Nat := (v.row i).children

/-- What the walk writes into a row. -/
def endRow (state : TaskState) (output : String) (origin : Nat) (r : Row α) : Row α :=
  { r with state := state, workerId := "", output := output, terminalOrigin := origin }

open Classical in
/-- End every row of a set. -/
noncomputable def endAll (v : Rows Q α) (D : Nat → Prop) (state : TaskState) (output : String)
    (origin : Nat) : Rows Q α :=
  { v with row := fun i => if D i then endRow state output origin (v.row i) else v.row i }

/-- The same rows end alike. -/
theorem endAll_congr {D D' : Nat → Prop} (h : ∀ i, D i ↔ D' i) (state : TaskState)
    (output : String) (origin : Nat) :
    v.endAll D state output origin = v.endAll D' state output origin := by
  rw [funext fun i => propext (h i)]

/-- An ending leaves the child lists as they are. -/
theorem endAll_children (D : Nat → Prop) (state : TaskState) (output : String) (origin : Nat) :
    ((v.endAll D state output origin).row i).children = (v.row i).children := by
  unfold endAll
  dsimp only
  split <;> rfl

/-- Ending one row and then others is ending them all. -/
theorem endAll_set {D : Nat → Prop} (hc : ¬ D c) (state : TaskState) (output : String)
    (origin : Nat) :
    (v.set c (endRow state output origin (v.row c))).endAll D state output origin =
      v.endAll (fun i => i = c ∨ D i) state output origin := by
  unfold endAll
  congr 1
  funext j
  rw [set_row]
  by_cases hj : j = c
  · subst hj; simp [hc]
  · by_cases hD : D j <;> simp [hj, hD]

/-- The edges that leave a live row. -/
def liveEdges (v : Rows Q α) : Nat :=
  (tab v.size fun i => if (v.row i).state.isLive then (v.row i).children.length else 0).sum

/-- The four writes of one turn. -/
theorem endRow_manager (hc : c < v.size) (state : TaskState) (output : String) (origin : Nat) :
    (do
      let m ← v.manager.setState c state
      let m ← m.setWorkerId c ""
      let m ← m.setOutput c output
      m.setTerminalOrigin c origin) =
      some (v.set c (endRow state output origin (v.row c))).manager := by
  rw [setState_manager hc]
  simp only [Option.bind_eq_bind, Option.bind_some]
  rw [setWorkerId_manager (by exact hc)]
  simp only [Option.bind_some, set_set, set_row_self]
  rw [setOutput_manager (by exact hc)]
  simp only [Option.bind_some, set_set, set_row_self]
  rw [setTerminalOrigin_manager (by exact hc)]
  simp only [set_set, set_row_self, endRow]

/-- Ending a live row takes its edges out of the measure. -/
theorem liveEdges_set (hc : c < v.size) (hl : v.Live c) {state : TaskState}
    (hst : state.isLive = false) (output : String) (origin : Nat) :
    (v.set c (endRow state output origin (v.row c))).liveEdges + (v.row c).children.length =
      v.liveEdges := by
  have h := tab.sum_update (n := v.size) (i := c)
    (f := fun i => if (v.row i).state.isLive then (v.row i).children.length else 0) 0 hc
  have hlive : (v.row c).state.isLive = true := hl
  simp only [hlive, ↓reduceIte, Nat.add_zero] at h
  unfold liveEdges
  rw [← h, set_size]
  congr 2
  apply tab.congr
  intro j _
  rw [set_row]
  by_cases hj : j = c
  · subst hj; simp [endRow, hst]
  · rw [if_neg hj, Function.update_of_ne hj]

/-- A turn of the walk leaves the child lists as they are. -/
theorem endRow_childrenOf {c : Nat} (state : TaskState) (output : String) (origin : Nat) :
    (v.set c (endRow state output origin (v.row c))).childrenOf = v.childrenOf := by
  funext j
  simp only [childrenOf, set_row]
  split
  · next hj => subst hj; rfl
  · rfl

/-- A turn of the walk takes one row from the live ones. -/
theorem endRow_live {c j : Nat} {state : TaskState} (hst : state.isLive = false) (output : String)
    (origin : Nat) :
    (v.set c (endRow state output origin (v.row c))).Live j ↔ v.Live j ∧ j ≠ c := by
  simp only [Live, set_row]
  by_cases hj : j = c
  · subst hj; simp [endRow, hst]
  · simp [hj]

/-- One turn of the walk: a live row ends and its children are pushed. -/
theorem propagateLoop_live {c : Nat} (hc : c < v.size) (hl : v.Live c) (state : TaskState)
    (origin : Nat) (output : String) (fuel : Nat) (pending : List Nat) :
    TaskManager.propagateLoop state origin output (fuel + 1) (c :: pending) v.manager =
      TaskManager.propagateLoop state origin output fuel ((v.row c).children.reverse ++ pending)
        (v.set c (endRow state output origin (v.row c))).manager := by
  let w := v.set c (endRow state output origin (v.row c))
  have hwrites := endRow_manager hc state output origin
  simp only [Option.bind_eq_bind] at hwrites
  have hbind : ∀ k : TaskManager Q α → Option (TaskManager Q α),
      ((v.manager.setState c state).bind fun m =>
        (m.setWorkerId c "").bind fun m =>
          (m.setOutput c output).bind fun m => (m.setTerminalOrigin c origin).bind k) =
        k w.manager := by
    intro k
    have := congrArg (Option.bind · k) hwrites
    simpa only [Option.bind_assoc, Option.bind_some] using this
  have hread : w.manager.tasks.children[c]? = some (v.row c).children := by
    rw [children_manager (v := w) hc]
    simp [w, endRow]
  have hlv : (v.row c).state.isLive = true := hl
  rw [TaskManager.propagateLoop, state_manager hc]
  simp only [Option.bind_eq_bind, Option.bind_some, hlv, Bool.not_true, Bool.false_eq_true,
    ↓reduceIte]
  rw [hbind, hread, Option.bind_some]

/-- **The walk ends what a sweep from its stack reaches**, and it has fuel enough when the stack and
the edges of live rows together do not exceed it. -/
theorem propagateLoop_manager {state : TaskState} (hst : state.isLive = false) (origin : Nat)
    (output : String) : ∀ (fuel : Nat) (stack : List Nat) (v : Rows Q α),
      (∀ c ∈ stack, c < v.size) →
      (∀ p, p < v.size → ∀ c ∈ v.childrenOf p, c < v.size) →
      stack.length + v.liveEdges ≤ fuel →
      TaskManager.propagateLoop state origin output fuel stack v.manager =
        some (v.endAll (Swept v.childrenOf v.Live stack) state output origin).manager
  | fuel, [], v, _, _, _ => by
      have hnone : v.endAll (Swept v.childrenOf v.Live []) state output origin = v := by
        simp [endAll, Swept.nil]
      rw [hnone]
      cases fuel <;> rfl
  | 0, c :: pending, v, _, _, hfuel => by
      rw [List.length_cons] at hfuel
      omega
  | fuel + 1, c :: pending, v, hstack, hclosed, hfuel => by
      have hc : c < v.size := hstack c (.head _)
      have hpending : ∀ d ∈ pending, d < v.size := fun d hd => hstack d (.tail _ hd)
      rw [List.length_cons] at hfuel
      by_cases hl : v.Live c
      · let w := v.set c (endRow state output origin (v.row c))
        have hchildren : w.childrenOf = v.childrenOf := endRow_childrenOf _ _ _
        have hlive : ∀ j, w.Live j ↔ v.Live j ∧ j ≠ c := fun j => endRow_live hst _ _
        have hedges : w.liveEdges + (v.row c).children.length = v.liveEdges :=
          liveEdges_set hc hl hst output origin
        have ih := propagateLoop_manager hst origin output fuel
          ((v.row c).children.reverse ++ pending) w
          (by
            intro d hd
            rcases List.mem_append.1 hd with hd | hd
            · exact hclosed c hc d (List.mem_reverse.1 hd)
            · exact hpending d hd)
          (by rw [hchildren]; exact hclosed)
          (by rw [List.length_append, List.length_reverse]; omega)
        rw [propagateLoop_live hc hl, ih, hchildren]
        -- what is ended is the row itself and what the rest of the walk ends
        have hswept : ∀ j, Swept v.childrenOf v.Live (c :: pending) j ↔
            j = c ∨ Swept v.childrenOf w.Live ((v.row c).children.reverse ++ pending) j := by
          intro j
          rw [Swept.cons_live hl]
          refine or_congr Iff.rfl (Swept.congr (fun k => (hlive k).symm) fun k => ?_)
          simp [childrenOf]
        have hnot : ¬ Swept v.childrenOf w.Live ((v.row c).children.reverse ++ pending) c :=
          fun h => ((hlive c).1 h.alive).2 rfl
        rw [endAll_set hnot, endAll_congr hswept]
      · -- a final row is passed over
        have ih := propagateLoop_manager hst origin output fuel pending v hpending hclosed
          (by omega)
        have hlv : (v.row c).state.isLive = false := by simpa [Live] using hl
        rw [TaskManager.propagateLoop, state_manager hc]
        simp only [Option.bind_eq_bind, Option.bind_some, hlv, Bool.not_false, ↓reduceIte]
        rw [ih, endAll_congr fun i => Swept.cons_dead hl]

/-- The output that an ending passes down. -/
def outputFor (v : Rows Q α) (state : TaskState) (origin : Nat) : String :=
  if state = .failed then dependencyFailedOutput (v.row origin).taskId else canceledOutput

/-- The output of an ending names the id of its origin. -/
theorem terminalOutput_manager {origin : Nat} (ho : origin < v.size) (state : TaskState) :
    v.manager.terminalOutput state origin = some (v.outputFor state origin) := by
  unfold TaskManager.terminalOutput outputFor
  split
  · rw [taskId_manager ho]; rfl
  · rfl

/-- The fuel of the walk covers the edges of a row that has ended and those of all live rows. -/
theorem edgeCount_manager (hi : i < v.size) (hd : ¬ v.Live i) :
    (v.row i).children.length + v.liveEdges ≤ v.manager.edgeCount := by
  let f : Nat → Nat := fun j => if (v.row j).state.isLive then (v.row j).children.length else 0
  have hfi : f i = 0 := if_neg hd
  have hsum := tab.sum_update (n := v.size) (f := f) (v.row i).children.length hi
  have hle : (tab v.size (Function.update f i (v.row i).children.length)).sum ≤
      (tab v.size fun j => (v.row j).children.length).sum := by
    apply tab.sum_le
    intro j _
    by_cases hj : j = i
    · subst hj; simp
    · rw [Function.update_of_ne hj]
      simp only [f]
      split <;> omega
  have hedges : v.manager.edgeCount = (tab v.size fun j => (v.row j).children.length).sum := by
    simp [TaskManager.edgeCount, manager, TaskTable.ofRows, tab, Function.comp_def]
  have hlive : v.liveEdges = (tab v.size f).sum := rfl
  omega

/-- `propagate_to_children` from a row that has ended. -/
theorem propagateToChildren_manager {state : TaskState} {origin : Nat} (hi : i < v.size)
    (ho : origin < v.size) (hst : state.isLive = false) (hd : ¬ v.Live i)
    (hclosed : ∀ p, p < v.size → ∀ c ∈ v.childrenOf p, c < v.size) :
    v.manager.propagateToChildren i state origin =
      some (v.endAll (Swept v.childrenOf v.Live (v.childrenOf i)) state
        (v.outputFor state origin) origin).manager := by
  unfold TaskManager.propagateToChildren
  rw [terminalOutput_manager ho, children_manager hi]
  simp only [Option.bind_eq_bind, Option.bind_some]
  rw [propagateLoop_manager hst origin _ _ (v.row i).children.reverse v
    (fun c hc => hclosed i hi c (List.mem_reverse.1 hc)) hclosed
    (by rw [List.length_reverse]; exact edgeCount_manager hi hd)]
  have hstack : ∀ k, k ∈ (v.row i).children.reverse ↔ k ∈ v.childrenOf i := fun k =>
    List.mem_reverse
  rw [endAll_congr fun j => Swept.congr (fun _ => Iff.rfl) hstack]

end Rows

end DsService

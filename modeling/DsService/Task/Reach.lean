import DsService.Task.History
import Mathlib.Data.Multiset.Basic
import Mathlib.Logic.Relation

/-!
# How far a bad ending reaches

`task_cancel` and a report of failure end a row and walk down from it. `WalkStep` is the walk of
`propagate_to_children` with its stack taken as a bag: a turn may pop any of the pending rows. Every
such walk terminates, since a turn pops one row and pushes the edges of a row that it ends
(`Rows.Walkable.step`), and what all the walks end is one set of rows, so they leave one table
(`Rows.Walkable.endsAt`). `BadEnding` says which rows that are: the row itself and its dependents
that were not final, by the parents that the history declares.
-/

namespace DsService

variable {Q α : Type}

/-! ## Rows of the table -/

/-- The row of the table at an index, over all its columns. -/
def TaskTable.row? (t : TaskTable α) (i : Nat) : Option (Row α) := do
  let taskId ← t.taskId[i]?
  let function ← t.function[i]?
  let input ← t.input[i]?
  let output ← t.output[i]?
  let state ← t.state[i]?
  let workerId ← t.workerId[i]?
  let priority ← t.priority[i]?
  let queues ← t.queues[i]?
  let seq ← t.seq[i]?
  let pendingParents ← t.pendingParents[i]?
  let children ← t.children[i]?
  let terminalOrigin ← t.terminalOrigin[i]?
  return ⟨taskId, function, input, output, state, workerId, priority, queues, seq, pendingParents,
    children, terminalOrigin⟩

/-- A row is read off its twelve columns. -/
theorem Rows.row?_manager (v : Rows Q α) (i : Nat) :
    v.manager.tasks.row? i = if i < v.size then some (v.row i) else none := by
  unfold TaskTable.row?
  by_cases hi : i < v.size
  · rw [if_pos hi, taskId_manager hi, function_manager hi, input_manager hi, output_manager hi,
      state_manager hi, workerId_manager hi, priority_manager hi, queues_manager hi, seq_manager hi,
      pendingParents_manager hi, children_manager hi, terminalOrigin_manager hi]
    rfl
  · have hnone : v.manager.tasks.taskId[i]? = none :=
      List.getElem?_eq_none (tab.length.trans_le (Nat.le_of_not_lt hi))
    rw [if_neg hi, hnone]
    rfl

/-- Rows that differ in four fields make tables that differ in four columns. -/
theorem Rows.manager_frame {v w : Rows Q α}
    (hw : w = { v with row := w.row })
    (hrow : ∀ i, ∃ state workerId output origin, w.row i = { v.row i with
      state := state, workerId := workerId, output := output, terminalOrigin := origin }) :
    ∃ states workerIds outputs origins, w.manager = { v.manager with tasks := { v.manager.tasks with
      state := states, workerId := workerIds, output := outputs, terminalOrigin := origins } } := by
  obtain ⟨row, rfl⟩ : ∃ row, w = { v with row := row } := ⟨_, hw⟩
  have hkeep : ∀ {β : Type} (f : Row α → β), (∀ r state workerId output origin,
      f { r with state := state, workerId := workerId, output := output,
                 terminalOrigin := origin } = f r) →
      tab v.size (fun i => f (row i)) = tab v.size fun i => f (v.row i) := by
    intro β f hf
    refine tab.congr fun i _ => ?_
    obtain ⟨_, _, _, _, heq⟩ := hrow i
    rw [show row i = _ from heq, hf]
  refine ⟨tab v.size fun i => (row i).state, tab v.size fun i => (row i).workerId,
    tab v.size fun i => (row i).output, tab v.size fun i => (row i).terminalOrigin, ?_⟩
  simp only [manager, TaskTable.ofRows]
  rw [hkeep Row.taskId fun _ _ _ _ _ => rfl, hkeep Row.function fun _ _ _ _ _ => rfl,
    hkeep Row.input fun _ _ _ _ _ => rfl, hkeep Row.priority fun _ _ _ _ _ => rfl,
    hkeep Row.queues fun _ _ _ _ _ => rfl, hkeep Row.seq fun _ _ _ _ _ => rfl,
    hkeep Row.pendingParents fun _ _ _ _ _ => rfl, hkeep Row.children fun _ _ _ _ _ => rfl]

/-! ## The walk in any order -/

namespace TaskManager

/-- The four writes of one turn of the walk. -/
def endRow (m : TaskManager Q α) (current : Nat) (state : TaskState) (output : String)
    (origin : Nat) : Option (TaskManager Q α) := do
  let m ← m.setState current state
  let m ← m.setWorkerId current ""
  let m ← m.setOutput current output
  m.setTerminalOrigin current origin

/-- One turn of the loop of `propagate_to_children`, on any of the pending rows: a final row is
passed over, and any other is ended and its children become pending. -/
inductive WalkStep (state : TaskState) (origin : Nat) (output : String) :
    Multiset Nat × TaskManager Q α → Multiset Nat × TaskManager Q α → Prop
  | pass {current : Nat} {pending : Multiset Nat} {m : TaskManager Q α} {s : TaskState}
      (hs : m.tasks.state[current]? = some s) (hl : s.isLive = false) :
      WalkStep state origin output (current ::ₘ pending, m) (pending, m)
  | visit {current : Nat} {pending : Multiset Nat} {m m' : TaskManager Q α} {s : TaskState}
      {children : List Nat} (hs : m.tasks.state[current]? = some s) (hl : s.isLive = true)
      (hend : m.endRow current state output origin = some m')
      (hchildren : m'.tasks.children[current]? = some children) :
      WalkStep state origin output (current ::ₘ pending, m) (↑children + pending, m')

/-- A walk of any number of turns. -/
abbrev Walk (state : TaskState) (origin : Nat) (output : String) :
    Multiset Nat × TaskManager Q α → Multiset Nat × TaskManager Q α → Prop :=
  Relation.ReflTransGen (WalkStep state origin output)

/-- Every walk from `start` terminates, never stops before nothing is pending, and then has led to
`m'`, where the walk of the code leads. -/
structure EndsAt (state : TaskState) (origin : Nat) (output : String)
    (start : Multiset Nat × TaskManager Q α) (m' : TaskManager Q α) : Prop where
  acc : Acc (fun next at_ => WalkStep state origin output at_ next) start
  progress : ∀ pending n, Walk state origin output start (pending, n) → pending ≠ 0 →
    ∃ next, WalkStep state origin output (pending, n) next
  result : ∀ n, Walk state origin output start (0, n) → n = m'
  code : Walk state origin output start (0, m')

/-- The loop of the code is such a walk. -/
theorem propagateLoop_walk {state : TaskState} {origin : Nat} {output : String} :
    ∀ {fuel : Nat} {stack : List Nat} {m m' : TaskManager Q α},
      propagateLoop state origin output fuel stack m = some m' →
        Walk state origin output (↑stack, m) (0, m')
  | fuel, [], m, m', h => by
      have hm : m = m' := by cases fuel <;> exact Option.some.inj h
      rw [hm]
      exact .refl
  | 0, _ :: _, m, m', h => by cases h
  | fuel + 1, current :: pending, m, m', h => by
      obtain ⟨s, hs, h⟩ := Option.bind_eq_some_iff.1 h
      rw [← Multiset.cons_coe]
      cases hl : s.isLive with
      | false =>
          rw [hl] at h
          exact .head (.pass hs hl) (propagateLoop_walk h)
      | true =>
          rw [hl] at h
          simp only [Bool.not_true, Bool.false_eq_true, if_false, Option.bind_eq_bind,
            Option.bind_eq_some_iff] at h
          obtain ⟨m₁, h₁, m₂, h₂, m₃, h₃, m₄, h₄, children, hchildren, h⟩ := h
          have hend : m.endRow current state output origin = some m₄ := by
            simp [endRow, h₁, h₂, h₃, h₄]
          have hbag : ((children.reverse ++ pending : List Nat) : Multiset Nat) =
              ↑children + ↑pending := by
            rw [← Multiset.coe_add, Multiset.coe_reverse]
          refine .head (.visit hs hl hend hchildren) ?_
          rw [← hbag]
          exact propagateLoop_walk h

/-- A propagation of the code is a walk from the children of its origin to its end. -/
theorem propagateToChildren_walk {m m' : TaskManager Q α} {index : Nat} {state : TaskState}
    {origin : Nat} {output : String} {children : List Nat}
    (h : m.propagateToChildren index state origin = some m')
    (houtput : m.terminalOutput state origin = some output)
    (hchildren : m.tasks.children[index]? = some children) :
    Walk state origin output (↑children, m) (0, m') := by
  unfold propagateToChildren at h
  rw [houtput, hchildren] at h
  have hwalk := propagateLoop_walk h
  rwa [Multiset.coe_reverse] at hwalk

end TaskManager

/-! ## All walks lead to one table -/

namespace Rows

open TaskManager

variable {v w : Rows Q α} {state : TaskState} {origin : Nat} {output : String}
  {pending pending' : Multiset Nat} {n : TaskManager Q α}

/-- What a turn writes, by rows. -/
theorem endRow_manager' {c : Nat} (hc : c < v.size) :
    v.manager.endRow c state output origin =
      some (v.set c (endRow state output origin (v.row c))).manager :=
  endRow_manager hc state output origin

/-- The rows that a walk will end. -/
def SweptFrom (v : Rows Q α) (pending : Multiset Nat) : Nat → Prop :=
  Swept v.childrenOf v.Live pending.toList

/-- A walk that has come to the rows `v` with `pending` left, on its way to the table `w`. -/
structure Walkable (state : TaskState) (origin : Nat) (output : String) (w v : Rows Q α)
    (pending : Multiset Nat) : Prop where
  pending_lt : ∀ c ∈ pending, c < v.size
  closed : ∀ p, p < v.size → ∀ c ∈ v.childrenOf p, c < v.size
  ends : v.endAll (v.SweptFrom pending) state output origin = w

/-- **A turn keeps the table that the walk leads to, and makes the measure smaller.** -/
theorem Walkable.step (hst : state.isLive = false) (h : Walkable state origin output w v pending)
    (hs : WalkStep state origin output (pending, v.manager) (pending', n)) :
    ∃ v', n = v'.manager ∧ Walkable state origin output w v' pending' ∧
      pending'.card + v'.liveEdges < pending.card + v.liveEdges := by
  generalize hfrom : (pending, v.manager) = from_ at hs
  generalize hto : (pending', n) = to_ at hs
  cases hs with
  | @pass c rest m s hs hl =>
      cases hfrom
      cases hto
      have hc := h.pending_lt c (Multiset.mem_cons_self c _)
      rw [state_manager hc, Option.some.injEq] at hs
      have hdead : ¬ v.Live c := by
        unfold Live
        rw [hs, hl]
        exact Bool.false_ne_true
      refine ⟨v, rfl, ⟨fun d hd => h.pending_lt d (Multiset.mem_cons_of_mem hd), h.closed, ?_⟩, ?_⟩
      · rw [← h.ends]
        refine endAll_congr (fun i => ?_) _ _ _
        refine (Swept.cons_dead hdead).symm.trans (Swept.congr (fun _ => Iff.rfl) fun j => ?_)
        simp
      · rw [Multiset.card_cons]
        omega
  | @visit c rest m m' s children hs hl hend hchildren =>
      cases hfrom
      cases hto
      have hc := h.pending_lt c (Multiset.mem_cons_self c _)
      rw [state_manager hc, Option.some.injEq] at hs
      have hlive : v.Live c := by
        unfold Live
        rw [hs, hl]
      rw [endRow_manager' hc, Option.some.injEq] at hend
      let v' := v.set c (endRow state output origin (v.row c))
      have hkids : children = v.childrenOf c := by
        rw [← hend, children_manager (v := v') hc, Option.some.injEq] at hchildren
        rw [← hchildren]
        simp [v', endRow, childrenOf]
      have hchildrenOf : v'.childrenOf = v.childrenOf := endRow_childrenOf _ _ _
      have hlive' : ∀ j, v'.Live j ↔ v.Live j ∧ j ≠ c := fun j => endRow_live hst _ _
      refine ⟨v', hend.symm, ⟨fun d hd => ?_, ?_, ?_⟩, ?_⟩
      · rcases Multiset.mem_add.1 hd with hd | hd
        · exact h.closed c hc d (hkids ▸ Multiset.mem_coe.1 hd)
        · exact h.pending_lt d (Multiset.mem_cons_of_mem hd)
      · rw [hchildrenOf]
        exact h.closed
      · -- what is ended is the row itself and what the rest of the walk ends
        have hswept : ∀ j, v.SweptFrom (c ::ₘ rest) j ↔
            j = c ∨ v'.SweptFrom (↑children + rest) j := by
          intro j
          have hcons : v.SweptFrom (c ::ₘ rest) j ↔
              Swept v.childrenOf v.Live (c :: rest.toList) j :=
            Swept.congr (fun _ => Iff.rfl) fun k => by simp
          rw [hcons, Swept.cons_live hlive]
          unfold SweptFrom
          rw [hchildrenOf]
          refine or_congr Iff.rfl (Swept.congr (fun k => (hlive' k).symm) fun k => ?_)
          simp [hkids]
        have hnot : ¬ v'.SweptFrom (↑children + rest) c := fun hc =>
          ((hlive' c).1 hc.alive).2 rfl
        rw [endAll_set hnot, endAll_congr fun j => (hswept j).symm, h.ends]
      · have hedges : v'.liveEdges + (v.row c).children.length = v.liveEdges :=
          liveEdges_set hc hlive hst output origin
        have hlen : children.length = (v.row c).children.length := by rw [hkids]; rfl
        rw [Multiset.card_add, Multiset.card_cons, Multiset.coe_card]
        omega

/-- A pending row can be popped. -/
theorem Walkable.progress (h : Walkable state origin output w v pending) (hne : pending ≠ 0) :
    ∃ next, WalkStep state origin output (pending, v.manager) next := by
  obtain ⟨c, hmem⟩ := Multiset.exists_mem_of_ne_zero hne
  obtain ⟨rest, rfl⟩ := Multiset.exists_cons_of_mem hmem
  have hc := h.pending_lt c hmem
  cases hl : (v.row c).state.isLive with
  | false => exact ⟨_, .pass (state_manager hc) hl⟩
  | true =>
      exact ⟨_, .visit (state_manager hc) hl (endRow_manager' hc)
        (children_manager (v := v.set c (endRow state output origin (v.row c))) hc)⟩

/-- The whole walk keeps the table that it leads to. -/
theorem Walkable.walk (hst : state.isLive = false) (h : Walkable state origin output w v pending)
    {at_ : Multiset Nat × TaskManager Q α}
    (hwalk : Walk state origin output (pending, v.manager) at_) :
    ∃ v', at_.2 = v'.manager ∧ Walkable state origin output w v' at_.1 := by
  induction hwalk with
  | refl => exact ⟨v, rfl, h⟩
  | @tail b c _ hs ih =>
      obtain ⟨v₁, hv₁, h₁⟩ := ih
      obtain ⟨bag, m⟩ := b
      cases hv₁
      obtain ⟨v₂, hv₂, h₂, -⟩ := h₁.step hst hs
      exact ⟨v₂, hv₂, h₂⟩

/-- Every walk ends, whatever is popped next. -/
theorem Walkable.acc (hst : state.isLive = false) (h : Walkable state origin output w v pending) :
    Acc (fun next at_ => WalkStep state origin output at_ next) (pending, v.manager) := by
  induction hn : pending.card + v.liveEdges using Nat.strong_induction_on
    generalizing v pending with
  | h measure ih =>
      refine ⟨_, fun next hs => ?_⟩
      obtain ⟨bag, m⟩ := next
      obtain ⟨v', rfl, h', hlt⟩ := h.step hst hs
      exact ih _ (hn ▸ hlt) h' rfl

/-- **Every walk terminates and leads to the same table.** -/
theorem Walkable.endsAt (hst : state.isLive = false)
    (h : Walkable state origin output w v pending)
    (hcode : Walk state origin output (pending, v.manager) (0, w.manager)) :
    EndsAt state origin output (pending, v.manager) w.manager where
  code := hcode
  acc := h.acc hst
  progress := fun bag n hwalk hne => by
    obtain ⟨v', hv', h'⟩ := h.walk hst hwalk
    cases hv'
    exact h'.progress hne
  result := fun n hwalk => by
    obtain ⟨v', hv', h'⟩ := h.walk hst hwalk
    have hdone : v'.endAll (v'.SweptFrom 0) state output origin = v' := by
      simp [endAll, SweptFrom, Swept.nil]
    have hw := h'.ends
    rw [hdone] at hw
    rw [← hw]
    exact hv'

end Rows

/-! ## What an ending writes -/

/-- Row `i` is not final, and it depends on the task `t` by the parents that the history
declares. -/
def TaskManager.Dependent (es : List (TaskEvent Q α)) (m : TaskManager Q α) (t : String) (i : Nat) :
    Prop :=
  ∃ row, m.tasks.row? i = some row ∧ row.state.isLive = true ∧ AncestorOf es t row.taskId

/-- `m'` is `m` after the bad ending of the task `t` of row `index`. -/
structure BadEnding (es : List (TaskEvent Q α)) (m m' : TaskManager Q α) (t : String) (index : Nat)
    (state : TaskState) (workerId output : String) : Prop where
  /-- `index` is the row of the task. -/
  index_eq : m.taskIndex.lookup t = some index
  /-- Nothing is written but these four columns. -/
  frame : ∃ states workerIds outputs origins, m' = { m with tasks := { m.tasks with
    state := states, workerId := workerIds, output := outputs, terminalOrigin := origins } }
  /-- The rows that change are the row of the task and the dependents that were not final. -/
  changed : ∀ i, m'.tasks.row? i ≠ m.tasks.row? i ↔ i = index ∨ m.Dependent es t i
  own : ∃ row, m.tasks.row? index = some row ∧ row.state.isLive = true ∧
    m'.tasks.row? index = some { row with
      state := state, workerId := workerId, output := output, terminalOrigin := index }
  dependent : ∀ i, m.Dependent es t i → ∃ row, m.tasks.row? i = some row ∧ row.state = .waiting ∧
    m'.tasks.row? i = some { row with
      state := state, workerId := "", terminalOrigin := index
      output := if state = .failed then dependencyFailedOutput t else canceledOutput }

section

variable [LinearOrder α] [PriorityQueue Q (TaskQueueEntry α) taskQueueEntryOrder]
variable {re2 : RE2} {es : List (TaskEvent Q α)} {s : TaskGraph α} {v : Rows Q α} {x : Nat}
  {state : TaskState} {workerId output : String}

/-- The rows that fall are the dependents that were not final. -/
theorem TaskRun.dependent_iff (h : TaskRun re2 es v.manager s) (href : Refines v s)
    (hx : x < s.size)
    (i : Nat) : v.manager.Dependent es (s.task x).taskId i ↔ s.Falls x i := by
  unfold TaskManager.Dependent
  simp only [Rows.row?_manager, href.size]
  constructor
  · rintro ⟨row, hrow, hl, ha⟩
    split at hrow
    · next hi =>
        cases hrow
        rw [href.row hi] at hl ha
        obtain ⟨a, b, hab, ha, hb⟩ := h.ancestorOf_iff.1 ha
        have hbs : b < s.size := TaskGraph.Ancestor.size hab
        have has : a < s.size := Nat.lt_trans (h.wf.ancestor_lt hab) hbs
        rw [h.wf.ids has hx ha, h.wf.ids hbs hi hb] at hab
        exact ⟨hi, hl, hab⟩
    · cases hrow
  · rintro ⟨hi, hl, ha⟩
    refine ⟨v.row i, if_pos hi, ?_, ?_⟩
    · rw [href.state_eq hi]
      exact hl
    · rw [href.row hi]
      exact h.ancestorOf_iff.2 ⟨x, i, ha, rfl, rfl⟩

/-- **The ending of a live task ends its dependents that were not final, and nothing else
changes.** -/
theorem TaskRun.ending (h : TaskRun re2 es v.manager s) (href : Refines v s) (hb : state.IsBad)
    (hx : x < s.size) (hl : (s.task x).state.isLive = true) :
    BadEnding es v.manager ((v.endOwn x state workerId output).endAll (s.Falls x) state
      (s.terminalOutput state x) x).manager (s.task x).taskId x state workerId output := by
  have hwf := h.wf
  let w := (v.endOwn x state workerId output).endAll (s.Falls x) state (s.terminalOutput state x) x
  have hne : ∀ {i}, s.Falls x i → i ≠ x := fun hf => hwf.ancestor_ne hf.2.2
  have hrows : ∀ {i}, i < s.size → v.manager.tasks.row? i = some (v.row i) ∧
      w.manager.tasks.row? i = some (w.row i) := fun {i} hi =>
    ⟨(v.row?_manager i).trans (if_pos (href.size ▸ hi)),
      (w.row?_manager i).trans (if_pos (show i < v.size from href.size ▸ hi))⟩
  have hown : w.row x = { v.row x with
      state := state, workerId := workerId, output := output, terminalOrigin := x } :=
    Rows.endOwn_endAll_self fun hf => hne hf rfl
  have hfalls : ∀ {i}, s.Falls x i → w.row i = { v.row i with
      state := state, workerId := "", output := s.terminalOutput state x, terminalOrigin := x } :=
    fun hf => Rows.endOwn_endAll_mem (hne hf) hf
  have hother : ∀ {i}, i ≠ x → ¬ s.Falls x i → w.row i = v.row i :=
    fun hix hf => Rows.endOwn_endAll_other hix hf
  have hdead : state.isLive = false := by simpa using hb.not_live
  constructor
  case index_eq => exact (href.lookup_eq _).trans (hwf.find?_eq.2 ⟨hx, rfl⟩)
  case frame =>
    refine Rows.manager_frame rfl fun i => ?_
    by_cases hix : i = x
    · subst hix; exact ⟨_, _, _, _, hown⟩
    · by_cases hf : s.Falls x i
      · exact ⟨_, _, _, _, hfalls hf⟩
      · exact ⟨_, _, _, _, hother hix hf⟩
  case changed =>
    intro i
    rw [h.dependent_iff href hx]
    rcases Nat.lt_or_ge i s.size with hi | hi
    · rw [(hrows hi).1, (hrows hi).2, ne_eq, Option.some.injEq]
      constructor
      · intro hne
        by_contra hkeep
        rw [not_or] at hkeep
        exact hne (hother hkeep.1 hkeep.2)
      · -- a row that is ended had not ended before
        intro hended heq
        have hlive : (v.row i).state.isLive = true := by
          rw [href.state_eq hi]
          rcases hended with rfl | hf
          · exact hl
          · exact hf.2.1
        have hstate : (w.row i).state = state := by
          rcases hended with rfl | hf
          · rw [hown]
          · rw [hfalls hf]
        rw [← heq, hstate, hdead] at hlive
        cases hlive
    · have hv : v.manager.tasks.row? i = none :=
        (v.row?_manager i).trans (if_neg (by rw [href.size]; exact Nat.not_lt.2 hi))
      have hw : w.manager.tasks.row? i = none :=
        (w.row?_manager i).trans (if_neg (by
          show ¬ i < v.size
          rw [href.size]
          exact Nat.not_lt.2 hi))
      rw [hv, hw]
      refine ⟨fun hne => absurd rfl hne, ?_⟩
      rintro (rfl | hf)
      · omega
      · have := hf.1
        omega
  case own =>
    refine ⟨v.row x, (hrows hx).1, ?_, ?_⟩
    · rw [href.state_eq hx]; exact hl
    · exact (hrows hx).2.trans (congrArg some hown)
  case dependent =>
    intro i hdep
    have hf := (h.dependent_iff href hx i).1 hdep
    refine ⟨v.row i, (hrows hf.1).1, ?_, ?_⟩
    · rw [href.state_eq hf.1]; exact hwf.falls_waiting hf hl
    · exact (hrows hf.1).2.trans (congrArg some (hfalls hf))

/-- The ending of a row leaves its children column as it is. -/
theorem Refines.endOwn_children_manager (href : Refines v s) (hx : x < s.size) :
    (v.endOwn x state workerId output).manager.tasks.children[x]? = some (v.row x).children := by
  have hxv : x < (v.endOwn x state workerId output).size := href.size ▸ hx
  rw [Rows.children_manager hxv, Rows.endOwn_children]

variable (workerId output) in
/-- The walk down from the row of a live task, in any order. -/
theorem Refines.ending_endsAt (href : Refines v s) (hwf : s.WF) (hb : state.IsBad) (hx : x < s.size)
    (hl : (s.task x).state.isLive = true) :
    TaskManager.EndsAt state x (s.terminalOutput state x)
      (↑(v.row x).children, (v.endOwn x state workerId output).manager)
      ((v.endOwn x state workerId output).endAll (s.Falls x) state
        (s.terminalOutput state x) x).manager := by
  have hdead : state.isLive = false := by simpa using hb.not_live
  have hchildrenOf : (v.endOwn x state workerId output).childrenOf = v.childrenOf :=
    funext Rows.endOwn_children
  have hxv : x < (v.endOwn x state workerId output).size := href.size ▸ hx
  have houtput : (v.endOwn x state workerId output).manager.terminalOutput state x =
      some (s.terminalOutput state x) := by
    rw [Rows.terminalOutput_manager hxv, href.endOwn_output hx]
  refine Rows.Walkable.endsAt hdead ⟨fun c hc => ?_, ?_, ?_⟩
    (TaskManager.propagateToChildren_walk
      (href.endBadly_walk hwf state workerId output hb hx hl) houtput
      (href.endOwn_children_manager hx))
  · exact href.closed x (href.size ▸ hx) c (Multiset.mem_coe.1 hc)
  · rw [hchildrenOf]
    exact href.closed
  · refine Rows.endAll_congr
      (fun j => Iff.trans ?_ (href.endOwn_swept hwf workerId output hdead hx hl j)) _ _ _
    refine Swept.congr (fun _ => Iff.rfl) fun k => ?_
    rw [Multiset.mem_toList, Multiset.mem_coe, hchildrenOf]
    rfl

/-- A `task_cancel` that succeeds is the ending of a live task. -/
theorem TaskRun.cancel_ending {t : String} {m' : TaskManager Q α} (h : TaskRun re2 es v.manager s)
    (href : Refines v s) (hc : v.manager.cancel ⟨t⟩ = some (.ok ⟨true⟩, m')) :
    ∃ x, x < s.size ∧ (s.task x).state.isLive = true ∧ (s.task x).taskId = t ∧
      m' = ((v.endOwn x .canceled "" canceledOutput).endAll (s.Falls x) .canceled
        (s.terminalOutput .canceled x) x).manager := by
  unfold TaskManager.cancel at hc
  rw [href.lookup_eq] at hc
  cases hf : s.find? t with
  | none => rw [hf] at hc; cases hc
  | some x =>
      obtain ⟨hx, hid⟩ := TaskGraph.find?_some hf
      rw [hf] at hc
      dsimp only at hc
      rw [Rows.state_manager (href.find_lt hf), href.state_eq hx] at hc
      cases hl : (s.task x).state.isLive with
      | false =>
          simp only [hl, Bool.not_false, if_true, Option.bind_eq_bind, Option.bind_some] at hc
          cases hc
      | true =>
          simp only [hl, Bool.not_true, Bool.false_eq_true, if_false, Option.bind_eq_bind,
            Option.bind_some] at hc
          have hwalk := href.endBadly_walk h.wf .canceled "" canceledOutput (.inr rfl) hx hl
          have hrow := Rows.cancelRow_manager (href.find_lt hf)
          rw [hwalk] at hrow
          refine ⟨x, hx, hl, hid, ?_⟩
          have heq := hc.symm.trans hrow
          cases heq
          rfl

/-- A report of failure on a running task that is not refused is the ending of that task. -/
theorem TaskRun.done_ending {request : TaskDoneRequest} {m' : TaskManager Q α}
    (h : TaskRun re2 es v.manager s) (href : Refines v s)
    (hd : v.manager.done request = some (.ok (), m')) (hfail : request.failed = true)
    (hrun : v.manager.statusOf request.taskId = some .running) :
    ∃ x, x < s.size ∧ (s.task x).state.isLive = true ∧ (s.task x).taskId = request.taskId ∧
      (v.row x).workerId = request.workerId ∧
      m' = ((v.endOwn x .failed request.workerId request.output).endAll (s.Falls x) .failed
        (s.terminalOutput .failed x) x).manager := by
  unfold TaskManager.done at hd
  rw [href.lookup_eq] at hd
  rw [href.statusOf, Option.some.injEq, TaskGraph.status] at hrun
  cases hf : s.find? request.taskId with
  | none => rw [hf] at hrun; cases hrun
  | some x =>
      obtain ⟨hx, hid⟩ := TaskGraph.find?_some hf
      rw [hf] at hd hrun
      have hxv := href.find_lt hf
      have hr : (s.task x).state = .running := hrun
      have hl : (s.task x).state.isLive = true := by rw [hr]; rfl
      dsimp only at hd
      rw [Rows.state_manager hxv, href.state_eq hx, Rows.workerId_manager hxv] at hd
      simp only [hr, reduceCtorEq, if_false, ne_eq, not_true_eq_false, Option.bind_eq_bind,
        Option.bind_some] at hd
      by_cases hw : (v.row x).workerId = request.workerId
      · simp only [hw, not_true_eq_false, if_false, hfail, if_true] at hd
        have hwalk :=
          href.endBadly_walk h.wf .failed request.workerId request.output (.inl rfl) hx hl
        have hrow := Rows.failRow_manager hxv request.output
        rw [hw, hwalk] at hrow
        refine ⟨x, hx, hl, hid, hw, ?_⟩
        have heq := hd.symm.trans hrow
        cases heq
        rfl
      · simp only [hw, not_false_eq_true, if_true] at hd
        cases hd

end

/-- **Exact reach of a bad ending.** In every reachable state `task_cancel` and `task_done` are
defined, so the walk of the code terminates. A `task_cancel` with success, and a report of failure
that takes a running task to failed, change the row of the task and those of its dependents that
were not final, and no others. Each of these was waiting and gets the state of the ending, no
worker, the output for the task and the task as its origin; the other columns, the queues, the next
seq and the index stay as they are. From the row of the task on, the walk down terminates whichever
pending row each turn pops, and always leads to the same table. -/
theorem exact_reach_of_a_bad_ending [LinearOrder α]
    [PriorityQueue Q (TaskQueueEntry α) taskQueueEntryOrder] {re2 : RE2} {es : List (TaskEvent Q α)}
    {m : TaskManager Q α} (h : (TaskManager.machine Q re2).Run es m) :
    (∀ request, ∃ r m', m.cancel request = some (r, m')) ∧
    (∀ request, ∃ r m', m.done request = some (r, m')) ∧
    (∀ t m', m.cancel ⟨t⟩ = some (.ok ⟨true⟩, m') →
      ∃ index m₀ children, BadEnding es m m' t index .canceled "" canceledOutput ∧
        m.cancelOwn index = some m₀ ∧ m₀.tasks.children[index]? = some children ∧
        TaskManager.EndsAt .canceled index canceledOutput (↑children, m₀) m') ∧
    ∀ request m', m.done request = some (.ok (), m') → request.failed = true →
      m.statusOf request.taskId = some .running →
      ∃ index m₀ children, BadEnding es m m' request.taskId index .failed request.workerId
          request.output ∧ m.failOwn index request.output = some m₀ ∧
        m₀.tasks.children[index]? = some children ∧
        TaskManager.EndsAt .failed index (dependencyFailedOutput request.taskId) (↑children, m₀)
          m' := by
  obtain ⟨s, hc⟩ := TaskManager.exists_taskRun h
  obtain ⟨hwf, v, rfl, href⟩ := hc.related
  refine ⟨fun request => ?_, fun request => ?_, fun t m' hcancel => ?_,
    fun request m' hdone hfail hrun => ?_⟩
  · obtain ⟨v', heq, -⟩ := href.cancel hwf request
    exact ⟨_, _, heq⟩
  · obtain ⟨v', _, heq, -⟩ := href.done hwf request
    exact ⟨_, _, heq⟩
  · obtain ⟨x, hx, hl, rfl, rfl⟩ := hc.cancel_ending href hcancel
    exact ⟨x, _, _, hc.ending href (.inr rfl) hx hl, Rows.cancelOwn_manager (href.size ▸ hx),
      href.endOwn_children_manager hx, href.ending_endsAt _ _ hwf (.inr rfl) hx hl⟩
  · obtain ⟨x, hx, hl, hid, hworker, rfl⟩ := hc.done_ending href hdone hfail hrun
    have hown := Rows.failOwn_manager (v := v) (href.size ▸ hx) request.output
    have hends := href.ending_endsAt request.workerId request.output hwf (.inl rfl) hx hl
    rw [hworker] at hown
    refine ⟨x, _, _, hid ▸ hc.ending href (.inl rfl) hx hl, hown,
      href.endOwn_children_manager hx, ?_⟩
    rw [← hid]
    exact hends

/-- A cancel in the middle of the diamond. -/
theorem exact_reach_of_a_bad_ending_diamond :
    ∃ m' index, (sampleRun diamond).2.cancel ⟨"c"⟩ = some (.ok ⟨true⟩, m') ∧
      BadEnding (sampleRun diamond).1 (sampleRun diamond).2 m' "c" index .canceled ""
        canceledOutput := by
  have hcancel : (sampleRun diamond).2.cancel ⟨"c"⟩ =
      some (.ok ⟨true⟩, (sampleRun (diamond ++ [.cancel ⟨"c"⟩])).2) := rfl
  obtain ⟨index, m₀, children, hending, -⟩ :=
    (exact_reach_of_a_bad_ending (run_sampleRun diamond rfl)).2.2.1 "c" _ hcancel
  exact ⟨_, index, hcancel, hending⟩

end DsService

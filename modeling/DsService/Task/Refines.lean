import DsService.Task.Queues
import DsService.Task.Walk

/-!
# The rows refine the graph

`Refines v s` relates the rows of the code to the task graph: the columns hold what the graph says,
`pending_parents` counts the parents that have not finished, the child list of a row that has not
finished lists its dependents, and the queues represent the log. This module has the relation, the
reads, and the endings that spread: the walk of the code ends exactly the tasks that fall
(`swept_iff_falls`).
-/

namespace DsService

variable {Q α : Type}

namespace TaskGraph

/-- The row of the code for a task, given its pending count and its child list. -/
def rowOf (s : TaskGraph α) (pending : Nat) (children : List Nat) (i : Nat) : Row α where
  taskId := (s.task i).taskId
  function := (s.task i).function
  input := (s.task i).input
  output := (s.task i).output
  state := (s.task i).state
  workerId := (s.task i).workerId
  priority := (s.task i).priority
  queues := (s.task i).queues
  seq := s.seq i
  pendingParents := pending
  children := children
  terminalOrigin := (s.task i).origin

variable {s s' : TaskGraph α} {i p x : Nat}

/-! ## What the derived columns depend on -/

/-- The lookup depends on the ids. -/
theorem find?_congr (hsize : s'.size = s.size)
    (hid : ∀ i, i < s.size → (s'.task i).taskId = (s.task i).taskId) (t : String) :
    s'.find? t = s.find? t := by
  unfold find?
  rw [hsize, ← List.head?_filter, ← List.head?_filter]
  congr 1
  refine List.filter_congr fun i hi => ?_
  rw [hid i (List.mem_range.1 hi)]

/-- The dependents depend on the edges. -/
theorem dependents_congr (hsize : s'.size = s.size)
    (hparents : ∀ i, i < s.size → (s'.task i).parents = (s.task i).parents) (p : Nat) :
    s'.dependents p = s.dependents p := by
  unfold dependents
  rw [hsize]
  refine List.flatMap_congr fun c hc => ?_
  rw [hparents c (List.mem_range.1 hc)]

/-- The pending count depends on the parents and on which of them have finished. -/
theorem pending_congr (hparents : (s'.task i).parents = (s.task i).parents)
    (hfin : ∀ p ∈ (s.task i).parents,
      ((s'.task p).state = .finished ↔ (s.task p).state = .finished)) :
    s'.pending i = s.pending i := by
  unfold pending
  rw [hparents]
  refine List.countP_congr fun p hp => ?_
  simp [hfin p hp]

/-- The dependents of a task are the tasks that name it as a parent. -/
theorem mem_dependents : i ∈ s.dependents p ↔ s.Parent p i := by
  simp [dependents, Parent, List.count_eq_zero]

/-- **The walk of the code ends exactly the tasks that fall.** Before the walk `x` has been ended; a
path of declared parents from `x` to a live task runs through live tasks only, and these are the
rows whose child lists are complete. -/
theorem swept_iff_falls (hwf : s.WF) (hx : x < s.size)
    (hl : (s.task x).state.isLive = true) {live : Nat → Prop}
    (hlive : ∀ i, i < s.size → (live i ↔ (s.task i).state.isLive = true ∧ i ≠ x))
    {children : Nat → List Nat}
    (hchildren : ∀ p, p < s.size → (s.task p).state ≠ .finished → children p = s.dependents p) :
    Swept children live (children x) i ↔ s.Falls x i := by
  have hnf : ∀ {p}, (s.task p).state.isLive = true → (s.task p).state ≠ .finished := by
    intro p hp heq; rw [heq] at hp; cases hp
  have hroot : children x = s.dependents x := hchildren x hx (hnf hl)
  constructor
  · intro hs
    induction hs with
    | root hi hlv =>
        rw [hroot] at hi
        have hpar := mem_dependents.1 hi
        exact ⟨hpar.1, ((hlive _ hpar.1).1 hlv).1, .single hpar⟩
    | step _ hj hlv ih =>
        rw [hchildren _ ih.1 (hnf ih.2.1)] at hj
        have hpar := mem_dependents.1 hj
        exact ⟨hpar.1, ((hlive _ hpar.1).1 hlv).1, .tail ih.2.2 hpar⟩
  · rintro ⟨hi, hli, ha⟩
    induction ha with
    | @single b hp =>
        refine .root ?_ ((hlive b hi).2 ⟨hli, hwf.ancestor_ne (.single hp)⟩)
        rw [hroot]
        exact mem_dependents.2 hp
    | @tail b c hab hp ih =>
        have hlb : (s.task b).state.isLive = true := hwf.parent_live hab hp hl hli
        have hb : b < s.size := Ancestor.size hab
        refine .step (ih hb hlb) ?_ ((hlive c hi).2 ⟨hli, hwf.ancestor_ne (.tail hab hp)⟩)
        rw [hchildren b hb (hnf hlb)]
        exact mem_dependents.2 hp

/-- An ending that spreads moves no task to or from finished. -/
theorem endBadly_finished {state : TaskState} {workerId output : String}
    (hb : state.IsBad) (hl : (s.task x).state.isLive = true) :
    ((s.endBadly x state workerId output).task i).state = .finished ↔
      (s.task i).state = .finished := by
  rcases endBadly_state (s := s) (i := i) (x := x) state workerId output with
    ⟨hix, hs⟩ | ⟨-, -, hs⟩
  · rw [hs]
    refine ⟨fun h => absurd h hb.ne_finished, fun h => ?_⟩
    rcases hix with rfl | hf
    · rw [h] at hl; cases hl
    · have := hf.2.1; rw [h] at this; cases this
  · rw [hs]

end TaskGraph

/-! ## The relation -/

variable [LinearOrder α] [PriorityQueue Q (TaskQueueEntry α) taskQueueEntryOrder]

/-- The rows represent the graph, with `pend` in the column of pending parents. -/
structure RefinesWith (pend : Nat → Nat) (v : Rows Q α) (s : TaskGraph α) : Prop where
  size : v.size = s.size
  row : ∀ {i}, i < s.size → v.row i = s.rowOf (pend i) (v.row i).children i
  children_lt : ∀ {p c}, p < s.size → c ∈ (v.row p).children → p < c ∧ c < s.size
  children_eq : ∀ {p}, p < s.size → (s.task p).state ≠ .finished →
    (v.row p).children = s.dependents p
  index : ∀ t, v.taskIndex.lookup t = s.find? t
  nextSeq : v.nextSeq = s.log.length
  queued : s.Queued v.queue

/-- The rows represent the graph. -/
abbrev Refines (v : Rows Q α) (s : TaskGraph α) : Prop := RefinesWith s.pending v s

/-- Two row tables with the same rows, the same ids and the same child lists. -/
structure Rows.SameEdges {Q α : Type} (v v' : Rows Q α) : Prop where
  size : v'.size = v.size
  taskIndex : v'.taskIndex = v.taskIndex
  children : ∀ i, (v'.row i).children = (v.row i).children

/-- Two row tables that differ only in the columns of the endings. -/
structure Rows.SameFrame {Q α : Type} (v v' : Rows Q α) : Prop extends Rows.SameEdges v v' where
  nextSeq : v'.nextSeq = v.nextSeq
  queue : v'.queue = v.queue

/-- Rows with the same edges can be chained. -/
theorem Rows.SameEdges.trans {Q α : Type} {v v' v'' : Rows Q α} (h : v.SameEdges v')
    (h' : v'.SameEdges v'') : v.SameEdges v'' :=
  ⟨h'.size.trans h.size, h'.taskIndex.trans h.taskIndex,
    fun i => (h'.children i).trans (h.children i)⟩

variable {pend : Nat → Nat} {v : Rows Q α} {s : TaskGraph α} {i x : Nat}

/-- The empty table refines the empty graph. -/
theorem Refines.empty :
    Refines (⟨0, fun _ => (TaskGraph.empty : TaskGraph α).rowOf 0 [] 0, ∅, 0, ∅⟩ :
    Rows Q α) TaskGraph.empty where
  size := rfl
  row hi := absurd hi (Nat.not_lt_zero _)
  children_lt hi := absurd hi (Nat.not_lt_zero _)
  children_eq hi := absurd hi (Nat.not_lt_zero _)
  index _ := rfl
  nextSeq := rfl
  queued := .empty

namespace RefinesWith

variable (h : RefinesWith pend v s)
include h

/-- The state of a row is that of its task. -/
theorem state_eq (hi : i < s.size) : (v.row i).state = (s.task i).state :=
  congrArg Row.state (h.row hi)

/-- Child lists stay inside the table, so the walk along them does. -/
theorem closed : ∀ p, p < v.size → ∀ c ∈ v.childrenOf p, c < v.size := by
  intro p hp c hc
  rw [h.size] at hp ⊢
  exact (h.children_lt hp hc).2

/-- A change that keeps the requests and the edges has its columns, its seq counter and its queues
left to check. -/
theorem of_sameEdges {pend' : Nat → Nat} {v' : Rows Q α} {s' : TaskGraph α} (he : v.SameEdges v')
    (hsize : s'.size = s.size) (hreq : ∀ i, (s.task i).SameRequest (s'.task i))
    (hfin : ∀ i, (s.task i).state = .finished → (s'.task i).state = .finished)
    (hrow : ∀ i, i < s.size → v'.row i = s'.rowOf (pend' i) (v.row i).children i)
    (hseq : v'.nextSeq = s'.log.length) (hqueued : s'.Queued v'.queue) :
    RefinesWith pend' v' s' where
  size := by rw [he.size, hsize, h.size]
  row hi := by rw [he.children]; exact hrow _ (hsize ▸ hi)
  children_lt hp hc := by
    rw [he.children] at hc
    rw [hsize] at hp ⊢
    exact h.children_lt hp hc
  children_eq hp hnf := by
    rw [he.children, TaskGraph.dependents_congr hsize fun j _ => (hreq j).parents]
    exact h.children_eq (hsize ▸ hp) fun hf => hnf (hfin _ hf)
  index t := by
    rw [he.taskIndex, TaskGraph.find?_congr hsize fun j _ => (hreq j).taskId]
    exact h.index t
  nextSeq := hseq
  queued := hqueued

/-- A change of one task that is one write to its row. -/
theorem write {pend' : Nat → Nat} {v' : Rows Q α} {s' : TaskGraph α} {r : Row α}
    (hv : v'.size = v.size ∧ v'.taskIndex = v.taskIndex ∧ v'.row = Function.update v.row i r)
    (hsize : s'.size = s.size) (htask : ∀ j, j ≠ i → s'.task j = s.task j)
    (hreq : (s.task i).SameRequest (s'.task i))
    (hfin : (s.task i).state = .finished → (s'.task i).state = .finished)
    (hr : i < s.size → r = s'.rowOf (pend' i) (v.row i).children i)
    (hchildren : r.children = (v.row i).children)
    (hpend : ∀ j, j < s.size → j ≠ i → pend' j = pend j)
    (hseq : ∀ j, j ≠ i → s'.seq j = s.seq j)
    (hnext : v'.nextSeq = s'.log.length) (hqueued : s'.Queued v'.queue) :
    RefinesWith pend' v' s' := by
  have hrow : ∀ j, v'.row j = if j = i then r else v.row j := fun j => by
    rw [hv.2.2, Function.update_apply]
  refine h.of_sameEdges ⟨hv.1, hv.2.1, fun j => ?_⟩ hsize (fun j => ?_) (fun j => ?_)
    (fun j hj => ?_) hnext hqueued
  · rw [hrow]
    split
    · next hj => subst hj; exact hchildren
    · rfl
  · by_cases hj : j = i
    · subst hj; exact hreq
    · rw [htask j hj]; exact .refl _
  · by_cases hj : j = i
    · subst hj; exact hfin
    · rw [htask j hj]; exact id
  · rw [hrow]
    by_cases hji : j = i
    · subst hji
      rw [if_pos rfl]
      exact hr hj
    · simp only [TaskGraph.rowOf]
      rw [if_neg hji, htask j hji, hpend j hj hji, hseq j hji, h.row hj]
      rfl

/-- The index of the code is the lookup of the graph. -/
theorem lookup_eq (t : String) : v.manager.taskIndex.lookup t = s.find? t := h.index t

/-- A found task is a row. -/
theorem find_lt {t : String} (hi : s.find? t = some i) : i < v.size := by
  rw [h.size]; exact (TaskGraph.find?_some hi).1

/-! ## Reads -/

/-- The status of an id is that of the graph. -/
theorem statusOf (t : String) : v.manager.statusOf t = some (s.status t) := by
  unfold TaskManager.statusOf TaskGraph.status
  rw [h.lookup_eq]
  cases hf : s.find? t with
  | none => rfl
  | some i =>
      dsimp only
      rw [Rows.state_manager (h.find_lt hf), h.state_eq (TaskGraph.find?_some hf).1]

/-- The reply with the statuses is that of the graph. -/
theorem getStatus (request : TaskGetStatusRequest) :
    v.manager.getStatus request = some (.ok ⟨request.taskId.map s.status⟩) := by
  have hall : ∀ ts : List String, ts.mapM v.manager.statusOf = some (ts.map s.status) := by
    intro ts
    induction ts with
    | nil => rfl
    | cons t ts ih => rw [List.mapM_cons, h.statusOf, ih]; rfl
  unfold TaskManager.getStatus
  rw [hall]
  rfl

/-- The reply with the output is that of the graph. -/
theorem getOutput (request : TaskGetOutputRequest) : v.manager.getOutput request =
    some (match s.find? request.taskId with
      | none => TaskManager.taskNotFound request.taskId
      | some i => .ok ⟨(s.task i).output⟩) := by
  unfold TaskManager.getOutput
  rw [h.lookup_eq]
  cases hf : s.find? request.taskId with
  | none => rfl
  | some i =>
      dsimp only
      rw [Rows.output_manager (h.find_lt hf), h.row (TaskGraph.find?_some hf).1]
      rfl

/-- The reply with the priority is that of the graph. -/
theorem getPriority (request : TaskGetPriorityRequest) : v.manager.getPriority request =
    some (match s.find? request.taskId with
      | none => TaskManager.taskNotFound request.taskId
      | some i => .ok ⟨(s.task i).priority⟩) := by
  unfold TaskManager.getPriority
  rw [h.lookup_eq]
  cases hf : s.find? request.taskId with
  | none => rfl
  | some i =>
      dsimp only
      rw [Rows.priority_manager (h.find_lt hf), h.row (TaskGraph.find?_some hf).1]
      rfl

/-- The reply with the worker is that of the graph. -/
theorem getWorkerId (request : TaskGetWorkerIdRequest) : v.manager.getWorkerId request =
    some (match s.find? request.taskId with
      | none => TaskManager.taskNotFound request.taskId
      | some i =>
          if (s.task i).state ≠ .running then makeError .failedPrecondition
            ("Task with ID = " ++ request.taskId ++ " is not Running.")
          else .ok ⟨(s.task i).workerId⟩) := by
  unfold TaskManager.getWorkerId
  rw [h.lookup_eq]
  cases hf : s.find? request.taskId with
  | none => rfl
  | some i =>
      have hi := (TaskGraph.find?_some hf).1
      dsimp only
      rw [Rows.state_manager (h.find_lt hf), h.state_eq hi, Rows.workerId_manager (h.find_lt hf),
        h.row hi]
      simp only [Option.bind_eq_bind, Option.bind_some]
      split <;> rfl

end RefinesWith

/-- The loop of `get_count_by_state` counts each of the six states. -/
theorem foldl_countState (l : List TaskState) : ∀ counts : TaskGetCountByStateResponse,
    l.foldl TaskManager.countState counts =
      { waiting := counts.waiting + l.count .waiting
        ready := counts.ready + l.count .ready
        running := counts.running + l.count .running
        finished := counts.finished + l.count .finished
        failed := counts.failed + l.count .failed
        canceled := counts.canceled + l.count .canceled } := by
  induction l with
  | nil => intro counts; rfl
  | cons a l ih =>
      intro counts
      rw [List.foldl_cons, ih]
      cases a <;> simp [TaskManager.countState] <;> omega

namespace RefinesWith

variable (h : RefinesWith pend v s)
include h

/-- The state column lists the states of the tasks. -/
theorem state_column : v.manager.tasks.state = tab s.size fun i => (s.task i).state := by
  change tab v.size _ = _
  rw [h.size]
  exact tab.congr fun i hi => h.state_eq hi

/-- The entries of the state column that are equal to a state are the tasks in it. -/
theorem count_state (state : TaskState) :
    v.manager.tasks.state.count state = s.countIn state := by
  rw [h.state_column]
  unfold TaskGraph.countIn tab
  rw [List.count, List.countP_map]
  exact List.countP_congr fun i _ => by simp

/-- The reply with the counts is that of the graph. -/
theorem getCountByState : v.manager.getCountByState = .ok
    { waiting := s.countIn .waiting, ready := s.countIn .ready, running := s.countIn .running,
      finished := s.countIn .finished, failed := s.countIn .failed,
      canceled := s.countIn .canceled } := by
  unfold TaskManager.getCountByState
  rw [foldl_countState]
  simp only [h.count_state, Nat.zero_add]

/-- A search goes over the ids of the graph. -/
theorem searchId (re2 : RE2) (request : SearchKeyRequest) : v.manager.searchId re2 request =
    searchKeys re2 ((List.range s.size).map fun i => (s.task i).taskId) request := by
  have hcol : v.manager.tasks.taskId = (List.range s.size).map fun i => (s.task i).taskId := by
    change tab v.size _ = tab s.size _
    rw [h.size]
    exact tab.congr fun i hi => congrArg Row.taskId (h.row hi)
  unfold TaskManager.searchId
  rw [hcol]

end RefinesWith

/-! ## Endings that spread -/

/-- The writes of an ending to its own row. -/
def Rows.endOwn (v : Rows Q α) (x : Nat) (state : TaskState) (workerId output : String) :
    Rows Q α :=
  v.set x { v.row x with
    state := state, workerId := workerId, output := output, terminalOrigin := x }

section ending
variable (h : Refines v s) (hwf : s.WF) {state : TaskState} {workerId output : String}

section rows
omit [LinearOrder α] [PriorityQueue Q (TaskQueueEntry α) taskQueueEntryOrder]

/-- The ending of a task by itself writes four columns of its row. -/
theorem Rows.endOwn_row (j : Nat) : (v.endOwn x state workerId output).row j =
    if j = x then { v.row x with
      state := state, workerId := workerId, output := output, terminalOrigin := x }
    else v.row j := Rows.set_row _

/-- The ending of a task by itself leaves every child list as it is. -/
theorem Rows.endOwn_children (j : Nat) :
    ((v.endOwn x state workerId output).row j).children = (v.row j).children := by
  rw [endOwn_row]
  split
  · next hj => subst hj; rfl
  · rfl

variable {D : Nat → Prop} {spread : String} {j : Nat}

/-- The walk leaves the row that the ending is of. -/
theorem Rows.endOwn_endAll_self (hx : ¬ D x) :
    ((v.endOwn x state workerId output).endAll D state spread x).row x = { v.row x with
      state := state, workerId := workerId, output := output, terminalOrigin := x } := by
  simp only [endAll, hx, if_false]
  rw [endOwn_row, if_pos rfl]

/-- A row that is swept ends as the walk says, whatever was written to the first one. -/
theorem Rows.endOwn_endAll_mem (hjx : j ≠ x) (hj : D j) :
    ((v.endOwn x state workerId output).endAll D state spread x).row j =
      endRow state spread x (v.row j) := by
  simp only [endAll, hj, if_true]
  rw [endOwn_row, if_neg hjx]

/-- A row that is not swept stays as it is. -/
theorem Rows.endOwn_endAll_other (hjx : j ≠ x) (hj : ¬ D j) :
    ((v.endOwn x state workerId output).endAll D state spread x).row j = v.row j := by
  simp only [endAll, hj, if_false]
  rw [endOwn_row, if_neg hjx]

end rows

include h

/-- The rows that are left to the walk. -/
theorem Refines.endOwn_live (hdead : state.isLive = false) {j : Nat} (hj : j < s.size) :
    (v.endOwn x state workerId output).Live j ↔ (s.task j).state.isLive = true ∧ j ≠ x := by
  unfold Rows.Live
  rw [Rows.endOwn_row]
  by_cases hjx : j = x
  · subst hjx; simp [hdead]
  · simp [hjx, h.state_eq hj]

include hwf

/-- The walk writes to the rows what the ending does to the tasks. -/
theorem Refines.endAll_row (hb : state.IsBad) (hl : (s.task x).state.isLive = true) {j : Nat}
    (hj : j < s.size) :
    ((v.endOwn x state workerId output).endAll (s.Falls x) state
      (s.terminalOutput state x) x).row j =
      (s.endBadly x state workerId output).rowOf
        ((s.endBadly x state workerId output).pending j) (v.row j).children j := by
  have hpend : (s.endBadly x state workerId output).pending j = s.pending j :=
    TaskGraph.pending_congr (TaskGraph.endBadly_sameRequest _ _ _).parents
      fun p _ => TaskGraph.endBadly_finished hb hl
  have hseq : (s.endBadly x state workerId output).seq j = s.seq j := rfl
  have hvj := h.row hj
  rw [hpend]
  by_cases hjx : j = x
  · subst hjx
    have hnot : ¬ s.Falls j j := fun hf => hwf.ancestor_ne hf.2.2 rfl
    rw [Rows.endOwn_endAll_self hnot, hvj]
    simp only [TaskGraph.rowOf, TaskGraph.endBadly_self, hseq]
  · by_cases hf : s.Falls x j
    · rw [Rows.endOwn_endAll_mem hjx hf, hvj]
      simp only [Rows.endRow, TaskGraph.rowOf, TaskGraph.endBadly_falls _ _ _ hjx hf, hseq]
    · rw [Rows.endOwn_endAll_other hjx hf, hvj]
      simp only [TaskGraph.rowOf, TaskGraph.endBadly_other _ _ _ hjx hf, hseq]

omit hwf in
/-- The output that the walk writes. -/
theorem Refines.endOwn_output (hx : x < s.size) :
    (v.endOwn x state workerId output).outputFor state x = s.terminalOutput state x := by
  unfold Rows.outputFor TaskGraph.terminalOutput
  rw [Rows.endOwn_row, if_pos rfl, h.row hx]
  rfl

variable (workerId output) in
/-- What the walk ends once the code has ended the row of a live task are the rows that fall. -/
theorem Refines.endOwn_swept (hdead : state.isLive = false) (hx : x < s.size)
    (hl : (s.task x).state.isLive = true) (j : Nat) :
    Swept (v.endOwn x state workerId output).childrenOf (v.endOwn x state workerId output).Live
      ((v.endOwn x state workerId output).childrenOf x) j ↔ s.Falls x j := by
  have hchildrenOf : (v.endOwn x state workerId output).childrenOf = v.childrenOf :=
    funext Rows.endOwn_children
  refine TaskGraph.swept_iff_falls hwf hx hl (fun j hj => h.endOwn_live hdead hj)
    fun p hp hnf => ?_
  rw [hchildrenOf]
  exact h.children_eq hp hnf

variable (state workerId output) in
/-- Once the code has ended the row of a live task, `propagate_to_children` ends the rows that
fall. -/
theorem Refines.endBadly_walk (hb : state.IsBad) (hx : x < s.size)
    (hl : (s.task x).state.isLive = true) :
    (v.endOwn x state workerId output).manager.propagateToChildren x state x =
      some ((v.endOwn x state workerId output).endAll (s.Falls x) state
        (s.terminalOutput state x) x).manager := by
  let w := v.endOwn x state workerId output
  have hdead : state.isLive = false := by simpa using hb.not_live
  have hchildrenOf : w.childrenOf = v.childrenOf := funext Rows.endOwn_children
  have hxv : x < w.size := h.size ▸ hx
  have hwalk := Rows.propagateToChildren_manager hxv hxv hdead
    (by rw [h.endOwn_live hdead hx]; simp) (by rw [hchildrenOf]; exact h.closed)
  rw [Rows.endAll_congr (h.endOwn_swept hwf workerId output hdead hx hl),
    h.endOwn_output hx] at hwalk
  exact hwalk

variable (state workerId output) in
/-- The code takes the table to the ending of the task in the graph. -/
theorem Refines.endBadly (hb : state.IsBad) (hx : x < s.size)
    (hl : (s.task x).state.isLive = true) :
    ∃ v', (v.endOwn x state workerId output).manager.propagateToChildren x state x =
        some v'.manager ∧
      Refines v' (s.endBadly x state workerId output) ∧ v.SameFrame v' := by
  let w := v.endOwn x state workerId output
  have hwalk := h.endBadly_walk hwf state workerId output hb hx hl
  have hedges : v.SameEdges (w.endAll (s.Falls x) state (s.terminalOutput state x) x) :=
    ⟨rfl, rfl, fun j => by rw [Rows.endAll_children, Rows.endOwn_children]⟩
  refine ⟨_, hwalk, ?_, ⟨hedges, rfl, rfl⟩⟩
  refine h.of_sameEdges hedges rfl (fun j => TaskGraph.endBadly_sameRequest _ _ _)
    (fun j => (TaskGraph.endBadly_finished hb hl).2) (fun j hj => h.endAll_row hwf hb hl hj)
    h.nextSeq ?_
  refine h.queued.keep rfl (fun j _ => (TaskGraph.endBadly_sameRequest _ _ _).queues) ?_
  intro j hj hready
  rcases TaskGraph.endBadly_state (s := s) (i := j) (x := x) state workerId output with
    ⟨-, hs⟩ | ⟨-, -, hs⟩
  · rw [hs] at hready
    rcases hb with rfl | rfl <;> cases hready
  · rw [hs] at hready ⊢
    exact ⟨hj, hready, rfl, rfl⟩

end ending

end DsService

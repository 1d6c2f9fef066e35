import DsService.Task.Dispatch
import DsService.Task.Register
import DsService.Task.Release

/-!
# The task manager refines the task graph

One lemma per operation says that the code, run on rows that represent a graph, answers as the graph
does and leaves rows that represent the next graph. Together they are `TaskManager.simulation`: from
every reachable state every call is defined, so no vector access of the source is out of bounds
there, and it is served as `TaskGraph.spec` allows.
-/

namespace DsService

variable {Q α : Type} [LinearOrder α] [PriorityQueue Q (TaskQueueEntry α) taskQueueEntryOrder]
variable {v : Rows Q α} {s : TaskGraph α} {x : Nat}

/-! ## task_cancel -/

/-- The writes of `cancel` to the row of the task. -/
def TaskManager.cancelOwn {Q α : Type} (m : TaskManager Q α) (index : Nat) :
    Option (TaskManager Q α) := do
  let m ← m.setState index .canceled
  let m ← m.setWorkerId index ""
  let m ← m.setTerminalOrigin index index
  let output ← m.terminalOutput .canceled index
  m.setOutput index output

omit [LinearOrder α] [PriorityQueue Q (TaskQueueEntry α) taskQueueEntryOrder] in

/-- What a cancel writes to its own row. -/
theorem Rows.cancelOwn_manager (hx : x < v.size) :
    v.manager.cancelOwn x = some (v.endOwn x .canceled "" canceledOutput).manager := by
  let w := v.set x { v.row x with state := .canceled }
  let w₁ := w.set x { w.row x with workerId := "" }
  let w₂ := w₁.set x { w₁.row x with terminalOrigin := x }
  have hw₁ : w.manager.setWorkerId x "" = some w₁.manager :=
    setWorkerId_manager (v := w) hx _
  have hw₂ : w₁.manager.setTerminalOrigin x x = some w₂.manager :=
    setTerminalOrigin_manager (v := w₁) hx _
  have hout : w₂.manager.terminalOutput .canceled x = some canceledOutput := rfl
  have hw₃ : w₂.manager.setOutput x canceledOutput =
      some (v.endOwn x .canceled "" canceledOutput).manager := by
    rw [setOutput_manager (v := w₂) hx]
    simp [w₂, w₁, w, endOwn]
  unfold TaskManager.cancelOwn
  rw [setState_manager hx]
  simp only [Option.bind_eq_bind, Option.bind_some]
  rw [hw₁, Option.bind_some, hw₂, Option.bind_some, hout, Option.bind_some, hw₃]

omit [LinearOrder α] [PriorityQueue Q (TaskQueueEntry α) taskQueueEntryOrder] in
/-- The writes of `cancel` to the row of the task, and the walk. -/
theorem Rows.cancelRow_manager (hx : x < v.size) :
    (do let m ← v.manager.setState x .canceled
        let m ← m.setWorkerId x ""
        let m ← m.setTerminalOrigin x x
        let output ← m.terminalOutput .canceled x
        let m ← m.setOutput x output
        let m ← m.propagateToChildren x .canceled x
        return (.ok ⟨true⟩, m) : Option (Result TaskCancelResponse × _)) =
      ((v.endOwn x .canceled "" canceledOutput).manager.propagateToChildren x .canceled x).map
        fun m => (.ok ⟨true⟩, m) := by
  have hown := congrArg (Option.bind · fun m => (m.propagateToChildren x .canceled x).bind
    fun m => some ((.ok ⟨true⟩ : Result TaskCancelResponse), m)) (cancelOwn_manager hx)
  simp only [TaskManager.cancelOwn, Option.bind_eq_bind, Option.bind_assoc,
    Option.bind_some] at hown
  rw [Option.map_eq_bind]
  exact hown

/-- **A cancel of the code is the cancel of the graph.** -/
theorem Refines.cancel (h : Refines v s) (hwf : s.WF) (request : TaskCancelRequest) :
    ∃ v', v.manager.cancel request = some ((s.serveCancel request).1, v'.manager) ∧
      Refines v' (s.serveCancel request).2 ∧ v.SameFrame v' := by
  unfold TaskManager.cancel TaskGraph.serveCancel
  rw [h.lookup_eq]
  cases hf : s.find? request.taskId with
  | none => exact ⟨v, rfl, h, ⟨⟨rfl, rfl, fun _ => rfl⟩, rfl, rfl⟩⟩
  | some i =>
      have hi := (TaskGraph.find?_some hf).1
      dsimp only
      rw [Rows.state_manager (h.find_lt hf), h.state_eq hi]
      by_cases hl : (s.task i).state.isLive = true
      · obtain ⟨v', hwalk, href, hframe⟩ :=
          h.endBadly hwf .canceled "" canceledOutput (.inr rfl) hi hl
        refine ⟨v', ?_, ?_, hframe⟩
        · simp only [hl, Bool.not_true, Bool.false_eq_true, if_false, if_true,
            Option.bind_eq_bind, Option.bind_some]
          refine (Rows.cancelRow_manager (h.find_lt hf)).trans ?_
          rw [hwalk]
          rfl
        · rw [if_pos hl]
          exact href
      · refine ⟨v, ?_, ?_, ⟨⟨rfl, rfl, fun _ => rfl⟩, rfl, rfl⟩⟩
        · simp only [hl, Bool.not_false, if_true, Option.bind_eq_bind, Option.bind_some]
          rfl
        · rw [if_neg hl]
          exact h

/-! ## task_done -/

/-- The writes of a report of failure to the row of the task. -/
def TaskManager.failOwn {Q α : Type} (m : TaskManager Q α) (index : Nat) (output : String) :
    Option (TaskManager Q α) := do
  let m ← m.setOutput index output
  let m ← m.setState index .failed
  m.setTerminalOrigin index index

omit [LinearOrder α] [PriorityQueue Q (TaskQueueEntry α) taskQueueEntryOrder] in

/-- What a report of failure writes to its own row. -/
theorem Rows.failOwn_manager (hx : x < v.size) (output : String) :
    v.manager.failOwn x output = some (v.endOwn x .failed (v.row x).workerId output).manager := by
  let w := v.set x { v.row x with output := output }
  let w₁ := w.set x { w.row x with state := .failed }
  have hw₁ : w.manager.setState x .failed = some w₁.manager := setState_manager (v := w) hx _
  have hw₂ : w₁.manager.setTerminalOrigin x x =
      some (v.endOwn x .failed (v.row x).workerId output).manager := by
    rw [setTerminalOrigin_manager (v := w₁) hx]
    simp [w₁, w, endOwn]
  unfold TaskManager.failOwn
  rw [setOutput_manager hx]
  simp only [Option.bind_eq_bind, Option.bind_some]
  rw [hw₁, Option.bind_some, hw₂]

omit [LinearOrder α] [PriorityQueue Q (TaskQueueEntry α) taskQueueEntryOrder] in
/-- The writes of a report of failure to the row of the task, and the walk. -/
theorem Rows.failRow_manager (hx : x < v.size) (output : String) :
    (do let m ← v.manager.setOutput x output
        let m ← m.setState x .failed
        let m ← m.setTerminalOrigin x x
        let m ← m.propagateToChildren x .failed x
        return (.ok (), m) : Option (Result Unit × _)) =
      ((v.endOwn x .failed (v.row x).workerId output).manager.propagateToChildren x .failed x).map
        fun m => (.ok (), m) := by
  have hown := congrArg (Option.bind · fun m => (m.propagateToChildren x .failed x).bind
    fun m => some ((.ok () : Result Unit), m)) (failOwn_manager hx output)
  simp only [TaskManager.failOwn, Option.bind_eq_bind, Option.bind_assoc, Option.bind_some] at hown
  rw [Option.map_eq_bind]
  exact hown

/-- The writes of a report of success to the row of the task, and the release loop. -/
theorem Rows.finishRow_manager (hx : x < v.size) (output : String) :
    (do let m ← v.manager.setOutput x output
        let m ← m.setState x .finished
        let children ← m.tasks.children[x]?
        let m ← children.foldlM TaskManager.releaseChild m
        return (.ok (), m) : Option (Result Unit × _)) =
      ((v.row x).children.foldlM TaskManager.releaseChild
        (v.set x { v.row x with output := output, state := .finished }).manager).map
        fun m => (.ok (), m) := by
  let w := v.set x { v.row x with output := output }
  let w₁ := v.set x { v.row x with output := output, state := .finished }
  have hw₁ : w.manager.setState x .finished = some w₁.manager := by
    rw [setState_manager (v := w) hx]
    simp [w, w₁]
  have hchildren : w₁.manager.tasks.children[x]? = some (v.row x).children := by
    rw [children_manager (v := w₁) hx, set_row_self]
  rw [setOutput_manager hx]
  simp only [Option.bind_eq_bind, Option.bind_some]
  rw [hw₁, Option.bind_some, hchildren, Option.bind_some]
  cases (v.row x).children.foldlM TaskManager.releaseChild w₁.manager <;> rfl

/-- **A report of the code is that of the graph**, and what it pushes is what the graph logs. -/
theorem Refines.done (h : Refines v s) (hwf : s.WF) (request : TaskDoneRequest) :
    ∃ v' records, v.manager.done request = some ((s.serveDone request).1, v'.manager) ∧
      Refines v' (s.serveDone request).2 ∧ v.SameEdges v' ∧
      (s.serveDone request).2.log = s.log ++ records ∧
      v'.queue = Rows.enterAll (fun i => (s.task i).queues) v.nextSeq v.queue records := by
  unfold TaskManager.done TaskGraph.serveDone
  rw [h.lookup_eq]
  cases hf : s.find? request.taskId with
  | none => exact ⟨v, [], rfl, h, ⟨rfl, rfl, fun _ => rfl⟩, (List.append_nil _).symm, rfl⟩
  | some i =>
      have hi := (TaskGraph.find?_some hf).1
      have hiv := h.find_lt hf
      have hworker : (v.row i).workerId = (s.task i).workerId := by rw [h.row hi]; rfl
      dsimp only
      rw [Rows.state_manager hiv, h.state_eq hi, Rows.workerId_manager hiv, hworker]
      simp only [Option.bind_eq_bind, Option.bind_some]
      by_cases hc : (s.task i).state = .canceled
      · simp only [if_pos hc]
        exact ⟨v, [], rfl, h, ⟨rfl, rfl, fun _ => rfl⟩, (List.append_nil _).symm, rfl⟩
      simp only [if_neg hc]
      by_cases hr : (s.task i).state = .running
      · simp only [hr, ne_eq, not_true_eq_false, if_false]
        by_cases hw : (s.task i).workerId = request.workerId
        · simp only [hw, not_true_eq_false, if_false]
          by_cases hfail : request.failed = true
          · obtain ⟨v', hwalk, href, hframe⟩ := h.endBadly hwf .failed (s.task i).workerId
              request.output (.inl rfl) hi (by rw [hr]; rfl)
            simp only [if_pos hfail]
            refine ⟨v', [], ?_, href, hframe.toSameEdges, (List.append_nil _).symm, hframe.queue⟩
            refine (Rows.failRow_manager hiv request.output).trans ?_
            rw [hworker, hwalk]
            rfl
          · obtain ⟨v', hloop, href, hedges, hqueue⟩ := h.finish request.output hi hr
            simp only [if_neg hfail]
            refine ⟨v', _, ?_, href, hedges, TaskGraph.finish_log _, hqueue⟩
            refine (Rows.finishRow_manager hiv request.output).trans ?_
            rw [hloop]
            rfl
        · simp only [hw, not_false_eq_true, if_true]
          exact ⟨v, [], rfl, h, ⟨rfl, rfl, fun _ => rfl⟩, (List.append_nil _).symm, rfl⟩
      · simp only [ne_eq, hr, not_false_eq_true, if_true]
        exact ⟨v, [], rfl, h, ⟨rfl, rfl, fun _ => rfl⟩, (List.append_nil _).symm, rfl⟩

/-! ## task_add -/

/-- **An add of the code is the add of the graph.** -/
theorem Refines.serveAdd (h : Refines v s) (hwf : s.WF) (request : TaskAddRequest α) :
    ∃ v', v.manager.add request = some ((s.serveAdd request).1, v'.manager) ∧
      Refines v' (s.serveAdd request).2 := by
  cases hf : s.find? request.taskId with
  | some i =>
      unfold TaskManager.add TaskGraph.serveAdd
      rw [h.lookup_eq, hf]
      exact ⟨v, rfl, h⟩
  | none =>
      cases hp : s.resolve request.parentTaskIds with
      | error t =>
          unfold TaskManager.add TaskGraph.serveAdd
          rw [h.lookup_eq, hf]
          dsimp only
          rw [h.resolveParents, hp]
          exact ⟨v, rfl, h⟩
      | ok parents =>
          have hserve : s.serveAdd request = (.ok (), s.add request parents) := by
            unfold TaskGraph.serveAdd
            rw [hf]
            dsimp only
            rw [hp]
          rw [hserve]
          exact ⟨_, h.add_manager hwf hf hp, h.add hwf hf (TaskGraph.resolve_lt hp)⟩

/-! ## task_set_priority -/

/-- The rows of a task with a new priority, queued again if it is ready. -/
def Rows.reprioritize (v : Rows Q α) (i : Nat) (priority : Double α) : Rows Q α :=
  if (v.row i).state = .ready then (v.set i { v.row i with priority := priority }).enqueue i
  else v.set i { v.row i with priority := priority }

/-- The rows follow a new priority. -/
theorem Refines.reprioritize (h : Refines v s) {i : Nat} (hi : i < s.size) (priority : Double α) :
    Refines (v.reprioritize i priority) (s.reprioritize i priority) := by
  let s' := s.reprioritize i priority
  have hreq : ∀ j, (s.task j).SameRequest (s'.task j) := fun j =>
    TaskGraph.reprioritize_sameRequest _
  have hstate : ∀ j, (s'.task j).state = (s.task j).state := fun j =>
    TaskGraph.reprioritize_state _
  have hpend : ∀ j, s'.pending j = s.pending j := fun j =>
    TaskGraph.pending_congr (hreq j).parents fun p _ => by rw [hstate]
  have hself : s'.task i = { s.task i with priority := priority } := by
    rw [TaskGraph.reprioritize_task, if_pos rfl]
  have hother : ∀ j, j ≠ i → s'.task j = s.task j := fun j hj => by
    rw [TaskGraph.reprioritize_task, if_neg hj]
  have hready' : ∀ {j}, j ≠ i → j < s'.size → (s'.task j).state = .ready → j < s.size ∧
      (s.task j).state = .ready ∧ (s'.task j).priority = (s.task j).priority ∧
      (s'.task j).queues = (s.task j).queues := by
    intro j hne hj hst
    rw [hother j hne] at hst ⊢
    exact ⟨by rwa [TaskGraph.reprioritize_size] at hj, hst, rfl, rfl⟩
  have hfin : (s.task i).state = .finished → (s'.task i).state = .finished := fun hf => by
    rw [hstate]; exact hf
  unfold Rows.reprioritize
  rw [h.state_eq hi]
  by_cases hr : (s.task i).state = .ready
  · have hlog : s'.log = s.log ++ [(i, priority)] := by
      rw [TaskGraph.reprioritize_log, if_pos hr]
    have hseq : ∀ j, s'.seq j = if j = i then s.log.length + 1 else s.seq j := by
      intro j
      simp only [TaskGraph.seq, hlog, List.map_append, List.map_cons, List.map_nil,
        lastSeq.append_singleton, List.length_map]
    have hrow : ((v.set i { v.row i with priority := priority }).enqueue i).row =
        Function.update v.row i { v.row i with priority := priority, seq := v.nextSeq + 1 } := by
      simp [Rows.enqueue, Rows.set]
    rw [if_pos hr]
    refine h.write ⟨rfl, rfl, hrow⟩ (TaskGraph.reprioritize_size _) hother (hreq i) hfin
      (fun _ => ?_)
      rfl (fun j _ _ => hpend j) (fun j hj => (hseq j).trans (if_neg hj)) ?_ ?_
    · have hseqi : s'.seq i = s.log.length + 1 := (hseq i).trans (if_pos rfl)
      simp only [TaskGraph.rowOf]
      rw [hself, hpend, hseqi, h.nextSeq, h.row hi]
      rfl
    · rw [hlog, List.length_append, List.length_singleton, ← h.nextSeq]
      rfl
    · have hlog' : s'.log = s.log ++ [(i, (s'.task i).priority)] := by rw [hself]; exact hlog
      have henter := h.queued.enter hlog' (fun j _ => (hreq j).queues) hready'
      simp only [Rows.enqueue, Rows.set_row_self, Rows.set_queue, Rows.set_nextSeq, h.nextSeq]
      rw [hself] at henter
      rw [h.row hi]
      exact henter
  · have hlog : s'.log = s.log := by rw [TaskGraph.reprioritize_log, if_neg hr]
    have hseq : ∀ j, s'.seq j = s.seq j := by
      intro j
      simp only [TaskGraph.seq, hlog]
    rw [if_neg hr]
    refine h.write ⟨rfl, rfl, rfl⟩ (TaskGraph.reprioritize_size _) hother (hreq i) hfin
      (fun _ => ?_)
      rfl (fun j _ _ => hpend j) (fun j _ => hseq j) ?_ ?_
    · simp only [TaskGraph.rowOf]
      rw [hself, hpend, hseq, h.row hi]
      rfl
    · rw [hlog]; exact h.nextSeq
    · refine h.queued.keep hlog (fun j _ => (hreq j).queues) fun {j} hj hst => ?_
      refine hready' (fun heq => ?_) hj hst
      subst heq
      rw [hstate] at hst
      exact hr hst

/-- **A new priority of the code is that of the graph.** -/
theorem Refines.setPriority (h : Refines v s) (request : TaskSetPriorityRequest α) :
    ∃ v', v.manager.setPriority request = some ((s.serveSetPriority request).1, v'.manager) ∧
      Refines v' (s.serveSetPriority request).2 := by
  unfold TaskManager.setPriority TaskGraph.serveSetPriority
  rw [h.lookup_eq]
  cases hf : s.find? request.taskId with
  | none => exact ⟨v, rfl, h⟩
  | some i =>
      have hi := (TaskGraph.find?_some hf).1
      have hiv := h.find_lt hf
      let w := v.set i { v.row i with priority := request.priority }
      have hstate : w.manager.tasks.state[i]? = some (v.row i).state := by
        rw [Rows.state_manager (v := w) hiv, Rows.set_row_self]
      refine ⟨_, ?_, h.reprioritize hi request.priority⟩
      dsimp only
      rw [Rows.setPriorityColumn_manager hiv]
      simp only [Option.bind_eq_bind, Option.bind_some]
      rw [hstate, Option.bind_some]
      unfold Rows.reprioritize
      by_cases hr : (v.row i).state = .ready
      · rw [if_neg (not_not.2 hr), if_pos hr, Rows.enqueue_manager (v := w) hiv]
        rfl
      · rw [if_pos hr, if_neg hr]
        rfl

/-! ## The simulation -/

/-- The columns of the code represent a graph that meets its invariant. -/
def TaskManager.Represents (m : TaskManager Q α) (s : TaskGraph α) : Prop :=
  s.WF ∧ ∃ v : Rows Q α, m = v.manager ∧ Refines v s

/-- **The task manager refines the task graph.** From every state that represents a graph every call
is defined, and it is served as the graph allows. -/
theorem TaskManager.simulation (re2 : RE2) :
    Machine.Simulation (machine Q re2) (TaskGraph.spec (α := α) re2) Represents where
  init := ⟨.empty, _, rfl, .empty⟩
  step {m s} op hrep := by
    obtain ⟨hwf, v, rfl, href⟩ := hrep
    have hread : ∀ {r}, s.serveRead re2 op = some r → v.manager.step re2 op = some (r, v.manager) →
        ∃ r m' s', v.manager.step re2 op = some (r, m') ∧ s.Serves re2 op r s' ∧
          Represents m' s' :=
      fun hr hs => ⟨_, _, s, hs, .read hr, hwf, v, rfl, href⟩
    have hnext : ∀ {r : TaskReply α} {v' : Rows Q α} {s' : TaskGraph α},
        v.manager.step re2 op = some (r, v'.manager) → s.Serves re2 op r s' → Refines v' s' →
        ∃ r m' s', v.manager.step re2 op = some (r, m') ∧ s.Serves re2 op r s' ∧
          Represents m' s' :=
      fun hs hserve href' => ⟨_, _, _, hs, hserve, hserve.change.wf hwf, _, rfl, href'⟩
    cases op with
    | add request =>
        obtain ⟨v', hadd, href'⟩ := href.serveAdd hwf request
        exact hnext (by simp [TaskManager.step, hadd]) (.add request) href'
    | getStatus request =>
        exact hread rfl (by simp [TaskManager.step, href.getStatus])
    | getOutput request =>
        refine hread (r := .getOutput _) ?_
          (by simp only [TaskManager.step, href.getOutput]; rfl)
        simp only [TaskGraph.serveRead]
        cases s.find? request.taskId <;> rfl
    | getCountByState =>
        exact hread rfl (by simp [TaskManager.step, href.getCountByState])
    | cancel request =>
        obtain ⟨v', hcancel, href', -⟩ := href.cancel hwf request
        exact hnext (by simp [TaskManager.step, hcancel]) (.cancel request) href'
    | getPriority request =>
        refine hread (r := .getPriority _) ?_
          (by simp only [TaskManager.step, href.getPriority]; rfl)
        simp only [TaskGraph.serveRead]
        cases s.find? request.taskId <;> rfl
    | setPriority request =>
        obtain ⟨v', hset, href'⟩ := href.setPriority request
        exact hnext (by simp [TaskManager.step, hset]) (.setPriority request) href'
    | getWorkerId request =>
        refine hread (r := .getWorkerId _) ?_
          (by simp only [TaskManager.step, href.getWorkerId]; rfl)
        simp only [TaskGraph.serveRead]
        cases s.find? request.taskId with
        | none => rfl
        | some i => dsimp only; split <;> rfl
    | searchId request =>
        exact hread rfl (by simp [TaskManager.step, href.searchId])
    | get request =>
        obtain ⟨r, v', s', hget, hserve, href'⟩ :=
          Refines.getFrom hwf request.workerId request.queue href
        exact hnext (by simp [TaskManager.step, TaskManager.get, hget]) (.get hserve) href'
    | done request =>
        obtain ⟨v', _, hdone, href', -⟩ := href.done hwf request
        exact hnext (by simp [TaskManager.step, hdone]) (.done request) href'

end DsService

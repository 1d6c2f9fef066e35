import DsService.Task.History

/-!
# Dispatch order

Which task does `task_get` return? `dispatch_is_a_scan` answers from the table and the history
alone, without heaps or seqs: of the first queue that offers a ready row, the row of highest current
priority, and among these the one whose latest queue entry comes first in the run. The queue entries
of a history are `entryLog`; that it is the log of the graph is `TaskRun.entryLog_eq`.
-/

namespace DsService

variable {Q α : Type}

/-! ## What a full scan sees -/

/-- Row `i` is ready and lists the queue. -/
def TaskManager.Offers (m : TaskManager Q α) (qname : String) (i : Nat) : Prop :=
  m.tasks.state[i]? = some .ready ∧ ∃ queues, m.tasks.queues[i]? = some queues ∧ qname ∈ queues

/-- The tasks that enter their queues at an event: one that is added ready, one that gets a new
priority while ready, and those that a report releases, in the order of their rows. -/
def entered (e : TaskEvent Q α) : List String :=
  match e.op, e.reply with
  | .add request, .add (.ok ()) =>
      if e.post.statusOf request.taskId = some .ready then [request.taskId] else []
  | .setPriority request, .setPriority (.ok ()) =>
      if e.pre.statusOf request.taskId = some .ready then [request.taskId] else []
  | .done _, .done (.ok ()) =>
      e.pre.tasks.taskId.filter fun t =>
        e.pre.statusOf t = some .waiting ∧ e.post.statusOf t = some .ready
  | _, _ => []

/-- The queue entries of a history, in order. -/
def entryLog (es : List (TaskEvent Q α)) : List String := es.flatMap entered

/-- The latest queue entry of `t` comes before the latest one of `t'`. -/
def EnteredBefore (es : List (TaskEvent Q α)) (t t' : String) : Prop :=
  ∃ l₁ l₂, entryLog es = l₁ ++ t :: l₂ ∧ t ∉ l₂ ∧ t' ∈ l₂

/-- A scan prefers row `i` to row `j`: it has the higher priority, or the same and the earlier
entry. -/
def Precedes [LinearOrder α] (es : List (TaskEvent Q α)) (m : TaskManager Q α) (i j : Nat) : Prop :=
  ∃ x y t t', m.tasks.priority[i]? = some (.num x) ∧ m.tasks.priority[j]? = some (.num y) ∧
    m.tasks.taskId[i]? = some t ∧ m.tasks.taskId[j]? = some t' ∧
    (y < x ∨ y = x ∧ EnteredBefore es t t')

/-- The priority that an accepted call gives to the task. -/
def TaskOp.gives (t : String) : TaskOp α → TaskReply α → Option (Double α)
  | .add request, .add (.ok ()) => if request.taskId = t then some request.priority else none
  | .setPriority request, .setPriority (.ok ()) =>
      if request.taskId = t then some request.priority else none
  | _, _ => none

/-- The priority that a history gave last to the task. -/
def lastGiven (es : List (TaskEvent Q α)) (t : String) : Option (Double α) :=
  (es.filterMap fun e => e.op.gives t e.reply).getLast?

/-- An event gives a priority anew, or leaves the last one. -/
theorem lastGiven_snoc (es : List (TaskEvent Q α)) (e : TaskEvent Q α) (t : String) :
    lastGiven (es ++ [e]) t = (e.op.gives t e.reply).or (lastGiven es t) := by
  unfold lastGiven
  rw [List.filterMap_append, List.getLast?_append]
  cases hgives : e.op.gives t e.reply <;> simp [hgives]

/-- The call sets no priority to NaN. -/
def TaskOp.numeric : TaskOp α → Bool
  | .add request => request.priority.isNum
  | .setPriority request => request.priority.isNum
  | _ => true

/-- A number is not NaN. -/
theorem Double.ne_nan {p : Double α} (h : p.isNum = true) : p ≠ .nan := by
  rintro rfl; cases h

/-- The priority that a call passes. -/
def TaskOp.priority? : TaskOp α → Option (Double α)
  | .add request => some request.priority
  | .setPriority request => some request.priority
  | _ => none

/-- A call with numbers only passes no NaN. -/
theorem TaskOp.ne_nan_of_numeric (op : TaskOp α) (h : op.numeric = true) {p : Double α}
    (hp : op.priority? = some p) : p ≠ .nan := by
  cases op with
  | add request => cases hp; exact Double.ne_nan h
  | setPriority request => cases hp; exact Double.ne_nan h
  | _ => cases hp

/-! ## The log of a run -/

namespace TaskGraph

variable {s s' : TaskGraph α} {op : TaskOp α} {r : TaskReply α}

/-- Every priority that a task has or that an entry was logged with satisfies `P`. -/
structure PrioritiesIn (P : Double α → Prop) (s : TaskGraph α) : Prop where
  task : ∀ i, i < s.size → P (s.task i).priority
  log : ∀ e ∈ s.log, P e.2

/-- No task has another priority. -/
theorem PrioritiesIn.empty {P : Double α → Prop} : (TaskGraph.empty : TaskGraph α).PrioritiesIn P :=
  ⟨fun i hi => absurd hi (Nat.not_lt_zero i), fun e he => by cases he⟩

/-- A step leaves no priority that was not there and that it does not pass. -/
theorem Change.prioritiesIn {P : Double α → Prop} (h : s.Change op r s')
    (hop : ∀ p, op.priority? = some p → P p) (hs : s.PrioritiesIn P) : s'.PrioritiesIn P := by
  have hsame : ∀ {g : TaskGraph α}, g.size = s.size → g.log = s.log →
      (∀ i, (g.task i).priority = (s.task i).priority) → g.PrioritiesIn P := by
    intro g hsize hlog hprio
    refine ⟨fun i hi => ?_, fun e he => ?_⟩
    · rw [hprio]; exact hs.task i (hsize ▸ hi)
    · rw [hlog] at he; exact hs.log e he
  have hbad : ∀ {x state workerId output}, (s.endBadly x state workerId output).PrioritiesIn P := by
    intro x state workerId output
    refine hsame rfl rfl fun i => ?_
    obtain ⟨-, heq⟩ | ⟨-, heq⟩ | ⟨-, -, heq⟩ := s.endBadly_task_cases x state workerId output i
    all_goals rw [heq]
  cases h with
  | same _ => exact hs
  | @add request parents hnew hp =>
      have hprio : P request.priority := hop _ rfl
      refine ⟨fun i hi => ?_, fun e he => ?_⟩
      · rcases add_lt hi with hi | rfl
        · rw [add_task_old _ _ hi]; exact hs.task i hi
        · rw [add_task_new]; exact hprio
      · rw [add_log] at he
        split at he
        · rcases List.mem_append.1 he with he | he
          · exact hs.log e he
          · rw [List.mem_singleton.1 he]; exact hprio
        · exact hs.log e he
  | cancel _ _ => exact hbad
  | @setPriority request x hx =>
      have hprio : P request.priority := hop _ rfl
      refine ⟨fun i hi => ?_, fun e he => ?_⟩
      · rw [reprioritize_size] at hi
        rw [reprioritize_task]
        split
        · exact hprio
        · exact hs.task i hi
      · rw [reprioritize_log] at he
        split at he
        · rcases List.mem_append.1 he with he | he
          · exact hs.log e he
          · rw [List.mem_singleton.1 he]; exact hprio
        · exact hs.log e he
  | @claim request qname x _ _ =>
      refine hsame rfl rfl fun i => ?_
      rw [claim_task]
      split
      · next hix => subst hix; rfl
      · rfl
  | fail _ _ _ _ => exact hbad
  | @finish request x _ _ _ _ =>
      refine ⟨fun i hi => ?_, fun e he => ?_⟩
      · rcases finish_task_cases s x request.output i with ⟨rfl, -⟩ | ⟨-, -, -, hst⟩ |
          ⟨-, -, hst⟩
        · rw [finish_self]; exact hs.task i hi
        · rw [hst]; exact hs.task i hi
        · rw [hst]; exact hs.task i hi
      · rw [finish_log] at he
        rcases List.mem_append.1 he with he | he
        · exact hs.log e he
        · obtain ⟨c, hc, rfl⟩ := List.mem_map.1 he
          exact hs.task c (mem_releasedBy.1 hc).1

/-- No task has or had a priority that is NaN. -/
structure AllNumeric (s : TaskGraph α) : Prop where
  task : ∀ i, i < s.size → (s.task i).priority ≠ .nan
  log : s.Numeric

/-- No task has a NaN. -/
theorem AllNumeric.empty : (TaskGraph.empty : TaskGraph α).AllNumeric :=
  ⟨fun i hi => absurd hi (Nat.not_lt_zero i), fun e he => by cases he⟩

/-- A step that sets no priority to NaN leaves none. -/
theorem Change.numeric (h : s.Change op r s') (hop : op.numeric = true) (hs : s.AllNumeric) :
    s'.AllNumeric := by
  have hin : s'.PrioritiesIn (· ≠ .nan) :=
    h.prioritiesIn (fun _ hp => op.ne_nan_of_numeric hop hp) ⟨hs.task, hs.log⟩
  exact ⟨hin.task, hin.log⟩

/-- The tasks that finishing `x` takes from waiting to ready. -/
theorem finish_released {x i : Nat} {output : String} :
    (s.task i).state = .waiting ∧ ((s.finish x output).task i).state = .ready ↔
      i ∈ (s.settle x output).releasedBy x := by
  rcases finish_task_cases s x output i with ⟨rfl, hst⟩ | ⟨-, hmem, hw, hst⟩ | ⟨-, hnot, hst⟩
  · have hself : ((s.settle i output).task i).state = .finished := by rw [settle_task, if_pos rfl]
    rw [hst, mem_releasedBy, hself]
    simp
  · rw [hst]
    exact ⟨fun _ => hmem, fun _ => ⟨hw, rfl⟩⟩
  · rw [hst]
    refine ⟨fun ⟨hw, hr⟩ => ?_, fun hmem => absurd hmem hnot⟩
    rw [hw] at hr
    cases hr

/-- The log by ids. -/
def ids (s : TaskGraph α) : List String := s.log.map fun e => (s.task e.1).taskId

/-- A step changes the priority of a task only by giving it one. -/
theorem Change.priority (h : s.Change op r s')
    (hwf : s.WF) {i : Nat} (hi : i < s.size) : (s'.task i).priority =
      (op.gives (s.task i).taskId r).getD (s.task i).priority := by
  have hbad : ∀ {x state workerId output},
      ((s.endBadly x state workerId output).task i).priority = (s.task i).priority := by
    intro x state workerId output
    obtain ⟨-, heq⟩ | ⟨-, heq⟩ | ⟨-, -, heq⟩ := s.endBadly_task_cases x state workerId output i
    all_goals rw [heq]
  cases h with
  | @same op r hq =>
      cases op with
      | add request => obtain ⟨e, rfl⟩ := hq; rfl
      | setPriority request => obtain ⟨e, rfl⟩ := hq; rfl
      | _ => rfl
  | @add request parents hnew hp =>
      have hne : request.taskId ≠ (s.task i).taskId := (find?_none.1 hnew i hi).symm
      rw [add_task_old _ _ hi, TaskOp.gives, if_neg hne]
      rfl
  | cancel _ _ => exact hbad
  | @setPriority request x hx =>
      obtain ⟨hxs, hid⟩ := find?_some hx
      rw [reprioritize_task, TaskOp.gives]
      by_cases hix : i = x
      · subst hix
        rw [if_pos rfl, if_pos hid.symm]
        rfl
      · have hne : request.taskId ≠ (s.task i).taskId := fun heq =>
          hix (hwf.ids hi hxs (heq.symm.trans hid.symm))
        rw [if_neg hix, if_neg hne]
        rfl
  | @claim request qname x _ _ =>
      rw [claim_task]
      split
      · next hix => subst hix; rfl
      · rfl
  | fail _ _ _ _ => exact hbad
  | @finish request x _ _ _ _ =>
      rcases finish_task_cases s x request.output i with ⟨rfl, -⟩ | ⟨-, -, -, hst⟩ |
        ⟨-, -, hst⟩
      · rw [finish_self]; rfl
      · rw [hst]; rfl
      · rw [hst]; rfl

/-- What a step appends to the log, by ids. -/
theorem Change.ids (h : s.Change op r s') (hwf : s.WF) (records : List (Nat × Double α))
    (hlog : s'.log = s.log ++ records) :
    s'.ids = s.ids ++ records.map fun e => (s'.task e.1).taskId := by
  unfold TaskGraph.ids
  rw [hlog, List.map_append]
  congr 1
  refine List.map_congr_left fun e he => ?_
  rw [(h.keeps (hwf.log_lt e he)).2.taskId]

end TaskGraph

variable [LinearOrder α] [PriorityQueue Q (TaskQueueEntry α) taskQueueEntryOrder]
variable {re2 : RE2} {es : List (TaskEvent Q α)} {m m' : TaskManager Q α} {s s' : TaskGraph α}

/-- The rows that a report took from waiting to ready, through the graph. -/
theorem entered_done (h : m.Represents s) (h' : m'.Represents s') (request : TaskDoneRequest)
    (hkeep : ∀ i, i < s.size → i < s'.size ∧ (s.task i).SameRequest (s'.task i)) :
    entered (⟨m, .done request, .done (.ok ()), m'⟩ : TaskEvent Q α) =
      ((List.range s.size).filter fun i => (s.task i).state = .waiting ∧
        (s'.task i).state = .ready).map fun i => (s.task i).taskId := by
  have hcol : m.tasks.taskId = (List.range s.size).map fun i => (s.task i).taskId := by
    obtain ⟨-, v, rfl, href⟩ := h
    change tab v.size _ = tab s.size _
    rw [href.size]
    exact tab.congr fun i hi => congrArg Row.taskId (href.row hi)
  change m.tasks.taskId.filter _ = _
  rw [hcol, List.filter_map]
  congr 1
  refine List.filter_congr fun i hi => ?_
  have hi := List.mem_range.1 hi
  obtain ⟨hi', hreq⟩ := hkeep i hi
  rw [Function.comp_apply, h.statusOf, h'.statusOf, h.1.status_eq hi, ← hreq.taskId,
    h'.1.status_eq hi']
  simp

/-- A report that takes no task from waiting to ready enters none. -/
theorem entered_done_nil (h : m.Represents s) (h' : m'.Represents s') (request : TaskDoneRequest)
    (hkeep : ∀ i, i < s.size → i < s'.size ∧ (s.task i).SameRequest (s'.task i))
    (hnone : ∀ i, (s.task i).state = .waiting → (s'.task i).state ≠ .ready) :
    entered (⟨m, .done request, .done (.ok ()), m'⟩ : TaskEvent Q α) = [] := by
  rw [entered_done h h' request hkeep, List.map_eq_nil_iff, List.filter_eq_nil_iff]
  intro i _
  simp only [decide_eq_true_eq]
  rintro ⟨hwait, hready⟩
  exact hnone i hwait hready

/-- A new task enters its queues if it is ready at once. -/
theorem entered_add {request : TaskAddRequest α} {parents : List Nat}
    (h' : m'.Represents (s.add request parents)) :
    entered (⟨m, .add request, .add (.ok ()), m'⟩ : TaskEvent Q α) =
      if (s.birth parents).1 = .ready then [request.taskId] else [] := by
  have hi : s.size < (s.add request parents).size := by
    rw [TaskGraph.add_size]; exact Nat.lt_succ_self _
  have hst := h'.1.status_eq hi
  rw [TaskGraph.add_task_new] at hst
  have hstatus : m'.statusOf request.taskId = some (s.birth parents).1 := by
    rw [h'.statusOf]
    exact congrArg some hst
  simp only [entered, hstatus, Option.some.injEq]

/-- A report of success enters the tasks that it releases. -/
theorem entered_finish (h : m.Represents s) {x : Nat} {request : TaskDoneRequest}
    (h' : m'.Represents (s.finish x request.output)) :
    entered (⟨m, .done request, .done (.ok ()), m'⟩ : TaskEvent Q α) =
      ((s.settle x request.output).releasedBy x).map fun i => (s.task i).taskId := by
  rw [entered_done h h' request fun i hi => ⟨hi, TaskGraph.finish_sameRequest _⟩]
  congr 1
  refine List.filter_congr fun i hi => decide_eq_decide.2 ?_
  have hmem := TaskGraph.mem_releasedBy (s := s.settle x request.output) (x := x) (c := i)
  rw [TaskGraph.finish_released, hmem]
  exact and_iff_right (List.mem_range.1 hi)

/-- The queue entries of a step are what it appends to the log. -/
theorem TaskRun.entered_step (h : TaskRun re2 es m s) {op : TaskOp α} {r : TaskReply α}
    (hc : s.Change op r s') (hrep' : m'.Represents s') :
    s'.ids = s.ids ++ entered (⟨m, op, r, m'⟩ : TaskEvent Q α) := by
  have hrep := h.related
  have hstep := hc.ids h.wf
  have hkeep := fun i (hi : i < s.size) => hc.keeps hi
  have hnone : ∀ {l : List String}, s'.log = s.log → l = [] → s'.ids = s.ids ++ l := by
    rintro l hlog rfl
    exact hstep [] (by rw [hlog, List.append_nil])
  cases hc with
  | @same op r hq =>
      refine hnone rfl ?_
      cases op with
      | add request => obtain ⟨e, rfl⟩ := hq; rfl
      | setPriority request => obtain ⟨e, rfl⟩ := hq; rfl
      | done request =>
          rcases hq with ⟨e, rfl⟩ | ⟨rfl, -⟩
          · rfl
          · refine entered_done_nil hrep hrep' request hkeep fun i hwait hready => ?_
            rw [hwait] at hready
            cases hready
      | _ => rfl
  | @add request parents hnew hp =>
      rw [entered_add hrep']
      by_cases hr : (s.birth parents).1 = .ready
      · rw [if_pos hr, hstep _ (by rw [TaskGraph.add_log, if_pos hr]), List.map_singleton,
          TaskGraph.add_task_new]
        rfl
      · rw [if_neg hr]
        exact hnone (by rw [TaskGraph.add_log, if_neg hr]) rfl
  | cancel _ _ => exact hnone rfl rfl
  | @setPriority request x hx =>
      obtain ⟨hxs, hid⟩ := TaskGraph.find?_some hx
      have hentered : entered (⟨m, .setPriority request, .setPriority (.ok ()), m'⟩ :
          TaskEvent Q α) = if (s.task x).state = .ready then [request.taskId] else [] := by
        simp only [entered, ← hid, h.statusOf_eq hxs, Option.some.injEq]
      rw [hentered]
      by_cases hr : (s.task x).state = .ready
      · rw [if_pos hr, hstep _ (by rw [TaskGraph.reprioritize_log, if_pos hr]),
          List.map_singleton, (TaskGraph.reprioritize_sameRequest _).taskId, hid]
      · rw [if_neg hr]
        exact hnone (by rw [TaskGraph.reprioritize_log, if_neg hr]) rfl
  | claim _ _ => exact hnone rfl rfl
  | @fail request x hx hr hw hf =>
      refine hnone rfl (entered_done_nil hrep hrep' request hkeep fun i hwait hready => ?_)
      rcases TaskGraph.endBadly_state (s := s) (i := i) (x := x) .failed (s.task x).workerId
        request.output with ⟨-, hst⟩ | ⟨-, -, hst⟩
      · rw [TaskGraph.fail, hst] at hready; cases hready
      · rw [TaskGraph.fail, hst, hwait] at hready; cases hready
  | @finish request x hx hr hw hf =>
      rw [entered_finish hrep hrep', hstep _ (TaskGraph.finish_log _), List.map_map]
      congr 1
      refine List.map_congr_left fun c _ => ?_
      exact (TaskGraph.finish_sameRequest _).taskId

/-- **The queue entries of a history are the log of its graph.** -/
theorem TaskRun.entryLog_eq (h : TaskRun re2 es m s) : entryLog es = s.ids := by
  refine Machine.Coupled.invariant (I := fun es _ s => entryLog es = s.ids) rfl ?_ h
  intro es m s op r m' s' hc ih _ hserve hrep'
  have hlast : entryLog (es ++ [⟨m, op, r, m'⟩]) =
      entryLog es ++ entered (⟨m, op, r, m'⟩ : TaskEvent Q α) := by
    simp [entryLog]
  rw [hlast, ih]
  exact (TaskRun.entered_step hc hserve.change hrep').symm

/-- As long as no call passes a NaN no task has one. -/
theorem TaskRun.allNumeric (h : TaskRun re2 es m s) (hnum : ∀ e ∈ es, e.op.numeric = true) :
    s.AllNumeric := by
  refine Machine.Coupled.invariant
    (I := fun es _ s => (∀ e ∈ es, e.op.numeric = true) → s.AllNumeric) ?_ ?_ h hnum
  · exact fun _ => .empty
  · intro es m s op r m' s' _ ih _ hserve _ hnum
    exact hserve.change.numeric (hnum ⟨m, op, r, m'⟩ (List.mem_append_right _ (.head _)))
      (ih fun e he => hnum e (List.mem_append_left _ he))

/-- The priority of a task is the one that the history gave it last. -/
theorem TaskRun.lastGiven_eq (h : TaskRun re2 es m s) :
    ∀ i, i < s.size → lastGiven es (s.task i).taskId = some (s.task i).priority := by
  refine Machine.Coupled.invariant (I := fun es _ s => ∀ i, i < s.size →
    lastGiven es (s.task i).taskId = some (s.task i).priority) ?_ ?_ h
  · exact fun i hi => absurd hi (Nat.not_lt_zero i)
  · intro es m s op r m' s' hc ih _ hserve _ i hi
    rw [lastGiven_snoc]
    have hchange := hserve.change
    by_cases hold : i < s.size
    · rw [(hchange.keeps hold).2.taskId, ih i hold, hchange.priority (TaskRun.wf hc) hold]
      cases op.gives (s.task i).taskId r <;> rfl
    · -- only `task_add` makes a task
      rcases hchange.requests with ⟨request, parents, rfl, rfl, -, -, rfl⟩ | ⟨-, hsize, -⟩
      · obtain rfl := (TaskGraph.add_lt hi).resolve_left hold
        rw [TaskGraph.add_task_new]
        simp [TaskOp.gives, TaskGraph.newTask]
      · exact absurd (hsize ▸ hi) hold

/-- **The priority of a row is the one that was passed last for its task**, by its `task_add` or by
a `task_set_priority` that was accepted. -/
theorem TaskManager.priority_eq_lastGiven (h : (TaskManager.machine Q re2).Run es m) {i : Nat}
    {state : TaskState} (hi : m.tasks.state[i]? = some state) :
    ∃ t, m.tasks.taskId[i]? = some t ∧ m.tasks.priority[i]? = lastGiven es t := by
  obtain ⟨s, hc⟩ := TaskManager.exists_taskRun h
  have hlt := hc.related.row_lt hi
  obtain ⟨hid, -, -, -, hpriority, -, -⟩ := hc.related.columns hlt
  exact ⟨_, hid, hpriority.trans (hc.lastGiven_eq i hlt).symm⟩

/-- The rows that the table offers are those of the graph. -/
theorem TaskManager.Represents.offers_iff (h : m.Represents s) {qname : String} {i : Nat} :
    m.Offers qname i ↔ s.Offers qname i := by
  constructor
  · rintro ⟨hst, queues, hq, hmem⟩
    have hi := h.row_lt hst
    obtain ⟨-, hst', -, -, -, hq', -⟩ := h.columns hi
    rw [hst, Option.some.injEq] at hst'
    rw [hq, Option.some.injEq] at hq'
    exact ⟨hi, hst'.symm, hq' ▸ hmem⟩
  · rintro ⟨hi, hst, hmem⟩
    obtain ⟨-, hst', -, -, -, hq', -⟩ := h.columns hi
    exact ⟨hst ▸ hst', _, hq', hmem⟩

/-- A task that outranks another is preferred by a scan. -/
theorem TaskRun.precedes (h : TaskRun re2 es m s) (hnum : ∀ e ∈ es, e.op.numeric = true)
    {qname : String} {i j : Nat} (hi : s.Offers qname i) (hj : s.Offers qname j)
    (hout : s.Outranks i j) : Precedes es m i j := by
  have hwf := h.wf
  have hall := h.allNumeric hnum
  obtain ⟨x, hx⟩ := Double.eq_num (hall.task i hi.1)
  obtain ⟨y, hy⟩ := Double.eq_num (hall.task j hj.1)
  obtain ⟨hti, -, -, -, hpi, -⟩ := h.related.columns hi.1
  obtain ⟨htj, -, -, -, hpj, -⟩ := h.related.columns hj.1
  refine ⟨x, y, _, _, hx ▸ hpi, hy ▸ hpj, hti, htj, ?_⟩
  rcases hout with hlt | ⟨heq, hseq⟩
  · rw [hx, hy] at hlt
    exact .inl (by simpa [Double.lt] using hlt)
  · rw [hx, hy, Double.num.injEq] at heq
    refine .inr ⟨heq, ?_⟩
    -- the places in the log by ids are the places in the log
    have hplace : ∀ {k}, k < s.size → lastSeq (entryLog es) (s.task k).taskId = s.seq k := by
      intro k hk
      rw [h.entryLog_eq]
      have hmap : s.ids = (s.log.map Prod.fst).map fun c => (s.task c).taskId := by
        rw [List.map_map]; rfl
      rw [hmap]
      refine lastSeq.map fun c hc hck => ?_
      obtain ⟨e, he, rfl⟩ := List.mem_map.1 hc
      exact hwf.ids (hwf.log_lt e he) hk hck
    have hmem : (s.task i).taskId ∈ entryLog es := by
      rw [← lastSeq.pos_iff, hplace hi.1]
      exact lastSeq.pos_iff.2 (hwf.logged hi.1 hi.2.1).1
    rw [← hplace hi.1, ← hplace hj.1] at hseq
    exact (lastSeq.lt_iff hmem).1 hseq

/-- **Dispatch equals a full scan.** After every run without NaN, `task_get` is defined and: if none
of the queues it names has a ready row it returns NotFound; otherwise, of the first that has one, it
returns a row that is ready, lists the queue and precedes every other such row, with the task id,
the function and the input of the row's `task_add`. -/
theorem dispatch_is_a_scan (h : (TaskManager.machine Q re2).Run es m)
    (hnum : ∀ e ∈ es, e.op.numeric = true) (request : TaskGetRequest) :
    ∃ r m', m.get request = some (r, m') ∧
      ((∀ qname ∈ request.queue, ∀ i, ¬ m.Offers qname i) →
        r = makeError .notFound "No tasks available.") ∧
      ∀ qnames qname rest, request.queue = qnames ++ qname :: rest →
        (∀ q ∈ qnames, ∀ i, ¬ m.Offers q i) → (∃ i, m.Offers qname i) →
        ∃ i added, (adds es)[i]? = some added ∧ m.Offers qname i ∧
          (∀ j, m.Offers qname j → j ≠ i → Precedes es m i j) ∧
          r = .ok ⟨added.taskId, added.function, added.input⟩ ∧
          m'.tasks.state[i]? = some .running := by
  obtain ⟨s, hc⟩ := TaskManager.exists_taskRun h
  obtain ⟨reply, m', s', hs, hserve, hrep'⟩ :=
    (TaskManager.simulation re2).step (.get request) hc.related
  obtain ⟨⟨r, m₁⟩, hget, heq⟩ := Option.bind_eq_some_iff.1 hs
  cases heq
  refine ⟨r, m', hget, ?_⟩
  simp only [hc.related.offers_iff]
  classical
  have hfirst : ∀ {qnames qname rest}, request.queue = qnames ++ qname :: rest →
      (∀ q ∈ qnames, ∀ i, ¬ s.Offers q i) → (∃ i, s.Offers qname i) →
      request.queue.find? (fun q => ∃ i, s.Offers q i) = some qname := by
    intro qnames qname rest hq hskip hex
    rw [List.find?_eq_some_iff_append]
    exact ⟨by simpa using hex, qnames, rest, hq, fun q hq => by simpa using hskip q hq⟩
  cases hserve with
  | read hr => cases hr
  | get hserve =>
      cases hserve with
      | none hnone =>
          refine ⟨fun _ => rfl, fun qnames qname rest hq _ ⟨i, hi⟩ => ?_⟩
          exact absurd hi (hnone qname (by rw [hq]; simp) i)
      | @claim qnames' rest' qname' i hq' hskip' hi hbest =>
          refine ⟨fun hnone => absurd hi (hnone qname' (by rw [hq']; simp) i), ?_⟩
          intro qnames qname rest hq hskip hex
          have heq : qname' = qname := Option.some.inj
            ((hfirst hq' hskip' ⟨i, hi⟩).symm.trans (hfirst hq hskip hex))
          subst heq
          have hlt : i < (adds es).length := hc.recorded.1 ▸ hi.1
          have hget := List.getElem?_eq_getElem hlt
          have hrec := hc.recorded.2 i _ hget
          refine ⟨i, _, hget, hi, fun j hj hne => ?_, ?_, ?_⟩
          · exact hc.precedes hnum hi hj (hbest (hc.allNumeric hnum).log j hj hne)
          · rw [← hrec.taskId, ← hrec.function, ← hrec.input]
          · have hcol := (hrep'.columns (i := i) hi.1).2.1
            rw [hcol, TaskGraph.claim_task, if_pos rfl]

/-- Two tasks of the same priority, the first of which has been queued again. -/
def requeued : List (TaskOp Nat) :=
  [.add ⟨"a", [], ["q"], .num 1, "f", "1"⟩, .add ⟨"b", [], ["q", "p", "q"], .num 1, "f", "2"⟩,
    .setPriority ⟨"a", .num 1⟩]

/-- Between tasks of one priority it counts when they were queued last. -/
theorem dispatch_is_a_scan_requeued :
    ∃ i added, (adds (sampleRun requeued).1)[i]? = some added ∧
      (sampleRun requeued).2.Offers "q" i ∧ ∀ j, (sampleRun requeued).2.Offers "q" j → j ≠ i →
        Precedes (sampleRun requeued).1 (sampleRun requeued).2 i j := by
  obtain ⟨r, m', -, -, hscan⟩ :=
    dispatch_is_a_scan (run_sampleRun requeued rfl) (by decide) ⟨"w", ["q"]⟩
  obtain ⟨i, added, hadd, hi, hbest, -⟩ :=
    hscan [] "q" [] rfl (by simp) ⟨0, rfl, ["q"], rfl, .head _⟩
  exact ⟨i, added, hadd, hi, hbest⟩

end DsService

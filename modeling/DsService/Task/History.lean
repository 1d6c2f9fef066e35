import DsService.Task.Simulation

/-!
# Histories

The table forgets what a task was added with: parents are not stored, and claims leave no trace once
a task has ended. The history of a run has it all. This module reads requests, declared parents and
claims off the events of a run, and ties them to the task graph that is coupled with the run: row
`i` is the `i`-th successful `task_add` (`TaskRun.recorded`), and the parents and ancestors of the
graph are the declared ones (`TaskRun.parentOf_iff`, `TaskRun.ancestorOf_iff`).
-/

namespace DsService

variable {Q α : Type}

/-- An event of a run of the task manager. -/
abbrev TaskEvent (Q α : Type) := Machine.Event (TaskManager Q α) (TaskOp α) (TaskReply α)

/-! ## What a history tells -/

/-- The request of a successful `task_add`. -/
def TaskOp.added : TaskOp α → TaskReply α → Option (TaskAddRequest α)
  | .add request, .add (.ok ()) => some request
  | _, _ => none

/-- Only an add that succeeds adds a task. -/
theorem TaskOp.added_eq_some {op : TaskOp α} {r : TaskReply α} {request : TaskAddRequest α}
    (h : op.added r = some request) : op = .add request ∧ r = .add (.ok ()) := by
  unfold added at h
  split at h
  · cases h
    exact ⟨rfl, rfl⟩
  · cases h

/-- The task that a `task_get` returned, with the worker that asked. -/
def TaskOp.claimed : TaskOp α → TaskReply α → Option (String × String)
  | .get request, .get (.ok response) => some (response.taskId, request.workerId)
  | _, _ => none

/-- The requests of the successful `task_add` calls of a history, in order. -/
def adds (es : List (TaskEvent Q α)) : List (TaskAddRequest α) :=
  es.filterMap fun e => e.op.added e.reply

/-- The tasks that the `task_get` calls of a history returned, each with the worker that asked, in
order. -/
def claims (es : List (TaskEvent Q α)) : List (String × String) :=
  es.filterMap fun e => e.op.claimed e.reply

/-- The `task_add` of `t` named `p` as a parent. -/
def ParentOf (es : List (TaskEvent Q α)) (p t : String) : Prop :=
  ∃ request ∈ adds es, request.taskId = t ∧ p ∈ request.parentTaskIds

/-- `a` is an ancestor of `t` by declared parents, in one or more steps. -/
def AncestorOf (es : List (TaskEvent Q α)) : String → String → Prop :=
  Relation.TransGen (ParentOf es)

/-- The adds of a run come in its order. -/
theorem adds_append (es es' : List (TaskEvent Q α)) : adds (es ++ es') = adds es ++ adds es' :=
  List.filterMap_append

/-- The claims of a run come in its order. -/
theorem claims_append (es es' : List (TaskEvent Q α)) :
    claims (es ++ es') = claims es ++ claims es' :=
  List.filterMap_append

/-! ## The graph of a run -/

namespace TaskGraph

/-- Task `i` is what the request asked for. -/
structure Records (s : TaskGraph α) (i : Nat) (request : TaskAddRequest α) : Prop where
  taskId : (s.task i).taskId = request.taskId
  function : (s.task i).function = request.function
  input : (s.task i).input = request.input
  queues : (s.task i).queues = request.queue
  parents : ((s.task i).parents.map fun p => (s.task p).taskId) = request.parentTaskIds

variable {s s' : TaskGraph α} {i : Nat} {request : TaskAddRequest α}

/-- What was asked for is kept by every change that keeps the requests. -/
theorem Records.sameRequest (h : s.Records i request)
    (hreq : ∀ i, (s.task i).SameRequest (s'.task i)) : s'.Records i request where
  taskId := (hreq i).taskId.trans h.taskId
  function := (hreq i).function.trans h.function
  input := (hreq i).input.trans h.input
  queues := (hreq i).queues.trans h.queues
  parents := by
    rw [(hreq i).parents, ← h.parents]
    exact List.map_congr_left fun p _ => (hreq p).taskId

/-- Resolved parents have the ids they were asked for by. -/
theorem resolve_ids {ids : List String} {is : List Nat} (h : s.resolve ids = .ok is) :
    (is.map fun i => (s.task i).taskId) = ids := by
  have hall := resolve_ok h
  clear h
  induction hall with
  | nil => rfl
  | cons ht _ ih => rw [List.map_cons, ih, (find?_some ht).2]

/-- What was asked for is kept when another task is added. -/
theorem Records.add {request' : TaskAddRequest α} {parents : List Nat} (h : s.Records i request)
    (hwf : s.WF) (hi : i < s.size) : (s.add request' parents).Records i request where
  taskId := by rw [add_task_old _ _ hi, h.taskId]
  function := by rw [add_task_old _ _ hi, h.function]
  input := by rw [add_task_old _ _ hi, h.input]
  queues := by rw [add_task_old _ _ hi, h.queues]
  parents := by
    rw [add_task_old _ _ hi, ← h.parents]
    refine List.map_congr_left fun p hp => ?_
    rw [add_task_old _ _ (hwf.parent_size ⟨hi, hp⟩)]

/-- The new task is what its request asked for. -/
theorem records_add {parents : List Nat} (hp : s.resolve request.parentTaskIds = .ok parents) :
    (s.add request parents).Records s.size request where
  taskId := by rw [add_task_new]; rfl
  function := by rw [add_task_new]; rfl
  input := by rw [add_task_new]; rfl
  queues := by rw [add_task_new]; rfl
  parents := by
    rw [add_task_new, ← resolve_ids hp]
    refine List.map_congr_left fun p hpp => ?_
    rw [add_task_old _ _ (resolve_lt hp p hpp)]

/-- A change either adds a task or keeps all requests. -/
theorem Change.requests {op : TaskOp α} {r : TaskReply α}
    (h : s.Change op r s') :
    (∃ request parents, op = .add request ∧ r = .add (.ok ()) ∧
      s.find? request.taskId = none ∧ s.resolve request.parentTaskIds = .ok parents ∧
      s' = s.add request parents) ∨
    op.added r = none ∧ s'.size = s.size ∧ ∀ i, (s.task i).SameRequest (s'.task i) := by
  cases h with
  | @same op r h =>
      refine .inr ⟨?_, rfl, fun i => .refl _⟩
      cases op with
      | add request =>
          obtain ⟨e, rfl⟩ := h
          rfl
      | _ => rfl
  | add hnew hp => exact .inl ⟨_, _, rfl, rfl, hnew, hp, rfl⟩
  | cancel _ _ => exact .inr ⟨rfl, rfl, fun i => endBadly_sameRequest _ _ _⟩
  | setPriority _ =>
      exact .inr ⟨rfl, reprioritize_size _, fun i => reprioritize_sameRequest _⟩
  | claim _ _ => exact .inr ⟨rfl, rfl, fun i => claim_sameRequest _⟩
  | fail _ _ _ _ => exact .inr ⟨rfl, rfl, fun i => endBadly_sameRequest _ _ _⟩
  | finish _ _ _ _ => exact .inr ⟨rfl, rfl, fun i => finish_sameRequest _⟩

/-- A task stays, with its request. -/
theorem Change.keeps {op : TaskOp α} {r : TaskReply α} (h : s.Change op r s')
    (hi : i < s.size) : i < s'.size ∧ (s.task i).SameRequest (s'.task i) := by
  rcases h.requests with ⟨_, _, -, -, -, -, rfl⟩ | ⟨-, hsize, hreq⟩
  · rw [add_size, add_task_old _ _ hi]
    exact ⟨Nat.lt_succ_of_lt hi, .refl _⟩
  · exact ⟨hsize ▸ hi, hreq i⟩

/-- Ancestors stay. -/
theorem Change.ancestor {op : TaskOp α} {r : TaskReply α} (h : s.Change op r s')
    {a : Nat} (ha : s.Ancestor a i) : s'.Ancestor a i := by
  refine Relation.TransGen.mono (fun p c hp => ?_) _ _ ha
  obtain ⟨hsize, hreq⟩ := h.keeps hp.1
  exact ⟨hsize, hreq.parents ▸ hp.2⟩

end TaskGraph

/-! ## Coupled runs of the task manager -/

variable [LinearOrder α] [PriorityQueue Q (TaskQueueEntry α) taskQueueEntryOrder]

/-- A run of the task manager side by side with its task graph. -/
abbrev TaskRun (re2 : RE2) : List (TaskEvent Q α) → TaskManager Q α → TaskGraph α → Prop :=
  Machine.Coupled (TaskManager.machine Q re2) (TaskGraph.spec re2) TaskManager.Represents

variable {re2 : RE2} {es : List (TaskEvent Q α)} {m : TaskManager Q α} {s : TaskGraph α}

/-- The state that the code reports for an id is that of the graph. -/
theorem TaskManager.Represents.statusOf (h : m.Represents s) (t : String) :
    m.statusOf t = some (s.status t) := by
  obtain ⟨-, v, rfl, href⟩ := h
  exact href.statusOf t

/-- The columns of a row are the fields of the task. -/
theorem TaskManager.Represents.columns (h : m.Represents s) {i : Nat} (hi : i < s.size) :
    m.tasks.taskId[i]? = some (s.task i).taskId ∧ m.tasks.state[i]? = some (s.task i).state ∧
      m.tasks.output[i]? = some (s.task i).output ∧
      m.tasks.workerId[i]? = some (s.task i).workerId ∧
      m.tasks.priority[i]? = some (s.task i).priority ∧
      m.tasks.queues[i]? = some (s.task i).queues ∧
      m.tasks.terminalOrigin[i]? = some (s.task i).origin := by
  obtain ⟨-, v, rfl, href⟩ := h
  have hiv : i < v.size := href.size ▸ hi
  have hrow := href.row hi
  rw [Rows.taskId_manager hiv, Rows.state_manager hiv, Rows.output_manager hiv,
    Rows.workerId_manager hiv, Rows.priority_manager hiv, Rows.queues_manager hiv,
    Rows.terminalOrigin_manager hiv, hrow]
  exact ⟨rfl, rfl, rfl, rfl, rfl, rfl, rfl⟩

/-- A row with a state is a task. -/
theorem TaskManager.Represents.row_lt (h : m.Represents s) {i : Nat} {state : TaskState}
    (hi : m.tasks.state[i]? = some state) : i < s.size := by
  obtain ⟨-, v, rfl, href⟩ := h
  have hlt := (List.getElem?_eq_some_iff.1 hi).1
  rw [href.state_column, tab.length] at hlt
  exact hlt

omit [LinearOrder α] in
/-- The state of a task by its id. -/
theorem TaskGraph.WF.status_eq (h : s.WF) {i : Nat} (hi : i < s.size) :
    s.status (s.task i).taskId = (s.task i).state := by
  unfold TaskGraph.status
  rw [h.find?_eq.2 ⟨hi, rfl⟩]

omit [LinearOrder α] in
/-- Only tasks of the graph have a state. -/
theorem TaskGraph.exists_of_status {t : String} (h : s.status t ≠ .undefined) :
    ∃ i, i < s.size ∧ (s.task i).taskId = t ∧ (s.task i).state = s.status t := by
  unfold TaskGraph.status at h ⊢
  cases hf : s.find? t with
  | none => rw [hf] at h; exact absurd rfl h
  | some i => exact ⟨i, (TaskGraph.find?_some hf).1, (TaskGraph.find?_some hf).2, rfl⟩

namespace TaskRun

variable (h : TaskRun re2 es m s)
include h

/-- The graph of a run is well formed. -/
theorem wf : s.WF := h.related.1

/-- Row `i` is the `i`-th successful `task_add`. -/
theorem recorded : (adds es).length = s.size ∧
    ∀ i request, (adds es)[i]? = some request → s.Records i request := by
  refine Machine.Coupled.invariant (I := fun es _ s => (adds es).length = s.size ∧
    ∀ i request, (adds es)[i]? = some request → s.Records i request) ?_ ?_ h
  · exact ⟨rfl, fun i request hi => by simp [adds] at hi⟩
  · intro es m s op r m' s' hc ih _ hserve _
    obtain ⟨hlen, hall⟩ := ih
    rw [adds_append]
    rcases hserve.change.requests with ⟨request, parents, rfl, rfl, hnew, hp, rfl⟩ |
      ⟨hnone, hsize, hreq⟩
    · have hadds : adds [(⟨m, .add request, .add (.ok ()), m'⟩ : TaskEvent Q α)] = [request] := rfl
      rw [hadds, List.length_append, TaskGraph.add_size, hlen]
      refine ⟨rfl, fun i request' hi => ?_⟩
      rcases Nat.lt_trichotomy i (adds es).length with hlt | heq | hgt
      · rw [List.getElem?_append_left hlt] at hi
        exact (hall i request' hi).add hc.related.1 (hlen ▸ hlt)
      · rw [heq, List.getElem?_concat_length] at hi
        cases hi
        rw [heq, hlen]
        exact TaskGraph.records_add hp
      · rw [List.getElem?_eq_none (by rw [List.length_append]; exact hgt)] at hi
        cases hi
    · have hadds : adds [(⟨m, op, r, m'⟩ : TaskEvent Q α)] = [] := by
        simp [adds, hnone]
      rw [hadds, List.append_nil]
      exact ⟨hlen.trans hsize.symm, fun i request hi => (hall i request hi).sameRequest hreq⟩

/-- A successful `task_add` made a task. -/
theorem exists_task {request : TaskAddRequest α} (hr : request ∈ adds es) :
    ∃ i, i < s.size ∧ s.Records i request := by
  obtain ⟨i, hi⟩ := List.mem_iff_getElem?.1 hr
  exact ⟨i, h.recorded.1 ▸ (List.getElem?_eq_some_iff.1 hi).1, h.recorded.2 i request hi⟩

/-- Every task was made by a successful `task_add`. -/
theorem exists_request {i : Nat} (hi : i < s.size) : ∃ request ∈ adds es, s.Records i request := by
  have hlt : i < (adds es).length := h.recorded.1 ▸ hi
  exact ⟨_, List.getElem_mem hlt, h.recorded.2 i _ (List.getElem?_eq_getElem hlt)⟩

/-- The ids of the rows are those of the successful `task_add` calls, in order. -/
theorem taskId_eq : m.tasks.taskId = (adds es).map (·.taskId) := by
  obtain ⟨hlen, hrec⟩ := h.recorded
  have hsize : m.tasks.taskId.length = s.size := by
    obtain ⟨-, v, rfl, href⟩ := h.related
    exact tab.length.trans href.size
  refine List.ext_getElem? fun i => ?_
  rcases Nat.lt_or_ge i s.size with hi | hi
  · have hget := List.getElem?_eq_getElem (hlen.symm ▸ hi)
    rw [(h.related.columns hi).1, List.getElem?_map, hget, Option.map_some,
      (hrec i _ hget).taskId]
  · rw [List.getElem?_eq_none (hsize.symm ▸ hi), List.getElem?_eq_none (by simpa [hlen] using hi)]

/-- No two rows have the same id. -/
theorem taskId_nodup : ((adds es).map (·.taskId)).Nodup := by
  obtain ⟨hlen, hrec⟩ := h.recorded
  rw [List.nodup_iff_injective_getElem]
  rintro ⟨i, hi⟩ ⟨j, hj⟩ heq
  simp only [List.length_map] at hi hj
  simp only [List.getElem_map] at heq
  rw [Fin.mk.injEq]
  refine h.wf.ids (hlen ▸ hi) (hlen ▸ hj) ?_
  rw [(hrec i _ (List.getElem?_eq_getElem hi)).taskId,
    (hrec j _ (List.getElem?_eq_getElem hj)).taskId]
  exact heq

/-- **The parents of the graph are the declared ones.** -/
theorem parentOf_iff {p t : String} : ParentOf es p t ↔
    ∃ i j, s.Parent i j ∧ (s.task i).taskId = p ∧ (s.task j).taskId = t := by
  constructor
  · rintro ⟨request, hr, rfl, hp⟩
    obtain ⟨j, hj, hrec⟩ := h.exists_task hr
    rw [← hrec.parents] at hp
    obtain ⟨i, hi, rfl⟩ := List.mem_map.1 hp
    exact ⟨i, j, ⟨hj, hi⟩, rfl, hrec.taskId⟩
  · rintro ⟨i, j, hij, rfl, rfl⟩
    obtain ⟨request, hr, hrec⟩ := h.exists_request hij.1
    refine ⟨request, hr, hrec.taskId.symm, ?_⟩
    rw [← hrec.parents]
    exact List.mem_map.2 ⟨i, hij.2, rfl⟩

/-- The ancestors of the graph are the declared ones. -/
theorem ancestorOf_iff {a t : String} : AncestorOf es a t ↔
    ∃ i j, s.Ancestor i j ∧ (s.task i).taskId = a ∧ (s.task j).taskId = t := by
  constructor
  · intro ha
    induction ha with
    | single hp =>
        obtain ⟨i, j, hij, hi, hj⟩ := h.parentOf_iff.1 hp
        exact ⟨i, j, .single hij, hi, hj⟩
    | tail _ hp ih =>
        obtain ⟨i, j, hij, hi, hj⟩ := ih
        obtain ⟨j', k, hjk, hj', hk⟩ := h.parentOf_iff.1 hp
        have heq : j = j' := h.wf.ids hij.size (h.wf.parent_size hjk) (hj.trans hj'.symm)
        subst heq
        exact ⟨i, k, .tail hij hjk, hi, hk⟩
  · rintro ⟨i, j, hij, rfl, rfl⟩
    induction hij with
    | single hp => exact .single (h.parentOf_iff.2 ⟨_, _, hp, rfl, rfl⟩)
    | tail _ hp ih => exact .tail ih (h.parentOf_iff.2 ⟨_, _, hp, rfl, rfl⟩)

/-- A history has one successful `task_add` for each id. -/
theorem adds_unique {r₁ r₂ : TaskAddRequest α} (h₁ : r₁ ∈ adds es) (h₂ : r₂ ∈ adds es)
    (heq : r₁.taskId = r₂.taskId) : r₁ = r₂ := by
  obtain ⟨i, hi⟩ := List.mem_iff_getElem?.1 h₁
  obtain ⟨j, hj⟩ := List.mem_iff_getElem?.1 h₂
  have hlt : ∀ {k r}, (adds es)[k]? = some r → k < s.size := fun hk =>
    h.recorded.1 ▸ (List.getElem?_eq_some_iff.1 hk).1
  have hij : i = j := h.wf.ids (hlt hi) (hlt hj) (by
    rw [(h.recorded.2 i _ hi).taskId, (h.recorded.2 j _ hj).taskId, heq])
  rw [hij, hj] at hi
  exact (Option.some.inj hi).symm

/-- A state that the code reports belongs to a task. -/
theorem exists_of_statusOf {t : String} {state : TaskState} (hst : m.statusOf t = some state)
    (hne : state ≠ .undefined) :
    ∃ i, i < s.size ∧ (s.task i).taskId = t ∧ (s.task i).state = state := by
  rw [h.related.statusOf, Option.some.injEq] at hst
  subst hst
  exact TaskGraph.exists_of_status hne

/-- The status of a task is its state in the graph. -/
theorem statusOf_eq {i : Nat} (hi : i < s.size) :
    m.statusOf (s.task i).taskId = some (s.task i).state := by
  rw [h.related.statusOf, h.wf.status_eq hi]

/-- A `task_get` returned a task that was ready. -/
theorem exists_of_claim {op : TaskOp α} {r : TaskReply α} {m' : TaskManager Q α}
    {t workerId : String}
    (hs : (TaskManager.machine Q re2).step m op = some (r, m'))
    (hclaim : op.claimed r = some (t, workerId)) :
    ∃ i, i < s.size ∧ (s.task i).taskId = t ∧ (s.task i).state = .ready := by
  obtain ⟨s', hserve, -⟩ := (TaskManager.simulation re2).serves h.related hs
  cases hserve.change with
  | @same op r hq =>
      cases op with
      | get request =>
          obtain ⟨e, rfl⟩ := hq
          cases hclaim
      | _ => cases hclaim
  | claim _ hi =>
      cases hclaim
      exact ⟨_, hi.1, rfl, hi.2.1⟩
  | _ => cases hclaim

/-- A `task_get` hands out a task that was recorded, with its function and its input. -/
theorem get_recorded {request : TaskGetRequest} {response : TaskGetResponse}
    {m' : TaskManager Q α} (hs : m.get request = some (.ok response, m')) :
    ∃ added ∈ adds es, response = ⟨added.taskId, added.function, added.input⟩ := by
  have hstep : (TaskManager.machine Q re2).step m (.get request) = some (.get (.ok response), m') :=
    Option.bind_eq_some_iff.2 ⟨_, hs, rfl⟩
  obtain ⟨s', hserve, -⟩ := (TaskManager.simulation re2).serves h.related hstep
  cases hserve.change with
  | same hq =>
      obtain ⟨e, he⟩ := hq
      cases he
  | claim _ hi =>
      obtain ⟨added, hadded, hrec⟩ := h.exists_request hi.1
      exact ⟨added, hadded, by rw [hrec.taskId, hrec.function, hrec.input]⟩

end TaskRun

/-- **Every run of the task manager has its task graph.** -/
theorem TaskManager.exists_taskRun (h : (TaskManager.machine Q re2).Run es m) :
    ∃ s, TaskRun re2 es m s :=
  (TaskManager.simulation re2).run h

/-! ## Concrete runs -/

/-- A task manager that can be run: numbers as priorities, and queues by linear scan. -/
abbrev SampleManager := TaskManager (ListQueue (taskQueueEntryOrder (α := Nat))) Nat

/-- A regular expression engine that takes every pattern and matches everything. -/
def sampleRe2 : RE2 := ⟨fun _ => .ok fun _ => true⟩

/-- The machine of `SampleManager`. -/
abbrev sampleMachine : Machine SampleManager (TaskOp Nat) (TaskReply Nat) :=
  TaskManager.machine _ sampleRe2

/-- The history of a list of requests and the state they lead to. -/
def sampleRun (ops : List (TaskOp Nat)) :
    List (Machine.Event SampleManager (TaskOp Nat) (TaskReply Nat)) × SampleManager :=
  sampleMachine.runOf ops

/-- Calls that are all defined are a run. -/
theorem run_sampleRun (ops : List (TaskOp Nat))
    (h : (sampleMachine.trace sampleMachine.init ops).isSome = true) :
    sampleMachine.Run (sampleRun ops).1 (sampleRun ops).2 :=
  Machine.run_runOf ops h

/-- A task below two others, one of which it names twice. -/
def diamondLast : TaskAddRequest Nat := ⟨"d", ["b", "c", "b"], ["q"], .num 0, "f", "4"⟩

/-- A diamond of four tasks, as far as one of the two in the middle has finished. -/
def diamond : List (TaskOp Nat) :=
  [.add ⟨"a", [], ["q"], .num 0, "f", "1"⟩, .add ⟨"b", ["a"], ["q"], .num 1, "f", "2"⟩,
    .add ⟨"c", ["a"], ["q"], .num 0, "f", "3"⟩, .add diamondLast, .get ⟨"w", ["q"]⟩,
    .done ⟨"a", "x", "w", false⟩, .get ⟨"w", ["q"]⟩, .done ⟨"b", "y", "w", false⟩]

/-- A chain of three whose middle task fails, submitted whole or piece by piece. -/
def chainEarly : List (TaskOp Nat) :=
  [.add ⟨"a", [], ["q"], .num 0, "f", "1"⟩, .add ⟨"b", ["a"], ["q"], .num 0, "f", "2"⟩,
    .add ⟨"c", ["b"], ["q"], .num 0, "f", "3"⟩, .get ⟨"w", ["q"]⟩, .done ⟨"a", "x", "w", false⟩,
    .get ⟨"w", ["q"]⟩, .done ⟨"b", "y", "w", true⟩]

@[inherit_doc chainEarly]
def chainLate : List (TaskOp Nat) :=
  [.add ⟨"a", [], ["q"], .num 0, "f", "1"⟩, .get ⟨"v", ["q"]⟩, .done ⟨"a", "x", "v", false⟩,
    .add ⟨"b", ["a"], ["q"], .num 0, "f", "2"⟩, .get ⟨"v", ["q"]⟩, .done ⟨"b", "y", "v", true⟩,
    .add ⟨"c", ["b"], ["q"], .num 0, "f", "3"⟩]

end DsService

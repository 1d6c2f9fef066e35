import DsService.Task.Refines

/-!
# Adding a task

`task_add` on the rows. The loop over the parents computes the birth state of the graph
(`birth_manager`), the registration loop appends the new index to the child lists of the parents
that have not finished, once per mention (`registerLoop_manager`), and together they take the rows
to those of the graph with the new task (`Refines.add`).
-/

namespace DsService

variable {Q α : Type}

/-! ## The loop over the parents -/

namespace TaskGraph

/-- What the loop over the parents finds out. -/
def scan (s : TaskGraph α) (parents : List Nat) : TaskManager.ParentScan where
  pendingParents := parents.countP fun p => (s.task p).state ≠ .finished
  canceledParent := parents.find? fun p => (s.task p).state = .canceled
  failedParent := parents.find? fun p => (s.task p).state = .failed

end TaskGraph

section scan
variable [LinearOrder α] [PriorityQueue Q (TaskQueueEntry α) taskQueueEntryOrder]
variable {pend : Nat → Nat} {v : Rows Q α} {s : TaskGraph α}

/-- The parents of a request are resolved as in the graph. -/
theorem RefinesWith.resolveParents (h : RefinesWith pend v s) (ids : List String) :
    v.manager.resolveParents ids = s.resolve ids := by
  induction ids with
  | nil => rfl
  | cons t ids ih =>
      unfold TaskManager.resolveParents TaskGraph.resolve
      rw [h.lookup_eq]
      cases s.find? t with
      | none => rfl
      | some i => dsimp only; rw [ih]

/-- The scan of the parents adds up what the graph says of each. -/
theorem RefinesWith.scanParents (h : RefinesWith pend v s) (parents : List Nat) :
    ∀ acc : TaskManager.ParentScan, (∀ p ∈ parents, p < s.size) →
      parents.foldlM v.manager.scanParent acc =
        some { pendingParents := acc.pendingParents + (s.scan parents).pendingParents
               canceledParent := acc.canceledParent.or (s.scan parents).canceledParent
               failedParent := acc.failedParent.or (s.scan parents).failedParent } := by
  induction parents with
  | nil => intro acc _; simp [TaskGraph.scan]
  | cons p parents ih =>
      intro acc hp
      have hps : p < s.size := hp p (.head _)
      have hone : v.manager.scanParent acc p =
          some { pendingParents := acc.pendingParents + (s.scan [p]).pendingParents
                 canceledParent := acc.canceledParent.or (s.scan [p]).canceledParent
                 failedParent := acc.failedParent.or (s.scan [p]).failedParent } := by
        unfold TaskManager.scanParent
        rw [Rows.state_manager (h.size ▸ hps), h.state_eq hps]
        obtain ⟨pending, canceled, failed⟩ := acc
        simp only [TaskGraph.scan, List.countP_cons, List.countP_nil, List.find?_cons,
          List.find?_nil]
        cases (s.task p).state <;> cases canceled <;> cases failed <;> rfl
      rw [List.foldlM_cons, hone]
      simp only [Option.bind_eq_bind, Option.bind_some]
      rw [ih _ fun q hq => hp q (.tail _ hq)]
      have hcount : ∀ f : Nat → Bool, (p :: parents).countP f =
          [p].countP f + parents.countP f := by
        intro f
        rw [← List.countP_append]
        rfl
      have hfind : ∀ f : Nat → Bool, (p :: parents).find? f =
          ([p].find? f).or (parents.find? f) := by
        intro f
        rw [← List.find?_append]
        rfl
      simp only [Nat.add_assoc, Option.or_assoc, TaskGraph.scan, hcount, hfind]

/-- The state and the origin of the new row are those of the graph. -/
theorem RefinesWith.birth_manager (h : RefinesWith pend v s) {parents : List Nat}
    (hp : ∀ p ∈ parents, p < s.size) :
    v.manager.birth (s.scan parents) s.size = some (s.birth parents) := by
  have horigin : ∀ p, p < s.size →
      v.manager.tasks.terminalOrigin[p]? = some (s.task p).origin := by
    intro p hps
    rw [Rows.terminalOrigin_manager (h.size ▸ hps), h.row hps]
    rfl
  unfold TaskManager.birth TaskGraph.birth TaskGraph.scan
  cases hf : parents.find? fun p => (s.task p).state = .failed with
  | some p =>
      dsimp only
      rw [horigin p (hp p (List.mem_of_find?_eq_some hf))]
      rfl
  | none =>
      cases hc : parents.find? fun p => (s.task p).state = .canceled with
      | some p =>
          dsimp only
          rw [horigin p (hp p (List.mem_of_find?_eq_some hc))]
          rfl
      | none =>
          by_cases hall : ∀ p ∈ parents, (s.task p).state = .finished
          · have hzero : (parents.countP fun p => (s.task p).state ≠ .finished) = 0 := by
              rw [List.countP_eq_zero]
              simpa using hall
            simp only [if_pos hall, hzero, gt_iff_lt, Nat.lt_irrefl, if_false]
          · have hpos : 0 < parents.countP fun p => (s.task p).state ≠ .finished := by
              rw [List.countP_pos_iff]
              simpa using hall
            simp only [if_neg hall, gt_iff_lt, hpos, if_true]

end scan

/-! ## Registration with the parents -/

namespace Rows

variable {v : Rows Q α} {i : Nat}

/-- The new index appended to the child lists of its parents, once per mention, except where the
parent has finished. -/
def register (v : Rows Q α) (parents : List Nat) (index : Nat) : Rows Q α :=
  { v with
    row := fun j => { v.row j with
      children := (v.row j).children ++
        if (v.row j).state = .finished then [] else List.replicate (parents.count j) index } }

/-- Without parents nothing is registered. -/
theorem register_nil (index : Nat) : v.register [] index = v := by
  simp [register]

/-- The parents are registered one by one. -/
theorem register_cons (p : Nat) (parents : List Nat) (index : Nat) :
    (v.register [p] index).register parents index = v.register (p :: parents) index := by
  unfold register
  congr 1
  funext j
  dsimp only
  by_cases hf : (v.row j).state = .finished
  · simp [hf]
  · simp only [hf, if_false, List.append_assoc, ← List.replicate_add]
    congr 3
    rw [List.count_cons, List.count_cons, List.count_nil]
    omega

/-- The step of the loop writes the child list of one parent. -/
theorem registerChild_manager (hi : i < v.size) (index : Nat) :
    TaskManager.registerChild index v.manager i = some (v.register [i] index).manager := by
  have hother : ∀ {j}, j ≠ i → [i].count j = 0 := fun hj => by
    simp [Ne.symm hj]
  unfold TaskManager.registerChild
  rw [state_manager hi]
  simp only [Option.bind_eq_bind, Option.bind_some]
  by_cases hf : (v.row i).state = .finished
  · have hsame : v.register [i] index = v := by
      unfold register
      congr 1
      funext j
      by_cases hj : j = i
      · subst hj; rw [if_pos hf, List.append_nil]
      · simp [hother hj]
    simp [hf, hsame]
  · have hset : v.register [i] index =
        v.set i { v.row i with children := (v.row i).children ++ [index] } := by
      unfold register set
      congr 1
      funext j
      by_cases hj : j = i
      · subst hj; simp [hf]
      · simp [hother hj, hj]
    have hne : ((v.row i).state != .finished) = true := by simpa using hf
    simp only [hne, if_true]
    rw [children_manager hi, Option.bind_some, setChildren_manager hi, hset]

/-- The loop of the add registers the child with each of its parents. -/
theorem registerLoop_manager (parents : List Nat) (index : Nat) : ∀ v : Rows Q α,
    (∀ p ∈ parents, p < v.size) →
    parents.foldlM (TaskManager.registerChild index) v.manager =
      some (v.register parents index).manager := by
  induction parents with
  | nil => intro v _; rw [register_nil]; rfl
  | cons p parents ih =>
      intro v hp
      rw [List.foldlM_cons, registerChild_manager (hp p (.head _))]
      simp only [Option.bind_eq_bind, Option.bind_some]
      rw [ih (v.register [p] index) fun q hq => hp q (.tail _ hq), register_cons]

/-! ## The new row -/

variable [LinearOrder α] [PriorityQueue Q (TaskQueueEntry α) taskQueueEntryOrder]

/-- `task_add` by rows: the row is appended, registered with its parents, and queued if it is
ready. -/
def add (v : Rows Q α) (r : Row α) (parents : List Nat) : Rows Q α :=
  if r.state = .ready then ((v.snoc r).register parents v.size).enqueue v.size
  else (v.snoc r).register parents v.size

variable {r : Row α} {parents : List Nat} {j : Nat}

/-- An add is one row more. -/
@[simp] theorem add_size : (v.add r parents).size = v.size + 1 := by
  unfold add; split <;> rfl

/-- An add enters its id into the index. -/
@[simp] theorem add_taskIndex :
    (v.add r parents).taskIndex = v.taskIndex.insert r.taskId v.size := by
  unfold add; split <;> rfl

/-- The counter moves if the new row is `Ready`. -/
theorem add_nextSeq : (v.add r parents).nextSeq =
    if r.state = .ready then v.nextSeq + 1 else v.nextSeq := by
  unfold add; split <;> rfl

/-- An old row keeps everything but its child list. -/
theorem add_row_old (hj : j ≠ v.size) : (v.add r parents).row j =
    { v.row j with
      children := (v.row j).children ++
        if (v.row j).state = .finished then []
        else List.replicate (parents.count j) v.size } := by
  unfold add
  split <;> simp [enqueue, set, register, snoc, hj]

/-- The new row gets its seq if it is queued. -/
theorem add_row_new (hr : r.children = []) (hp : v.size ∉ parents) :
    (v.add r parents).row v.size =
      { r with seq := if r.state = .ready then v.nextSeq + 1 else r.seq } := by
  have hcount : parents.count v.size = 0 := List.count_eq_zero.2 hp
  unfold add
  split <;> simp [enqueue, set, register, snoc, hcount, ← hr]

/-- The queues get an entry if the new row is `Ready`. -/
theorem add_queue : (v.add r parents).queue = if r.state = .ready then
    pushAll v.queue r.queues ⟨r.priority, v.nextSeq + 1, v.size⟩ else v.queue := by
  unfold add
  split <;> simp [enqueue, register, snoc]

end Rows

/-! ## The refinement -/

namespace TaskGraph

/-- The row that `task_add` appends. -/
def newRow (s : TaskGraph α) (request : TaskAddRequest α) (parents : List Nat) : Row α where
  taskId := request.taskId
  function := request.function
  input := request.input
  output := (s.newTask request parents).output
  state := (s.birth parents).1
  workerId := ""
  priority := request.priority
  queues := request.queue
  seq := 0
  pendingParents := (s.scan parents).pendingParents
  children := []
  terminalOrigin := (s.birth parents).2

variable {s : TaskGraph α} {request : TaskAddRequest α} {parents : List Nat} {i p : Nat}

/-- The dependents of a task once a new one names it among its parents. -/
theorem dependents_add : (s.add request parents).dependents p =
    s.dependents p ++ List.replicate (parents.count p) s.size := by
  unfold dependents
  rw [add_size, List.range_succ, List.flatMap_append, List.flatMap_singleton, add_task, if_pos rfl]
  congr 1
  refine List.flatMap_congr fun c hc => ?_
  rw [add_task, if_neg (Nat.ne_of_lt (List.mem_range.1 hc))]

/-- An add fixes the seq of the new task only. -/
theorem seq_add : (s.add request parents).seq i =
    if i = s.size ∧ (s.birth parents).1 = .ready then s.log.length + 1 else s.seq i := by
  unfold seq
  rw [add_log]
  by_cases hr : (s.birth parents).1 = .ready
  · rw [if_pos hr, List.map_append, List.map_singleton, lastSeq.append_singleton, List.length_map]
    simp [hr]
  · simp [hr]

/-- A task that the log does not know has no number. -/
theorem WF.seq_size (h : s.WF) : s.seq s.size = 0 := lastSeq.eq_zero h.not_logged

/-- Nobody depends on a task that is not there. -/
theorem WF.dependents_size (h : s.WF) : s.dependents s.size = [] :=
  List.eq_nil_iff_forall_not_mem.2 fun _ hc => Nat.lt_irrefl _ (h.parent_size (mem_dependents.1 hc))

/-- No task that was there waits for the new one. -/
theorem WF.pending_add_old (h : s.WF) (hi : i < s.size) :
    (s.add request parents).pending i = s.pending i := by
  refine pending_congr (by rw [add_task_old _ _ hi]) fun q hq => ?_
  rw [add_task_old _ _ (h.parent_size ⟨hi, hq⟩)]

/-- The new task waits for as many parents as the scan has counted. -/
theorem pending_add_new (hp : ∀ p ∈ parents, p < s.size) :
    (s.add request parents).pending s.size = (s.scan parents).pendingParents := by
  unfold pending scan
  rw [add_task_new]
  refine List.countP_congr fun q hq => ?_
  rw [add_task_old _ _ (hp q hq)]

/-- The new id is found at the new task, every other id where it was. -/
theorem WF.find?_add (h : s.WF) (hnew : s.find? request.taskId = none)
    (hp : ∀ p ∈ parents, p < s.size) (t : String) :
    (s.add request parents).find? t = if t = request.taskId then some s.size else s.find? t := by
  have h' := h.add hnew hp
  have hlast : s.size < (s.add request parents).size := by
    rw [add_size]; exact Nat.lt_succ_self _
  split
  · next ht =>
      subst ht
      exact h'.find?_eq.2 ⟨hlast, by rw [add_task_new]; rfl⟩
  · next ht =>
      cases hf : s.find? t with
      | none =>
          refine find?_none.2 fun i hi heq => ?_
          rcases add_lt hi with hi | rfl
          · exact find?_none.1 hf i hi (by rw [← heq, add_task_old _ _ hi])
          · rw [add_task_new] at heq
            exact ht heq.symm
      | some i =>
          obtain ⟨hi, hti⟩ := find?_some hf
          exact h'.find?_eq.2 ⟨Nat.lt_trans hi hlast, by rw [add_task_old _ _ hi]; exact hti⟩

end TaskGraph

section refinement
variable [LinearOrder α] [PriorityQueue Q (TaskQueueEntry α) taskQueueEntryOrder]
variable {v : Rows Q α} {s : TaskGraph α} {request : TaskAddRequest α} {parents : List Nat}

/-- `task_add` of a new task whose parents exist, on the rows. -/
theorem RefinesWith.add_manager {pend : Nat → Nat} (h : RefinesWith pend v s) (hwf : s.WF)
    (hnew : s.find? request.taskId = none) (hp : s.resolve request.parentTaskIds = .ok parents) :
    v.manager.add request = some (.ok (), (v.add (s.newRow request parents) parents).manager) := by
  have hlt : ∀ p ∈ parents, p < s.size := TaskGraph.resolve_lt hp
  have hcol : v.manager.tasks.taskId.length = v.size := tab.length
  have hscan : parents.foldlM v.manager.scanParent {} = some (s.scan parents) := by
    rw [h.scanParents parents _ hlt]
    simp
  have hout : ∀ k : String → Option (Result Unit × TaskManager Q α),
      (if (s.birth parents).1 = .failed ∨ (s.birth parents).1 = .canceled then
        (v.manager.terminalOutput (s.birth parents).1 (s.birth parents).2).bind k else k "") =
      k (s.newTask request parents).output := by
    intro k
    unfold TaskGraph.newTask
    by_cases hbad : (s.birth parents).1 = .failed ∨ (s.birth parents).1 = .canceled
    · have horigin : (s.birth parents).2 < s.size := by
        rcases s.birth_cases parents with ⟨p, hpp, -, hb⟩ | ⟨-, p, hpp, -, hb⟩ | ⟨-, -, hb⟩ |
          ⟨-, -, hb⟩
        · rw [hb]; exact Nat.lt_of_le_of_lt (hwf.origin_le (hlt p hpp)) (hlt p hpp)
        · rw [hb]; exact Nat.lt_of_le_of_lt (hwf.origin_le (hlt p hpp)) (hlt p hpp)
        · rw [hb] at hbad; simp at hbad
        · rw [hb] at hbad; simp at hbad
      simp only [if_pos hbad]
      unfold TaskManager.terminalOutput TaskGraph.terminalOutput
      rw [Rows.taskId_manager (h.size ▸ horigin), h.row horigin]
      split <;> rfl
    · simp only [if_neg hbad]
  have hloop := Rows.registerLoop_manager parents v.size (v.snoc (s.newRow request parents))
    fun p hpp => Nat.lt_succ_of_lt (h.size ▸ hlt p hpp)
  unfold TaskManager.add
  rw [h.lookup_eq, hnew]
  dsimp only
  rw [h.resolveParents, hp]
  dsimp only
  rw [hscan, Option.bind_eq_bind, Option.bind_some, hcol, h.size, h.birth_manager hlt]
  simp only [Option.bind_eq_bind, Option.bind_some]
  refine (hout _).trans ?_
  rw [Rows.pushRow_manager]
  change (parents.foldlM (TaskManager.registerChild s.size)
    (v.snoc (s.newRow request parents)).manager).bind _ = _
  rw [← h.size, hloop, Option.bind_some]
  unfold Rows.add
  by_cases hr : (s.birth parents).1 = .ready
  · have hstate : (s.newRow request parents).state = .ready := hr
    rw [if_pos hr, if_pos hstate, Rows.enqueue_manager (Nat.lt_succ_self _)]
    rfl
  · have hstate : (s.newRow request parents).state ≠ .ready := hr
    rw [if_neg hr, if_neg hstate]
    rfl

/-- `task_add` on the rows: the child lists grow where a parent has not finished. -/
theorem Refines.add_children (h : Refines v s) {j : Nat} (hj : j < s.size) :
    ((v.add (s.newRow request parents) parents).row j).children = (v.row j).children ++
      if (s.task j).state = .finished then [] else List.replicate (parents.count j) s.size := by
  rw [Rows.add_row_old (h.size ▸ Nat.ne_of_lt hj), h.state_eq hj, h.size]

/-- The row of the new task. -/
theorem Refines.add_newRow (h : Refines v s) (hp : ∀ p ∈ parents, p < s.size) :
    (v.add (s.newRow request parents) parents).row s.size = { s.newRow request parents with
      seq := if (s.birth parents).1 = .ready then v.nextSeq + 1 else 0 } := by
  have hnot : v.size ∉ parents := fun hm => Nat.lt_irrefl _ (h.size ▸ hp _ hm)
  rw [← h.size]
  exact Rows.add_row_new rfl hnot

/-- The rows after an add are those of the graph. -/
theorem Refines.add_row (h : Refines v s) (hwf : s.WF) (hp : ∀ p ∈ parents, p < s.size) {j : Nat}
    (hj : j < (s.add request parents).size) :
    (v.add (s.newRow request parents) parents).row j = (s.add request parents).rowOf
      ((s.add request parents).pending j)
      ((v.add (s.newRow request parents) parents).row j).children j := by
  rcases TaskGraph.add_lt hj with hj | rfl
  · have hseq : (s.add request parents).seq j = s.seq j := by
      rw [TaskGraph.seq_add, if_neg fun hc => Nat.ne_of_lt hj hc.1]
    rw [hwf.pending_add_old hj]
    simp only [TaskGraph.rowOf]
    rw [hseq, Rows.add_row_old (h.size ▸ Nat.ne_of_lt hj), TaskGraph.add_task_old _ _ hj, h.row hj]
    rfl
  · have hseq : (s.add request parents).seq s.size =
        if (s.birth parents).1 = .ready then v.nextSeq + 1 else 0 := by
      rw [TaskGraph.seq_add, h.nextSeq, hwf.seq_size]
      simp
    rw [TaskGraph.pending_add_new hp]
    simp only [TaskGraph.rowOf]
    rw [hseq, h.add_newRow hp, TaskGraph.add_task_new]
    rfl

/-- A new task that is ready is in its queues, and the others are where they were. -/
theorem Refines.add_queued (h : Refines v s) (hwf : s.WF) :
    (s.add request parents).Queued (v.add (s.newRow request parents) parents).queue := by
  let s' := s.add request parents
  have hnewTask : s'.task s.size = s.newTask request parents := TaskGraph.add_task_new _ _
  have hqueues : ∀ j ∈ s.log.map Prod.fst, (s'.task j).queues = (s.task j).queues := by
    intro j hj
    obtain ⟨e, he, rfl⟩ := List.mem_map.1 hj
    rw [TaskGraph.add_task_old _ _ (hwf.log_lt e he)]
  have hready : ∀ {j}, j ≠ s.size → j < s'.size → (s'.task j).state = .ready → j < s.size ∧
      (s.task j).state = .ready ∧ (s'.task j).priority = (s.task j).priority ∧
      (s'.task j).queues = (s.task j).queues := by
    intro j hne hj hst
    rcases TaskGraph.add_lt hj with hj | rfl
    · rw [TaskGraph.add_task_old _ _ hj] at hst ⊢
      exact ⟨hj, hst, rfl, rfl⟩
    · exact absurd rfl hne
  rw [Rows.add_queue]
  by_cases hr : (s.birth parents).1 = .ready
  · have hstate : (s.newRow request parents).state = .ready := hr
    have hlog : s'.log = s.log ++ [(s.size, (s'.task s.size).priority)] := by
      rw [TaskGraph.add_log, if_pos hr, hnewTask]; rfl
    have henter := h.queued.enter hlog hqueues hready
    rw [hnewTask] at henter
    rw [if_pos hstate, h.nextSeq, h.size]
    exact henter
  · have hstate : (s.newRow request parents).state ≠ .ready := hr
    rw [if_neg hstate]
    refine h.queued.keep (by rw [TaskGraph.add_log, if_neg hr]) hqueues fun {j} hj hst => ?_
    refine hready (fun heq => ?_) hj hst
    subst heq
    rw [hnewTask] at hst
    exact hr hst

/-- **Adding a task keeps the refinement.** -/
theorem Refines.add (h : Refines v s) (hwf : s.WF) (hnew : s.find? request.taskId = none)
    (hp : ∀ p ∈ parents, p < s.size) :
    Refines (v.add (s.newRow request parents) parents) (s.add request parents) := by
  refine ⟨?_, h.add_row hwf hp, ?_, ?_, ?_, ?_, h.add_queued hwf⟩
  · rw [Rows.add_size, TaskGraph.add_size, h.size]
  · intro p c hps hc
    rcases TaskGraph.add_lt hps with hps | rfl
    · rw [TaskGraph.add_size]
      rw [h.add_children hps] at hc
      rcases List.mem_append.1 hc with hc | hc
      · obtain ⟨hpc, hcs⟩ := h.children_lt hps hc
        exact ⟨hpc, Nat.lt_succ_of_lt hcs⟩
      · split at hc
        · cases hc
        · rw [List.eq_of_mem_replicate hc]
          exact ⟨hps, Nat.lt_succ_self _⟩
    · rw [h.add_newRow hp] at hc
      cases hc
  · intro p hps hnf
    rw [TaskGraph.dependents_add]
    rcases TaskGraph.add_lt hps with hps | rfl
    · rw [TaskGraph.add_task_old _ _ hps] at hnf
      rw [h.add_children hps, if_neg hnf, h.children_eq hps hnf]
    · have hnot : s.size ∉ parents := fun hm => Nat.lt_irrefl _ (hp _ hm)
      rw [h.add_newRow hp, hwf.dependents_size, List.count_eq_zero.2 hnot]
      rfl
  · intro t
    rw [Rows.add_taskIndex, hwf.find?_add hnew hp, h.size, ← h.index t]
    split
    · next ht => subst ht; exact AList.lookup_insert _
    · next ht => exact AList.lookup_insert_ne ht
  · rw [Rows.add_nextSeq, TaskGraph.add_log, h.nextSeq]
    by_cases hr : (s.birth parents).1 = .ready
    · have hstate : (s.newRow request parents).state = .ready := hr
      rw [if_pos hr, if_pos hstate, List.length_append, List.length_singleton]
    · have hstate : (s.newRow request parents).state ≠ .ready := hr
      rw [if_neg hr, if_neg hstate]

end refinement

end DsService

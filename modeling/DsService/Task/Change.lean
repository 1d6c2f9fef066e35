import DsService.Task.Graph

/-!
# What one request does to the graph

`Change` lists the seven things a request can do to a task graph, and `Serves.change` says that it
does one of them. Every property of single steps and of runs is proved from this list. The first
section has the equations of the changes, one task at a time.
-/

namespace DsService

namespace TaskState

/-- A live state is one of three. -/
theorem isLive_iff {s : TaskState} :
    s.isLive = true ↔ s = .waiting ∨ s = .ready ∨ s = .running := by
  cases s <;> decide

/-- The two states in which an ending spreads. -/
def IsBad (s : TaskState) : Prop := s = .failed ∨ s = .canceled

instance (s : TaskState) : Decidable s.IsBad :=
  inferInstanceAs (Decidable (s = .failed ∨ s = .canceled))

/-- A task that has ended badly is not live. -/
theorem IsBad.not_live {s : TaskState} (h : s.IsBad) : ¬ s.isLive = true := by
  rcases h with rfl | rfl <;> decide

/-- The same for the test that the code makes. -/
theorem IsBad.isLive {s : TaskState} (h : s.IsBad) : s.isLive = false := by
  rcases h with rfl | rfl <;> rfl

/-- A bad ending is not a good one. -/
theorem IsBad.ne_finished {s : TaskState} (h : s.IsBad) : s ≠ .finished := by
  rcases h with rfl | rfl <;> decide

end TaskState

namespace TaskGraph

variable {α : Type} {s s' : TaskGraph α} {i j p x : Nat}

/-! ## Looking up ids -/

/-- `find?` finds tasks of the graph by their id. -/
theorem find?_some {t : String} (h : s.find? t = some i) : i < s.size ∧ (s.task i).taskId = t := by
  have hp := List.find?_some h
  have hm := List.mem_of_find?_eq_some h
  exact ⟨List.mem_range.1 hm, by simpa using hp⟩

/-- `find?` misses only ids that no task of the graph has. -/
theorem find?_none {t : String} : s.find? t = none ↔ ∀ i, i < s.size → (s.task i).taskId ≠ t := by
  simp [find?, List.find?_eq_none]

/-- Resolving a list of ids looks up each of them. -/
theorem resolve_ok : ∀ {ids : List String} {is : List Nat}, s.resolve ids = .ok is →
    List.Forall₂ (fun t i => s.find? t = some i) ids is
  | [], _, h => by cases h; exact .nil
  | t :: ids, is, h => by
      simp only [resolve] at h
      cases ht : s.find? t with
      | none => rw [ht] at h; cases h
      | some i =>
          rw [ht] at h
          cases hr : s.resolve ids with
          | error e => simp only [hr] at h; cases h
          | ok is' =>
              simp only [hr] at h
              cases h
              exact .cons ht (resolve_ok hr)

/-- Resolved parents are tasks of the graph. -/
theorem resolve_lt {ids : List String} {is : List Nat} (h : s.resolve ids = .ok is) :
    ∀ p ∈ is, p < s.size := by
  have hall := resolve_ok h
  clear h
  induction hall with
  | nil => intro p hp; cases hp
  | cons ht _ ih =>
      intro p hp
      rcases List.mem_cons.1 hp with rfl | hp
      · exact (find?_some ht).1
      · exact ih p hp

/-! ## The equations of the changes -/

section equations

/-- An update adds no task. -/
@[simp] theorem update_size (t : Task α) : (s.update i t).size = s.size := rfl

/-- An update enters no queue. -/
@[simp] theorem update_log (t : Task α) : (s.update i t).log = s.log := rfl

/-- The updated task is the new one. -/
@[simp] theorem update_task_self (t : Task α) : (s.update i t).task i = t := by simp [update]

/-- An update touches one task. -/
theorem update_task (t : Task α) : (s.update i t).task j = if j = i then t else s.task j := by
  by_cases h : j = i
  · subst h; simp
  · simp [update, h]

/-- To enter the queues adds no task. -/
@[simp] theorem enter_size : (s.enter i).size = s.size := rfl

/-- To enter the queues changes no task. -/
@[simp] theorem enter_task : (s.enter i).task = s.task := rfl

/-- To enter the queues logs the task at its priority. -/
@[simp] theorem enter_log : (s.enter i).log = s.log ++ [(i, (s.task i).priority)] := rfl

/-- A new task is one more. -/
@[simp] theorem snoc_size (t : Task α) : (s.snoc t).size = s.size + 1 := rfl

/-- A new task is not in a queue yet. -/
@[simp] theorem snoc_log (t : Task α) : (s.snoc t).log = s.log := rfl

/-- A new task is the last one. -/
theorem snoc_task (t : Task α) : (s.snoc t).task j = if j = s.size then t else s.task j := by
  by_cases h : j = s.size
  · subst h; simp [snoc]
  · simp [snoc, h]

/-- An add adds one task, `Ready` or not. -/
@[simp] theorem add_size (request : TaskAddRequest α) (parents : List Nat) :
    (s.add request parents).size = s.size + 1 := by
  unfold add; split <;> rfl

/-- An add touches none of the tasks that were there. -/
theorem add_task (request : TaskAddRequest α) (parents : List Nat) :
    (s.add request parents).task j =
      if j = s.size then s.newTask request parents else s.task j := by
  unfold add; split <;> simp [snoc_task]

/-- An added task leaves the others as they are. -/
theorem add_task_old (request : TaskAddRequest α) (parents : List Nat) (hi : i < s.size) :
    (s.add request parents).task i = s.task i := by
  rw [add_task, if_neg (Nat.ne_of_lt hi)]

/-- The task that is added comes last. -/
theorem add_task_new (request : TaskAddRequest α) (parents : List Nat) :
    (s.add request parents).task s.size = s.newTask request parents := by
  rw [add_task, if_pos rfl]

/-- A task is an old one or the new one. -/
theorem add_lt {request : TaskAddRequest α} {parents : List Nat}
    (hi : i < (s.add request parents).size) : i < s.size ∨ i = s.size := by
  rw [add_size] at hi
  omega

/-- A task that is `Ready` at birth enters the queues with the priority of its request. -/
theorem add_log (request : TaskAddRequest α) (parents : List Nat) :
    (s.add request parents).log = if (s.birth parents).1 = .ready
      then s.log ++ [(s.size, request.priority)] else s.log := by
  unfold add; split <;> simp [snoc_task, newTask]

/-- A bad ending adds no task. -/
@[simp] theorem endBadly_size (state : TaskState) (workerId output : String) :
    (s.endBadly x state workerId output).size = s.size := rfl

/-- A bad ending enters no queue. -/
@[simp] theorem endBadly_log (state : TaskState) (workerId output : String) :
    (s.endBadly x state workerId output).log = s.log := rfl

/-- The task that ends badly is the origin of its own ending. -/
theorem endBadly_self (state : TaskState) (workerId output : String) :
    (s.endBadly x state workerId output).task x =
      { s.task x with state := state, workerId := workerId, output := output, origin := x } := by
  simp [endBadly]

/-- A task that falls ends in the same state, with no worker and the output of the ending. -/
theorem endBadly_falls (state : TaskState) (workerId output : String) (hne : i ≠ x)
    (h : s.Falls x i) : (s.endBadly x state workerId output).task i =
      { s.task i with
        state := state, workerId := "", output := s.terminalOutput state x, origin := x } := by
  simp [endBadly, hne, h]

/-- A task that does not fall keeps everything it has. -/
theorem endBadly_other (state : TaskState) (workerId output : String) (hne : i ≠ x)
    (h : ¬ s.Falls x i) : (s.endBadly x state workerId output).task i = s.task i := by
  simp [endBadly, hne, h]

/-- What an ending of `x` that spreads does to a task. -/
theorem endBadly_task_cases (s : TaskGraph α) (x : Nat) (state : TaskState)
    (workerId output : String) (i : Nat) :
    i = x ∧ (s.endBadly x state workerId output).task i =
      { s.task i with state := state, workerId := workerId, output := output, origin := x } ∨
    s.Falls x i ∧ (s.endBadly x state workerId output).task i =
      { s.task i with
        state := state, workerId := "", output := s.terminalOutput state x, origin := x } ∨
    i ≠ x ∧ ¬ s.Falls x i ∧ (s.endBadly x state workerId output).task i = s.task i := by
  by_cases hne : i = x
  · subst hne
    exact .inl ⟨rfl, endBadly_self _ _ _⟩
  · by_cases hf : s.Falls x i
    · exact .inr (.inl ⟨hf, endBadly_falls _ _ _ hne hf⟩)
    · exact .inr (.inr ⟨hne, hf, endBadly_other _ _ _ hne hf⟩)

/-- A report of success adds no task. -/
@[simp] theorem settle_size (output : String) : (s.settle x output).size = s.size := rfl

/-- A report of success enters no queue by itself. -/
@[simp] theorem settle_log (output : String) : (s.settle x output).log = s.log := rfl

/-- A release adds no task. -/
@[simp] theorem release_size (cs : List Nat) : (s.release cs).size = s.size := rfl

/-- A task that finishes adds no task, whatever it releases. -/
@[simp] theorem finish_size (output : String) : (s.finish x output).size = s.size := rfl

/-- A report of success touches the reported task only. -/
theorem settle_task (output : String) : (s.settle x output).task j =
    if j = x then { s.task x with state := .finished, output := output } else s.task j :=
  update_task _

/-- A release makes its tasks `Ready` and touches no other. -/
theorem release_task (cs : List Nat) : (s.release cs).task j =
    if j ∈ cs then { s.task j with state := .ready } else s.task j := rfl

/-- What a success releases are the waiting children whose parents have all finished by then. -/
theorem mem_releasedBy {c : Nat} : c ∈ s.releasedBy x ↔ c < s.size ∧
    (s.task c).state = .waiting ∧ x ∈ (s.task c).parents ∧
    ∀ p ∈ (s.task c).parents, (s.task p).state = .finished := by
  simp [releasedBy]

/-- A claim adds no task. -/
@[simp] theorem claim_size (workerId : String) : (s.claim i workerId).size = s.size := rfl

/-- A claim enters no queue. -/
@[simp] theorem claim_log (workerId : String) : (s.claim i workerId).log = s.log := rfl

/-- A claim touches the claimed task only. -/
theorem claim_task (workerId : String) : (s.claim i workerId).task j =
    if j = i then { s.task i with state := .running, workerId := workerId } else s.task j :=
  update_task _

/-- A new priority adds no task. -/
@[simp] theorem reprioritize_size (priority : Double α) :
    (s.reprioritize i priority).size = s.size := by
  unfold reprioritize; split <;> rfl

/-- A new priority touches the priority of one task. -/
theorem reprioritize_task (priority : Double α) : (s.reprioritize i priority).task j =
    if j = i then { s.task i with priority := priority } else s.task j := by
  unfold reprioritize; split <;> simp [update_task]

/-- A task that is `Ready` enters its queues again with the new priority. -/
theorem reprioritize_log (priority : Double α) : (s.reprioritize i priority).log =
    if (s.task i).state = .ready then s.log ++ [(i, priority)] else s.log := by
  unfold reprioritize; split <;> simp

end equations

/-! ## The state a task is added in -/

/-- The four ways a task can be added. -/
theorem birth_cases (s : TaskGraph α) (parents : List Nat) :
    (∃ p ∈ parents, (s.task p).state = .failed ∧
      s.birth parents = (.failed, (s.task p).origin)) ∨
    ((∀ p ∈ parents, (s.task p).state ≠ .failed) ∧
      ∃ p ∈ parents, (s.task p).state = .canceled ∧
        s.birth parents = (.canceled, (s.task p).origin)) ∨
    ((∀ p ∈ parents, ¬ (s.task p).state.IsBad) ∧
      (∀ p ∈ parents, (s.task p).state = .finished) ∧ s.birth parents = (.ready, s.size)) ∨
    ((∀ p ∈ parents, ¬ (s.task p).state.IsBad) ∧
      (∃ p ∈ parents, (s.task p).state ≠ .finished) ∧ s.birth parents = (.waiting, s.size)) := by
  unfold birth
  cases hf : parents.find? fun p => (s.task p).state = .failed with
  | some p =>
      have hp := List.find?_some hf
      exact .inl ⟨p, List.mem_of_find?_eq_some hf, by simpa using hp, rfl⟩
  | none =>
      have hnf : ∀ p ∈ parents, (s.task p).state ≠ .failed := by
        simpa [List.find?_eq_none] using hf
      cases hc : parents.find? fun p => (s.task p).state = .canceled with
      | some p =>
          have hp := List.find?_some hc
          exact .inr (.inl ⟨hnf, p, List.mem_of_find?_eq_some hc, by simpa using hp, rfl⟩)
      | none =>
          have hnc : ∀ p ∈ parents, (s.task p).state ≠ .canceled := by
            simpa [List.find?_eq_none] using hc
          have hnb : ∀ p ∈ parents, ¬ (s.task p).state.IsBad :=
            fun p hp h => h.elim (hnf p hp) (hnc p hp)
          by_cases hall : ∀ p ∈ parents, (s.task p).state = .finished
          · exact .inr (.inr (.inl ⟨hnb, hall, if_pos hall⟩))
          · refine .inr (.inr (.inr ⟨hnb, ?_, if_neg hall⟩))
            simpa using hall

/-! ## The changes -/

variable [LinearOrder α]

/-- The reply to a request that changed nothing. -/
def Quiet (s : TaskGraph α) : TaskOp α → TaskReply α → Prop
  | .add _, r => ∃ e, r = .add (.error e)
  | .cancel _, r => (∃ e, r = .cancel (.error e)) ∨ r = .cancel (.ok ⟨false⟩)
  | .setPriority _, r => ∃ e, r = .setPriority (.error e)
  | .get _, r => ∃ e, r = .get (.error e)
  | .done request, r =>
      (∃ e, r = .done (.error e)) ∨ r = .done (.ok ()) ∧ s.status request.taskId = .canceled
  | _, _ => True

/-- What a request can do to the graph. -/
inductive Change (s : TaskGraph α) : TaskOp α → TaskReply α → TaskGraph α → Prop
  | same {op : TaskOp α} {r : TaskReply α} (h : s.Quiet op r) : Change s op r s
  | add {request : TaskAddRequest α} {parents : List Nat} (hnew : s.find? request.taskId = none)
      (hp : s.resolve request.parentTaskIds = .ok parents) :
      Change s (.add request) (.add (.ok ())) (s.add request parents)
  | cancel {request : TaskCancelRequest} {i : Nat} (hi : s.find? request.taskId = some i)
      (hl : (s.task i).state.isLive = true) :
      Change s (.cancel request) (.cancel (.ok ⟨true⟩)) (s.cancel i)
  | setPriority {request : TaskSetPriorityRequest α} {i : Nat}
      (hi : s.find? request.taskId = some i) :
      Change s (.setPriority request) (.setPriority (.ok ())) (s.reprioritize i request.priority)
  | claim {request : TaskGetRequest} {qname : String} {i : Nat} (hq : qname ∈ request.queue)
      (hi : s.Offers qname i) :
      Change s (.get request)
        (.get (.ok ⟨(s.task i).taskId, (s.task i).function, (s.task i).input⟩))
        (s.claim i request.workerId)
  | fail {request : TaskDoneRequest} {i : Nat} (hi : s.find? request.taskId = some i)
      (hr : (s.task i).state = .running) (hw : (s.task i).workerId = request.workerId)
      (hf : request.failed = true) :
      Change s (.done request) (.done (.ok ())) (s.fail i request.output)
  | finish {request : TaskDoneRequest} {i : Nat} (hi : s.find? request.taskId = some i)
      (hr : (s.task i).state = .running) (hw : (s.task i).workerId = request.workerId)
      (hf : request.failed = false) :
      Change s (.done request) (.done (.ok ())) (s.finish i request.output)

/-- Every request makes one of the changes. -/
theorem Serves.change {re2 : RE2} {op : TaskOp α} {r : TaskReply α}
    (h : s.Serves re2 op r s') : s.Change op r s' := by
  cases h with
  | @read op r h =>
      apply Change.same
      cases op with
      | add | cancel | setPriority | get | done => cases h
      | _ => trivial
  | add request =>
      unfold serveAdd
      cases hi : s.find? request.taskId with
      | some i => exact .same ⟨_, rfl⟩
      | none =>
          cases hp : s.resolve request.parentTaskIds with
          | error t => exact .same ⟨_, rfl⟩
          | ok parents => exact .add hi hp
  | cancel request =>
      unfold serveCancel
      cases hi : s.find? request.taskId with
      | none => exact .same (.inl ⟨_, rfl⟩)
      | some i =>
          by_cases hl : (s.task i).state.isLive = true
          · simp only [hl, ↓reduceIte]; exact .cancel hi hl
          · simp only [hl]; exact .same (.inr rfl)
  | setPriority request =>
      unfold serveSetPriority
      cases hi : s.find? request.taskId with
      | none => exact .same ⟨_, rfl⟩
      | some i => exact .setPriority hi
  | get h =>
      cases h with
      | claim hq _ hi _ => exact .claim (by rw [hq]; simp) hi
      | none _ => exact .same ⟨_, rfl⟩
  | done request =>
      unfold serveDone
      cases hi : s.find? request.taskId with
      | none => exact .same (.inl ⟨_, rfl⟩)
      | some i =>
          by_cases hc : (s.task i).state = .canceled
          · have hst : s.status request.taskId = .canceled := by simp [status, hi, hc]
            simp only [hc, ↓reduceIte]
            exact .same (.inr ⟨rfl, hst⟩)
          by_cases hr : (s.task i).state = .running
          · by_cases hw : (s.task i).workerId = request.workerId
            · cases hf : request.failed with
              | true => simpa [hr, hw, hf] using Change.fail hi hr hw hf
              | false => simpa [hr, hw, hf] using Change.finish hi hr hw hf
            · dsimp only
              rw [if_neg hc, if_neg (not_not.2 hr), if_pos hw]
              exact .same (.inl ⟨_, rfl⟩)
          · dsimp only
            rw [if_neg hc, if_pos hr]
            exact .same (.inl ⟨_, rfl⟩)

end TaskGraph

end DsService

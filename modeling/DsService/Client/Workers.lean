import DsService.Task.LifeCycle
import DsService.Task.Claim
import DsService.Task.Gate
import Mathlib.Algebra.BigOperators.Fin
import Mathlib.Algebra.Order.BigOperators.Group.Finset

/-!
# Workers

The loop of `docs/how-to-guides/write-a-worker.md`, in the form that drains the queue: a worker
claims a task with `task_get`, runs it, reports it with `task_done`, and stops when there is no task
to claim. A `Fleet` is a task manager with any number of workers, each somewhere in its loop, and
other clients that add, cancel and reprioritize tasks and look at them.

A worker that stops does so although other workers still run tasks, and these tasks release more
work when they finish. `workers_drain_the_queue` says that nothing is left behind all the same: the
worker that reports a task asks for another one before it stops. The loops end, since each turn
lowers `Fleet.cost`.
-/

namespace DsService

variable {Q α : Type}

/-! ## Unclaimed tasks -/

namespace TaskGraph

variable {s s' : TaskGraph α} {op : TaskOp α} {r : TaskReply α} {i : Nat}

/-- The task has not been claimed and can still be. -/
def Unclaimed (s : TaskGraph α) (i : Nat) : Prop :=
  (s.task i).state = .waiting ∨ (s.task i).state = .ready

instance (s : TaskGraph α) (i : Nat) : Decidable (s.Unclaimed i) :=
  inferInstanceAs (Decidable (_ ∨ _))

/-- How many tasks are unclaimed. -/
def unclaimed (s : TaskGraph α) : Nat := (List.range s.size).countP fun i => s.Unclaimed i

/-- The tasks that nobody has claimed are `Waiting` or `Ready`. -/
theorem unclaimed_eq (s : TaskGraph α) : s.unclaimed = s.countIn .waiting + s.countIn .ready := by
  unfold unclaimed countIn
  induction List.range s.size with
  | nil => rfl
  | cons i l ih =>
      have hone : (if s.Unclaimed i then 1 else 0) =
          (if (s.task i).state = .waiting then 1 else 0) +
            if (s.task i).state = .ready then 1 else 0 := by
        by_cases hw : (s.task i).state = .waiting
        · simp [Unclaimed, hw]
        · simp [Unclaimed, hw]
      simp only [List.countP_cons, ih, decide_eq_true_eq, hone]
      omega

/-- A task that is unclaimed after a step was unclaimed before. -/
theorem Change.unclaimed_of (h : s.Change op r s') (hwf : s.WF) (hi : i < s.size)
    (hu : s'.Unclaimed i) : s.Unclaimed i := by
  by_contra hcon
  obtain ⟨hw, hr⟩ := not_or.1 hcon
  obtain ⟨hw', hr'⟩ := h.past hwf hi hw hr
  exact hu.elim hw' hr'

/-- A claim takes one of the unclaimed tasks, `task_add` adds one at most, and nothing else adds to
them. -/
theorem Change.unclaimed (h : s.Change op r s') (hwf : s.WF) :
    s'.unclaimed + (op.claimed r).toList.length ≤ s.unclaimed + (op.added r).toList.length := by
  have hmono : ∀ (l : List Nat), (∀ i ∈ l, i < s.size) →
      l.countP (fun i => s'.Unclaimed i) ≤ l.countP fun i => s.Unclaimed i := fun l hl =>
    List.countP_mono_left fun i hi hu => by
      simpa using h.unclaimed_of hwf (hl i hi) (by simpa using hu)
  rcases h.requests with ⟨request, parents, rfl, rfl, -, -, rfl⟩ | ⟨hadded, hsize, -⟩
  · have hold := hmono (List.range s.size) fun i hi => List.mem_range.1 hi
    have hadded : (TaskOp.add request).added (.add (.ok ())) = some request := rfl
    have hclaimed : (TaskOp.add request).claimed (.add (.ok ())) = none := rfl
    unfold TaskGraph.unclaimed
    rw [add_size, List.range_succ, List.countP_append, hadded, hclaimed]
    have hlast : [s.size].countP (fun i => (s.add request parents).Unclaimed i) ≤ 1 :=
      List.countP_le_length
    simp only [Option.toList_none, Option.toList_some, List.length_nil, List.length_singleton]
    omega
  · rw [hadded]
    rcases h.claimed with ⟨x, workerId, hclaimed, hx, hready, rfl⟩ | hnone
    · -- the claimed task is counted before and not after
      rw [hclaimed]
      have hsplit := List.countP_eq_countP_filter_add (List.range s.size)
        (fun i => s.Unclaimed i) fun i => (s.claim x workerId).Unclaimed i
      have hkept : (List.range s.size).countP (fun i => (s.claim x workerId).Unclaimed i) ≤
          ((List.range s.size).filter fun i => (s.claim x workerId).Unclaimed i).countP
            fun i => s.Unclaimed i := by
        rw [List.countP_filter]
        refine List.countP_mono_left fun i hi hu => ?_
        have hu' := h.unclaimed_of hwf (List.mem_range.1 hi) (by simpa using hu)
        simpa using ⟨hu', by simpa using hu⟩
      have hgone : 0 < ((List.range s.size).filter
          fun i => !decide ((s.claim x workerId).Unclaimed i)).countP fun i => s.Unclaimed i := by
        refine List.countP_pos_iff.2 ⟨x, List.mem_filter.2 ⟨List.mem_range.2 hx, ?_⟩, ?_⟩
        · simp [Unclaimed, claim_task]
        · exact decide_eq_true (.inr hready)
      unfold TaskGraph.unclaimed
      rw [claim_size]
      simp only [Option.toList_none, Option.toList_some, List.length_nil, List.length_singleton]
      omega
    · rw [hnone]
      unfold TaskGraph.unclaimed
      rw [hsize]
      exact hmono _ fun i hi => List.mem_range.1 hi

/-- A running task stays with its worker, unless it is canceled or reported. -/
theorem Change.kept_running (h : s.Change op r s') (hwf : s.WF) (hi : i < s.size)
    (hr : (s.task i).state = .running) :
    (s'.task i).state = .running ∧ (s'.task i).workerId = (s.task i).workerId ∨
      (s'.task i).state = .canceled ∨
      ∃ request, op = .done request ∧ request.taskId = (s.task i).taskId := by
  rcases h.edge hwf hi with heq | hedge
  · rw [hr] at heq
    obtain ⟨-, ⟨-, hworker⟩ | hclaim⟩ := h.running (h.keeps hi).1 heq
    · exact .inl ⟨heq, hworker⟩
    · rcases h.claimed with ⟨x, workerId, hc, hx, hready, -⟩ | hnone
      · rw [hc] at hclaim
        cases hwf.ids hx hi (congrArg Prod.fst (Option.some.inj hclaim))
        rw [hr] at hready
        cases hready
      · rw [hnone] at hclaim
        cases hclaim
  · rw [hr] at hedge
    generalize (s'.task i).state = state at hedge ⊢
    cases hedge with
    | finish hop _ ht _ | fail hop _ ht _ => exact .inr (.inr ⟨_, hop, ht⟩)
    | cancel => exact .inr (.inl rfl)

/-- A task becomes ready when it is added or when a task is reported. -/
theorem Change.ready_of (h : s.Change op r s') (hwf : s.WF) (hi : i < s.size)
    (hr : (s'.task i).state = .ready) (hdone : ∀ request, op ≠ .done request) :
    (s.task i).state = .ready := by
  rcases h.edge hwf hi with heq | hedge
  · rw [← heq, hr]
  · rw [hr] at hedge
    generalize (s.task i).state = state at hedge
    cases hedge with
    | release hop => exact absurd hop (hdone _)

/-- The task is in the hands of the worker, or was canceled in them. -/
def HeldBy (s : TaskGraph α) (t workerId : String) : Prop :=
  ∃ i, i < s.size ∧ (s.task i).taskId = t ∧
    ((s.task i).state = .running ∧ (s.task i).workerId = workerId ∨ (s.task i).state = .canceled)

/-- Only its own report takes a task out of the hands of its worker. -/
theorem Change.heldBy (h : s.Change op r s') (hwf : s.WF) {t workerId : String}
    (hheld : s.HeldBy t workerId) (hother : ∀ request, op = .done request → request.taskId ≠ t) :
    s'.HeldBy t workerId := by
  obtain ⟨i, hi, rfl, hst⟩ := hheld
  obtain ⟨hsize, hreq⟩ := h.keeps hi
  refine ⟨i, hsize, hreq.taskId, ?_⟩
  rcases hst with ⟨hr, rfl⟩ | hc
  · rcases h.kept_running hwf hi hr with hkept | hcanceled | ⟨request, hop, ht⟩
    · exact .inl hkept
    · exact .inr hcanceled
    · exact absurd ht (hother request hop)
  · exact .inr ((h.final hi (by rw [hc]; rfl)).state.trans hc)

/-- The report of the worker that holds the task is accepted, and the task does not run on. -/
theorem serveDone_heldBy (hwf : s.WF) (request : TaskDoneRequest)
    (hheld : s.HeldBy request.taskId request.workerId) :
    (s.serveDone request).1 = .ok () ∧ ∀ {i}, i < s.size → (s.task i).taskId = request.taskId →
      ((s.serveDone request).2.task i).state ≠ .running := by
  obtain ⟨i, hi, ht, hst⟩ := hheld
  have hfind : s.find? request.taskId = some i := hwf.find?_eq.2 ⟨hi, ht⟩
  have hsame : ∀ {j}, j < s.size → (s.task j).taskId = request.taskId → j = i := fun hj hjt =>
    hwf.ids hj hi (hjt.trans ht.symm)
  unfold serveDone
  rw [hfind]
  dsimp only
  rcases hst with ⟨hr, hw⟩ | hc
  · rw [if_neg (by simp [hr]), if_neg (not_not.2 hr), if_neg (not_not.2 hw)]
    split
    · refine ⟨rfl, fun hj hjt => ?_⟩
      rw [hsame hj hjt, fail, endBadly_self]
      simp
    · refine ⟨rfl, fun hj hjt => ?_⟩
      rw [hsame hj hjt, finish_self]
      simp
  · rw [if_pos hc]
    refine ⟨rfl, fun hj hjt => ?_⟩
    rw [hsame hj hjt, hc]
    simp

end TaskGraph

/-! ## The fleet -/

/-- Where a worker is in its loop. -/
inductive Worker where
  | idle
  | working (task : TaskGetResponse)
  | stopped

instance : ∀ place : Worker, Decidable (place = .stopped)
  | .idle => isFalse (by simp)
  | .working _ => isFalse (by simp)
  | .stopped => isTrue rfl

/-- How many calls a worker makes before it stops, if it claims no further task. -/
def Worker.cost : Worker → Nat
  | .idle => 1
  | .working _ => 2
  | .stopped => 0

/-- An idle worker has one call to go. -/
@[simp] theorem Worker.cost_idle : Worker.idle.cost = 1 := rfl

/-- A worker with a task has its report to make first. -/
@[simp] theorem Worker.cost_working (task : TaskGetResponse) : (Worker.working task).cost = 2 := rfl

/-- A worker that has stopped makes no call. -/
@[simp] theorem Worker.cost_stopped : Worker.stopped.cost = 0 := rfl

/-- What the workers are started with: the id each gives itself, and the queues it tries. -/
structure Staff (ω : Type) where
  workerId : ω → String
  queues : ω → List String

/-- A task manager and the workers on it. -/
structure Fleet (ω Q α : Type) where
  server : TaskManager Q α
  worker : ω → Worker

/-- What happens next: a worker makes the next call of its loop, a `task_done` with this output if
it has a task, or another client makes a call. -/
inductive FleetOp (ω α : Type) where
  | turn (w : ω) (output : String) (failed : Bool)
  | client (op : TaskOp α)

/-- Whether a worker makes the call. -/
def FleetOp.isTurn {ω : Type} : FleetOp ω α → Bool
  | .turn _ _ _ => true
  | .client _ => false

/-- The request of a successful `task_add`. -/
def FleetOp.added {ω : Type} : FleetOp ω α → TaskReply α → Option (TaskAddRequest α)
  | .turn _ _ _, _ => none
  | .client op, r => op.added r

/-- An event of a run of the workers. -/
abbrev FleetEvent (ω Q α : Type) := Machine.Event (Fleet ω Q α) (FleetOp ω α) (TaskReply α)

/-- How many calls the workers made. -/
def turns {ω : Type} (es : List (FleetEvent ω Q α)) : Nat := es.countP fun e => e.op.isTurn

/-- How many tasks the other clients added. -/
def submitted {ω : Type} (es : List (FleetEvent ω Q α)) : Nat :=
  es.countP fun e => (e.op.added e.reply).isSome

namespace Fleet

variable {ω : Type}

/-- The other clients leave claims and reports to the workers, and add a task only while some worker
has not stopped, to a queue that every worker tries. -/
def Allows (staff : Staff ω) (f : Fleet ω Q α) : FleetOp ω α → Prop
  | .turn _ _ _ => True
  | .client (.add request) => (∃ w, f.worker w ≠ .stopped) ∧
      ∃ q ∈ request.queue, ∀ w, q ∈ staff.queues w
  | .client (.get _) => False
  | .client (.done _) => False
  | .client _ => True

instance [Fintype ω] (staff : Staff ω) (f : Fleet ω Q α) :
    ∀ op : FleetOp ω α, Decidable (f.Allows staff op)
  | .turn _ _ _ => isTrue trivial
  | .client (.add request) => inferInstanceAs (Decidable ((∃ w, f.worker w ≠ .stopped) ∧
      ∃ q ∈ request.queue, ∀ w, q ∈ staff.queues w))
  | .client (.get _) => isFalse id
  | .client (.done _) => isFalse id
  | .client (.cancel _) | .client (.setPriority _) | .client (.getStatus _)
  | .client (.getOutput _) | .client .getCountByState | .client (.getPriority _)
  | .client (.getWorkerId _) | .client (.searchId _) => isTrue trivial

variable [DecidableEq ω]

/-- The place of one worker. -/
def move (f : Fleet ω Q α) (server : TaskManager Q α) (w : ω) (place : Worker) : Fleet ω Q α :=
  ⟨server, Function.update f.worker w place⟩

/-- The worker that moves is at its new place. -/
@[simp] theorem move_self (f : Fleet ω Q α) (server : TaskManager Q α) (w : ω) (place : Worker) :
    (f.move server w place).worker w = place := Function.update_self ..

/-- The other workers stay where they are. -/
theorem move_of_ne {w w' : ω} (hne : w' ≠ w) (f : Fleet ω Q α) (server : TaskManager Q α)
    (place : Worker) : (f.move server w place).worker w' = f.worker w' :=
  Function.update_of_ne hne ..

/-- A worker that works after a move of `w` to a place without a task is another, and worked
before. -/
theorem of_move {f : Fleet ω Q α} {server : TaskManager Q α} {w w' : ω} {place : Worker}
    {task : TaskGetResponse}
    (hplace : ∀ task, place ≠ .working task)
    (h : (f.move server w place).worker w' = .working task) :
    w' ≠ w ∧ f.worker w' = .working task := by
  have hne : w' ≠ w := by
    rintro rfl
    rw [move_self] at h
    exact hplace task h
  exact ⟨hne, by rwa [move_of_ne hne] at h⟩

variable [LinearOrder α] [PriorityQueue Q (TaskQueueEntry α) taskQueueEntryOrder]

/-- One call of a worker or of another client. A worker that has stopped makes none. -/
def step (re2 : RE2) (staff : Staff ω) (f : Fleet ω Q α) :
    FleetOp ω α → Option (TaskReply α × Fleet ω Q α)
  | .turn w output failed =>
      match f.worker w with
      | .idle => do
          let (r, server) ← f.server.step re2 (.get ⟨staff.workerId w, staff.queues w⟩)
          match r with
          | .get (.ok task) => return (r, f.move server w (.working task))
          | _ => return (r, f.move server w .stopped)
      | .working task => do
          let (r, server) ← f.server.step re2
            (.done ⟨task.taskId, output, staff.workerId w, failed⟩)
          return (r, f.move server w .idle)
      | .stopped => none
  | .client op => do
      let (r, server) ← f.server.step re2 op
      return (r, { f with server := server })

/-- The workers as a machine, all at the start of their loops. -/
def machine (re2 : RE2) (staff : Staff ω) (server : TaskManager Q α) :
    Machine (Fleet ω Q α) (FleetOp ω α) (TaskReply α) where
  init := ⟨server, fun _ => .idle⟩
  step := step re2 staff

/-- What a call of the fleet is, and what it does to the task manager. -/
inductive Moves (re2 : RE2) (staff : Staff ω) (f : Fleet ω Q α) :
    FleetOp ω α → TaskReply α → Fleet ω Q α → Prop
  | claim {w output failed task server} (hw : f.worker w = .idle)
      (hs : f.server.step re2 (.get ⟨staff.workerId w, staff.queues w⟩) =
        some (.get (.ok task), server)) :
      Moves re2 staff f (.turn w output failed) (.get (.ok task)) (f.move server w (.working task))
  | stop {w output failed e server} (hw : f.worker w = .idle)
      (hs : f.server.step re2 (.get ⟨staff.workerId w, staff.queues w⟩) =
        some (.get (.error e), server)) :
      Moves re2 staff f (.turn w output failed) (.get (.error e)) (f.move server w .stopped)
  | report {w output failed task r server} (hw : f.worker w = .working task)
      (hs : f.server.step re2 (.done ⟨task.taskId, output, staff.workerId w, failed⟩) =
        some (r, server)) :
      Moves re2 staff f (.turn w output failed) r (f.move server w .idle)
  | client {op r server} (hs : f.server.step re2 op = some (r, server)) :
      Moves re2 staff f (.client op) r { f with server := server }

/-- Every step is one of the moves. -/
theorem step_moves {re2 : RE2} {staff : Staff ω} {f f' : Fleet ω Q α} {op : FleetOp ω α}
    {r : TaskReply α} (h : step re2 staff f op = some (r, f')) : Moves re2 staff f op r f' := by
  cases op with
  | turn w output failed =>
      simp only [step] at h
      split at h
      · next hw =>
          obtain ⟨⟨r', server⟩, hs, h⟩ := Option.bind_eq_some_iff.1 h
          obtain ⟨⟨result, m⟩, hget, heq⟩ := Option.bind_eq_some_iff.1 hs
          cases heq
          cases result with
          | ok task =>
              cases h
              exact .claim hw hs
          | error e =>
              cases h
              exact .stop hw hs
      · next task hw =>
          obtain ⟨⟨r', server⟩, hs, h⟩ := Option.bind_eq_some_iff.1 h
          cases h
          exact .report hw hs
      · cases h
  | client op =>
      obtain ⟨⟨r', server⟩, hs, h⟩ := Option.bind_eq_some_iff.1 h
      cases h
      exact .client hs

/-! ## The invariant -/

/-- How the places of the workers agree with the task graph. -/
structure Tended (staff : Staff ω) (f : Fleet ω Q α) (s : TaskGraph α) : Prop where
  /-- The task manager represents the graph. -/
  represents : f.server.Represents s
  /-- A worker holds the task it runs. -/
  held : ∀ {w task}, f.worker w = .working task → s.HeldBy task.taskId (staff.workerId w)
  /-- No two workers run one task. -/
  apart : ∀ {w w' task task'}, f.worker w = .working task → f.worker w' = .working task' →
    task.taskId = task'.taskId → w = w'
  /-- A worker is on every running task. -/
  busy : ∀ {i}, i < s.size → (s.task i).state = .running →
    ∃ w task, f.worker w = .working task ∧ task.taskId = (s.task i).taskId
  /-- The last worker stops only if there is nothing to claim. -/
  awake : (∃ w, f.worker w ≠ .stopped) ∨ ∀ i, i < s.size → (s.task i).state ≠ .ready
  /-- Every worker tries a queue of every task that may have to be claimed. -/
  covered : ∀ {i}, i < s.size → s.Unclaimed i → ∃ q ∈ (s.task i).queues, ∀ w, q ∈ staff.queues w

variable {re2 : RE2} {staff : Staff ω} {f f' : Fleet ω Q α} {s s' : TaskGraph α}
variable {server : TaskManager Q α} {op : TaskOp α} {r : TaskReply α} {w : ω}

omit [DecidableEq ω] in
/-- A change that adds no task keeps the tasks covered. -/
theorem Tended.keep_covered (h : f.Tended staff s) (hc : s.Change op r s')
    (hnone : op.added r = none) {i : Nat} (hi : i < s'.size) (hu : s'.Unclaimed i) :
    ∃ q ∈ (s'.task i).queues, ∀ w, q ∈ staff.queues w := by
  rcases hc.requests with ⟨request, parents, rfl, rfl, -, -, -⟩ | ⟨-, hsize, hreq⟩
  · cases hnone
  · rw [hsize] at hi
    rw [(hreq i).queues]
    exact h.covered hi (hc.unclaimed_of h.represents.1 hi hu)

omit [DecidableEq ω] in
/-- What a call does to the task manager, the specification allows. -/
theorem serves (h : f.server.Represents s) (hs : f.server.step re2 op = some (r, server)) :
    ∃ s', s.Serves re2 op r s' ∧ server.Represents s' :=
  (TaskManager.simulation re2).serves h hs

/-- A task is claimed by the worker that asked for it. -/
theorem Tended.claim {task : TaskGetResponse} (h : f.Tended staff s) (hw : f.worker w = .idle)
    (hserve : s.Serves re2 (.get ⟨staff.workerId w, staff.queues w⟩) (.get (.ok task)) s')
    (hrep : server.Represents s') : (f.move server w (.working task)).Tended staff s' := by
  have hc := hserve.change
  have hwf := h.represents.1
  obtain ⟨x, workerId, hclaimed, hx, hready, rfl⟩ | hnone := hc.claimed
  case inr => cases hnone
  have hid : task.taskId = (s.task x).taskId := congrArg Prod.fst (Option.some.inj hclaimed)
  have hworker : staff.workerId w = workerId := congrArg Prod.snd (Option.some.inj hclaimed)
  have hfresh : ∀ {w' task'}, f.worker w' = .working task' → task'.taskId ≠ task.taskId := by
    intro w' task' hw' heq
    obtain ⟨i, hi, ht, hst⟩ := h.held hw'
    cases hwf.ids hi hx (ht.trans (heq.trans hid))
    rw [hready] at hst
    simp at hst
  refine ⟨hrep, ?_, ?_, ?_, .inl ⟨w, by simp⟩, h.keep_covered hc rfl⟩
  · intro w' task' hw'
    by_cases hne : w' = w
    · subst hne
      rw [move_self] at hw'
      cases hw'
      refine ⟨x, hx, ?_, .inl ?_⟩
      · rw [(TaskGraph.claim_sameRequest workerId).taskId, hid]
      · rw [TaskGraph.claim_task, if_pos rfl]
        exact ⟨rfl, hworker.symm⟩
    · rw [move_of_ne hne] at hw'
      exact hc.heldBy hwf (h.held hw') fun _ heq => by cases heq
  · intro w₁ w₂ task₁ task₂ h₁ h₂ heq
    by_cases hne₁ : w₁ = w <;> by_cases hne₂ : w₂ = w
    · rw [hne₁, hne₂]
    · subst hne₁
      rw [move_self] at h₁
      cases h₁
      rw [move_of_ne hne₂] at h₂
      exact absurd heq.symm (hfresh h₂)
    · subst hne₂
      rw [move_self] at h₂
      cases h₂
      rw [move_of_ne hne₁] at h₁
      exact absurd heq (hfresh h₁)
    · rw [move_of_ne hne₁] at h₁
      rw [move_of_ne hne₂] at h₂
      exact h.apart h₁ h₂ heq
  · intro i hi hr
    rw [TaskGraph.claim_task] at hr ⊢
    by_cases hix : i = x
    · subst hix
      exact ⟨w, task, move_self .., by rw [if_pos rfl, hid]⟩
    · rw [if_neg hix] at hr ⊢
      obtain ⟨w', task', hw', ht⟩ := h.busy hi hr
      have hne : w' ≠ w := by
        rintro rfl
        rw [hw] at hw'
        cases hw'
      exact ⟨w', task', by rw [move_of_ne hne, hw'], ht⟩

/-- A worker stops. None of its queues offered a task, and these queues cover all ready tasks. -/
theorem Tended.stop {e : Error} (h : f.Tended staff s) (hw : f.worker w = .idle)
    (hserve : s.Serves re2 (.get ⟨staff.workerId w, staff.queues w⟩) (.get (.error e)) s')
    (hrep : server.Represents s') : (f.move server w .stopped).Tended staff s' ∧ s' = s := by
  cases hserve with
  | read hread => cases hread
  | get hget =>
      cases hget with
      | none hnone =>
          refine ⟨⟨hrep, fun hw' => ?_, fun h₁ h₂ => ?_, fun hi hr => ?_, .inr ?_, h.covered⟩, rfl⟩
          · exact h.held (of_move (by simp) hw').2
          · exact h.apart (of_move (by simp) h₁).2 (of_move (by simp) h₂).2
          · obtain ⟨w', task', hw', ht⟩ := h.busy hi hr
            have hne : w' ≠ w := by
              rintro rfl
              rw [hw] at hw'
              cases hw'
            exact ⟨w', task', by rw [move_of_ne hne, hw'], ht⟩
          · intro i hi hr
            obtain ⟨q, hq, hall⟩ := h.covered hi (.inr hr)
            exact hnone q (hall w) i ⟨hi, hr, hq⟩

/-- A worker reports its task. -/
theorem Tended.report {task : TaskGetResponse} {output : String} {failed : Bool}
    (h : f.Tended staff s) (hw : f.worker w = .working task)
    (hserve : s.Serves re2 (.done ⟨task.taskId, output, staff.workerId w, failed⟩) r s')
    (hrep : server.Represents s') :
    (f.move server w .idle).Tended staff s' ∧ r = .done (.ok ()) := by
  have hc := hserve.change
  have hwf := h.represents.1
  have hdone : r = .done (.ok ()) ∧ ∀ {i}, i < s.size → (s.task i).taskId = task.taskId →
      (s'.task i).state ≠ .running := by
    cases hserve with
    | read hread => cases hread
    | done =>
        obtain ⟨hok, hended⟩ := TaskGraph.serveDone_heldBy hwf
          ⟨task.taskId, output, staff.workerId w, failed⟩ (h.held hw)
        exact ⟨congrArg TaskReply.done hok, hended⟩
  refine ⟨⟨hrep, fun hw' => ?_, fun h₁ h₂ => ?_, fun hi hr => ?_, .inl ⟨w, by simp⟩,
    h.keep_covered hc rfl⟩, hdone.1⟩
  · obtain ⟨hne, hw'⟩ := of_move (by simp) hw'
    refine hc.heldBy hwf (h.held hw') fun request heq ht => ?_
    cases heq
    exact hne (h.apart hw' hw ht.symm)
  · exact h.apart (of_move (by simp) h₁).2 (of_move (by simp) h₂).2
  · obtain ⟨his, ⟨hrun, -⟩ | hclaim⟩ := hc.running hi hr
    · obtain ⟨w', task', hw', ht⟩ := h.busy his hrun
      have hne : w' ≠ w := by
        rintro rfl
        rw [hw] at hw'
        cases hw'
        exact hdone.2 his ht.symm hr
      exact ⟨w', task', by rw [move_of_ne hne, hw'], by rw [ht, (hc.keeps his).2.taskId]⟩
    · cases hclaim

omit [DecidableEq ω] in
/-- Another client makes a call. -/
theorem Tended.client (h : f.Tended staff s) (hallow : f.Allows staff (.client op))
    (hserve : s.Serves re2 op r s') (hrep : server.Represents s') :
    Tended staff { f with server := server } s' := by
  have hc := hserve.change
  have hwf := h.represents.1
  have hdone : ∀ request, op ≠ .done request := by
    rintro request rfl
    exact hallow
  have hclaimed : op.claimed r = none := by
    rcases hc.claimed with ⟨x, workerId, heq, -⟩ | hnone
    · cases op with
      | get => exact hallow.elim
      | _ => cases heq
    · exact hnone
  refine ⟨hrep, fun hw' => ?_, h.apart, fun hi hr => ?_, ?_, fun hi hu => ?_⟩
  · exact hc.heldBy hwf (h.held hw') fun request heq => absurd heq (hdone request)
  · obtain ⟨his, ⟨hrun, -⟩ | hclaim⟩ := hc.running hi hr
    · obtain ⟨w', task', hw', ht⟩ := h.busy his hrun
      exact ⟨w', task', hw', by rw [ht, (hc.keeps his).2.taskId]⟩
    · rw [hclaimed] at hclaim
      cases hclaim
  · rcases hc.requests with ⟨request, parents, rfl, rfl, -, -, rfl⟩ | ⟨-, hsize, -⟩
    · exact .inl hallow.1
    · refine h.awake.imp_right fun hnone i hi hr => ?_
      rw [hsize] at hi
      exact hnone i hi (hc.ready_of hwf hi hr hdone)
  · rcases hc.requests with ⟨request, parents, rfl, rfl, -, -, rfl⟩ | ⟨hnone, -, -⟩
    · rcases TaskGraph.add_lt hi with hi | rfl
      · rw [TaskGraph.add_task_old _ _ hi]
        exact h.covered hi (hc.unclaimed_of hwf hi hu)
      · rw [TaskGraph.add_task_new]
        exact hallow.2
    · exact h.keep_covered hc hnone hi hu

/-! ## The end of the loops -/

section cost

variable [Fintype ω]

/-- How many calls the workers may still make: two for each unclaimed task, and what each worker has
left. -/
def cost (f : Fleet ω Q α) (s : TaskGraph α) : Nat := 2 * s.unclaimed + ∑ w, (f.worker w).cost

omit [LinearOrder α] [PriorityQueue Q (TaskQueueEntry α) taskQueueEntryOrder] in

/-- Moving a worker changes the cost by the cost of its place. -/
theorem cost_move (f : Fleet ω Q α) (server : TaskManager Q α) (w : ω) (place : Worker)
    (s : TaskGraph α) :
    (f.move server w place).cost s + (f.worker w).cost = f.cost s + place.cost := by
  have hothers : ∑ w' ∈ Finset.univ.erase w, ((f.move server w place).worker w').cost =
      ∑ w' ∈ Finset.univ.erase w, (f.worker w').cost :=
    Finset.sum_congr rfl fun w' hw' => by rw [move_of_ne (Finset.ne_of_mem_erase hw')]
  have hnew := Finset.add_sum_erase Finset.univ
    (fun w' => ((f.move server w place).worker w').cost) (Finset.mem_univ w)
  have hold := Finset.add_sum_erase Finset.univ (fun w' => (f.worker w').cost) (Finset.mem_univ w)
  rw [move_self, hothers] at hnew
  unfold cost
  omega

/-- **Every call keeps the fleet tended.** The call of a worker lowers the cost, a call of another
client raises it by what it adds, and reports are accepted. -/
theorem Tended.step {op : FleetOp ω α} (h : f.Tended staff s) (hallow : f.Allows staff op)
    (hs : Fleet.step re2 staff f op = some (r, f')) :
    ∃ s', f'.Tended staff s' ∧
      (if op.isTurn then 1 else 0) + f'.cost s' ≤
        f.cost s + 2 * (if (op.added r).isSome then 1 else 0) ∧
      ∀ w output failed task, op = .turn w output failed → f.worker w = .working task →
        r = .done (.ok ()) := by
  have hwf := h.represents.1
  have hmoves := step_moves hs
  clear hs
  cases hmoves with
  | @claim w output failed task server hw hs =>
      obtain ⟨s', hserve, hrep⟩ := serves h.represents hs
      refine ⟨s', h.claim hw hserve hrep, ?_, fun w' _ _ task' heq hw' => ?_⟩
      · have hunclaimed := hserve.change.unclaimed hwf
        have hmove := cost_move f server w (.working task) s'
        have hclaimed : ((TaskOp.get ⟨staff.workerId w, staff.queues w⟩ : TaskOp α).claimed
            (.get (.ok task))).toList.length = 1 := rfl
        have hadded : ((TaskOp.get ⟨staff.workerId w, staff.queues w⟩ : TaskOp α).added
            (.get (.ok task))).toList.length = 0 := rfl
        rw [hw, Worker.cost_idle, Worker.cost_working] at hmove
        unfold cost at hmove ⊢
        simp only [FleetOp.isTurn, FleetOp.added, ↓reduceIte, Option.isSome_none,
          Bool.false_eq_true]
        omega
      · cases heq
        rw [hw] at hw'
        cases hw'
  | @stop w output failed e server hw hs =>
      obtain ⟨s', hserve, hrep⟩ := serves h.represents hs
      obtain ⟨htended, rfl⟩ := h.stop hw hserve hrep
      refine ⟨s', htended, ?_, fun w' _ _ task' heq hw' => ?_⟩
      · have hmove := cost_move f server w .stopped s'
        rw [hw, Worker.cost_idle, Worker.cost_stopped] at hmove
        simp only [FleetOp.isTurn, FleetOp.added, ↓reduceIte, Option.isSome_none,
          Bool.false_eq_true]
        omega
      · cases heq
        rw [hw] at hw'
        cases hw'
  | @report w output failed task r server hw hs =>
      obtain ⟨s', hserve, hrep⟩ := serves h.represents hs
      obtain ⟨htended, hok⟩ := h.report hw hserve hrep
      refine ⟨s', htended, ?_, fun _ _ _ _ _ _ => hok⟩
      have hunclaimed := hserve.change.unclaimed hwf
      have hmove := cost_move f server w .idle s'
      have hadded : ((TaskOp.done ⟨task.taskId, output, staff.workerId w, failed⟩ :
          TaskOp α).added r).toList.length = 0 := rfl
      rw [hw, Worker.cost_working, Worker.cost_idle] at hmove
      unfold cost at hmove ⊢
      simp only [FleetOp.isTurn, FleetOp.added, ↓reduceIte, Option.isSome_none,
        Bool.false_eq_true]
      omega
  | @client op r server hs =>
      obtain ⟨s', hserve, hrep⟩ := serves h.represents hs
      refine ⟨s', h.client hallow hserve hrep, ?_, fun _ _ _ _ heq => by cases heq⟩
      have hunclaimed := hserve.change.unclaimed hwf
      unfold cost
      cases hadded : op.added r with
      | none =>
          simp only [hadded, Option.toList_none, List.length_nil] at hunclaimed
          simp only [FleetOp.isTurn, FleetOp.added, hadded, Option.isSome_none, Bool.false_eq_true,
            ↓reduceIte]
          omega
      | some request =>
          simp only [hadded, Option.toList_some, List.length_singleton] at hunclaimed
          simp only [FleetOp.isTurn, FleetOp.added, hadded, Option.isSome_some, Bool.false_eq_true,
            ↓reduceIte]
          omega

/-- The calls of a run of the workers are paid for by the cost at its start and by the tasks that
were added on the way. -/
theorem Tended.run {m₀ : TaskManager Q α} {s₀ : TaskGraph α} {es : List (FleetEvent ω Q α)}
    (h₀ : (Fleet.machine re2 staff m₀).init.Tended staff s₀)
    (h : (Fleet.machine re2 staff m₀).Run es f) (hallow : ∀ e ∈ es, e.pre.Allows staff e.op) :
    (∃ s, f.Tended staff s ∧
      turns es + f.cost s ≤
        (Fleet.machine re2 staff m₀).init.cost s₀ + 2 * submitted es) ∧
    ∀ e ∈ es, ∀ w output failed task, e.op = .turn w output failed →
      e.pre.worker w = .working task → e.reply = .done (.ok ()) := by
  induction h with
  | nil => exact ⟨⟨s₀, h₀, Nat.le_of_eq (by simp [turns, submitted])⟩, fun e he => by cases he⟩
  | @snoc es f f' op r _ hs ih =>
      obtain ⟨⟨s, htended, hcost⟩, hreports⟩ := ih fun e he => hallow e (List.mem_append_left _ he)
      have hallowed : f.Allows staff op := hallow ⟨f, op, r, f'⟩ (by simp)
      obtain ⟨s', htended', hstep, hreport⟩ := htended.step hallowed hs
      refine ⟨⟨s', htended', ?_⟩, fun e he => ?_⟩
      · have hturns : turns (es ++ [⟨f, op, r, f'⟩]) = turns es + if op.isTurn then 1 else 0 := by
          unfold turns
          rw [List.countP_append, List.countP_singleton]
        have hsubmitted : submitted (es ++ [⟨f, op, r, f'⟩]) =
            submitted es + if (op.added r).isSome then 1 else 0 := by
          unfold submitted
          rw [List.countP_append, List.countP_singleton]
        omega
      · rcases List.mem_append.1 he with he | he
        · exact hreports e he
        · cases List.mem_singleton.1 he
          exact hreport

end cost

/-- A fleet starts tended on a task manager whose unclaimed tasks are covered and on which nothing
runs. -/
theorem Tended.init [Nonempty ω] {m₀ : TaskManager Q α} {es₀ : List (TaskEvent Q α)}
    (h : TaskRun re2 es₀ m₀ s) (hnone : ∀ t, m₀.statusOf t ≠ some .running)
    (hcovered : ∀ request ∈ adds es₀, m₀.statusOf request.taskId = some .waiting ∨
      m₀.statusOf request.taskId = some .ready → ∃ q ∈ request.queue, ∀ w, q ∈ staff.queues w) :
    (Fleet.machine re2 staff m₀).init.Tended staff s where
  represents := h.related
  held hw := by cases hw
  apart hw := by cases hw
  busy hi hr := absurd (by rw [h.statusOf_eq hi, hr]) (hnone _)
  awake := .inl ⟨Classical.arbitrary ω, by simp [machine]⟩
  covered hi hu := by
    obtain ⟨request, hrequest, hrec⟩ := h.exists_request hi
    rw [hrec.queues]
    refine hcovered request hrequest ?_
    rw [← hrec.taskId, h.statusOf_eq hi]
    simpa [TaskGraph.Unclaimed] using hu

/-- A worker that has not stopped can make its next call. -/
theorem Tended.exists_step (h : f.Tended staff s) (hw : f.worker w ≠ .stopped) (output : String)
    (failed : Bool) : ∃ r f', Fleet.step re2 staff f (.turn w output failed) = some (r, f') := by
  cases hplace : f.worker w with
  | idle =>
      obtain ⟨r, server, -, hs, -, -⟩ := (TaskManager.simulation re2).step
        (.get ⟨staff.workerId w, staff.queues w⟩) h.represents
      have hs' : f.server.step re2 (.get ⟨staff.workerId w, staff.queues w⟩) =
        some (r, server) := hs
      simp only [Fleet.step, hplace, hs', Option.bind_eq_bind, Option.bind_some]
      split <;> exact ⟨_, _, rfl⟩
  | working task =>
      obtain ⟨r, server, -, hs, -, -⟩ := (TaskManager.simulation re2).step
        (.done ⟨task.taskId, output, staff.workerId w, failed⟩) h.represents
      have hs' : f.server.step re2 (.done ⟨task.taskId, output, staff.workerId w, failed⟩) =
        some (r, server) := hs
      refine ⟨r, f.move server w .idle, ?_⟩
      simp only [Fleet.step, hplace, hs', Option.bind_eq_bind, Option.bind_some]
      rfl
  | stopped => exact absurd hplace hw

omit [DecidableEq ω] in
/-- When all workers have stopped, every task has ended. -/
theorem Tended.drained (h : f.Tended staff s) (hall : ∀ w, f.worker w = .stopped) {t : String}
    {state : TaskState} (ht : f.server.statusOf t = some state) : state.isLive = false := by
  have hwf := h.represents.1
  have hready : ∀ i, i < s.size → (s.task i).state ≠ .ready :=
    h.awake.resolve_left fun ⟨w, hw⟩ => hw (hall w)
  have hrunning : ∀ i, i < s.size → (s.task i).state ≠ .running := by
    intro i hi hr
    obtain ⟨w, task, hw, -⟩ := h.busy hi hr
    rw [hall w] at hw
    cases hw
  rw [h.represents.statusOf, Option.some.injEq] at ht
  by_contra hlive
  have hne : s.status t ≠ .undefined := by
    intro hu
    rw [← ht, hu] at hlive
    exact hlive rfl
  obtain ⟨i, hi, -, hst⟩ := TaskGraph.exists_of_status hne
  rw [ht] at hst
  rcases TaskState.isLive_iff.1 (by simpa using hlive) with rfl | rfl | rfl
  · -- a waiting task would have something ready or running behind it
    obtain ⟨a, ha, hor⟩ := hwf.waiting_ancestor hi hst
    have has := Nat.lt_trans (hwf.ancestor_lt ha) hi
    exact hor.elim (hready a has) (hrunning a has)
  · exact hready i hi hst
  · exact hrunning i hi hst

end Fleet

/-- **Workers drain the queue.** Workers start their loops on a task manager on which nothing runs
and whose tasks still to claim each wait on a queue that all workers try. Other clients may add such
tasks while a worker has not stopped, cancel and reprioritize. Then over every run, in any order of
calls: every report is accepted; no two workers run one task; the workers make no more calls than
two for each task to claim and one each to stop; a worker that has not stopped can go on; and when
all have stopped every task has ended, whatever was canceled, failed or added meanwhile. -/
theorem workers_drain_the_queue {ω : Type} [DecidableEq ω] [Fintype ω] [Nonempty ω]
    [LinearOrder α] [PriorityQueue Q (TaskQueueEntry α) taskQueueEntryOrder] {re2 : RE2}
    {staff : Staff ω} {m₀ : TaskManager Q α} {es₀ : List (TaskEvent Q α)}
    (h₀ : (TaskManager.machine Q re2).Run es₀ m₀) (hnone : ∀ t, m₀.statusOf t ≠ some .running)
    (hcovered : ∀ request ∈ adds es₀, m₀.statusOf request.taskId = some .waiting ∨
      m₀.statusOf request.taskId = some .ready → ∃ q ∈ request.queue, ∀ w, q ∈ staff.queues w)
    {es : List (FleetEvent ω Q α)} {f : Fleet ω Q α}
    (h : (Fleet.machine re2 staff m₀).Run es f) (hallow : ∀ e ∈ es, e.pre.Allows staff e.op) :
    (∀ e ∈ es, ∀ w output failed task, e.op = .turn w output failed →
      e.pre.worker w = .working task → e.reply = .done (.ok ())) ∧
    (∀ w w' task task', f.worker w = .working task → f.worker w' = .working task' →
      task.taskId = task'.taskId → w = w') ∧
    (∀ counts, m₀.getCountByState = .ok counts →
      turns es ≤ 2 * (counts.waiting + counts.ready + submitted es) + Fintype.card ω) ∧
    (∀ w output failed, f.worker w ≠ .stopped →
      ∃ r f', Fleet.step re2 staff f (.turn w output failed) = some (r, f')) ∧
    ((∀ w, f.worker w = .stopped) →
      ∀ t state, f.server.statusOf t = some state → state.isLive = false) := by
  obtain ⟨s₀, hc⟩ := TaskManager.exists_taskRun h₀
  obtain ⟨⟨s, htended, hcost⟩, hreports⟩ := (Fleet.Tended.init hc hnone hcovered).run h hallow
  refine ⟨hreports, fun _ _ _ _ hw hw' heq => htended.apart hw hw' heq, ?_,
    fun _ output failed hw => htended.exists_step hw output failed,
    fun hall _ _ ht => htended.drained hall ht⟩
  intro counts hcounts
  obtain ⟨-, v, rfl, href⟩ := hc.related
  rw [href.getCountByState] at hcounts
  cases hcounts
  have hidle : ∑ w : ω, ((Fleet.machine re2 staff v.manager).init.worker w).cost =
      Fintype.card ω := by simp [Fleet.machine, Worker.cost]
  unfold Fleet.cost at hcost
  rw [s₀.unclaimed_eq, hidle] at hcost
  dsimp only
  omega

/-- Two workers on one queue. -/
def sampleStaff : Staff Bool := ⟨fun w => if w then "v" else "w", fun _ => ["q"]⟩

/-- Two workers on an empty task manager. -/
def sampleFleet : Machine (Fleet Bool (ListQueue (taskQueueEntryOrder (α := Nat))) Nat)
    (FleetOp Bool Nat) (TaskReply Nat) :=
  Fleet.machine sampleRe2 sampleStaff sampleMachine.init

/-- The diamond, drained. One worker stops while the other still runs the first task. -/
def sampleShift : List (FleetOp Bool Nat) :=
  (diamond.take 4).map .client ++
    [.turn true "" false, .turn false "" false, .client (.cancel ⟨"c"⟩), .turn true "x" false,
      .turn true "" false, .turn true "y" false, .turn true "" false]

/-- A shift that comes to the end of the diamond. -/
theorem workers_drain_the_queue_diamond :
    turns (sampleFleet.runOf sampleShift).1 ≤ 2 * (0 + 0 + 4) + 2 ∧
      ∀ t state, (sampleFleet.runOf sampleShift).2.server.statusOf t = some state →
        state.isLive = false := by
  have hrun : (Fleet.machine sampleRe2 sampleStaff sampleMachine.init).Run _ _ :=
    sampleFleet.run_runOf sampleShift rfl
  obtain ⟨-, -, hturns, -, hend⟩ := workers_drain_the_queue .nil nofun nofun hrun (by decide)
  exact ⟨hturns _ rfl, hend (by decide)⟩

end DsService

import DsService.Core.TaskManager
import DsService.Lib.LastSeq
import Mathlib.Logic.Relation

/-!
# The task graph

What the task manager is for, without its heaps, its counters and its child lists. A `TaskGraph`
keeps each task with the parents its `task_add` named and a log of the queue entries: which task
entered its queues, at which priority, in order. An ending that spreads takes every live descendant
(`Falls`), a finished task releases the waiting tasks whose parents are then all finished
(`releasedBy`), and `task_get` claims a ready task that nothing outranks.

`Serves` says which reply and which next graph a request may have. It is a function of the graph and
the request except for `task_get` on priorities that are not all numbers, where it only asks for
some ready task of the right queue.
-/

namespace DsService

/-- A task as its users see it: what `task_add` was given, and how far it has come. `origin` is the
task whose ending decided this one's. -/
structure Task (α : Type) where
  taskId : String
  function : String
  input : String
  queues : List String
  parents : List Nat
  priority : Double α
  state : TaskState
  workerId : String
  output : String
  origin : Nat

/-- The tasks in the order they were added, and the log of queue entries. What `task` says at `size`
and above is not part of the graph. -/
structure TaskGraph (α : Type) where
  size : Nat
  task : Nat → Task α
  log : List (Nat × Double α)

namespace TaskGraph

variable {α : Type}

/-- The graph without tasks. -/
def empty : TaskGraph α where
  size := 0
  task _ := ⟨"", "", "", [], [], .nan, .undefined, "", "", 0⟩
  log := []

/-! ## Reading the graph -/

/-- The task of an id. -/
def find? (s : TaskGraph α) (taskId : String) : Option Nat :=
  (List.range s.size).find? fun i => (s.task i).taskId = taskId

/-- The tasks of a list of ids, or the first id without one. -/
def resolve (s : TaskGraph α) : List String → Except String (List Nat)
  | [] => .ok []
  | taskId :: rest =>
      match s.find? taskId with
      | none => .error taskId
      | some i => do
          let is ← s.resolve rest
          return i :: is

/-- `p` is a parent of the task `c`. -/
def Parent (s : TaskGraph α) (p c : Nat) : Prop := c < s.size ∧ p ∈ (s.task c).parents

/-- `a` is an ancestor of `c` by one or more steps. -/
def Ancestor (s : TaskGraph α) : Nat → Nat → Prop := Relation.TransGen s.Parent

/-- The number of the last queue entry of a task, zero if it never entered. -/
def seq (s : TaskGraph α) (i : Nat) : Nat := lastSeq (s.log.map Prod.fst) i

/-- How many parents of a task have yet to finish. -/
def pending (s : TaskGraph α) (i : Nat) : Nat :=
  (s.task i).parents.countP fun p => (s.task p).state ≠ .finished

/-- The tasks that name `p` as a parent, in the order they were added and once per mention. -/
def dependents (s : TaskGraph α) (p : Nat) : List Nat :=
  (List.range s.size).flatMap fun c => List.replicate ((s.task c).parents.count p) c

/-- How many tasks are in a state. -/
def countIn (s : TaskGraph α) (state : TaskState) : Nat :=
  (List.range s.size).countP fun i => (s.task i).state = state

/-! ## Changing the graph -/

/-- Replace one task. -/
def update (s : TaskGraph α) (i : Nat) (t : Task α) : TaskGraph α :=
  { s with task := Function.update s.task i t }

/-- A task enters its queues. -/
def enter (s : TaskGraph α) (i : Nat) : TaskGraph α :=
  { s with log := s.log ++ [(i, (s.task i).priority)] }

/-- The state a task with these parents is added in, and its origin. A failed parent decides over a
canceled one, and the first of them over the others. -/
def birth (s : TaskGraph α) (parents : List Nat) : TaskState × Nat :=
  match parents.find? fun p => (s.task p).state = .failed with
  | some p => (.failed, (s.task p).origin)
  | none =>
      match parents.find? fun p => (s.task p).state = .canceled with
      | some p => (.canceled, (s.task p).origin)
      | none =>
          if ∀ p ∈ parents, (s.task p).state = .finished then (.ready, s.size)
          else (.waiting, s.size)

/-- The output of a task that ends with the ending of `origin`. -/
def terminalOutput (s : TaskGraph α) (state : TaskState) (origin : Nat) : String :=
  if state = .failed then dependencyFailedOutput (s.task origin).taskId else canceledOutput

/-- The task that `task_add` adds. -/
def newTask (s : TaskGraph α) (request : TaskAddRequest α) (parents : List Nat) : Task α where
  taskId := request.taskId
  function := request.function
  input := request.input
  queues := request.queue
  parents := parents
  priority := request.priority
  state := (s.birth parents).1
  workerId := ""
  output :=
    if (s.birth parents).1 = .failed ∨ (s.birth parents).1 = .canceled then
      s.terminalOutput (s.birth parents).1 (s.birth parents).2
    else ""
  origin := (s.birth parents).2

/-- The graph with one more task, not yet in its queues. -/
def snoc (s : TaskGraph α) (t : Task α) : TaskGraph α :=
  { s with size := s.size + 1, task := Function.update s.task s.size t }

/-- `task_add`. -/
def add (s : TaskGraph α) (request : TaskAddRequest α) (parents : List Nat) : TaskGraph α :=
  if (s.birth parents).1 = .ready then (s.snoc (s.newTask request parents)).enter s.size
  else s.snoc (s.newTask request parents)

/-- The ending of `x` takes `i` with it. -/
def Falls (s : TaskGraph α) (x i : Nat) : Prop :=
  i < s.size ∧ (s.task i).state.isLive = true ∧ s.Ancestor x i

open Classical in
/-- `x` ends as failed or canceled, and what it takes with it ends the same way. -/
noncomputable def endBadly (s : TaskGraph α) (x : Nat) (state : TaskState)
    (workerId output : String) : TaskGraph α :=
  { s with
    task := fun i =>
      if i = x then
        { s.task x with state := state, workerId := workerId, output := output, origin := x }
      else if s.Falls x i then
        { s.task i with
          state := state, workerId := "", output := s.terminalOutput state x, origin := x }
      else s.task i }

/-- `task_cancel` of a live task. -/
noncomputable def cancel (s : TaskGraph α) (x : Nat) : TaskGraph α :=
  s.endBadly x .canceled "" canceledOutput

/-- `task_done` of a running task that failed. -/
noncomputable def fail (s : TaskGraph α) (x : Nat) (output : String) : TaskGraph α :=
  s.endBadly x .failed (s.task x).workerId output

/-- The task as finished, before it releases anything. -/
def settle (s : TaskGraph α) (x : Nat) (output : String) : TaskGraph α :=
  s.update x { s.task x with state := .finished, output := output }

/-- The waiting tasks that the finished `x` was the last to hold back. -/
def releasedBy (s : TaskGraph α) (x : Nat) : List Nat :=
  (List.range s.size).filter fun c => (s.task c).state = .waiting ∧ x ∈ (s.task c).parents ∧
    ∀ p ∈ (s.task c).parents, (s.task p).state = .finished

/-- A list of tasks becomes ready and enters the queues, in order. -/
def release (s : TaskGraph α) (cs : List Nat) : TaskGraph α :=
  { s with
    task := fun i => if i ∈ cs then { s.task i with state := .ready } else s.task i
    log := s.log ++ cs.map fun c => (c, (s.task c).priority) }

/-- `task_done` of a running task that did not fail. -/
def finish (s : TaskGraph α) (x : Nat) (output : String) : TaskGraph α :=
  (s.settle x output).release ((s.settle x output).releasedBy x)

/-- `task_get` claims a ready task. -/
def claim (s : TaskGraph α) (i : Nat) (workerId : String) : TaskGraph α :=
  s.update i { s.task i with state := .running, workerId := workerId }

/-- `task_set_priority`. -/
def reprioritize (s : TaskGraph α) (i : Nat) (priority : Double α) : TaskGraph α :=
  let s' := s.update i { s.task i with priority := priority }
  if (s.task i).state = .ready then s'.enter i else s'

/-! ## Serving a request -/

/-- The task `i` is ready and waits on `qname`. -/
def Offers (s : TaskGraph α) (qname : String) (i : Nat) : Prop :=
  i < s.size ∧ (s.task i).state = .ready ∧ qname ∈ (s.task i).queues

/-- Every priority at which a task ever entered its queues is a number. -/
def Numeric (s : TaskGraph α) : Prop := ∀ e ∈ s.log, e.2 ≠ .nan

variable [LinearOrder α]

/-- `i` leaves a queue before `j`: at a higher priority, or entered earlier at the same one. -/
def Outranks (s : TaskGraph α) (i j : Nat) : Prop :=
  (s.task j).priority.lt (s.task i).priority = true ∨
    (s.task j).priority = (s.task i).priority ∧ s.seq i < s.seq j

/-- How `task_get` may answer: with a task of the first queue that offers one, which outranks every
other there, or with a refusal when none of the queues does. -/
inductive ServesGet (s : TaskGraph α) (request : TaskGetRequest) :
    TaskReply α → TaskGraph α → Prop
  | claim {qnames rest : List String} {qname : String} {i : Nat}
      (hq : request.queue = qnames ++ qname :: rest)
      (hskip : ∀ q ∈ qnames, ∀ j, ¬ s.Offers q j) (hi : s.Offers qname i)
      (hbest : s.Numeric → ∀ j, s.Offers qname j → j ≠ i → s.Outranks i j) :
      ServesGet s request
        (.get (.ok ⟨(s.task i).taskId, (s.task i).function, (s.task i).input⟩))
        (s.claim i request.workerId)
  | none (hnone : ∀ q ∈ request.queue, ∀ j, ¬ s.Offers q j) :
      ServesGet s request (.get (makeError .notFound "No tasks available.")) s

/-- How `task_add` answers. -/
def serveAdd (s : TaskGraph α) (request : TaskAddRequest α) : Result Unit × TaskGraph α :=
  match s.find? request.taskId with
  | some _ =>
      (makeError .alreadyExists ("Task with ID = " ++ request.taskId ++ " already exists."), s)
  | none =>
      match s.resolve request.parentTaskIds with
      | .error parentTaskId =>
          (makeError .notFound ("Parent task with ID = " ++ parentTaskId ++ " not found."), s)
      | .ok parents => (.ok (), s.add request parents)

/-- How `task_cancel` answers. -/
noncomputable def serveCancel (s : TaskGraph α) (request : TaskCancelRequest) :
    Result TaskCancelResponse × TaskGraph α :=
  match s.find? request.taskId with
  | none => (TaskManager.taskNotFound request.taskId, s)
  | some i =>
      if (s.task i).state.isLive then (.ok ⟨true⟩, s.cancel i) else (.ok ⟨false⟩, s)

/-- How `task_set_priority` answers. -/
def serveSetPriority (s : TaskGraph α) (request : TaskSetPriorityRequest α) :
    Result Unit × TaskGraph α :=
  match s.find? request.taskId with
  | none => (TaskManager.taskNotFound request.taskId, s)
  | some i => (.ok (), s.reprioritize i request.priority)

/-- How `task_done` answers. -/
noncomputable def serveDone (s : TaskGraph α) (request : TaskDoneRequest) :
    Result Unit × TaskGraph α :=
  match s.find? request.taskId with
  | none => (TaskManager.taskNotFound request.taskId, s)
  | some i =>
      if (s.task i).state = .canceled then (.ok (), s)
      else if (s.task i).state ≠ .running then
        (makeError .failedPrecondition
          ("Task with ID = " ++ request.taskId ++ " is not Running."), s)
      else if (s.task i).workerId ≠ request.workerId then
        (makeError .failedPrecondition ("Task with ID = " ++ request.taskId ++
          " is held by worker " ++ (s.task i).workerId ++ ", not " ++ request.workerId ++ "."), s)
      else if request.failed then (.ok (), s.fail i request.output)
      else (.ok (), s.finish i request.output)

/-- The state `task_get_status` reports for an id. -/
def status (s : TaskGraph α) (taskId : String) : TaskState :=
  match s.find? taskId with
  | none => .undefined
  | some i => (s.task i).state

/-- How the operations that change nothing answer. -/
def serveRead (re2 : RE2) (s : TaskGraph α) : TaskOp α → Option (TaskReply α)
  | .getStatus request => some (.getStatus (.ok ⟨request.taskId.map s.status⟩))
  | .getOutput request =>
      match s.find? request.taskId with
      | none => some (.getOutput (TaskManager.taskNotFound request.taskId))
      | some i => some (.getOutput (.ok ⟨(s.task i).output⟩))
  | .getCountByState =>
      some (.getCountByState (.ok
        { waiting := s.countIn .waiting, ready := s.countIn .ready, running := s.countIn .running,
          finished := s.countIn .finished, failed := s.countIn .failed,
          canceled := s.countIn .canceled }))
  | .getPriority request =>
      match s.find? request.taskId with
      | none => some (.getPriority (TaskManager.taskNotFound request.taskId))
      | some i => some (.getPriority (.ok ⟨(s.task i).priority⟩))
  | .getWorkerId request =>
      match s.find? request.taskId with
      | none => some (.getWorkerId (TaskManager.taskNotFound request.taskId))
      | some i =>
          if (s.task i).state ≠ .running then
            some (.getWorkerId (makeError .failedPrecondition
              ("Task with ID = " ++ request.taskId ++ " is not Running.")))
          else some (.getWorkerId (.ok ⟨(s.task i).workerId⟩))
  | .searchId request =>
      some (.searchId (searchKeys re2 ((List.range s.size).map fun i => (s.task i).taskId) request))
  | _ => none

/-- Which replies and next graphs a request may have. -/
inductive Serves (re2 : RE2) (s : TaskGraph α) : TaskOp α → TaskReply α → TaskGraph α → Prop
  | read {op : TaskOp α} {r : TaskReply α} (h : s.serveRead re2 op = some r) : Serves re2 s op r s
  | add (request : TaskAddRequest α) :
      Serves re2 s (.add request) (.add (s.serveAdd request).1) (s.serveAdd request).2
  | cancel (request : TaskCancelRequest) :
      Serves re2 s (.cancel request) (.cancel (s.serveCancel request).1) (s.serveCancel request).2
  | setPriority (request : TaskSetPriorityRequest α) :
      Serves re2 s (.setPriority request) (.setPriority (s.serveSetPriority request).1)
        (s.serveSetPriority request).2
  | get {request : TaskGetRequest} {r : TaskReply α} {s' : TaskGraph α}
      (h : s.ServesGet request r s') : Serves re2 s (.get request) r s'
  | done (request : TaskDoneRequest) :
      Serves re2 s (.done request) (.done (s.serveDone request).1) (s.serveDone request).2

/-- The specification of the task manager. -/
def spec (re2 : RE2) : Machine.Spec (TaskGraph α) (TaskOp α) (TaskReply α) where
  init := empty
  Serves := Serves re2

end TaskGraph

end DsService

import DsService.Core.Messages
import DsService.Lib.Machine
import DsService.Lib.PriorityQueue

/-!
# The task manager

`TaskManager` of `core/data-structures.hpp` and its methods in `core/task-manager.cpp`, statement
by statement. The table keeps one list per column, as the source keeps one vector per column.

The source reads and writes these vectors with the unchecked `operator[]`. Here an access out of
bounds makes the whole method `none`, so a method that returns `some` on a state made only
accesses in bounds there. `next_seq` and the `seq` column are natural numbers: the counter is taken
not to wrap.

The queues are any `PriorityQueue` for the order of `TaskQueueEntryOrder`.
-/

namespace DsService

/-- What `task_get_output` reports for a canceled task. -/
def canceledOutput : String := "Task canceled"

/-- What `task_get_output` reports for a task that failed because a task it depends on failed:
`DEPENDENCY_FAILED_FORMAT` at the task whose run failed. -/
def dependencyFailedOutput (taskId : String) : String :=
  "Dependency failed (task_id=" ++ taskId ++ ")"

/-! ## Data -/

/-- One row's place in one queue. -/
structure TaskQueueEntry (α : Type) where
  priority : Double α
  seq : Nat
  index : Nat
deriving DecidableEq, Repr

/-- `TaskQueueEntryOrder::operator()`: by priority, and by arrival among equal priorities. The
second test is reversed, so that the lower `seq` is the greater entry. -/
def taskQueueEntryOrder {α : Type} [LinearOrder α] (a b : TaskQueueEntry α) : Bool :=
  if a.priority.ne b.priority then a.priority.lt b.priority else decide (a.seq > b.seq)

/-- The task rows, one list per column. -/
structure TaskTable (α : Type) where
  taskId : List String := []
  function : List String := []
  input : List String := []
  output : List String := []
  state : List TaskState := []
  workerId : List String := []
  priority : List (Double α) := []
  queues : List (List String) := []
  seq : List Nat := []
  pendingParents : List Nat := []
  children : List (List Nat) := []
  terminalOrigin : List Nat := []

/-- The task table, its index and its queues. `nextSeq` is the last seq handed out. -/
structure TaskManager (Q α : Type) where
  tasks : TaskTable α := {}
  taskIndex : HashMap String Nat := ∅
  nextSeq : Nat := 0
  queue : HashMap String Q := ∅

/-- `v[i] = a`. -/
def vecSet {β : Type} (v : List β) (i : Nat) (a : β) : Option (List β) :=
  if i < v.length then some (v.set i a) else none

/-- `n--` on a `std::size_t`, which wraps at zero. -/
def sizeDec (n : Nat) : Nat := if n = 0 then 2 ^ 64 - 1 else n - 1

/-- The test for a state that is not final. -/
def TaskState.isLive (s : TaskState) : Bool :=
  !(s != .waiting && s != .ready && s != .running)

namespace TaskManager

variable {Q α : Type}

/-! ## Column writes -/

def setOutput (m : TaskManager Q α) (index : Nat) (a : String) : Option (TaskManager Q α) := do
  let column ← vecSet m.tasks.output index a
  return { m with tasks := { m.tasks with output := column } }

def setState (m : TaskManager Q α) (index : Nat) (a : TaskState) : Option (TaskManager Q α) := do
  let column ← vecSet m.tasks.state index a
  return { m with tasks := { m.tasks with state := column } }

def setWorkerId (m : TaskManager Q α) (index : Nat) (a : String) : Option (TaskManager Q α) := do
  let column ← vecSet m.tasks.workerId index a
  return { m with tasks := { m.tasks with workerId := column } }

def setPriorityColumn (m : TaskManager Q α) (index : Nat) (a : Double α) :
    Option (TaskManager Q α) := do
  let column ← vecSet m.tasks.priority index a
  return { m with tasks := { m.tasks with priority := column } }

def setSeq (m : TaskManager Q α) (index : Nat) (a : Nat) : Option (TaskManager Q α) := do
  let column ← vecSet m.tasks.seq index a
  return { m with tasks := { m.tasks with seq := column } }

def setPendingParents (m : TaskManager Q α) (index : Nat) (a : Nat) :
    Option (TaskManager Q α) := do
  let column ← vecSet m.tasks.pendingParents index a
  return { m with tasks := { m.tasks with pendingParents := column } }

def setChildren (m : TaskManager Q α) (index : Nat) (a : List Nat) :
    Option (TaskManager Q α) := do
  let column ← vecSet m.tasks.children index a
  return { m with tasks := { m.tasks with children := column } }

def setTerminalOrigin (m : TaskManager Q α) (index : Nat) (a : Nat) :
    Option (TaskManager Q α) := do
  let column ← vecSet m.tasks.terminalOrigin index a
  return { m with tasks := { m.tasks with terminalOrigin := column } }

/-! ## Endings that spread -/

def terminalOutput (m : TaskManager Q α) (state : TaskState) (origin : Nat) : Option String :=
  if state = .failed then do
    let taskId ← m.tasks.taskId[origin]?
    return dependencyFailedOutput taskId
  else some canceledOutput

/-- The `while` loop of `propagate_to_children`, with `pending` kept back first. Each turn costs
one unit of fuel, and running out of it is `none`. -/
def propagateLoop (state : TaskState) (origin : Nat) (output : String) :
    Nat → List Nat → TaskManager Q α → Option (TaskManager Q α)
  | _, [], m => some m
  | 0, _ :: _, _ => none
  | fuel + 1, current :: pending, m => do
      let s ← m.tasks.state[current]?
      if !s.isLive then
        propagateLoop state origin output fuel pending m
      else
        let m ← m.setState current state
        let m ← m.setWorkerId current ""
        let m ← m.setOutput current output
        let m ← m.setTerminalOrigin current origin
        let children ← m.tasks.children[current]?
        propagateLoop state origin output fuel (children.reverse ++ pending) m

/-- The fuel of the walk: one unit per registered edge, since the walk leaves a row at most
once. -/
def edgeCount (m : TaskManager Q α) : Nat := (m.tasks.children.map List.length).sum

def propagateToChildren (m : TaskManager Q α) (index : Nat) (state : TaskState) (origin : Nat) :
    Option (TaskManager Q α) := do
  let output ← m.terminalOutput state origin
  let children ← m.tasks.children[index]?
  propagateLoop state origin output m.edgeCount children.reverse m

/-! ## The parents of a new row -/

/-- The rows of the parents a request names, or the first of them that does not exist. -/
def resolveParents (m : TaskManager Q α) : List String → Except String (List Nat)
  | [] => .ok []
  | parentTaskId :: rest =>
      match m.taskIndex.lookup parentTaskId with
      | none => .error parentTaskId
      | some parent => do
          let parents ← m.resolveParents rest
          return parent :: parents

/-- What `add` learns about the parents of the new row. -/
structure ParentScan where
  pendingParents : Nat := 0
  canceledParent : Option Nat := none
  failedParent : Option Nat := none

/-- One turn of the loop over the parents that decides the new row's state. -/
def scanParent (m : TaskManager Q α) (scan : ParentScan) (parent : Nat) : Option ParentScan := do
  let s ← m.tasks.state[parent]?
  let scan := if scan.canceledParent.isNone && s == .canceled
    then { scan with canceledParent := some parent } else scan
  let scan := if scan.failedParent.isNone && s == .failed
    then { scan with failedParent := some parent } else scan
  return if s != .finished then { scan with pendingParents := scan.pendingParents + 1 } else scan

/-- The state of a new row and the origin of its ending. -/
def birth (m : TaskManager Q α) (scan : ParentScan) (index : Nat) : Option (TaskState × Nat) :=
  match scan.failedParent, scan.canceledParent with
  | some parent, _ => do
      let origin ← m.tasks.terminalOrigin[parent]?
      return (.failed, origin)
  | none, some parent => do
      let origin ← m.tasks.terminalOrigin[parent]?
      return (.canceled, origin)
  | none, none => some (if scan.pendingParents > 0 then .waiting else .ready, index)

/-- The twelve `push_back` calls of `add`, and the entry in the index. -/
def pushRow (m : TaskManager Q α) (request : TaskAddRequest α) (output : String)
    (state : TaskState) (pendingParents origin : Nat) : TaskManager Q α :=
  { m with
    taskIndex := m.taskIndex.insert request.taskId m.tasks.taskId.length
    tasks :=
      { taskId := m.tasks.taskId ++ [request.taskId]
        function := m.tasks.function ++ [request.function]
        input := m.tasks.input ++ [request.input]
        output := m.tasks.output ++ [output]
        state := m.tasks.state ++ [state]
        workerId := m.tasks.workerId ++ [""]
        priority := m.tasks.priority ++ [request.priority]
        queues := m.tasks.queues ++ [request.queue]
        seq := m.tasks.seq ++ [0]
        pendingParents := m.tasks.pendingParents ++ [pendingParents]
        children := m.tasks.children ++ [[]]
        terminalOrigin := m.tasks.terminalOrigin ++ [origin] } }

/-- One turn of the loop that registers the new row with its parents. -/
def registerChild (index : Nat) (m : TaskManager Q α) (parent : Nat) :
    Option (TaskManager Q α) := do
  let s ← m.tasks.state[parent]?
  if s != .finished then
    let children ← m.tasks.children[parent]?
    m.setChildren parent (children ++ [index])
  else return m

/-! ## Reads -/

/-- The refusal of an operation on a task that does not exist. -/
def taskNotFound {T : Type} (taskId : String) : Result T :=
  makeError .notFound ("Task with ID = " ++ taskId ++ " not found.")

/-- One turn of the loop of `get_status`. -/
def statusOf (m : TaskManager Q α) (taskId : String) : Option TaskState :=
  match m.taskIndex.lookup taskId with
  | none => some .undefined
  | some index => m.tasks.state[index]?

def getStatus (m : TaskManager Q α) (request : TaskGetStatusRequest) :
    Option (Result TaskGetStatusResponse) := do
  let state ← request.taskId.mapM m.statusOf
  return .ok ⟨state⟩

def getOutput (m : TaskManager Q α) (request : TaskGetOutputRequest) :
    Option (Result TaskGetOutputResponse) :=
  match m.taskIndex.lookup request.taskId with
  | none => some (taskNotFound request.taskId)
  | some index => do
      let output ← m.tasks.output[index]?
      return .ok ⟨output⟩

/-- One turn of the loop of `get_count_by_state`. -/
def countState (counts : TaskGetCountByStateResponse) :
    TaskState → TaskGetCountByStateResponse
  | .waiting => { counts with waiting := counts.waiting + 1 }
  | .ready => { counts with ready := counts.ready + 1 }
  | .running => { counts with running := counts.running + 1 }
  | .finished => { counts with finished := counts.finished + 1 }
  | .failed => { counts with failed := counts.failed + 1 }
  | .canceled => { counts with canceled := counts.canceled + 1 }
  | .undefined => counts

def getCountByState (m : TaskManager Q α) : Result TaskGetCountByStateResponse :=
  .ok (m.tasks.state.foldl countState {})

def getPriority (m : TaskManager Q α) (request : TaskGetPriorityRequest) :
    Option (Result (TaskGetPriorityResponse α)) :=
  match m.taskIndex.lookup request.taskId with
  | none => some (taskNotFound request.taskId)
  | some index => do
      let priority ← m.tasks.priority[index]?
      return .ok ⟨priority⟩

def getWorkerId (m : TaskManager Q α) (request : TaskGetWorkerIdRequest) :
    Option (Result TaskGetWorkerIdResponse) :=
  match m.taskIndex.lookup request.taskId with
  | none => some (taskNotFound request.taskId)
  | some index => do
      let s ← m.tasks.state[index]?
      if s ≠ .running then
        return makeError .failedPrecondition
          ("Task with ID = " ++ request.taskId ++ " is not Running.")
      else
        let workerId ← m.tasks.workerId[index]?
        return .ok ⟨workerId⟩

def searchId (re2 : RE2) (m : TaskManager Q α) (request : SearchKeyRequest) :
    Result SearchKeyResponse :=
  searchKeys re2 m.tasks.taskId request

/-! ## task_cancel -/

def cancel (m : TaskManager Q α) (request : TaskCancelRequest) :
    Option (Result TaskCancelResponse × TaskManager Q α) :=
  match m.taskIndex.lookup request.taskId with
  | none => some (taskNotFound request.taskId, m)
  | some index => do
      let s ← m.tasks.state[index]?
      if !s.isLive then return (.ok ⟨false⟩, m)
      else
        let m ← m.setState index .canceled
        let m ← m.setWorkerId index ""
        let m ← m.setTerminalOrigin index index
        let output ← m.terminalOutput .canceled index
        let m ← m.setOutput index output
        let m ← m.propagateToChildren index .canceled index
        return (.ok ⟨true⟩, m)

/-! ## The queues -/

variable [LinearOrder α] [PriorityQueue Q (TaskQueueEntry α) taskQueueEntryOrder]

/-- `queue[qname].push(entry)`, which creates a queue not seen before. -/
def push (queue : HashMap String Q) (qname : String) (entry : TaskQueueEntry α) :
    HashMap String Q :=
  queue.insert qname (PriorityQueue.push ((queue.lookup qname).getD PriorityQueue.empty) entry)

def enqueue (m : TaskManager Q α) (index : Nat) : Option (TaskManager Q α) := do
  let m := { m with nextSeq := m.nextSeq + 1 }
  let m ← m.setSeq index m.nextSeq
  let queues ← m.tasks.queues[index]?
  queues.foldlM (fun m qname => do
    let priority ← m.tasks.priority[index]?
    let seq ← m.tasks.seq[index]?
    return { m with queue := push m.queue qname ⟨priority, seq, index⟩ }) m

/-! ## task_add -/

def add (m : TaskManager Q α) (request : TaskAddRequest α) :
    Option (Result Unit × TaskManager Q α) :=
  match m.taskIndex.lookup request.taskId with
  | some _ =>
      some (makeError .alreadyExists ("Task with ID = " ++ request.taskId ++ " already exists."), m)
  | none =>
      match m.resolveParents request.parentTaskIds with
      | .error parentTaskId =>
          some (makeError .notFound ("Parent task with ID = " ++ parentTaskId ++ " not found."), m)
      | .ok parents => do
          let scan ← parents.foldlM m.scanParent {}
          let index := m.tasks.taskId.length
          let (state, origin) ← m.birth scan index
          let output ← if state = .failed ∨ state = .canceled then m.terminalOutput state origin
            else some ""
          let m := m.pushRow request output state scan.pendingParents origin
          let m ← parents.foldlM (registerChild index) m
          let m ← if state = .ready then m.enqueue index else some m
          return (.ok (), m)

/-! ## task_set_priority -/

def setPriority (m : TaskManager Q α) (request : TaskSetPriorityRequest α) :
    Option (Result Unit × TaskManager Q α) :=
  match m.taskIndex.lookup request.taskId with
  | none => some (taskNotFound request.taskId, m)
  | some index => do
      let m ← m.setPriorityColumn index request.priority
      let s ← m.tasks.state[index]?
      if s ≠ .ready then return (.ok (), m)
      else
        let m ← m.enqueue index
        return (.ok (), m)

/-! ## task_get -/

/-- The `while` loop of `get` over one queue: entries are popped and dropped until one is live,
that is until its row is ready and still holds its seq. `size` many turns empty the queue. -/
def popLive (tasks : TaskTable α) : Nat → Q → Option (Option Nat × Q)
  | fuel, taskQueue =>
      match fuel, PriorityQueue.pop taskQueue with
      | _, none => some (none, taskQueue)
      | 0, some _ => none
      | fuel + 1, some (entry, taskQueue) => do
          let s ← tasks.state[entry.index]?
          let seq ← tasks.seq[entry.index]?
          if s ≠ .ready ∨ entry.seq ≠ seq then popLive tasks fuel taskQueue
          else return (some entry.index, taskQueue)

/-- The loop of `get` over the queues a request names. -/
def getFrom (m : TaskManager Q α) (workerId : String) :
    List String → Option (Result TaskGetResponse × TaskManager Q α)
  | [] => some (makeError .notFound "No tasks available.", m)
  | qname :: rest =>
      match m.queue.lookup qname with
      | none => m.getFrom workerId rest
      | some taskQueue => do
          let (found, taskQueue) ← popLive m.tasks (PriorityQueue.size taskQueue) taskQueue
          let m := { m with queue := m.queue.insert qname taskQueue }
          match found with
          | none => m.getFrom workerId rest
          | some index =>
              let m ← m.setState index .running
              let m ← m.setWorkerId index workerId
              let taskId ← m.tasks.taskId[index]?
              let function ← m.tasks.function[index]?
              let input ← m.tasks.input[index]?
              return (.ok ⟨taskId, function, input⟩, m)

def get (m : TaskManager Q α) (request : TaskGetRequest) :
    Option (Result TaskGetResponse × TaskManager Q α) :=
  m.getFrom request.workerId request.queue

/-! ## task_done -/

/-- One turn of the release loop of `done`. -/
def releaseChild (m : TaskManager Q α) (child : Nat) : Option (TaskManager Q α) := do
  let pending ← m.tasks.pendingParents[child]?
  let m ← m.setPendingParents child (sizeDec pending)
  let pending ← m.tasks.pendingParents[child]?
  if pending = 0 then
    let s ← m.tasks.state[child]?
    if s = .waiting then
      let m ← m.setState child .ready
      m.enqueue child
    else return m
  else return m

def done (m : TaskManager Q α) (request : TaskDoneRequest) :
    Option (Result Unit × TaskManager Q α) :=
  match m.taskIndex.lookup request.taskId with
  | none => some (taskNotFound request.taskId, m)
  | some index => do
      let s ← m.tasks.state[index]?
      if s = .canceled then return (.ok (), m)
      else if s ≠ .running then
        return (makeError .failedPrecondition
          ("Task with ID = " ++ request.taskId ++ " is not Running."), m)
      else
        let workerId ← m.tasks.workerId[index]?
        if workerId ≠ request.workerId then
          return (makeError .failedPrecondition ("Task with ID = " ++ request.taskId ++
            " is held by worker " ++ workerId ++ ", not " ++ request.workerId ++ "."), m)
        else
          let m ← m.setOutput index request.output
          if request.failed then
            let m ← m.setState index .failed
            let m ← m.setTerminalOrigin index index
            let m ← m.propagateToChildren index .failed index
            return (.ok (), m)
          else
            let m ← m.setState index .finished
            let children ← m.tasks.children[index]?
            let m ← children.foldlM releaseChild m
            return (.ok (), m)

end TaskManager

/-! ## The machine -/

/-- The operations of the task queue, each with its request. -/
inductive TaskOp (α : Type) where
  | add (request : TaskAddRequest α)
  | getStatus (request : TaskGetStatusRequest)
  | getOutput (request : TaskGetOutputRequest)
  | getCountByState
  | cancel (request : TaskCancelRequest)
  | getPriority (request : TaskGetPriorityRequest)
  | setPriority (request : TaskSetPriorityRequest α)
  | getWorkerId (request : TaskGetWorkerIdRequest)
  | searchId (request : SearchKeyRequest)
  | get (request : TaskGetRequest)
  | done (request : TaskDoneRequest)

/-- The replies of the task queue, one form per operation. -/
inductive TaskReply (α : Type) where
  | add (result : Result Unit)
  | getStatus (result : Result TaskGetStatusResponse)
  | getOutput (result : Result TaskGetOutputResponse)
  | getCountByState (result : Result TaskGetCountByStateResponse)
  | cancel (result : Result TaskCancelResponse)
  | getPriority (result : Result (TaskGetPriorityResponse α))
  | setPriority (result : Result Unit)
  | getWorkerId (result : Result TaskGetWorkerIdResponse)
  | searchId (result : Result SearchKeyResponse)
  | get (result : Result TaskGetResponse)
  | done (result : Result Unit)

def TaskReply.error {α : Type} : TaskReply α → Option Error
  | .add r => errorOf r
  | .getStatus r => errorOf r
  | .getOutput r => errorOf r
  | .getCountByState r => errorOf r
  | .cancel r => errorOf r
  | .getPriority r => errorOf r
  | .setPriority r => errorOf r
  | .getWorkerId r => errorOf r
  | .searchId r => errorOf r
  | .get r => errorOf r
  | .done r => errorOf r

namespace TaskManager

variable {Q α : Type} [LinearOrder α] [PriorityQueue Q (TaskQueueEntry α) taskQueueEntryOrder]

/-- One call on the task manager, under its lock. -/
def step (re2 : RE2) (m : TaskManager Q α) : TaskOp α → Option (TaskReply α × TaskManager Q α)
  | .add request => do
      let (r, m) ← m.add request
      return (.add r, m)
  | .getStatus request => do
      let r ← m.getStatus request
      return (.getStatus r, m)
  | .getOutput request => do
      let r ← m.getOutput request
      return (.getOutput r, m)
  | .getCountByState => some (.getCountByState m.getCountByState, m)
  | .cancel request => do
      let (r, m) ← m.cancel request
      return (.cancel r, m)
  | .getPriority request => do
      let r ← m.getPriority request
      return (.getPriority r, m)
  | .setPriority request => do
      let (r, m) ← m.setPriority request
      return (.setPriority r, m)
  | .getWorkerId request => do
      let r ← m.getWorkerId request
      return (.getWorkerId r, m)
  | .searchId request => some (.searchId (m.searchId re2 request), m)
  | .get request => do
      let (r, m) ← m.get request
      return (.get r, m)
  | .done request => do
      let (r, m) ← m.done request
      return (.done r, m)

/-- The task manager as a machine, started empty. -/
def machine (Q : Type) {α : Type} [LinearOrder α]
    [PriorityQueue Q (TaskQueueEntry α) taskQueueEntryOrder] (re2 : RE2) :
    Machine (TaskManager Q α) (TaskOp α) (TaskReply α) where
  init := {}
  step := step re2

end TaskManager

end DsService

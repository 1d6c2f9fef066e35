import DsService.Core.TaskManager
import DsService.Lib.Column

/-!
# The task table by rows

`Rows` is a task manager whose twelve columns are read together, as a function from the index to
the `Row` there. `Rows.manager` lays the rows out in columns again, and each helper of the source
that runs on `v.manager` with indices in range is a total function on the rows: `*_manager` are the
equations, and they are the only place where the columns are touched.
-/

namespace DsService

/-- The values of the twelve columns at one index. -/
structure Row (α : Type) where
  taskId : String
  function : String
  input : String
  output : String
  state : TaskState
  workerId : String
  priority : Double α
  queues : List String
  seq : Nat
  pendingParents : Nat
  children : List Nat
  terminalOrigin : Nat

/-- A table whose columns list the fields of `size` rows. -/
def TaskTable.ofRows {α : Type} (size : Nat) (row : Nat → Row α) : TaskTable α where
  taskId := tab size fun i => (row i).taskId
  function := tab size fun i => (row i).function
  input := tab size fun i => (row i).input
  output := tab size fun i => (row i).output
  state := tab size fun i => (row i).state
  workerId := tab size fun i => (row i).workerId
  priority := tab size fun i => (row i).priority
  queues := tab size fun i => (row i).queues
  seq := tab size fun i => (row i).seq
  pendingParents := tab size fun i => (row i).pendingParents
  children := tab size fun i => (row i).children
  terminalOrigin := tab size fun i => (row i).terminalOrigin

/-- A task manager by rows. What `row` says at `size` and above is not part of the table. -/
structure Rows (Q α : Type) where
  size : Nat
  row : Nat → Row α
  taskIndex : HashMap String Nat
  nextSeq : Nat
  queue : HashMap String Q

namespace Rows

variable {Q α : Type}

/-- The task manager whose columns hold the rows. -/
def manager (v : Rows Q α) : TaskManager Q α where
  tasks := .ofRows v.size v.row
  taskIndex := v.taskIndex
  nextSeq := v.nextSeq
  queue := v.queue

/-- Replace one row. -/
def set (v : Rows Q α) (i : Nat) (r : Row α) : Rows Q α :=
  { v with row := Function.update v.row i r }

variable {v : Rows Q α} {i j : Nat}

/-- The number of rows stays. -/
@[simp] theorem set_size (r : Row α) : (v.set i r).size = v.size := rfl

/-- The index stays. -/
@[simp] theorem set_taskIndex (r : Row α) : (v.set i r).taskIndex = v.taskIndex := rfl

/-- The counter stays. -/
@[simp] theorem set_nextSeq (r : Row α) : (v.set i r).nextSeq = v.nextSeq := rfl

/-- The queues stay. -/
@[simp] theorem set_queue (r : Row α) : (v.set i r).queue = v.queue := rfl

/-- The row that is written is read. -/
@[simp] theorem set_row_self (r : Row α) : (v.set i r).row i = r := by simp [set]

/-- One row is written and no other. -/
theorem set_row (r : Row α) : (v.set i r).row j = if j = i then r else v.row j := by
  by_cases h : j = i
  · subst h; simp [set]
  · simp [set, h]

/-- The second of two writes is what is left. -/
@[simp] theorem set_set (r r' : Row α) : (v.set i r).set i r' = v.set i r' := by
  simp [set]

/-! ## Reading a column -/

section read
variable (hi : i < v.size)
include hi

/-- The column of the ids. -/
theorem taskId_manager : v.manager.tasks.taskId[i]? = some (v.row i).taskId := tab.getElem? hi

/-- The column of the functions. -/
theorem function_manager : v.manager.tasks.function[i]? = some (v.row i).function :=
  tab.getElem? hi

/-- The column of the inputs. -/
theorem input_manager : v.manager.tasks.input[i]? = some (v.row i).input := tab.getElem? hi

/-- The column of the outputs. -/
theorem output_manager : v.manager.tasks.output[i]? = some (v.row i).output := tab.getElem? hi

/-- The column of the states. -/
theorem state_manager : v.manager.tasks.state[i]? = some (v.row i).state := tab.getElem? hi

/-- The column of the workers. -/
theorem workerId_manager : v.manager.tasks.workerId[i]? = some (v.row i).workerId :=
  tab.getElem? hi

/-- The column of the priorities. -/
theorem priority_manager : v.manager.tasks.priority[i]? = some (v.row i).priority :=
  tab.getElem? hi

/-- The column of the queue names. -/
theorem queues_manager : v.manager.tasks.queues[i]? = some (v.row i).queues := tab.getElem? hi

/-- The column of the seqs, by which the entries of a queue are told apart. -/
theorem seq_manager : v.manager.tasks.seq[i]? = some (v.row i).seq := tab.getElem? hi

/-- The column of the pending counts. -/
theorem pendingParents_manager :
    v.manager.tasks.pendingParents[i]? = some (v.row i).pendingParents := tab.getElem? hi

/-- The column of the children. -/
theorem children_manager : v.manager.tasks.children[i]? = some (v.row i).children :=
  tab.getElem? hi

/-- The column of the origins. -/
theorem terminalOrigin_manager :
    v.manager.tasks.terminalOrigin[i]? = some (v.row i).terminalOrigin := tab.getElem? hi

/-! ## Writing a column -/

/-- A write in bounds, on the function of the column. -/
theorem vecSet_tab {β : Type} (f : Nat → β) (b : β) :
    vecSet (tab v.size f) i b = some (tab v.size (Function.update f i b)) := by
  simp [vecSet, hi, tab.set]

omit hi in
/-- The columns after one row was replaced. -/
theorem ofRows_set (r : Row α) : (v.set i r).manager.tasks =
    { taskId := tab v.size (Function.update (fun j => (v.row j).taskId) i r.taskId)
      function := tab v.size (Function.update (fun j => (v.row j).function) i r.function)
      input := tab v.size (Function.update (fun j => (v.row j).input) i r.input)
      output := tab v.size (Function.update (fun j => (v.row j).output) i r.output)
      state := tab v.size (Function.update (fun j => (v.row j).state) i r.state)
      workerId := tab v.size (Function.update (fun j => (v.row j).workerId) i r.workerId)
      priority := tab v.size (Function.update (fun j => (v.row j).priority) i r.priority)
      queues := tab v.size (Function.update (fun j => (v.row j).queues) i r.queues)
      seq := tab v.size (Function.update (fun j => (v.row j).seq) i r.seq)
      pendingParents :=
        tab v.size (Function.update (fun j => (v.row j).pendingParents) i r.pendingParents)
      children := tab v.size (Function.update (fun j => (v.row j).children) i r.children)
      terminalOrigin :=
        tab v.size (Function.update (fun j => (v.row j).terminalOrigin) i r.terminalOrigin) } := by
  simp only [manager, set, TaskTable.ofRows, tab.field_update]

omit hi in
/-- Replacing a row leaves everything outside the table. -/
theorem manager_set (r : Row α) :
    (v.set i r).manager = { v.manager with tasks := (v.set i r).manager.tasks } := rfl

/-- A write of an output, by rows. -/
theorem setOutput_manager (a : String) : v.manager.setOutput i a =
    some (v.set i { v.row i with output := a }).manager := by
  rw [manager_set, ofRows_set]
  simp [TaskManager.setOutput, manager, TaskTable.ofRows, vecSet_tab hi]

/-- A write of a state, by rows. -/
theorem setState_manager (a : TaskState) : v.manager.setState i a =
    some (v.set i { v.row i with state := a }).manager := by
  rw [manager_set, ofRows_set]
  simp [TaskManager.setState, manager, TaskTable.ofRows, vecSet_tab hi]

/-- A write of a worker, by rows. -/
theorem setWorkerId_manager (a : String) : v.manager.setWorkerId i a =
    some (v.set i { v.row i with workerId := a }).manager := by
  rw [manager_set, ofRows_set]
  simp [TaskManager.setWorkerId, manager, TaskTable.ofRows, vecSet_tab hi]

/-- A write of a priority, by rows. -/
theorem setPriorityColumn_manager (a : Double α) : v.manager.setPriorityColumn i a =
    some (v.set i { v.row i with priority := a }).manager := by
  rw [manager_set, ofRows_set]
  simp [TaskManager.setPriorityColumn, manager, TaskTable.ofRows, vecSet_tab hi]

/-- A write of a seq, by rows. -/
theorem setSeq_manager (a : Nat) : v.manager.setSeq i a =
    some (v.set i { v.row i with seq := a }).manager := by
  rw [manager_set, ofRows_set]
  simp [TaskManager.setSeq, manager, TaskTable.ofRows, vecSet_tab hi]

/-- A write of a pending count, by rows. -/
theorem setPendingParents_manager (a : Nat) : v.manager.setPendingParents i a =
    some (v.set i { v.row i with pendingParents := a }).manager := by
  rw [manager_set, ofRows_set]
  simp [TaskManager.setPendingParents, manager, TaskTable.ofRows, vecSet_tab hi]

/-- A write of a list of children, by rows. -/
theorem setChildren_manager (a : List Nat) : v.manager.setChildren i a =
    some (v.set i { v.row i with children := a }).manager := by
  rw [manager_set, ofRows_set]
  simp [TaskManager.setChildren, manager, TaskTable.ofRows, vecSet_tab hi]

/-- A write of an origin, by rows. -/
theorem setTerminalOrigin_manager (a : Nat) : v.manager.setTerminalOrigin i a =
    some (v.set i { v.row i with terminalOrigin := a }).manager := by
  rw [manager_set, ofRows_set]
  simp [TaskManager.setTerminalOrigin, manager, TaskTable.ofRows, vecSet_tab hi]

end read

/-! ## Appending a row -/

/-- The table with one more row, known to the index under its id. -/
def snoc (v : Rows Q α) (r : Row α) : Rows Q α :=
  { v with
    size := v.size + 1
    row := Function.update v.row v.size r
    taskIndex := v.taskIndex.insert r.taskId v.size }

/-- The twelve `push_back`s of an add are one row more, which has no worker and no children yet. -/
theorem pushRow_manager (request : TaskAddRequest α) (output : String) (state : TaskState)
    (pendingParents origin : Nat) :
    v.manager.pushRow request output state pendingParents origin =
      (v.snoc
        { taskId := request.taskId, function := request.function, input := request.input,
          output := output, state := state, workerId := "", priority := request.priority,
          queues := request.queue, seq := 0, pendingParents := pendingParents, children := [],
          terminalOrigin := origin }).manager := by
  simp [TaskManager.pushRow, manager, snoc, TaskTable.ofRows, tab.append, tab.field_update]

/-! ## Entering the queues -/

variable [LinearOrder α] [PriorityQueue Q (TaskQueueEntry α) taskQueueEntryOrder]

/-- Push one entry into each of the named queues. -/
def pushAll (queue : HashMap String Q) (qnames : List String) (entry : TaskQueueEntry α) :
    HashMap String Q :=
  qnames.foldl (fun queue qname => TaskManager.push queue qname entry) queue

/-- `enqueue` by rows: a fresh seq, and an entry under it in each queue of the row. -/
def enqueue (v : Rows Q α) (i : Nat) : Rows Q α :=
  { v.set i { v.row i with seq := v.nextSeq + 1 } with
    nextSeq := v.nextSeq + 1
    queue := pushAll v.queue (v.row i).queues ⟨(v.row i).priority, v.nextSeq + 1, i⟩ }

/-- The loop of `enqueue` pushes one and the same entry, since it writes no column. -/
theorem pushLoop_manager (qnames : List String) : ∀ {v : Rows Q α}, i < v.size →
    qnames.foldlM (fun m qname => do
        let priority ← m.tasks.priority[i]?
        let seq ← m.tasks.seq[i]?
        return { m with queue := TaskManager.push m.queue qname ⟨priority, seq, i⟩ }) v.manager =
      some (manager { v with
        queue := pushAll v.queue qnames ⟨(v.row i).priority, (v.row i).seq, i⟩ }) := by
  induction qnames with
  | nil => intro v _; rfl
  | cons qname rest ih =>
      intro v hi
      rw [List.foldlM_cons, priority_manager hi, seq_manager hi]
      exact ih (v := { v with
        queue := TaskManager.push v.queue qname ⟨(v.row i).priority, (v.row i).seq, i⟩ }) hi

/-- `enqueue` writes the seq, and then makes its pushes. -/
theorem enqueue_manager (hi : i < v.size) :
    v.manager.enqueue i = some (v.enqueue i).manager := by
  let w : Rows Q α := { v with nextSeq := v.nextSeq + 1 }
  let w' : Rows Q α := w.set i { v.row i with seq := v.nextSeq + 1 }
  have hseq : w.manager.setSeq i (v.nextSeq + 1) = some w'.manager :=
    setSeq_manager (v := w) hi _
  have hqueues : w'.manager.tasks.queues[i]? = some (v.row i).queues := by
    rw [queues_manager (v := w') hi, set_row_self]
  unfold TaskManager.enqueue
  change (w.manager.setSeq i (v.nextSeq + 1)).bind _ = _
  rw [hseq, Option.bind_some]
  change (w'.manager.tasks.queues[i]?).bind _ = _
  rw [hqueues, Option.bind_some]
  refine (pushLoop_manager _ (v := w') hi).trans ?_
  simp [w', w, enqueue, set]

end Rows

end DsService

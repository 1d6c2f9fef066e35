import DsService.Core.SystemState
import DsService.Store.Calls
import DsService.Task.Determined
import DsService.Task.Refusal
import DsService.Task.Schedule

/-!
# A refused call is invisible

A refused call leaves the state of the server as it was, except that a `task_get` that finds nothing
has popped the dead entries of the queues it tried. States that differ so represent one task graph
(`Alike`), and a task graph of numbers decides every later reply (`bisimulation`). So no later
sequence of calls can tell whether the refused call was made.
-/

namespace DsService

variable {Q α : Type} [LinearOrder α] [PriorityQueue Q (TaskQueueEntry α) taskQueueEntryOrder]

/-- The call sets no priority to NaN. -/
def SystemOp.numeric : SystemOp α → Bool
  | .taskManager op => op.numeric
  | _ => true

namespace SystemState

/-- The replies that report no effect: an error, a `task_cancel` or a `mutex_try_acquire` without
success, and a `task_done` on a canceled task. -/
def Refuses (m : SystemState Q α) (op : SystemOp α) (r : SystemReply α) : Prop :=
  r.error.isSome = true ∨ r = .mutexes (.tryAcquire (.ok ⟨false⟩)) ∨
    r = .taskManager (.cancel (.ok ⟨false⟩)) ∨
    r = .taskManager (.done (.ok ())) ∧ ∃ request, op = .taskManager (.done request) ∧
      m.taskManager.statusOf request.taskId = some .canceled

/-- Two states that differ in the task manager only, where they represent one graph of numbers. -/
def Alike (m₁ m₂ : SystemState Q α) : Prop :=
  m₁ = { m₂ with taskManager := m₁.taskManager } ∧
    ∃ s : TaskGraph α, m₁.taskManager.Represents s ∧ m₂.taskManager.Represents s ∧ s.AllNumeric

variable {re2 : RE2} {iso : Iso8601} {m m' : SystemState Q α}

/-- An empty server is like itself. -/
theorem alike_init : Alike ({} : SystemState Q α) {} := by
  have hinit : ({} : TaskManager Q α).Represents TaskGraph.empty := ⟨.empty, _, rfl, .empty⟩
  exact ⟨rfl, _, hinit, hinit, .empty⟩

/-- **No call tells apart two states that are alike**, and none makes them differ. -/
theorem bisimulation (re2 : RE2) (iso : Iso8601) :
    Machine.Bisimulation (machine Q re2 iso) (fun op : SystemOp α => op.numeric = true) Alike where
  step {m₁ m} op hop h := by
    obtain ⟨hm, s, hrep₁, hrep, hnum⟩ := h
    obtain ⟨t, rfl⟩ : ∃ t, m₁ = { m with taskManager := t } := ⟨_, hm⟩
    have hsmall : ∀ (r : SystemReply α) (m' : SystemState Q α),
        step re2 iso m op = some (r, m') →
        step re2 iso { m with taskManager := t } op = some (r, { m' with taskManager := t }) →
        m'.taskManager = m.taskManager →
        ∃ r m₁' m₂', (machine Q re2 iso).step { m with taskManager := t } op = some (r, m₁') ∧
          (machine Q re2 iso).step m op = some (r, m₂') ∧ Alike m₁' m₂' := by
      intro r m' hs hs₁ htm
      exact ⟨r, _, _, hs₁, hs, rfl, s, hrep₁, htm ▸ hrep, hnum⟩
    cases op with
    | map op =>
        obtain ⟨r, map, hs⟩ := m.map.step_defined re2 op
        exact hsmall (.map r) { m with map := map }
          (by simp [step, hs]) (by simp [step, hs]) rfl
    | journalMap op =>
        obtain ⟨r, journalMap, hs⟩ := m.journalMap.step_defined re2 op
        exact hsmall (.journalMap r) { m with journalMap := journalMap }
          (by simp [step, hs]) (by simp [step, hs]) rfl
    | timeSeries op =>
        obtain ⟨r, timeSeries, hs⟩ := m.timeSeries.step_defined re2 iso op
        exact hsmall (.timeSeries r) { m with timeSeries := timeSeries }
          (by simp [step, hs]) (by simp [step, hs]) rfl
    | mutexes op =>
        obtain ⟨r, mutexes, hs⟩ := m.mutexes.step_defined re2 op
        exact hsmall (.mutexes r) { m with mutexes := mutexes }
          (by simp [step, hs]) (by simp [step, hs]) rfl
    | counters op =>
        obtain ⟨r, counters, hs⟩ := m.counters.step_defined re2 op
        exact hsmall (.counters r) { m with counters := counters }
          (by simp [step, hs]) (by simp [step, hs]) rfl
    | taskManager op =>
        have hsim := TaskManager.simulation (Q := Q) (α := α) re2
        obtain ⟨r₁, t₁, s₁, hs₁, hserve₁, hrep₁'⟩ := hsim.step op hrep₁
        obtain ⟨r₂, t₂, s₂, hs₂, hserve₂, hrep₂'⟩ := hsim.step op hrep
        obtain ⟨rfl, rfl⟩ := TaskGraph.Serves.unique hnum.log hserve₁ hserve₂
        have hs₁' : TaskManager.step re2 t op = some (r₁, t₁) := hs₁
        have hs₂' : m.taskManager.step re2 op = some (r₁, t₂) := hs₂
        exact ⟨.taskManager r₁, { m with taskManager := t₁ }, { m with taskManager := t₂ },
          by simp [machine, step, hs₁'], by simp [machine, step, hs₂'], rfl, s₁, hrep₁', hrep₂',
          hserve₁.change.numeric hop hnum⟩

variable {op : SystemOp α} {r : SystemReply α}

omit [LinearOrder α] [PriorityQueue Q (TaskQueueEntry α) taskQueueEntryOrder] in
/-- A refusal by a store other than the mutexes and the tasks is an error. -/
theorem Refuses.error (h : m.Refuses op r) (hmutex : ∀ reply, r ≠ .mutexes reply)
    (htask : ∀ reply, r ≠ .taskManager reply) : r.error.isSome = true := by
  rcases h with hr | hr | hr | ⟨hr, -⟩
  · exact hr
  · exact absurd hr (hmutex _)
  · exact absurd hr (htask _)
  · exact absurd hr (htask _)

omit [LinearOrder α] [PriorityQueue Q (TaskQueueEntry α) taskQueueEntryOrder] in
/-- A refusal by the mutexes is an error, or an acquire that fails. -/
theorem Refuses.mutexes {reply : MutexReply} (h : m.Refuses op (.mutexes reply)) :
    reply.error.isSome = true ∨ reply = .tryAcquire (.ok ⟨false⟩) := by
  rcases h with hr | hr | hr | ⟨hr, -⟩
  · exact .inl hr
  · cases hr; exact .inr rfl
  · cases hr
  · cases hr

omit [LinearOrder α] [PriorityQueue Q (TaskQueueEntry α) taskQueueEntryOrder] in
/-- A refusal by the task manager is one of the server. -/
theorem Refuses.taskManager {op : TaskOp α} {reply : TaskReply α}
    (h : m.Refuses (.taskManager op) (.taskManager reply)) : m.taskManager.Refuses op reply := by
  rcases h with hr | hr | hr | ⟨hr, request, hop, hst⟩
  · exact .inl hr
  · cases hr
  · cases hr; exact .inr (.inl rfl)
  · cases hr; cases hop; exact .inr (.inr ⟨rfl, request, rfl, hst⟩)

/-- **A refused call other than `task_get` returns the state it was given.** -/
theorem step_refused (hs : step re2 iso m op = some (r, m')) (hr : m.Refuses op r)
    (hget : ∀ request, op ≠ .taskManager (.get request)) : m' = m := by
  cases step_served hs with
  | map hmap =>
      have herror := hr.error (fun _ h => by cases h) fun _ h => by cases h
      rw [Map.step_refused hmap herror]
  | journalMap hjournal =>
      have herror := hr.error (fun _ h => by cases h) fun _ h => by cases h
      rw [JournalMap.step_refused hjournal herror]
  | timeSeries hseries =>
      have herror := hr.error (fun _ h => by cases h) fun _ h => by cases h
      rw [TimeSeriesMap.step_refused hseries herror]
  | mutexes hmutex => rw [Mutexes.step_refused hmutex hr.mutexes]
  | counters hcounter =>
      have herror := hr.error (fun _ h => by cases h) fun _ h => by cases h
      rw [Counters.step_refused hcounter herror]
  | taskManager htask =>
      rw [TaskManager.step_refused htask hr.taskManager fun request hop =>
        hget request (by rw [hop])]

omit [PriorityQueue Q (TaskQueueEntry α) taskQueueEntryOrder] in
/-- A refused `task_get` leaves the graph. -/
theorem serves_get_refused {s s' : TaskGraph α} {request : TaskGetRequest} {r : TaskReply α}
    (h : s.Serves re2 (.get request) r s') (hr : m.taskManager.Refuses (.get request) r) :
    s' = s := by
  cases h with
  | read hread => cases hread
  | get hget =>
      cases hget with
      | claim _ _ _ _ => rcases hr with hr | hr | ⟨hr, -⟩ <;> cases hr
      | none _ => rfl

/-- **A refused call leads to a state that is alike.** -/
theorem Alike.refused (h : Alike m m) (hs : step re2 iso m op = some (r, m'))
    (hr : m.Refuses op r) : Alike m' m := by
  by_cases hget : ∃ request, op = .taskManager (.get request)
  · obtain ⟨request, rfl⟩ := hget
    obtain ⟨-, s, hrep, -, hnum⟩ := h
    cases step_served hs with
    | @taskManager _ reply taskManager htask =>
        have hget : (TaskManager.machine Q re2).step m.taskManager (.get request) =
            some (reply, taskManager) := htask
        obtain ⟨s', hserve, hrep'⟩ := (TaskManager.simulation re2).serves hrep hget
        rw [serves_get_refused hserve hr.taskManager] at hrep'
        exact ⟨rfl, s, hrep', hrep, hnum⟩
  · rw [step_refused hs hr fun request hop => hget ⟨request, hop⟩]
    exact h

end SystemState

/-- **A refused call is invisible.** In every state that the server reaches without a priority that
is NaN, a call that is answered with an error, a `task_cancel` or `mutex_try_acquire` without
success and a `task_done` on a canceled task change no later reply: every later sequence of calls,
none of which sets a priority to NaN, is answered as it would have been without the refused call. -/
theorem refused_call_is_invisible {re2 : RE2} {iso : Iso8601}
    {es : List (Machine.Event (SystemState Q α) (SystemOp α) (SystemReply α))}
    {m m' : SystemState Q α} {op : SystemOp α} {r : SystemReply α}
    (h : (SystemState.machine Q re2 iso).Run es m) (hnum : ∀ e ∈ es, e.op.numeric = true)
    (hs : (SystemState.machine Q re2 iso).step m op = some (r, m')) (hr : m.Refuses op r)
    (ops : List (SystemOp α)) (hops : ∀ op ∈ ops, op.numeric = true) :
    ∃ rs, (SystemState.machine Q re2 iso).replies m' ops = some rs ∧
      (SystemState.machine Q re2 iso).replies m ops = some rs := by
  have hbisim := SystemState.bisimulation (Q := Q) (α := α) re2 iso
  have hself : m.Alike m := hbisim.run SystemState.alike_init h hnum
  exact hbisim.replies_eq ops hops (hself.refused hs hr)

/-- A clock that reads and writes one instant. -/
def sampleIso : Iso8601 where
  parse text := if text = "1970-01-01T00:00:00Z" then some 0 else none
  format _ := "1970-01-01T00:00:00Z"

/-- A server that can be run. -/
abbrev sampleServer : Machine (SystemState (ListQueue (taskQueueEntryOrder (α := Nat))) Nat)
    (SystemOp Nat) (SystemReply Nat) :=
  SystemState.machine _ sampleRe2 sampleIso

/-- A queue with the entry of a task that has been canceled. -/
def staleQueue : List (SystemOp Nat) :=
  [.taskManager (.add ⟨"a", [], ["q"], .num 1, "f", "1"⟩), .taskManager (.cancel ⟨"a"⟩)]

/-- A `task_get` that pops this entry and finds nothing. -/
def emptyGet : SystemOp Nat := .taskManager (.get ⟨"w", ["q"]⟩)

/-- Calls that look at the queue and at the canceled task again. -/
def afterStale : List (SystemOp Nat) :=
  [.taskManager (.setPriority ⟨"a", .num 2⟩),
    .taskManager (.add ⟨"b", [], ["q"], .num 0, "f", "2"⟩),
    .taskManager (.get ⟨"w", ["q"]⟩), .taskManager (.get ⟨"w", ["q"]⟩)]

/-- A `task_get` that throws a stale entry away on its way to `NotFound`. -/
theorem refused_call_is_invisible_stale :
    ∃ rs, sampleServer.replies (sampleServer.runOf (staleQueue ++ [emptyGet])).2 afterStale =
        some rs ∧
      sampleServer.replies (sampleServer.runOf staleQueue).2 afterStale = some rs := by
  have hs : sampleServer.step (sampleServer.runOf staleQueue).2 emptyGet =
      some (.taskManager (.get (makeError .notFound "No tasks available.")),
        (sampleServer.runOf (staleQueue ++ [emptyGet])).2) := rfl
  exact refused_call_is_invisible (Machine.run_runOf staleQueue rfl) (by decide) hs (.inl rfl)
    afterStale (by decide)

end DsService

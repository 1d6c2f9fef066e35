import DsService.System.Keys
import DsService.Task.Claim

/-!
# When a call is refused

`SystemOp.Refused` lists every refusal of the server core with its code, in terms of what earlier
calls did: which keys and ids they wrote, which mutexes and tasks they took, and what
`task_get_status` reports. `refused_iff` says that the list is exact, after every run.
-/

namespace DsService

variable {Q α : Type}

/-! ## The small structures -/

/-- The pattern does not compile. -/
def RE2.Rejects (re2 : RE2) (pattern : String) : Prop := ∃ error, re2.compile pattern = .error error

/-- The time bound is neither absent nor empty, and does not parse. -/
def Iso8601.Rejects (iso : Iso8601) (bound : Option String) : Prop :=
  ∃ text, bound = some text ∧ text ≠ "" ∧ iso.parse text = none

section
variable {re2 : RE2} {iso : Iso8601} {code : ErrorCode}

/-- A value refuses nothing. -/
theorem refusalCode_ok {T : Type} (value : T) : refusalCode (.ok value : Result T) = some code ↔
    False :=
  ⟨nofun, nofun⟩

/-- The code of a refusal is that of its error. -/
theorem refusalCode_error {T : Type} (error : Error) :
    refusalCode (.error error : Result T) = some code ↔ code = error.code := by
  simp [refusalCode, errorOf, eq_comm]

/-- The code of the error that a reply shows. -/
theorem map_errorOf {T : Type} (r : Result T) : (errorOf r).map Error.code = refusalCode r := rfl

/-- What is not refused has no code. -/
theorem no_error : (none : Option Error).map Error.code = some code ↔ False := by simp

/-- A search is refused for its pattern only. -/
theorem searchKeys_code (keys : List String) (request : SearchKeyRequest) :
    refusalCode (searchKeys re2 keys request) = some code ↔
      code = .invalidArgument ∧ re2.Rejects request.pattern := by
  unfold searchKeys RE2.Rejects
  cases re2.compile request.pattern with
  | error error => simp [makeError, refusalCode_error]
  | ok pattern => simp [refusalCode_ok]

/-- A get is refused exactly if the key was never set. -/
theorem Map.get_code (self : Map) (request : MapGetRequest) :
    refusalCode (self.get request) = some code ↔
      code = .notFound ∧ request.key ∉ self.data.keys := by
  unfold get
  rw [← AList.mem_keys, ← AList.lookup_eq_none]
  cases self.data.lookup request.key with
  | none => simp [makeError, refusalCode_error]
  | some value => simp [refusalCode_ok]

/-- A read of a journal is never refused. -/
theorem JournalMap.read_ok {self : JournalMap} {request : JournalReadRequest}
    {r : Result JournalReadResponse} (h : self.read request = some r) :
    ∃ response, r = .ok response := by
  unfold read at h
  split at h
  · cases h
    exact ⟨_, rfl⟩
  · obtain ⟨entry, -, heq⟩ := Option.bind_eq_some_iff.1 h
    cases heq
    exact ⟨_, rfl⟩

/-- An append is refused for its datetime only. -/
theorem TimeSeriesMap.append_code (self : TimeSeriesMap α) (request : TimeSeriesAppendRequest α) :
    refusalCode (self.append iso request).1 = some code ↔
      code = .invalidArgument ∧ iso.parse request.datetime = none := by
  unfold append
  cases iso.parse request.datetime with
  | none => simp [makeError, refusalCode_error]
  | some tp => simp [refusalCode_ok]

/-- A bound is refused exactly if it is there and cannot be parsed. -/
theorem TimeSeriesMap.timeBound_code (field : String) (bound : Option String) :
    refusalCode (timeBound iso field bound) = some code ↔
      code = .invalidArgument ∧ iso.Rejects bound := by
  unfold timeBound Iso8601.Rejects
  cases bound with
  | none => simp [refusalCode_ok]
  | some text =>
    by_cases htext : text = ""
    · simp [htext, refusalCode_ok]
    · cases hparse : iso.parse text with
      | none => simp [htext, hparse, makeError, refusalCode_error]
      | some tp => simp [htext, hparse, refusalCode_ok]

/-- A bound that was read is one that is accepted. -/
theorem TimeSeriesMap.timeBound_accepts {field : String} {bound : Option String} {tp : Option Int}
    (h : timeBound iso field bound = .ok tp) : ¬ iso.Rejects bound := by
  intro hrejects
  have hcode := (timeBound_code field bound).2 ⟨rfl, hrejects⟩
  rw [h] at hcode
  cases hcode

/-- The error of a bound, in the form that the get passes it on. -/
theorem TimeSeriesMap.timeBound_rejects {field : String} {bound : Option String} {error : Error}
    (h : timeBound iso field bound = .error error) :
    error.code = .invalidArgument ∧ iso.Rejects bound := by
  have hcode : refusalCode (timeBound iso field bound) = some error.code := by
    rw [h]
    rfl
  exact (timeBound_code field bound).1 hcode

/-- A get is refused for one of its bounds only, and so with the same code for both. -/
theorem TimeSeriesMap.get_code {self : TimeSeriesMap α} {request : TimeSeriesGetRequest}
    {r : Result (TimeSeriesGetResponse α)} (h : self.get iso request = some r) :
    refusalCode r = some code ↔
      code = .invalidArgument ∧ (iso.Rejects request.startTime ∨ iso.Rejects request.endTime) := by
  unfold get at h
  cases hstart : timeBound iso "start_time" request.startTime with
  | error error =>
    rw [hstart] at h
    cases h
    obtain ⟨hcode, hrejects⟩ := timeBound_rejects hstart
    simp [refusalCode_error, hcode, hrejects]
  | ok startTime =>
    have hnstart := timeBound_accepts hstart
    rw [hstart] at h
    dsimp only at h
    cases hend : timeBound iso "end_time" request.endTime with
    | error error =>
      rw [hend] at h
      cases h
      obtain ⟨hcode, hrejects⟩ := timeBound_rejects hend
      simp [refusalCode_error, hcode, hrejects]
    | ok endTime =>
      have hnend := timeBound_accepts hend
      have hok : ∃ points, r = .ok points := by
        rw [hend] at h
        dsimp only at h
        cases hl : self.data.lookup request.key with
        | none =>
          rw [hl] at h
          cases h
          exact ⟨_, rfl⟩
        | some series =>
          rw [hl] at h
          obtain ⟨points, -, heq⟩ := Option.bind_eq_some_iff.1 h
          cases heq
          exact ⟨_, rfl⟩
      obtain ⟨points, rfl⟩ := hok
      simp [refusalCode_ok, hnstart, hnend]

/-- A release is refused to everybody but the holder, with one code for every reason. -/
theorem Mutexes.release_code (self : Mutexes) (request : MutexReleaseRequest) :
    refusalCode (self.release request).1 = some code ↔
      code = .failedPrecondition ∧
        self.data.lookup request.key ≠ some ⟨true, request.workerId⟩ := by
  unfold release
  cases self.data.lookup request.key with
  | none => simp [makeError, refusalCode_error]
  | some mutex =>
    obtain ⟨held, workerId⟩ := mutex
    cases held with
    | false => simp [makeError, refusalCode_error]
    | true =>
      by_cases hw : workerId = request.workerId
      · simp [hw, refusalCode_ok]
      · simp [hw, makeError, refusalCode_error]

/-- A mutex that is missing and one that is free are told apart by the code. -/
theorem Mutexes.getWorkerId_code (self : Mutexes) (request : MutexGetWorkerIdRequest) :
    refusalCode (self.getWorkerId request) = some code ↔
      code = .notFound ∧ request.key ∉ self.data.keys ∨
        code = .failedPrecondition ∧ request.key ∈ self.data.keys ∧
          ∀ w, self.data.lookup request.key ≠ some ⟨true, w⟩ := by
  unfold getWorkerId
  rw [← AList.mem_keys, ← AList.lookup_eq_none, ← AList.lookup_isSome]
  cases self.data.lookup request.key with
  | none => simp [makeError, refusalCode_error]
  | some mutex =>
    obtain ⟨held, workerId⟩ := mutex
    cases held with
    | false => simp [makeError, refusalCode_error]
    | true => simp [refusalCode_ok]

end

/-! ## The tasks -/

namespace TaskGraph

variable {re2 : RE2} {s s' : TaskGraph α} {code : ErrorCode}

/-- The refusals of the task manager, by its graph. -/
def Refuses (re2 : RE2) (s : TaskGraph α) : TaskOp α → ErrorCode → Prop
  | .add request, code =>
      code = .alreadyExists ∧ s.find? request.taskId ≠ none ∨
        code = .notFound ∧ s.find? request.taskId = none ∧
          ∃ p ∈ request.parentTaskIds, s.find? p = none
  | .getOutput request, code => code = .notFound ∧ s.find? request.taskId = none
  | .cancel request, code => code = .notFound ∧ s.find? request.taskId = none
  | .getPriority request, code => code = .notFound ∧ s.find? request.taskId = none
  | .setPriority request, code => code = .notFound ∧ s.find? request.taskId = none
  | .getWorkerId request, code =>
      code = .notFound ∧ s.find? request.taskId = none ∨
        code = .failedPrecondition ∧
          ∃ i, s.find? request.taskId = some i ∧ (s.task i).state ≠ .running
  | .searchId request, code => code = .invalidArgument ∧ re2.Rejects request.pattern
  | .get request, code => code = .notFound ∧ ∀ q ∈ request.queue, ∀ i, ¬ s.Offers q i
  | .done request, code =>
      code = .notFound ∧ s.find? request.taskId = none ∨
        code = .failedPrecondition ∧
          ∃ i, s.find? request.taskId = some i ∧ (s.task i).state ≠ .canceled ∧
            ((s.task i).state = .running → (s.task i).workerId ≠ request.workerId)
  | .getStatus _, _ | .getCountByState, _ => False

/-- Ids fail to resolve at one that does not exist. -/
theorem resolve_error {ids : List String} :
    (∃ t, s.resolve ids = .error t) ↔ ∃ p ∈ ids, s.find? p = none := by
  induction ids with
  | nil => simp [resolve]
  | cons p ids ih =>
    cases hp : s.find? p with
    | none => simp [resolve, hp]
    | some i =>
      have hnext : (∃ t, s.resolve (p :: ids) = .error t) ↔ ∃ t, s.resolve ids = .error t := by
        simp only [resolve, hp]
        cases s.resolve ids with
        | error t => exact Iff.rfl
        | ok is => simp
      rw [hnext, ih]
      simp [hp]

/-- An add is refused for its id, or for a parent that is missing. -/
theorem serveAdd_code (s : TaskGraph α) (request : TaskAddRequest α) :
    refusalCode (s.serveAdd request).1 = some code ↔ s.Refuses re2 (.add request) code := by
  unfold serveAdd
  cases hf : s.find? request.taskId with
  | some i => simp [Refuses, hf, makeError, refusalCode_error]
  | none =>
    simp only [Refuses, hf, ← resolve_error]
    cases s.resolve request.parentTaskIds with
    | error parentTaskId => simp [makeError, refusalCode_error]
    | ok parents => simp [refusalCode_ok]

/-- A cancel is refused for a missing task only. -/
theorem serveCancel_code (s : TaskGraph α) (request : TaskCancelRequest) :
    refusalCode (s.serveCancel request).1 = some code ↔ s.Refuses re2 (.cancel request) code := by
  unfold serveCancel
  cases hf : s.find? request.taskId with
  | none => simp [Refuses, hf, TaskManager.taskNotFound, makeError, refusalCode_error]
  | some i =>
    simp only [Refuses, hf]
    split <;> simp [refusalCode_ok]

/-- A new priority is refused for a missing task only. -/
theorem serveSetPriority_code (s : TaskGraph α) (request : TaskSetPriorityRequest α) :
    refusalCode (s.serveSetPriority request).1 = some code ↔
      s.Refuses re2 (.setPriority request) code := by
  unfold serveSetPriority
  cases hf : s.find? request.taskId with
  | none => simp [Refuses, hf, TaskManager.taskNotFound, makeError, refusalCode_error]
  | some i => simp [Refuses, hf, refusalCode_ok]

/-- A report is refused to everybody but the worker of a running task, unless the task is
`Canceled`. -/
theorem serveDone_code (s : TaskGraph α) (request : TaskDoneRequest) :
    refusalCode (s.serveDone request).1 = some code ↔ s.Refuses re2 (.done request) code := by
  unfold serveDone
  cases hf : s.find? request.taskId with
  | none => simp [Refuses, hf, TaskManager.taskNotFound, makeError, refusalCode_error]
  | some i =>
    simp only [Refuses, hf]
    by_cases hcanceled : (s.task i).state = .canceled
    · simp [hcanceled, refusalCode_ok]
    by_cases hrunning : (s.task i).state = .running
    · by_cases hworker : (s.task i).workerId = request.workerId
      · cases request.failed <;> simp [hrunning, hworker, refusalCode_ok]
      · simp [hrunning, hworker, makeError, refusalCode_error]
    · simp [hcanceled, hrunning, makeError, refusalCode_error]

/-- What only reads is refused for a missing task, for one that does not run, or for the pattern. -/
theorem serveRead_code {op : TaskOp α} {r : TaskReply α} (h : s.serveRead re2 op = some r) :
    r.error.map Error.code = some code ↔ s.Refuses re2 op code := by
  cases op with
  | getStatus request =>
    cases h
    exact no_error
  | getOutput request =>
    simp only [serveRead] at h
    cases hf : s.find? request.taskId with
    | none =>
      rw [hf] at h
      cases h
      simp only [TaskReply.error, map_errorOf]
      simp [Refuses, hf, TaskManager.taskNotFound, makeError, refusalCode_error]
    | some i =>
      rw [hf] at h
      cases h
      simp only [TaskReply.error, map_errorOf]
      simp [Refuses, hf, refusalCode_ok]
  | getCountByState =>
    cases h
    exact no_error
  | getPriority request =>
    simp only [serveRead] at h
    cases hf : s.find? request.taskId with
    | none =>
      rw [hf] at h
      cases h
      simp only [TaskReply.error, map_errorOf]
      simp [Refuses, hf, TaskManager.taskNotFound, makeError, refusalCode_error]
    | some i =>
      rw [hf] at h
      cases h
      simp only [TaskReply.error, map_errorOf]
      simp [Refuses, hf, refusalCode_ok]
  | getWorkerId request =>
    simp only [serveRead] at h
    cases hf : s.find? request.taskId with
    | none =>
      rw [hf] at h
      cases h
      simp only [TaskReply.error, map_errorOf]
      simp [Refuses, hf, TaskManager.taskNotFound, makeError, refusalCode_error]
    | some i =>
      rw [hf] at h
      dsimp only at h
      split at h
      · next hrunning =>
        cases h
        simp only [TaskReply.error, map_errorOf]
        simp [Refuses, hf, hrunning, makeError, refusalCode_error]
      · next hrunning =>
        cases h
        simp only [TaskReply.error, map_errorOf]
        simp [Refuses, hf, not_not.1 hrunning, refusalCode_ok]
  | searchId request =>
    cases h
    exact searchKeys_code _ request
  | _ => cases h

/-- The refusals are exact. -/
theorem Serves.refuses [LinearOrder α] {op : TaskOp α} {r : TaskReply α}
    (h : s.Serves re2 op r s') : r.error.map Error.code = some code ↔ s.Refuses re2 op code := by
  cases h with
  | read h => exact serveRead_code h
  | add request => exact s.serveAdd_code request
  | cancel request => exact s.serveCancel_code request
  | setPriority request => exact s.serveSetPriority_code request
  | get h =>
    cases h with
    | claim hq _ hi _ =>
      simp only [TaskReply.error, map_errorOf, refusalCode_ok]
      refine ⟨nofun, fun ⟨_, hnone⟩ => hnone _ ?_ _ hi⟩
      rw [hq]
      simp
    | none hnone =>
      simp only [TaskReply.error, map_errorOf, makeError, refusalCode_error]
      exact ⟨fun hcode => ⟨hcode, hnone⟩, And.left⟩
  | done request => exact s.serveDone_code request

end TaskGraph

/-! ## The server -/

/-- The request of a successful `task_add`. -/
def SystemOp.added (op : SystemOp α) (r : SystemReply α) : Option (TaskAddRequest α) :=
  (op.taskCall r).bind fun c => c.1.added c.2

/-- The task that a `task_get` returned, with the worker that asked. -/
def SystemOp.claimed (op : SystemOp α) (r : SystemReply α) : Option (String × String) :=
  (op.taskCall r).bind fun c => c.1.claimed c.2

/-- The `task_add` of this task named the queue. -/
def ListedOn (es : List (SystemEvent Q α)) (q t : String) : Prop :=
  ∃ e ∈ es, ∃ request, e.op.added e.reply = some request ∧ request.taskId = t ∧ q ∈ request.queue

/-- A `task_get` returned the task to this worker. -/
def HandedTo (es : List (SystemEvent Q α)) (t w : String) : Prop :=
  ∃ e ∈ es, e.op.claimed e.reply = some (t, w)

/-- The call on the mutexes that a call on the server is. -/
def SystemOp.mutexCall : SystemOp α → SystemReply α → Option (MutexOp × MutexReply)
  | .mutexes op, .mutexes r => some (op, r)
  | _, _ => none

/-- The turn of the mutex `k` that a call is. -/
def SystemOp.turn (k : String) (op : SystemOp α) (r : SystemReply α) : Option Turn :=
  (op.mutexCall r).bind fun c => c.1.turn k c.2

/-- The latest acquire or release of the mutex is an acquire by this worker. -/
def HeldBy (es : List (SystemEvent Q α)) (k w : String) : Prop :=
  Machine.Latest (fun e => e.op.turn k e.reply) es (.acquired w)

/-- Every refusal of the server, by what the calls before it did. -/
def SystemOp.Refused (re2 : RE2) (iso : Iso8601) (es : List (SystemEvent Q α))
    (m : SystemState Q α) : SystemOp α → ErrorCode → Prop
  | .map (.get request), code => code = .notFound ∧ ¬ Written iso .map request.key es
  | .timeSeries (.append request), code =>
      code = .invalidArgument ∧ iso.parse request.datetime = none
  | .timeSeries (.get request), code =>
      code = .invalidArgument ∧ (iso.Rejects request.startTime ∨ iso.Rejects request.endTime)
  | .mutexes (.release request), code =>
      code = .failedPrecondition ∧ ¬ HeldBy es request.key request.workerId
  | .mutexes (.getWorkerId request), code =>
      code = .notFound ∧ ¬ Written iso .mutexes request.key es ∨
        code = .failedPrecondition ∧ Written iso .mutexes request.key es ∧
          ∀ w, ¬ HeldBy es request.key w
  | .map (.searchKey request), code | .journalMap (.searchKey request), code
  | .timeSeries (.searchKey request), code | .mutexes (.searchKey request), code
  | .counters (.searchKey request), code | .taskManager (.searchId request), code =>
      code = .invalidArgument ∧ re2.Rejects request.pattern
  | .taskManager (.add request), code =>
      code = .alreadyExists ∧ Written iso .tasks request.taskId es ∨
        code = .notFound ∧ ¬ Written iso .tasks request.taskId es ∧
          ∃ p ∈ request.parentTaskIds, ¬ Written iso .tasks p es
  | .taskManager (.getOutput request), code =>
      code = .notFound ∧ ¬ Written iso .tasks request.taskId es
  | .taskManager (.cancel request), code =>
      code = .notFound ∧ ¬ Written iso .tasks request.taskId es
  | .taskManager (.getPriority request), code =>
      code = .notFound ∧ ¬ Written iso .tasks request.taskId es
  | .taskManager (.setPriority request), code =>
      code = .notFound ∧ ¬ Written iso .tasks request.taskId es
  | .taskManager (.getWorkerId request), code =>
      code = .notFound ∧ ¬ Written iso .tasks request.taskId es ∨
        code = .failedPrecondition ∧ Written iso .tasks request.taskId es ∧
          m.taskManager.statusOf request.taskId ≠ some .running
  | .taskManager (.get request), code =>
      code = .notFound ∧ ∀ q ∈ request.queue, ∀ t, ListedOn es q t →
        m.taskManager.statusOf t ≠ some .ready
  | .taskManager (.done request), code =>
      code = .notFound ∧ ¬ Written iso .tasks request.taskId es ∨
        code = .failedPrecondition ∧ Written iso .tasks request.taskId es ∧
          m.taskManager.statusOf request.taskId ≠ some .canceled ∧
          (m.taskManager.statusOf request.taskId = some .running →
            ¬ HandedTo es request.taskId request.workerId)
  | _, _ => False

namespace SystemState

variable [LinearOrder α] [PriorityQueue Q (TaskQueueEntry α) taskQueueEntryOrder]
variable {re2 : RE2} {iso : Iso8601} {m m' : SystemState Q α} {op : SystemOp α}
  {r : SystemReply α} {es : List (SystemEvent Q α)} {code : ErrorCode}

/-- The calls on the mutexes are a run of the mutexes. -/
theorem mutexRun (h : (machine Q re2 iso).Run es m) :
    ∃ es', (Mutexes.machine re2).Run es' m.mutexes ∧ ∀ k,
      es'.filterMap (Mutexes.turnAt k) = es.filterMap fun e => e.op.turn k e.reply := by
  obtain ⟨es', n, hrun, hcalls, rfl⟩ := h.project (N := Mutexes.machine re2)
    SystemOp.mutexCall (R := fun m n => m.mutexes = n) rfl
    (fun {m m' n op r o r'} hR hs hview => by
      cases step_served hs with
      | mutexes hmutex =>
          cases hview
          exact ⟨_, hR ▸ hmutex, rfl⟩
      | _ => cases hview)
    (fun {m m' n op r} hR hs hview => by
      cases step_served hs with
      | mutexes hmutex => cases hview
      | _ => exact hR)
  refine ⟨es', hrun, fun k => ?_⟩
  have hturns : es'.filterMap (Mutexes.turnAt k) =
      (es'.map Machine.Event.call).filterMap fun c => c.1.turn k c.2 := by
    rw [List.filterMap_map]
    rfl
  rw [hturns, hcalls, List.filterMap_filterMap]
  rfl

/-- Who holds a mutex is in its cell. -/
theorem heldBy_iff (h : (machine Q re2 iso).Run es m) (k w : String) :
    HeldBy es k w ↔ m.mutexes.data.lookup k = some ⟨true, w⟩ := by
  obtain ⟨es', hrun, hturns⟩ := mutexRun h
  rw [(Mutexes.cell_iff hrun k).2 w, HeldBy, Machine.latest_iff_getLast?,
    Machine.latest_iff_getLast?, hturns]

/-- The tasks of a history, as their graph has them. -/
structure Tasks (iso : Iso8601) (es : List (SystemEvent Q α)) (m : SystemState Q α)
    (s : TaskGraph α) : Prop where
  known : ∀ t, s.find? t = none ↔ ¬ Written iso .tasks t es
  status : ∀ {t i}, s.find? t = some i → m.taskManager.statusOf t = some (s.task i).state
  offers : ∀ q, (∃ i, s.Offers q i) ↔
    ∃ t, ListedOn es q t ∧ m.taskManager.statusOf t = some .ready
  worker : ∀ {t i}, s.find? t = some i → (s.task i).state = .running →
    ∀ w, (s.task i).workerId = w ↔ HandedTo es t w

omit [LinearOrder α] [PriorityQueue Q (TaskQueueEntry α) taskQueueEntryOrder] in
/-- A task of the graph was written by the add that brought it. -/
theorem Tasks.written {s : TaskGraph α} (h : Tasks iso es m s) {t : String} {i : Nat}
    (hi : s.find? t = some i) : Written iso .tasks t es := by
  by_contra hnot
  rw [(h.known t).2 hnot] at hi
  cases hi

omit [LinearOrder α] [PriorityQueue Q (TaskQueueEntry α) taskQueueEntryOrder] in
/-- An id that an add wrote is one of the graph. -/
theorem Tasks.exists_find {s : TaskGraph α} (h : Tasks iso es m s) {t : String}
    (hw : Written iso .tasks t es) : ∃ i, s.find? t = some i := by
  refine Option.ne_none_iff_exists'.1 fun hnone => ?_
  exact (h.known t).1 hnone hw

/-- After every run the graph has the tasks that were added. -/
theorem exists_tasks (h : (machine Q re2 iso).Run es m) :
    ∃ s, m.taskManager.Represents s ∧ Tasks iso es m s := by
  obtain ⟨es', hrun, hcalls⟩ := taskRun h
  obtain ⟨s, hc⟩ := TaskManager.exists_taskRun hrun
  have hseen : ∀ {β : Type} (f : TaskOp α → TaskReply α → Option β),
      es'.filterMap (fun e => f e.op e.reply) =
        es.filterMap fun e => (e.op.taskCall e.reply).bind fun c => f c.1 c.2 := by
    intro β f
    rw [← List.filterMap_filterMap, ← hcalls, List.filterMap_map]
    rfl
  have hadds : ∀ {request : TaskAddRequest α}, request ∈ adds es' ↔
      ∃ e ∈ es, e.op.added e.reply = some request := by
    intro request
    rw [adds, hseen, List.mem_filterMap]
    rfl
  have hclaims : ∀ {t w : String}, (t, w) ∈ claims es' ↔ HandedTo es t w := by
    intro t w
    rw [claims, hseen, List.mem_filterMap]
    rfl
  have hknown : ∀ t, s.find? t = none ↔ ¬ Written iso .tasks t es := by
    intro t
    rw [← (taskIds h).2 t, TaskGraph.find?_none]
    have hids : m.keys .tasks = (adds es').map (·.taskId) := hc.taskId_eq
    rw [hids, List.mem_map]
    constructor
    · rintro hnone ⟨request, hr, rfl⟩
      obtain ⟨i, hi, hrec⟩ := hc.exists_task hr
      exact hnone i hi hrec.taskId
    · rintro hnot i hi rfl
      obtain ⟨request, hr, hrec⟩ := hc.exists_request hi
      exact hnot ⟨request, hr, hrec.taskId.symm⟩
  refine ⟨s, hc.related, hknown, fun {t i} hi => ?_, fun q => ⟨?_, ?_⟩,
    fun {t i} hi hrunning w => ?_⟩
  · obtain ⟨hlt, rfl⟩ := TaskGraph.find?_some hi
    exact hc.statusOf_eq hlt
  · rintro ⟨i, hi, hready, hq⟩
    obtain ⟨request, hr, hrec⟩ := hc.exists_request hi
    obtain ⟨e, he, hadded⟩ := hadds.1 hr
    refine ⟨(s.task i).taskId, ⟨e, he, request, hadded, hrec.taskId.symm, hrec.queues ▸ hq⟩, ?_⟩
    rw [hc.statusOf_eq hi, hready]
  · rintro ⟨t, ⟨e, he, request, hadded, rfl, hq⟩, hready⟩
    obtain ⟨i, hi, hrec⟩ := hc.exists_task (hadds.2 ⟨e, he, hadded⟩)
    rw [← hrec.taskId, hc.statusOf_eq hi, Option.some.injEq] at hready
    exact ⟨i, hi, hready, hrec.queues ▸ hq⟩
  · obtain ⟨hlt, rfl⟩ := TaskGraph.find?_some hi
    have hclaimed := hc.claimed
    have hown := hclaimed.running hlt hrunning
    rw [← hclaims]
    constructor
    · rintro rfl
      exact hown
    · intro hw
      exact congrArg Prod.snd (List.inj_on_of_nodup_map hclaimed.nodup hown hw rfl)

/-- **Refusals are exact.** After every run, a call is answered with an error of this code exactly
if the history says so. -/
theorem refused_iff (h : (machine Q re2 iso).Run es m) (hs : step re2 iso m op = some (r, m')) :
    r.error.map Error.code = some code ↔ op.Refused re2 iso es m code := by
  have hkeys : ∀ (store : Store) (k : String), k ∈ m.keys store ↔ Written iso store k es :=
    fun store => (keys_written h store).2
  cases step_served hs with
  | @map op _ _ hcall =>
    cases op with
    | set request =>
      cases hcall
      exact no_error
    | get request =>
      cases hcall
      simp only [SystemReply.error, MapReply.error, map_errorOf, Map.get_code, SystemOp.Refused,
        ← hkeys .map, keys]
    | searchKey request =>
      cases hcall
      exact searchKeys_code _ request
  | @journalMap op _ _ hcall =>
    cases op with
    | size request =>
      cases hcall
      simp only [SystemReply.error, JournalReply.error, map_errorOf, JournalMap.size]
      split <;> exact no_error
    | read request =>
      obtain ⟨result, hread, heq⟩ := Option.bind_eq_some_iff.1 hcall
      cases heq
      obtain ⟨response, rfl⟩ := JournalMap.read_ok hread
      exact no_error
    | append request =>
      cases hcall
      exact no_error
    | searchKey request =>
      cases hcall
      exact searchKeys_code _ request
  | @timeSeries op _ _ hcall =>
    cases op with
    | append request =>
      cases hcall
      exact TimeSeriesMap.append_code _ request
    | get request =>
      obtain ⟨result, hget, heq⟩ := Option.bind_eq_some_iff.1 hcall
      cases heq
      exact TimeSeriesMap.get_code hget
    | searchKey request =>
      cases hcall
      exact searchKeys_code _ request
  | @mutexes op _ _ hcall =>
    cases op with
    | tryAcquire request =>
      have hok : ∃ response, (m.mutexes.tryAcquire request).1 = .ok response := by
        rcases m.mutexes.tryAcquire_refused request with heq | ⟨self', heq⟩ <;>
          exact ⟨_, congrArg Prod.fst heq⟩
      cases hcall
      obtain ⟨response, hok⟩ := hok
      show refusalCode (m.mutexes.tryAcquire request).1 = some code ↔ False
      rw [hok, refusalCode_ok]
    | release request =>
      have hcode := @Mutexes.release_code code m.mutexes request
      cases hcall
      rw [SystemOp.Refused, heldBy_iff h]
      exact hcode
    | getWorkerId request =>
      cases hcall
      simp only [SystemReply.error, MutexReply.error, map_errorOf, Mutexes.getWorkerId_code,
        SystemOp.Refused, heldBy_iff h, ← hkeys .mutexes, keys, ne_eq]
    | searchKey request =>
      cases hcall
      exact searchKeys_code _ request
  | @counters op _ _ hcall =>
    cases op with
    | searchKey request =>
      cases hcall
      exact searchKeys_code _ request
    | _ =>
      cases hcall
      exact no_error
  | @taskManager op reply _ hcall =>
    obtain ⟨s, hrep, htasks⟩ := exists_tasks h
    obtain ⟨s', hserve, -⟩ := (TaskManager.simulation re2).serves hrep hcall
    rw [show (SystemReply.taskManager reply).error = reply.error from rfl, hserve.refuses]
    cases op with
    | add request => simp only [TaskGraph.Refuses, SystemOp.Refused, ne_eq, htasks.known, not_not]
    | getOutput request => simp only [TaskGraph.Refuses, SystemOp.Refused, htasks.known]
    | cancel request => simp only [TaskGraph.Refuses, SystemOp.Refused, htasks.known]
    | getPriority request => simp only [TaskGraph.Refuses, SystemOp.Refused, htasks.known]
    | setPriority request => simp only [TaskGraph.Refuses, SystemOp.Refused, htasks.known]
    | getWorkerId request =>
      simp only [TaskGraph.Refuses, SystemOp.Refused, htasks.known]
      refine or_congr Iff.rfl (and_congr_right fun _ => ⟨?_, ?_⟩)
      · rintro ⟨i, hi, hrunning⟩
        refine ⟨htasks.written hi, ?_⟩
        rw [htasks.status hi, ne_eq, Option.some.injEq]
        exact hrunning
      · rintro ⟨hwritten, hrunning⟩
        obtain ⟨i, hi⟩ := htasks.exists_find hwritten
        rw [htasks.status hi, ne_eq, Option.some.injEq] at hrunning
        exact ⟨i, hi, hrunning⟩
    | get request =>
      refine and_congr_right fun _ => forall₂_congr fun q _ => ?_
      rw [← not_exists, htasks.offers q]
      simp
    | done request =>
      simp only [TaskGraph.Refuses, SystemOp.Refused, htasks.known]
      refine or_congr Iff.rfl (and_congr_right fun _ => ⟨?_, ?_⟩)
      · rintro ⟨i, hi, hcanceled, hworker⟩
        rw [htasks.status hi, ne_eq, Option.some.injEq, Option.some.injEq]
        refine ⟨htasks.written hi, hcanceled, fun hrunning => ?_⟩
        rw [← htasks.worker hi hrunning]
        exact hworker hrunning
      · rintro ⟨hwritten, hcanceled, hworker⟩
        obtain ⟨i, hi⟩ := htasks.exists_find hwritten
        rw [htasks.status hi, ne_eq, Option.some.injEq] at hcanceled
        refine ⟨i, hi, hcanceled, fun hrunning => ?_⟩
        rw [ne_eq, htasks.worker hi hrunning]
        exact hworker (by rw [htasks.status hi, hrunning])
    | searchId request => exact Iff.rfl
    | getStatus request => exact Iff.rfl
    | getCountByState => exact Iff.rfl

end SystemState

end DsService

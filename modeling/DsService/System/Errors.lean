import DsService.Core.SystemState
import DsService.Store.Calls
import DsService.Task.Refusal

/-!
# The codes of the server's errors

`ds-service/error.hpp` lists four codes as sent by the server; the others are raised on the client
side. Each method of the server core, on any state, returns no error with another code (`Sent`). The
code of an error is what a transport rewrites, so this is what lets an error cross the wire.
-/

namespace DsService

/-- The codes listed as sent by the server. -/
def ErrorCode.sentByServer : ErrorCode → Bool
  | .notFound | .alreadyExists | .invalidArgument | .failedPrecondition => true
  | _ => false

/-- A result as the core may return it. -/
def Sent {T : Type} (result : Result T) : Prop :=
  ∀ e, errorOf result = some e → e.code.sentByServer = true

/-- A value is no error. -/
theorem sent_ok {T : Type} (value : T) : Sent (.ok value) := nofun

/-- The code an error is made with is the one that is checked. -/
theorem sent_makeError {T : Type} {code : ErrorCode} {message : String}
    (h : code.sentByServer = true) : Sent (makeError code message : Result T) := by
  intro e he
  cases he
  exact h

/-- A pattern that RE2 rejects is `InvalidArgument`, in every store that lists its keys. -/
theorem searchKeys_sent (re2 : RE2) (keys : List String) (request : SearchKeyRequest) :
    Sent (searchKeys re2 keys request) := by
  unfold searchKeys
  split
  · exact sent_makeError rfl
  · exact sent_ok _

/-! ## The small structures -/

/-- A missing key is `NotFound`. -/
theorem Map.get_sent (self : Map) (request : MapGetRequest) : Sent (self.get request) := by
  unfold get
  split
  · exact sent_makeError rfl
  · exact sent_ok _

/-- A missing journal has size 0. -/
theorem JournalMap.size_sent (self : JournalMap) (request : JournalSizeRequest) :
    Sent (self.size request) := by
  unfold size
  split <;> exact sent_ok _

/-- A missing journal is read as empty. -/
theorem JournalMap.read_sent {self : JournalMap} {request : JournalReadRequest}
    {r : Result JournalReadResponse} (h : self.read request = some r) : Sent r := by
  unfold read at h
  split at h
  · cases h
    exact sent_ok _
  · simp only [Option.bind_eq_bind, Option.bind_eq_some_iff] at h
    obtain ⟨entry, -, h⟩ := h
    cases h
    exact sent_ok _

variable {α : Type}

/-- A datetime that is not parsed is `InvalidArgument`. -/
theorem TimeSeriesMap.append_sent (iso : Iso8601) (self : TimeSeriesMap α)
    (request : TimeSeriesAppendRequest α) : Sent (self.append iso request).1 := by
  unfold append
  split
  · exact sent_makeError rfl
  · exact sent_ok _

/-- A bound that is not parsed is `InvalidArgument`. -/
theorem TimeSeriesMap.timeBound_sent (iso : Iso8601) (field : String) (bound : Option String) :
    Sent (timeBound iso field bound) := by
  unfold timeBound
  split
  · exact sent_ok _
  · split
    · exact sent_ok _
    · split
      · exact sent_makeError rfl
      · exact sent_ok _

/-- The error of a get is that of one of its bounds. -/
theorem TimeSeriesMap.get_sent {iso : Iso8601} {self : TimeSeriesMap α}
    {request : TimeSeriesGetRequest} {r : Result (TimeSeriesGetResponse α)}
    (h : self.get iso request = some r) : Sent r := by
  have hstart := timeBound_sent iso "start_time" request.startTime
  have hend := timeBound_sent iso "end_time" request.endTime
  unfold get at h
  split at h
  · next e he =>
      cases h
      rw [he] at hstart
      exact hstart
  · split at h
    · next e he =>
        cases h
        rw [he] at hend
        exact hend
    · split at h
      · cases h
        exact sent_ok _
      · simp only [Option.bind_eq_bind, Option.bind_eq_some_iff] at h
        obtain ⟨points, -, h⟩ := h
        cases h
        exact sent_ok _

/-- An acquire that fails says so in its reply. -/
theorem Mutexes.tryAcquire_sent (self : Mutexes) (request : MutexTryAcquireRequest) :
    Sent (self.tryAcquire request).1 := by
  rcases self.tryAcquire_refused request with h | ⟨self', h⟩ <;> rw [h] <;> exact sent_ok _

/-- A release has three ways to fail, and each is an error of the server. -/
theorem Mutexes.release_sent (self : Mutexes) (request : MutexReleaseRequest) :
    Sent (self.release request).1 := by
  unfold release
  split
  · exact sent_makeError rfl
  · split
    · exact sent_makeError rfl
    · split
      · exact sent_makeError rfl
      · exact sent_ok _

/-- A mutex that is missing or free is an error of the server. -/
theorem Mutexes.getWorkerId_sent (self : Mutexes) (request : MutexGetWorkerIdRequest) :
    Sent (self.getWorkerId request) := by
  unfold getWorkerId
  split
  · exact sent_makeError rfl
  · split
    · exact sent_makeError rfl
    · exact sent_ok _

/-! ## The task manager -/

namespace TaskManager

variable {Q : Type} {m m' : TaskManager Q α}

/-- A missing task is `NotFound`. -/
theorem taskNotFound_sent {T : Type} (taskId : String) : Sent (taskNotFound taskId : Result T) :=
  sent_makeError rfl

/-- A missing task has a status of its own. -/
theorem getStatus_sent {request : TaskGetStatusRequest} {r : Result TaskGetStatusResponse}
    (h : m.getStatus request = some r) : Sent r := by
  obtain ⟨state, -, h⟩ := Option.bind_eq_some_iff.1 h
  cases h
  exact sent_ok _

/-- Only a missing task has no output. -/
theorem getOutput_sent {request : TaskGetOutputRequest} {r : Result TaskGetOutputResponse}
    (h : m.getOutput request = some r) : Sent r := by
  unfold getOutput at h
  split at h
  · cases h
    exact taskNotFound_sent _
  · obtain ⟨output, -, h⟩ := Option.bind_eq_some_iff.1 h
    cases h
    exact sent_ok _

/-- Only a missing task has no priority. -/
theorem getPriority_sent {request : TaskGetPriorityRequest} {r : Result (TaskGetPriorityResponse α)}
    (h : m.getPriority request = some r) : Sent r := by
  unfold getPriority at h
  split at h
  · cases h
    exact taskNotFound_sent _
  · obtain ⟨priority, -, h⟩ := Option.bind_eq_some_iff.1 h
    cases h
    exact sent_ok _

/-- A task that nobody runs is `FailedPrecondition`. -/
theorem getWorkerId_sent {request : TaskGetWorkerIdRequest} {r : Result TaskGetWorkerIdResponse}
    (h : m.getWorkerId request = some r) : Sent r := by
  unfold getWorkerId at h
  split at h
  · cases h
    exact taskNotFound_sent _
  · obtain ⟨state, -, h⟩ := Option.bind_eq_some_iff.1 h
    split at h
    · cases h
      exact sent_makeError rfl
    · obtain ⟨workerId, -, h⟩ := Option.bind_eq_some_iff.1 h
      cases h
      exact sent_ok _

/-- A task that is final is left alone without an error. -/
theorem cancel_sent {request : TaskCancelRequest} {r : Result TaskCancelResponse}
    (h : m.cancel request = some (r, m')) : Sent r := by
  unfold cancel at h
  split at h
  · cases h
    exact taskNotFound_sent _
  · obtain ⟨state, -, h⟩ := Option.bind_eq_some_iff.1 h
    split at h
    · cases h
      exact sent_ok _
    · simp only [Option.bind_eq_bind, Option.bind_eq_some_iff] at h
      obtain ⟨_, -, _, -, _, -, _, -, _, -, _, -, h⟩ := h
      cases h
      exact sent_ok _

variable [LinearOrder α] [PriorityQueue Q (TaskQueueEntry α) taskQueueEntryOrder]

/-- An add is refused for its id or for its parents, and never fails past these checks. -/
theorem add_sent {request : TaskAddRequest α} {r : Result Unit}
    (h : m.add request = some (r, m')) : Sent r := by
  intro e he
  cases r with
  | ok => cases he
  | error error =>
    cases he
    unfold add at h
    split at h
    · cases h
      rfl
    · split at h
      · cases h
        rfl
      · simp only [Option.bind_eq_bind] at h
        obtain ⟨scan, -, h⟩ := Option.bind_eq_some_iff.1 h
        obtain ⟨⟨state, origin⟩, -, h⟩ := Option.bind_eq_some_iff.1 h
        dsimp only at h
        split at h
        · obtain ⟨output, -, h⟩ := Option.bind_eq_some_iff.1 h
          exact (add_tail h).elim
        · exact (add_tail h).elim

/-- Only the priority of a missing task cannot be set. -/
theorem setPriority_sent {request : TaskSetPriorityRequest α} {r : Result Unit}
    (h : m.setPriority request = some (r, m')) : Sent r := by
  unfold setPriority at h
  split at h
  · cases h
    exact taskNotFound_sent _
  · simp only [Option.bind_eq_bind, Option.bind_eq_some_iff] at h
    obtain ⟨_, -, state, -, h⟩ := h
    split at h
    · cases h
      exact sent_ok _
    · simp only [Option.bind_eq_some_iff] at h
      obtain ⟨_, -, h⟩ := h
      cases h
      exact sent_ok _

/-- Queues that are all empty are `NotFound`, as the queues are gone through one by one. -/
theorem getFrom_sent {workerId : String} {queue : List String} {r : Result TaskGetResponse}
    (h : m.getFrom workerId queue = some (r, m')) : Sent r := by
  induction queue generalizing m with
  | nil =>
    cases h
    exact sent_makeError rfl
  | cons qname rest ih =>
    unfold getFrom at h
    split at h
    · exact ih h
    · simp only [Option.bind_eq_bind, Option.bind_eq_some_iff] at h
      obtain ⟨⟨found, taskQueue⟩, -, h⟩ := h
      cases found with
      | none => exact ih h
      | some index =>
        simp only [Option.bind_eq_some_iff] at h
        obtain ⟨_, -, _, -, _, -, _, -, _, -, h⟩ := h
        cases h
        exact sent_ok _

/-- A report from the wrong worker is an error of the server; one that is made is not. -/
theorem done_sent {request : TaskDoneRequest} {r : Result Unit}
    (h : m.done request = some (r, m')) : Sent r := by
  rcases done_cases h with ⟨-, ⟨rfl, -⟩ | ⟨e, rfl⟩⟩ | ⟨rfl, -⟩
  · exact sent_ok _
  · unfold done at h
    split at h
    · cases h
      exact taskNotFound_sent _
    · simp only [Option.bind_eq_bind, Option.bind_eq_some_iff] at h
      obtain ⟨state, -, h⟩ := h
      split at h
      · cases h
      · split at h
        · cases h
          exact sent_makeError rfl
        · simp only [Option.bind_eq_some_iff] at h
          obtain ⟨workerId, -, h⟩ := h
          split at h
          · cases h
            exact sent_makeError rfl
          · simp only [Option.bind_eq_some_iff] at h
            obtain ⟨_, -, h⟩ := h
            -- a report that is made is answered with no error
            split at h
            · simp only [Option.bind_eq_some_iff] at h
              obtain ⟨_, -, _, -, _, -, h⟩ := h
              cases h
            · simp only [Option.bind_eq_some_iff] at h
              obtain ⟨_, -, _, -, _, -, h⟩ := h
              cases h
  · exact sent_ok _

end TaskManager

end DsService

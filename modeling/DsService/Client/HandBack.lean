import DsService.Client.Transparent
import DsService.Grpc.Size
import DsService.Store.Journal
import DsService.Task.Claim

/-!
# What was accepted can be handed back

The server as its clients drive it: each call is the request that the client codec makes of its
arguments. A payload comes in with one call and goes out with another, in a message of another type
and with other fields around it. `accepted_is_handed_back` says that a limit which let it in lets it
out again. For `task_get` this matters most, since the task is claimed before the response is sent.
-/

namespace DsService

variable {Q α : Type}

namespace Client

/-- What a call is answered with on the wire. -/
structure Answer (α : Type) where
  rpc : Rpc
  status : Status
  response : rpc.Response α

/-- The request of an accepted `task_add`. -/
def added : ClientCall α → Answer α → Option (TaskAddRequest α)
  | .taskAdd taskId parentTaskIds queue priority function input, answer =>
      if answer.status.errorCode = .ok then
        some ⟨taskId, parentTaskIds, queue, priority, function, input⟩
      else none
  | _, _ => none

/-- The calls that write to the map. -/
theorem op_mapSet {request : MapSetRequest} {c : ClientCall α}
    (h : c.op = .map (.set request)) :
    c = .mapSet request.key request.value := by
  cases c <;> cases h
  rfl

/-- The calls that write to a journal. -/
theorem op_journalAppend {request : JournalAppendRequest}
    {c : ClientCall α} (h : c.op = .journalMap (.append request)) :
    c = .journalAppend request.key request.value := by
  cases c <;> cases h
  rfl

variable [LinearOrder α] [Zero α] [PriorityQueue Q (TaskQueueEntry α) taskQueueEntryOrder]

/-- The server, started empty, with calls of the client. -/
def machine (Q : Type) [PriorityQueue Q (TaskQueueEntry α) taskQueueEntryOrder] (re2 : RE2)
    (iso : Iso8601) : Machine (SystemState Q α) (ClientCall α) (Answer α) where
  init := {}
  step m c := do
    let ((status, response), m) ←
      DsServiceImpl.serve re2 iso (call c).rpc (call c).request Message.blank m
    return (⟨(call c).rpc, status, response⟩, m)

/-- An event of the server. -/
abbrev ServerEvent (Q α : Type) := Machine.Event (SystemState Q α) (ClientCall α) (Answer α)

/-- The call was accepted. -/
def Accepted (e : ServerEvent Q α) : Prop := e.reply.status.errorCode = .ok

variable {re2 : RE2} {iso : Iso8601} {m m' : SystemState Q α} {c : ClientCall α} {a : Answer α}
variable {es : List (ServerEvent Q α)}

omit [LinearOrder α] [Zero α] [PriorityQueue Q (TaskQueueEntry α) taskQueueEntryOrder] in

/-- A task is added by a `task_add` whose status is OK. -/
theorem added_eq_some {request : TaskAddRequest α} (h : added c a = some request) :
    a.status.errorCode = .ok ∧ c = .taskAdd request.taskId request.parentTaskIds request.queue
      request.priority request.function request.input := by
  unfold added at h
  split at h
  · split at h
    · next hok =>
      cases h
      exact ⟨hok, rfl⟩
    · cases h
  · cases h

/-! ## One call -/

/-- A call of the client is served by the server. -/
theorem step_serve (h : (machine Q re2 iso).step m c = some (a, m')) :
    ∃ served, DsServiceImpl.serve re2 iso (call c).rpc (call c).request Message.blank m
        = some (served, m') ∧ a = ⟨(call c).rpc, served.1, served.2⟩ := by
  obtain ⟨⟨served, m₁⟩, hserve, heq⟩ := Option.bind_eq_some_iff.1 h
  cases heq
  exact ⟨served, hserve, rfl⟩

/-- The call is served by one of the stores. -/
theorem step_served (h : (machine Q re2 iso).step m c = some (a, m')) :
    ∃ r, SystemState.Served re2 iso m c.op r m' := by
  obtain ⟨served, hserve, -⟩ := step_serve h
  obtain ⟨r, hstep⟩ := (answered re2 iso c m).step hserve
  exact ⟨r, SystemState.step_served hstep⟩

/-- What the task manager does in a call: nothing, or one of its steps. -/
theorem step_tasks (h : (machine Q re2 iso).step m c = some (a, m')) :
    m'.taskManager = m.taskManager ∧ added c a = none ∨
      ∃ op r, (TaskManager.machine Q re2).step m.taskManager op = some (r, m'.taskManager) ∧
        op.added r = added c a := by
  obtain ⟨r, hserved⟩ := step_served h
  generalize hop : c.op = op at hserved
  cases hserved with
  | taskManager hs =>
    refine .inr ⟨_, _, hs, ?_⟩
    cases c with
    | taskAdd taskId parentTaskIds queue priority function input =>
      cases hop
      obtain ⟨⟨result, taskManager⟩, hadd, heq⟩ := Option.bind_eq_some_iff.1 hs
      cases heq
      obtain ⟨served, hserve, rfl⟩ := step_serve h
      obtain ⟨⟨result', taskManager'⟩, hadd', heq⟩ := Option.bind_eq_some_iff.1 hserve
      cases hadd.symm.trans hadd'
      cases heq
      cases result with
      | ok => rfl
      | error e => exact (if_neg (toStatus_ne_ok e)).symm
    | _ => cases hop <;> rfl
  | _ =>
    refine .inl ⟨rfl, ?_⟩
    cases c with
    | taskAdd => cases hop
    | _ => rfl

/-- The task manager takes part in every run, and its tasks are the accepted ones. -/
theorem taskRun (h : (machine Q re2 iso).Run es m) :
    ∃ es', (TaskManager.machine Q re2).Run es' m.taskManager ∧
      adds es' = es.filterMap fun e => added e.op e.reply := by
  induction h with
  | nil => exact ⟨[], .nil, rfl⟩
  | @snoc es m m' c a _ hs ih =>
    obtain ⟨es', hrun, hadds⟩ := ih
    rw [List.filterMap_append, ← hadds]
    rcases step_tasks hs with ⟨hsame, hnone⟩ | ⟨op, r, hstep, hadded⟩
    · refine ⟨es', hsame ▸ hrun, ?_⟩
      simp [hnone]
    · refine ⟨_, .snoc hrun hstep, ?_⟩
      rw [adds_append]
      congr 1
      simp only [adds, List.filterMap_cons, List.filterMap_nil, hadded]

/-! ## What the stores hold -/

/-- A value of the map came in with an accepted call. -/
theorem map_written (h : (machine Q re2 iso).Run es m) {key value : String}
    (hl : m.map.data.lookup key = some value) :
    ∃ e ∈ es, Accepted e ∧ e.op = .mapSet key value := by
  refine h.arises (P := fun m => m.map.data.lookup key = some value) (fun hl => by cases hl) ?_ hl
  intro m c a m' hs hl
  obtain ⟨r, hserved⟩ := step_served hs
  generalize hop : c.op = op at hserved
  cases hserved with
  | @map op r map hstep =>
    cases op with
    | set request =>
      cases hstep
      obtain rfl := op_mapSet hop
      rcases eq_or_ne key request.key with rfl | hne
      · have hvalue : request.value = value := by simpa using hl
        refine .inr ⟨?_, congrArg _ hvalue⟩
        obtain ⟨served, hserve, rfl⟩ := step_serve hs
        cases hserve
        rfl
      · exact .inl (by rwa [← AList.lookup_insert_ne hne])
    | get | searchKey =>
      cases hstep
      exact .inl hl
  | _ => exact .inl hl

/-- An entry of a journal came in with an accepted call. -/
theorem journal_written (h : (machine Q re2 iso).Run es m) {key value : String}
    (hv : value ∈ m.journalMap.entriesOf key) :
    ∃ e ∈ es, Accepted e ∧ e.op = .journalAppend key value := by
  refine h.arises (P := fun m => value ∈ m.journalMap.entriesOf key) (fun hv => by cases hv) ?_ hv
  intro m c a m' hs hv
  obtain ⟨r, hserved⟩ := step_served hs
  generalize hop : c.op = op at hserved
  cases hserved with
  | @journalMap op r journalMap hstep =>
    rw [show (_ : SystemState Q α).journalMap = journalMap from rfl,
      JournalMap.step_entriesOf hstep key, List.mem_append] at hv
    refine hv.imp_right fun hv => ?_
    cases op with
    | append request =>
      obtain ⟨key', value'⟩ := request
      obtain rfl := op_journalAppend hop
      simp only [JournalOp.appends, Option.mem_toList] at hv
      split at hv
      · next hkey =>
        cases hv
        subst hkey
        refine ⟨?_, rfl⟩
        obtain ⟨served, hserve, rfl⟩ := step_serve hs
        cases hserve
        rfl
      · cases hv
    | _ => cases hv
  | _ => exact .inl hv

/-! ## What a call hands back -/

/-- What the server writes with an OK status. -/
theorem reply_ok {plain proto : Type} [Message proto] [Codec plain proto] {r : Result plain}
    (h : (reply r (Message.blank : proto)).1.errorCode = .ok) :
    ∃ value, r = .ok value ∧ (reply r (Message.blank : proto)).2
      = Codec.encode value Message.blank := by
  cases r with
  | ok value => exact ⟨value, rfl, rfl⟩
  | error e => exact absurd h (toStatus_ne_ok e)

variable {status : Status}

/-- The answer to a `task_get` that is OK is the task that was claimed. -/
theorem taskGet_answer {workerId : String} {queue : List String} {response : Proto.TaskGetResponse}
    (h : (machine Q re2 iso).step m (.taskGet workerId queue) =
      some (⟨.taskGet, status, response⟩, m'))
    (hok : status.errorCode = .ok) :
    ∃ r, m.taskManager.get ⟨workerId, queue⟩ = some (.ok r, m'.taskManager) ∧
      response = Codec.encode r Message.blank := by
  obtain ⟨served, hserve, heq⟩ := step_serve h
  obtain ⟨⟨result, taskManager⟩, hget, heq'⟩ := Option.bind_eq_some_iff.1 hserve
  cases heq'
  cases heq
  obtain ⟨r, rfl, hresponse⟩ := reply_ok hok
  exact ⟨r, hget, hresponse⟩

/-- The answer to a `task_get_output` that is OK is the output of the task. -/
theorem taskGetOutput_answer {taskId : String} {response : Proto.TaskGetOutputResponse}
    (h : (machine Q re2 iso).step m (.taskGetOutput taskId)
      = some (⟨.taskGetOutput, status, response⟩, m'))
    (hok : status.errorCode = .ok) :
    ∃ r, m.taskManager.getOutput ⟨taskId⟩ = some (.ok r) ∧
      response = Codec.encode r Message.blank := by
  obtain ⟨served, hserve, heq⟩ := step_serve h
  obtain ⟨result, hget, heq'⟩ := Option.bind_eq_some_iff.1 hserve
  cases heq'
  cases heq
  obtain ⟨r, rfl, hresponse⟩ := reply_ok hok
  exact ⟨r, hget, hresponse⟩

/-- The answer to a `map_get` that is OK is the value of the key. -/
theorem mapGet_answer {key : String} {response : Proto.MapGetResponse}
    (h : (machine Q re2 iso).step m (.mapGet key) = some (⟨.mapGet, status, response⟩, m'))
    (hok : status.errorCode = .ok) :
    ∃ value, m.map.data.lookup key = some value ∧
      response = Codec.encode (MapGetResponse.mk value) Message.blank := by
  obtain ⟨served, hserve, heq⟩ := step_serve h
  cases hserve
  cases heq
  obtain ⟨r, hget, hresponse⟩ := reply_ok hok
  unfold Map.get at hget
  split at hget
  · cases hget
  · next value hl =>
    cases hget
    exact ⟨value, hl, hresponse⟩

/-- The answer to a `journal_read` is the slice of the journal. -/
theorem journalRead_answer {key : String} {start stop : Nat} {response : Proto.JournalReadResponse}
    (h : (machine Q re2 iso).step m (.journalRead key start stop)
      = some (⟨.journalRead, status, response⟩, m')) :
    response = Codec.encode (JournalReadResponse.mk
      (((m.journalMap.entriesOf key).take stop).drop start)) Message.blank := by
  obtain ⟨served, hserve, heq⟩ := step_serve h
  obtain ⟨result, hread, heq'⟩ := Option.bind_eq_some_iff.1 hserve
  cases heq'
  cases heq
  have hslice := m.journalMap.read_eq key start stop
  cases hslice.symm.trans hread
  rfl

/-- A report whose status is OK was made. -/
theorem taskDone_accepted {taskId workerId output : String} {failed : Bool}
    (h : (machine Q re2 iso).step m (.taskDone taskId workerId output failed) = some (a, m'))
    (hok : a.status.errorCode = .ok) :
    (TaskManager.machine Q re2).step m.taskManager (.done ⟨taskId, output, workerId, failed⟩)
      = some (.done (.ok ()), m'.taskManager) := by
  obtain ⟨served, hserve, rfl⟩ := step_serve h
  obtain ⟨⟨result, taskManager⟩, hdone, heq⟩ := Option.bind_eq_some_iff.1 hserve
  cases heq
  refine Option.bind_eq_some_iff.2 ⟨_, hdone, ?_⟩
  cases result with
  | ok => rfl
  | error e => exact absurd hok (toStatus_ne_ok e)

/-! ## What was accepted fits -/

variable {es₁ es₂ : List (ServerEvent Q α)} {e : ServerEvent Q α}

/-- A claimed task was accepted, and no `task_add` of another task with its id was. -/
theorem claimed_accepted (h : (machine Q re2 iso).Run es m) {request : TaskGetRequest}
    {r : TaskGetResponse} {taskManager : TaskManager Q α}
    (hget : m.taskManager.get request = some (.ok r, taskManager)) :
    ∃ e ∈ es, ∃ request, added e.op e.reply = some request ∧
      r = ⟨request.taskId, request.function, request.input⟩ ∧
      ∀ e' ∈ es, ∀ request', added e'.op e'.reply = some request' →
        request'.taskId = request.taskId → request' = request := by
  obtain ⟨es', hrun, hadds⟩ := taskRun h
  obtain ⟨s, hc⟩ := TaskManager.exists_taskRun hrun
  obtain ⟨request, hrequest, rfl⟩ := hc.get_recorded hget
  have hmem : ∀ request, request ∈ adds es' ↔ ∃ e ∈ es, added e.op e.reply = some request := by
    intro request
    rw [hadds, List.mem_filterMap]
  obtain ⟨e, he, hadded⟩ := (hmem request).1 hrequest
  refine ⟨e, he, request, hadded, rfl, fun e' he' request' hadded' hid => ?_⟩
  exact hc.adds_unique ((hmem request').2 ⟨e', he', hadded'⟩) hrequest hid

/-- A report on a task that was not canceled stays what `task_get_output` says. -/
theorem reported_later (h : (machine Q re2 iso).Run (es₁ ++ e :: es₂) m) {taskId workerId : String}
    {output : String} {failed : Bool} (hop : e.op = .taskDone taskId workerId output failed)
    (hok : Accepted e) :
    e.pre.taskManager.statusOf taskId = some .canceled ∨
      m.taskManager.Reported taskId output := by
  obtain ⟨pre, c, a, post⟩ := e
  cases hop
  obtain ⟨hrun, hs⟩ := h.split
  obtain ⟨es', hrun', -⟩ := taskRun hrun
  obtain ⟨s, hc⟩ := TaskManager.exists_taskRun hrun'
  rcases hc.report (taskDone_accepted hs hok) with ⟨-, ⟨e, he⟩ | ⟨-, hcan⟩⟩ | ⟨-, -, -, hreported⟩
  · cases he
  · exact .inl hcan
  · refine .inr (h.stable (P := fun m => m.taskManager.Reported taskId output) ?_ hreported).1
    intro es m c a m' hrun hs hp
    rcases step_tasks hs with ⟨hsame, -⟩ | ⟨op, r, hstep, -⟩
    · rw [hsame]
      exact hp
    · obtain ⟨es', hrun', -⟩ := taskRun hrun
      exact hp.step hrun' hstep

/-- **What was accepted can be handed back.** In every run of the server with calls of the client,
and for every limit: a `task_get` hands out an accepted task, a `map_get` an accepted value, a
`journal_read` accepted entries, and a `task_get_output` the accepted report on a task that was not
canceled before; and if the request that was accepted is within the limit, so is the response.
`length` is the number of bytes of a text. -/
theorem accepted_is_handed_back (length : String → Nat) (limit : Nat)
    (h : (machine Q re2 iso).Run (es₁ ++ e :: es₂) m) (hok : Accepted e) :
    (∀ workerId queue status response, e.op = .taskGet workerId queue →
      e.reply = ⟨.taskGet, status, response⟩ →
      ∃ taskId, response.taskId = some taskId ∧
        (∃ e₁ ∈ es₁, Accepted e₁ ∧ ∃ parentTaskIds queue priority function input,
          e₁.op = .taskAdd taskId parentTaskIds queue priority function input) ∧
        ∀ e₁ ∈ es₁, Accepted e₁ → ∀ parentTaskIds queue priority function input,
          e₁.op = .taskAdd taskId parentTaskIds queue priority function input →
          Wire.size (Proto.TaskAddRequest.fields length (call (.taskAdd taskId parentTaskIds queue
            priority function input)).request) ≤ limit →
          Wire.size (response.fields length) ≤ limit) ∧
    (∀ key status response, e.op = .mapGet key → e.reply = ⟨.mapGet, status, response⟩ →
      ∃ value, response.value = some value ∧
        (∃ e₁ ∈ es₁, Accepted e₁ ∧ e₁.op = .mapSet key value) ∧
        ∀ e₁ ∈ es₁, Accepted e₁ → ∀ key', e₁.op = .mapSet key' value →
          Wire.size (Proto.MapSetRequest.fields length (call (α := α) (.mapSet key' value)).request)
            ≤ limit →
          Wire.size (response.fields length) ≤ limit) ∧
    (∀ key start stop status response, e.op = .journalRead key start stop →
      e.reply = ⟨.journalRead, status, response⟩ →
      (∀ value ∈ response.entry, ∃ e₁ ∈ es₁, Accepted e₁ ∧ e₁.op = .journalAppend key value) ∧
        ∀ e₁ ∈ es₁, Accepted e₁ → ∀ key' value, e₁.op = .journalAppend key' value →
          response.entry = [value] →
          Wire.size (Proto.JournalAppendRequest.fields length
            (call (α := α) (.journalAppend key' value)).request) ≤ limit →
          Wire.size (response.fields length) ≤ limit) ∧
    ∀ taskId status response, e.op = .taskGetOutput taskId →
      e.reply = ⟨.taskGetOutput, status, response⟩ →
      ∀ e₁ ∈ es₁, Accepted e₁ → ∀ workerId output failed,
        e₁.op = .taskDone taskId workerId output failed →
        (e₁.pre.taskManager.statusOf taskId = some .canceled ∨ response.output = some output) ∧
        (response.output = some output →
          Wire.size (Proto.TaskDoneRequest.fields length
            (call (α := α) (.taskDone taskId workerId output failed)).request) ≤ limit →
          Wire.size (response.fields length) ≤ limit) := by
  obtain ⟨pre, c, a, post⟩ := e
  obtain ⟨hrun, hs⟩ := h.split
  refine ⟨?_, ?_, ?_, ?_⟩
  · rintro workerId queue status response hop hreply
    cases hop
    cases hreply
    obtain ⟨r, hget, rfl⟩ := taskGet_answer hs hok
    obtain ⟨e, he, ⟨taskId, _, _, _, _, _⟩, hadded, rfl, hunique⟩ := claimed_accepted hrun hget
    obtain ⟨hacc, hadd⟩ := added_eq_some hadded
    refine ⟨taskId, rfl, ⟨e, he, hacc, _, _, _, _, _, hadd⟩, ?_⟩
    intro e₁ he₁ hacc₁ parentTaskIds queue priority function input hadd₁ hlimit
    have hadded₁ : added e₁.op e₁.reply =
        some ⟨taskId, parentTaskIds, queue, priority, function, input⟩ := by
      rw [hadd₁]
      exact if_pos hacc₁
    cases hunique e₁ he₁ _ hadded₁ rfl
    exact (size_taskGetResponse_le length _).trans hlimit
  · rintro key status response hop hreply
    cases hop
    cases hreply
    obtain ⟨value, hl, rfl⟩ := mapGet_answer hs hok
    refine ⟨value, rfl, map_written hrun hl, ?_⟩
    intro e₁ _ _ key' _ hlimit
    exact (size_mapGetResponse_le length key' value).trans hlimit
  · rintro key start stop status response hop hreply
    cases hop
    cases hreply
    have hslice : response.entry = ((pre.journalMap.entriesOf key).take stop).drop start :=
      congrArg Proto.JournalReadResponse.entry (journalRead_answer hs)
    refine ⟨fun value hv => ?_, ?_⟩
    · rw [hslice] at hv
      exact journal_written hrun (List.mem_of_mem_take (List.mem_of_mem_drop hv))
    · intro e₁ _ _ key' value _ hentry hlimit
      refine le_trans (le_of_eq ?_) ((size_journalReadResponse_le length key' value).trans hlimit)
      exact congrArg (fun entry => Wire.size (Wire.repeated 1 (entry.map (Proto.text length))))
        hentry
  · rintro taskId status response hop hreply e₁ he₁ hacc₁ workerId output failed hdone
    cases hop
    cases hreply
    obtain ⟨r, hget, rfl⟩ := taskGetOutput_answer hs hok
    refine ⟨?_, fun houtput hlimit => ?_⟩
    · obtain ⟨l₁, l₂, rfl⟩ := List.append_of_mem he₁
      rcases reported_later hrun hdone hacc₁ with hcan | hreported
      · exact .inl hcan
      · cases hget.symm.trans hreported.output
        exact .inr rfl
    · cases houtput
      exact (size_taskGetOutputResponse_le length ⟨taskId, r.output, workerId, failed⟩).trans hlimit

/-- A task is added and claimed, then reported and asked for. -/
def handOut : List (ClientCall Nat) :=
  [.taskAdd "a" [] ["q"] (.num 0) "f" "1", .taskGet "w" ["q"], .taskDone "a" "w" "2" false,
    .taskGetOutput "a"]

/-- A task that was added and is then claimed. -/
theorem accepted_is_handed_back_handOut :
    ∃ e ∈ ((machine (ListQueue (taskQueueEntryOrder (α := Nat))) sampleRe2 sampleIso).runOf
        handOut).1, ∃ status response, e.reply = ⟨.taskGet, status, response⟩ ∧
      Wire.size (response.fields String.utf8ByteSize) ≤ 24 := by
  let M : Machine (SystemState (ListQueue (taskQueueEntryOrder (α := Nat))) Nat) (ClientCall Nat)
    (Answer Nat) := machine _ sampleRe2 sampleIso
  have hrun := Machine.run_runOf (M := M) handOut rfl
  obtain ⟨e₁, he₁⟩ : ∃ e₁, (M.runOf handOut).1[0]? = some e₁ := ⟨_, rfl⟩
  obtain ⟨e, he⟩ : ∃ e, (M.runOf handOut).1[1]? = some e := ⟨_, rfl⟩
  have hsplit : (M.runOf handOut).1 = [e₁] ++ e :: (M.runOf handOut).1.drop 2 := by
    cases he₁
    cases he
    rfl
  rw [hsplit] at hrun
  cases he₁
  cases he
  obtain ⟨taskId, htaskId, -, hsize⟩ :=
    (accepted_is_handed_back String.utf8ByteSize 24 hrun rfl).1 _ _ _ _ rfl rfl
  cases htaskId
  refine ⟨_, List.mem_of_getElem? (i := 1) rfl, _, _, rfl, ?_⟩
  exact hsize _ (.head _) rfl _ _ _ _ _ rfl (by decide)

end Client

end DsService

import DsService.Client.Methods
import DsService.System.Errors
import DsService.System.Refusal

/-!
# The transport is transparent

`transport_transparent`: a method of the client, called with any arguments on any state of the
server, returns what the core method of that operation returns on the plain request, or throws its
error, and leaves the state that it leaves.

`ClientCall.op` is the operation a method stands for, with each argument in the field of its name,
and `ClientCall.reply` the reply of the core that carries a value or an error to the caller.
-/

namespace DsService

variable {Q α : Type}

/-! ## What a call means -/

/-- The operation of the server core that a method of the client stands for. -/
def ClientCall.op : ClientCall α → SystemOp α
  | .mapSet key value => .map (.set { key := key, value := value })
  | .mapGet key => .map (.get { key := key })
  | .mapSearchKey pattern => .map (.searchKey { pattern := pattern })
  | .taskAdd taskId parentTaskIds queue priority function input =>
      .taskManager (.add
        { taskId := taskId, parentTaskIds := parentTaskIds, queue := queue, priority := priority,
          function := function, input := input })
  | .taskGetStatus taskId => .taskManager (.getStatus { taskId := taskId })
  | .taskGetOutput taskId => .taskManager (.getOutput { taskId := taskId })
  | .taskGetCountByState => .taskManager .getCountByState
  | .taskCancel taskId => .taskManager (.cancel { taskId := taskId })
  | .taskGetPriority taskId => .taskManager (.getPriority { taskId := taskId })
  | .taskSetPriority taskId priority =>
      .taskManager (.setPriority { taskId := taskId, priority := priority })
  | .taskGetWorkerId taskId => .taskManager (.getWorkerId { taskId := taskId })
  | .taskSearchId pattern => .taskManager (.searchId { pattern := pattern })
  | .taskGet workerId queue => .taskManager (.get { workerId := workerId, queue := queue })
  | .taskDone taskId workerId output failed =>
      .taskManager (.done
        { taskId := taskId, workerId := workerId, output := output, failed := failed })
  | .journalSize key => .journalMap (.size { key := key })
  | .journalRead key start «end» =>
      .journalMap (.read { key := key, start := start, «end» := «end» })
  | .journalAppend key value => .journalMap (.append { key := key, value := value })
  | .journalSearchKey pattern => .journalMap (.searchKey { pattern := pattern })
  | .timeSeriesAppend key value datetime step =>
      .timeSeries (.append { key := key, value := value, datetime := datetime, step := step })
  | .timeSeriesGet key startTime endTime startStep endStep =>
      .timeSeries (.get
        { key := key, startTime := startTime, endTime := endTime, startStep := startStep,
          endStep := endStep })
  | .timeSeriesSearchKey pattern => .timeSeries (.searchKey { pattern := pattern })
  | .mutexTryAcquire key workerId => .mutexes (.tryAcquire { key := key, workerId := workerId })
  | .mutexRelease key workerId => .mutexes (.release { key := key, workerId := workerId })
  | .mutexGetWorkerId key => .mutexes (.getWorkerId { key := key })
  | .mutexSearchKey pattern => .mutexes (.searchKey { pattern := pattern })
  | .counterGetNextValue key => .counters (.getNextValue { key := key })
  | .counterGetCurrentValue key => .counters (.getCurrentValue { key := key })
  | .counterSearchKey pattern => .counters (.searchKey { pattern := pattern })

/-- The reply of the server core that carries this value, or this error. -/
def ClientCall.reply : (c : ClientCall α) → Result c.Value → SystemReply α
  | .mapSet .., r => .map (.set r)
  | .mapGet _, r => .map (.get (r.map fun value => { value := value }))
  | .mapSearchKey _, r => .map (.searchKey (r.map fun key => { key := key }))
  | .taskAdd .., r => .taskManager (.add r)
  | .taskGetStatus _, r => .taskManager (.getStatus (r.map fun state => { state := state }))
  | .taskGetOutput _, r => .taskManager (.getOutput (r.map fun output => { output := output }))
  | .taskGetCountByState, r => .taskManager (.getCountByState r)
  | .taskCancel _, r => .taskManager (.cancel (r.map fun success => { success := success }))
  | .taskGetPriority _, r =>
      .taskManager (.getPriority (r.map fun priority => { priority := priority }))
  | .taskSetPriority .., r => .taskManager (.setPriority r)
  | .taskGetWorkerId _, r =>
      .taskManager (.getWorkerId (r.map fun workerId => { workerId := workerId }))
  | .taskSearchId _, r => .taskManager (.searchId (r.map fun key => { key := key }))
  | .taskGet .., r => .taskManager (.get r)
  | .taskDone .., r => .taskManager (.done r)
  | .journalSize _, r => .journalMap (.size (r.map fun size => { size := size }))
  | .journalRead .., r => .journalMap (.read (r.map fun entry => { entry := entry }))
  | .journalAppend .., r => .journalMap (.append r)
  | .journalSearchKey _, r => .journalMap (.searchKey (r.map fun key => { key := key }))
  | .timeSeriesAppend .., r => .timeSeries (.append r)
  | .timeSeriesGet .., r => .timeSeries (.get (r.map fun point => { point := point }))
  | .timeSeriesSearchKey _, r => .timeSeries (.searchKey (r.map fun key => { key := key }))
  | .mutexTryAcquire .., r =>
      .mutexes (.tryAcquire (r.map fun acquired => { acquired := acquired }))
  | .mutexRelease .., r => .mutexes (.release r)
  | .mutexGetWorkerId _, r =>
      .mutexes (.getWorkerId (r.map fun workerId => { workerId := workerId }))
  | .mutexSearchKey _, r => .mutexes (.searchKey (r.map fun key => { key := key }))
  | .counterGetNextValue _, r => .counters (.getNextValue (r.map fun value => { value := value }))
  | .counterGetCurrentValue _, r =>
      .counters (.getCurrentValue (r.map fun value => { value := value }))
  | .counterSearchKey _, r => .counters (.searchKey (r.map fun key => { key := key }))

/-! ## One call over the wire -/

open GrpcClientTransport

/-- An error of the core comes back from its status as itself, closed client or not. -/
theorem toError_toStatus {e : Error} (h : e.code.sentByServer = true) (closed : Bool) :
    toError (toStatus e) closed = e := by
  obtain ⟨code, message⟩ := e
  have hcancelled : (toStatusCode code == .cancelled) = false := by
    cases code <;> first | rfl | cases h
  have hclosed : code ≠ .closed := by
    rintro rfl
    cases h
  simp only [toError, toStatus, hcancelled, Bool.and_false, Bool.false_eq_true, if_false]
  rw [fromStatusCode_toStatusCode hclosed]

/-- The status of an error is not OK. -/
theorem toStatus_ne_ok (e : Error) : (toStatus e).errorCode ≠ .ok := by
  obtain ⟨code, message⟩ := e
  cases code <;> nofun

/-- What the server writes for a core result comes out of `invoke` as that result. -/
theorem outcome_reply {plain proto : Type} [Message proto] [Codec plain proto]
    {r : Result plain} (hr : Sent r) (closed : Bool) :
    (outcome closed (reply r (Message.blank : proto)).1 (reply r Message.blank).2).map Codec.decode
      = r := by
  cases r with
  | ok value => exact congrArg Except.ok (Codec.decode_encode value)
  | error e =>
    have herror := toError_toStatus (hr e rfl) closed
    simp only [reply, outcome, if_pos (toStatus_ne_ok e), herror]
    rfl

/-- A reply without a value crosses the wire by its code and its message. -/
theorem outcome_replyEmpty {r : Result Unit} (hr : Sent r) (closed : Bool) :
    (outcome closed (replyEmpty r Message.blank).1 (replyEmpty r Message.blank).2).map (fun _ => ())
      = r := by
  cases r with
  | ok value => rfl
  | error e =>
    have herror := toError_toStatus (hr e rfl) closed
    simp only [replyEmpty, outcome, if_pos (toStatus_ne_ok e), herror]
    rfl

variable [LinearOrder α] [Zero α] [PriorityQueue Q (TaskQueueEntry α) taskQueueEntryOrder]
variable {re2 : RE2} {iso : Iso8601} {ch : Channel} {m : SystemState Q α}

/-- The channel delivers what a call puts on it: its request, and what the server answers. -/
structure Carries {V : Type} (re2 : RE2) (iso : Iso8601) (ch : Channel) (call : Invocation α V)
    (m : SystemState Q α) : Prop where
  request : ch.Fits call.request
  reply : ∀ {status response m'},
    DsServiceImpl.serve re2 iso call.rpc call.request Message.blank m
      = some ((status, response), m') → ch.Fits status ∧ ch.Fits response

/-- A call that is carried reaches the method it names, and the caller has its status and
response. -/
theorem invoke_eq {V : Type} {call : Invocation α V} (h : Carries re2 iso ch call m)
    (closed : Bool) :
    invoke re2 iso ch closed call m =
      (DsServiceImpl.serve re2 iso call.rpc call.request Message.blank m).map fun served =>
        ((outcome closed served.1.1 served.1.2).map call.finish, served.2) := by
  unfold invoke exchange
  rw [h.request.send]
  dsimp only
  cases hserve : DsServiceImpl.serve re2 iso call.rpc call.request Message.blank m with
  | none => rfl
  | some served =>
    obtain ⟨⟨status, response⟩, m'⟩ := served
    obtain ⟨hstatus, hresponse⟩ := h.reply hserve
    simp only [Option.bind_eq_bind, Option.bind_some, hstatus.send, hresponse.send]
    split
    · next hfailed =>
        -- of a status that is not OK no response is read
        show some ((outcome closed status Message.blank).map call.finish, m') = _
        simp only [outcome, if_pos hfailed, Option.map_some]
    · rfl

/-- How a method of the client is answered: the server calls a core method, which ends with a result
and leaves a state, and writes the result into the response, from which the client reads it back.
The reply of the server core is this result too. -/
inductive Answered (re2 : RE2) (iso : Iso8601) (c : ClientCall α) (m : SystemState Q α) : Prop
  | mk {T β : Type} {encoded : Result T → Status × (Client.call c).rpc.Response α}
      {read : (Client.call c).rpc.Response α → T}
      (hread : ∀ {r} closed, Sent r →
        (outcome closed (encoded r).1 (encoded r).2).map read = r)
      (core : Option β) (result : β → Result T) (state : β → SystemState Q α)
      (answer : Result T → SystemReply α) (hsent : ∀ b, core = some b → Sent (result b))
      (hserve : DsServiceImpl.serve re2 iso (Client.call c).rpc (Client.call c).request
        Message.blank m = core.bind fun b => some (encoded (result b), state b))
      (hstep : m.step re2 iso c.op = core.bind fun b => some (answer (result b), state b))
      (hwrap : ∀ x : Result ((Client.call c).rpc.Response α),
        c.reply (x.map (Client.call c).finish) = answer (x.map read) := by
          rintro (_ | _) <;> rfl) :
      Answered re2 iso c m

/-- The caller has what the core method returned. -/
theorem Answered.transparent {c : ClientCall α} (ha : Answered re2 iso c m) {closed : Bool}
    (h : Carries re2 iso ch (Client.call c) m) :
    (invoke re2 iso ch closed (Client.call c) m).map (Prod.map c.reply id)
      = m.step re2 iso c.op := by
  obtain ⟨hread, core, result, state, answer, hsent, hserve, hstep, hwrap⟩ := ha
  rw [invoke_eq h, hstep, hserve]
  cases hcore : core with
  | none => rfl
  | some b =>
    have hresult := (hwrap _).trans (congrArg answer (hread closed (hsent b hcore)))
    exact congrArg (fun r => some (r, state b)) hresult

/-- A served call is a step of the server core. -/
theorem Answered.step {c : ClientCall α} (ha : Answered re2 iso c m)
    {served : Status × (Client.call c).rpc.Response α} {m' : SystemState Q α}
    (h : DsServiceImpl.serve re2 iso (Client.call c).rpc (Client.call c).request Message.blank m
      = some (served, m')) : ∃ r, m.step re2 iso c.op = some (r, m') := by
  obtain ⟨-, core, result, state, answer, -, hserve, hstep, -⟩ := ha
  rw [hserve] at h
  obtain ⟨b, hcore, heq⟩ := Option.bind_eq_some_iff.1 h
  cases heq
  exact ⟨answer (result b), by rw [hstep, hcore]; rfl⟩

/-- What a method that always returns has sent. -/
theorem sent_some {T β : Type} {result : β → Result T} {b : β} (h : Sent (result b)) :
    ∀ b', some b = some b' → Sent (result b') := by
  rintro b' ⟨⟩
  exact h

/-- Every method of the client is answered. -/
theorem answered (re2 : RE2) (iso : Iso8601) (c : ClientCall α) (m : SystemState Q α) :
    Answered re2 iso c m := by
  cases c with
  | mapSet key value =>
    exact .mk (fun closed hr => outcome_replyEmpty hr closed)
      (some (m.map.set ⟨key, value⟩)) Prod.fst (fun b => { m with map := b.2 })
      (.map <| .set ·) (sent_some (sent_ok ())) rfl rfl
  | mapGet key =>
    exact .mk (fun closed hr => outcome_reply hr closed) (some (m.map.get ⟨key⟩)) id (fun _ => m)
      (.map <| .get ·) (sent_some (m.map.get_sent ⟨key⟩)) rfl rfl
  | mapSearchKey pattern =>
    exact .mk (fun closed hr => outcome_reply hr closed)
      (some (m.map.searchKey re2 ⟨pattern⟩)) id (fun _ => m)
      (.map <| .searchKey ·) (sent_some (searchKeys_sent _ _ _)) rfl rfl
  | taskAdd taskId parentTaskIds queue priority function input =>
    exact .mk (fun closed hr => outcome_replyEmpty hr closed)
      (m.taskManager.add ⟨taskId, parentTaskIds, queue, priority, function, input⟩)
      Prod.fst (fun b => { m with taskManager := b.2 })
      (.taskManager <| .add ·) (fun _ => TaskManager.add_sent) rfl (Option.bind_assoc _ _ _)
  | taskGetStatus taskId =>
    exact .mk (fun closed hr => outcome_reply hr closed)
      (m.taskManager.getStatus ⟨taskId⟩) id (fun _ => m)
      (.taskManager <| .getStatus ·) (fun _ => TaskManager.getStatus_sent) rfl
      (Option.bind_assoc _ _ _)
  | taskGetOutput taskId =>
    exact .mk (fun closed hr => outcome_reply hr closed)
      (m.taskManager.getOutput ⟨taskId⟩) id (fun _ => m)
      (.taskManager <| .getOutput ·) (fun _ => TaskManager.getOutput_sent) rfl
      (Option.bind_assoc _ _ _)
  | taskGetCountByState =>
    exact .mk (fun closed hr => outcome_reply hr closed)
      (some m.taskManager.getCountByState) id (fun _ => m)
      (.taskManager <| .getCountByState ·) (sent_some (sent_ok _)) rfl rfl
  | taskCancel taskId =>
    exact .mk (fun closed hr => outcome_reply hr closed)
      (m.taskManager.cancel ⟨taskId⟩) Prod.fst (fun b => { m with taskManager := b.2 })
      (.taskManager <| .cancel ·) (fun _ => TaskManager.cancel_sent) rfl (Option.bind_assoc _ _ _)
  | taskGetPriority taskId =>
    exact .mk (fun closed hr => outcome_reply hr closed)
      (m.taskManager.getPriority ⟨taskId⟩) id (fun _ => m)
      (.taskManager <| .getPriority ·) (fun _ => TaskManager.getPriority_sent) rfl
      (Option.bind_assoc _ _ _)
  | taskSetPriority taskId priority =>
    exact .mk (fun closed hr => outcome_replyEmpty hr closed)
      (m.taskManager.setPriority ⟨taskId, priority⟩)
      Prod.fst (fun b => { m with taskManager := b.2 })
      (.taskManager <| .setPriority ·) (fun _ => TaskManager.setPriority_sent) rfl
      (Option.bind_assoc _ _ _)
  | taskGetWorkerId taskId =>
    exact .mk (fun closed hr => outcome_reply hr closed)
      (m.taskManager.getWorkerId ⟨taskId⟩) id (fun _ => m)
      (.taskManager <| .getWorkerId ·) (fun _ => TaskManager.getWorkerId_sent) rfl
      (Option.bind_assoc _ _ _)
  | taskSearchId pattern =>
    exact .mk (fun closed hr => outcome_reply hr closed)
      (some (m.taskManager.searchId re2 ⟨pattern⟩)) id (fun _ => m)
      (.taskManager <| .searchId ·) (sent_some (searchKeys_sent _ _ _)) rfl rfl
  | taskGet workerId queue =>
    exact .mk (fun closed hr => outcome_reply hr closed)
      (m.taskManager.get ⟨workerId, queue⟩) Prod.fst (fun b => { m with taskManager := b.2 })
      (.taskManager <| .get ·) (fun _ => TaskManager.getFrom_sent) rfl (Option.bind_assoc _ _ _)
  | taskDone taskId workerId output failed =>
    exact .mk (fun closed hr => outcome_replyEmpty hr closed)
      (m.taskManager.done ⟨taskId, output, workerId, failed⟩)
      Prod.fst (fun b => { m with taskManager := b.2 })
      (.taskManager <| .done ·) (fun _ => TaskManager.done_sent) rfl (Option.bind_assoc _ _ _)
  | journalSize key =>
    exact .mk (fun closed hr => outcome_reply hr closed)
      (some (m.journalMap.size ⟨key⟩)) id (fun _ => m)
      (.journalMap <| .size ·) (sent_some (m.journalMap.size_sent ⟨key⟩)) rfl rfl
  | journalRead key start «end» =>
    exact .mk (fun closed hr => outcome_reply hr closed)
      (m.journalMap.read ⟨key, start, «end»⟩) id (fun _ => m)
      (.journalMap <| .read ·) (fun _ => JournalMap.read_sent) rfl (Option.bind_assoc _ _ _)
  | journalAppend key value =>
    exact .mk (fun closed hr => outcome_replyEmpty hr closed)
      (some (m.journalMap.append ⟨key, value⟩)) Prod.fst (fun b => { m with journalMap := b.2 })
      (.journalMap <| .append ·) (sent_some (sent_ok ())) rfl rfl
  | journalSearchKey pattern =>
    exact .mk (fun closed hr => outcome_reply hr closed)
      (some (m.journalMap.searchKey re2 ⟨pattern⟩)) id (fun _ => m)
      (.journalMap <| .searchKey ·) (sent_some (searchKeys_sent _ _ _)) rfl rfl
  | timeSeriesAppend key value datetime step =>
    exact .mk (fun closed hr => outcome_replyEmpty hr closed)
      (some (m.timeSeries.append iso ⟨key, value, datetime, step⟩))
      Prod.fst (fun b => { m with timeSeries := b.2 })
      (.timeSeries <| .append ·) (sent_some (TimeSeriesMap.append_sent iso _ _)) rfl rfl
  | timeSeriesGet key startTime endTime startStep endStep =>
    -- a bound is present on the wire exactly when it was given, so the request needs its own cases
    have hdecode := Codec.decode_encode
      (TimeSeriesGetRequest.mk key startTime endTime startStep endStep)
    exact .mk (fun closed hr => outcome_reply hr closed)
      (m.timeSeries.get iso ⟨key, startTime, endTime, startStep, endStep⟩) id (fun _ => m)
      (.timeSeries <| .get ·) (fun _ => TimeSeriesMap.get_sent)
      (congrArg (fun request => (m.timeSeries.get iso request).bind fun r =>
        some (reply r Message.blank, m)) hdecode)
      (Option.bind_assoc _ _ _)
  | timeSeriesSearchKey pattern =>
    exact .mk (fun closed hr => outcome_reply hr closed)
      (some (m.timeSeries.searchKey re2 ⟨pattern⟩)) id (fun _ => m)
      (.timeSeries <| .searchKey ·) (sent_some (searchKeys_sent _ _ _)) rfl rfl
  | mutexTryAcquire key workerId =>
    exact .mk (fun closed hr => outcome_reply hr closed)
      (some (m.mutexes.tryAcquire ⟨key, workerId⟩)) Prod.fst (fun b => { m with mutexes := b.2 })
      (.mutexes <| .tryAcquire ·) (sent_some (m.mutexes.tryAcquire_sent _)) rfl rfl
  | mutexRelease key workerId =>
    exact .mk (fun closed hr => outcome_replyEmpty hr closed)
      (some (m.mutexes.release ⟨key, workerId⟩)) Prod.fst (fun b => { m with mutexes := b.2 })
      (.mutexes <| .release ·) (sent_some (m.mutexes.release_sent _)) rfl rfl
  | mutexGetWorkerId key =>
    exact .mk (fun closed hr => outcome_reply hr closed)
      (some (m.mutexes.getWorkerId ⟨key⟩)) id (fun _ => m)
      (.mutexes <| .getWorkerId ·) (sent_some (m.mutexes.getWorkerId_sent _)) rfl rfl
  | mutexSearchKey pattern =>
    exact .mk (fun closed hr => outcome_reply hr closed)
      (some (m.mutexes.searchKey re2 ⟨pattern⟩)) id (fun _ => m)
      (.mutexes <| .searchKey ·) (sent_some (searchKeys_sent _ _ _)) rfl rfl
  | counterGetNextValue key =>
    exact .mk (fun closed hr => outcome_reply hr closed)
      (some (m.counters.getNextValue ⟨key⟩)) Prod.fst (fun b => { m with counters := b.2 })
      (.counters <| .getNextValue ·) (sent_some (sent_ok _)) rfl rfl
  | counterGetCurrentValue key =>
    exact .mk (fun closed hr => outcome_reply hr closed)
      (some (m.counters.getCurrentValue ⟨key⟩)) id (fun _ => m)
      (.counters <| .getCurrentValue ·) (sent_some (sent_ok _)) rfl rfl
  | counterSearchKey pattern =>
    exact .mk (fun closed hr => outcome_reply hr closed)
      (some (m.counters.searchKey re2 ⟨pattern⟩)) id (fun _ => m)
      (.counters <| .searchKey ·) (sent_some (searchKeys_sent _ _ _)) rfl rfl

/-- **The transport is transparent.** Each method of the client returns what the core method of its
operation returns on the plain request, or throws its error, and leaves the state that it leaves. -/
theorem transport_transparent (closed : Bool) (c : ClientCall α)
    (h : Carries re2 iso ch (Client.call c) m) :
    (invoke re2 iso ch closed (Client.call c) m).map (Prod.map c.reply id)
      = m.step re2 iso c.op :=
  (answered re2 iso c m).transparent h

/-- A channel that carries a message when its texts are in ASCII. -/
def asciiChannel : Channel where
  utf8 text := text.toList.all (·.toNat < 128) = true
  size _ := 0
  maxMessageSize := 0
  send message :=
    if (Message.strings message).all fun text => text.toList.all (·.toNat < 128) then .ok message
    else .error ⟨.internal, "Error parsing request"⟩
  send_eq _ hutf8 _ := if_pos (List.all_eq_true.2 hutf8)

/-- A server with a mutex that a worker holds. -/
def heldMutex : SystemState (ListQueue (taskQueueEntryOrder (α := Nat))) Nat :=
  (sampleServer.runOf [.mutexes (.tryAcquire ⟨"k", "w"⟩)]).2

/-- A release that is refused, through the transport. -/
theorem transport_transparent_refused :
    (invoke sampleRe2 sampleIso asciiChannel true (Client.call (.mutexRelease "k" "v"))
        heldMutex).map
        (Prod.map (ClientCall.mutexRelease "k" "v").reply id)
      = some (.mutexes (.release
          (makeError .failedPrecondition "Mutex k is held by worker w, not v.")), heldMutex) := by
  refine transport_transparent true (.mutexRelease "k" "v") ⟨⟨List.all_eq_true.1 rfl, le_rfl⟩, ?_⟩
  intro status response m' hserve
  cases hserve
  exact ⟨⟨List.all_eq_true.1 rfl, le_rfl⟩, ⟨nofun, le_rfl⟩⟩

end DsService

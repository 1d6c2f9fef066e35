import DsService.Lib.Locking
import DsService.System.Keys

/-!
# Calls at the same time

Each of the six structures has a `std::mutex`, and each of its methods holds it from its first look
at the structure to its last: `std::scoped_lock guard{lock}`. Before that a search compiles its
pattern and a method of the time series parses its datetimes, and may refuse the call without the
lock. A transport serves calls on many threads, so their statements interleave.

`concurrent_calls_are_a_run` says that this does not show: what the callers see is a run of
`SystemState.machine`, which serves one call at a time. So all that is proved of runs holds of the
server as it is, however the bodies of the methods are cut into statements. No call waits forever
for a lock (`no_call_is_kept_waiting`), and counters give each number once
(`concurrent_counters_are_gap_free`).
-/

namespace DsService

variable {Q α : Type}

/-! ## The methods and their locks -/

/-- The structure that a lock guards. -/
def Store.Part (Q α : Type) : Store → Type
  | .map => Map
  | .journals => JournalMap
  | .timeSeries => TimeSeriesMap α
  | .mutexes => Mutexes
  | .counters => Counters
  | .tasks => TaskManager Q α

/-- The six structures side by side. -/
def SystemState.parts (Q α : Type) : Locking.Parts (SystemState Q α) Store (Store.Part Q α) where
  get
    | .map, m => m.map
    | .journals, m => m.journalMap
    | .timeSeries, m => m.timeSeries
    | .mutexes, m => m.mutexes
    | .counters, m => m.counters
    | .tasks, m => m.taskManager
  set
    | .map, part, m => { m with map := part }
    | .journals, part, m => { m with journalMap := part }
    | .timeSeries, part, m => { m with timeSeries := part }
    | .mutexes, part, m => { m with mutexes := part }
    | .counters, part, m => { m with counters := part }
    | .tasks, part, m => { m with taskManager := part }
  get_set {i _ _} := by cases i <;> rfl
  get_set_ne {i j _ _} h := by cases i <;> cases j <;> first | rfl | exact absurd rfl h
  ext {m m'} h := by
    obtain ⟨map, journalMap, timeSeries, mutexes, counters, taskManager⟩ := m
    obtain ⟨map', journalMap', timeSeries', mutexes', counters', taskManager'⟩ := m'
    obtain rfl : map = map' := h .map
    obtain rfl : journalMap = journalMap' := h .journals
    obtain rfl : timeSeries = timeSeries' := h .timeSeries
    obtain rfl : mutexes = mutexes' := h .mutexes
    obtain rfl : counters = counters' := h .counters
    obtain rfl : taskManager = taskManager' := h .tasks
    rfl

/-- The structure that serves a call. -/
def SystemOp.store : SystemOp α → Store
  | .map _ => .map
  | .journalMap _ => .journals
  | .timeSeries _ => .timeSeries
  | .mutexes _ => .mutexes
  | .counters _ => .counters
  | .taskManager _ => .tasks

/-- The refusal of a pattern that does not compile. -/
def refusedPattern (re2 : RE2) (request : SearchKeyRequest) : Option (Result SearchKeyResponse) :=
  match re2.compile request.pattern with
  | .error error => some (makeError .invalidArgument ("Invalid regular expression: " ++ error))
  | .ok _ => none

/-- The refusal of a datetime that does not parse. -/
def refusedDatetime (iso : Iso8601) (request : TimeSeriesAppendRequest α) : Option (Result Unit) :=
  match iso.parse request.datetime with
  | none =>
      some (makeError .invalidArgument ("Invalid ISO 8601 UTC datetime: " ++ request.datetime))
  | some _ => none

/-- The refusal of a time bound that does not parse, `start_time` before `end_time`. -/
def refusedBounds (iso : Iso8601) (request : TimeSeriesGetRequest) :
    Option (Result (TimeSeriesGetResponse α)) :=
  match TimeSeriesMap.timeBound iso "start_time" request.startTime with
  | .error error => some (.error error)
  | .ok _ =>
      match TimeSeriesMap.timeBound iso "end_time" request.endTime with
      | .error error => some (.error error)
      | .ok _ => none

/-- The reply that a method returns before it takes the lock, if it does. -/
def SystemOp.refusal (re2 : RE2) (iso : Iso8601) : SystemOp α → Option (SystemReply α)
  | .map (.searchKey request) => (refusedPattern re2 request).map fun r => .map (.searchKey r)
  | .journalMap (.searchKey request) =>
      (refusedPattern re2 request).map fun r => .journalMap (.searchKey r)
  | .timeSeries (.searchKey request) =>
      (refusedPattern re2 request).map fun r => .timeSeries (.searchKey r)
  | .mutexes (.searchKey request) =>
      (refusedPattern re2 request).map fun r => .mutexes (.searchKey r)
  | .counters (.searchKey request) =>
      (refusedPattern re2 request).map fun r => .counters (.searchKey r)
  | .taskManager (.searchId request) =>
      (refusedPattern re2 request).map fun r => .taskManager (.searchId r)
  | .timeSeries (.append request) =>
      (refusedDatetime iso request).map fun r => .timeSeries (.append r)
  | .timeSeries (.get request) => (refusedBounds iso request).map fun r => .timeSeries (.get r)
  | _ => none

variable [LinearOrder α] [PriorityQueue Q (TaskQueueEntry α) taskQueueEntryOrder]

/-- What a call does to the structure that serves it. -/
def SystemOp.serve (re2 : RE2) (iso : Iso8601) : (op : SystemOp α) →
    op.store.Part Q α → Option (SystemReply α × op.store.Part Q α)
  | .map op, (part : Map) => (part.step re2 op).map fun (r, part) => (.map r, part)
  | .journalMap op, (part : JournalMap) =>
      (part.step re2 op).map fun (r, part) => (.journalMap r, part)
  | .timeSeries op, (part : TimeSeriesMap α) =>
      (part.step re2 iso op).map fun (r, part) => (.timeSeries r, part)
  | .mutexes op, (part : Mutexes) => (part.step re2 op).map fun (r, part) => (.mutexes r, part)
  | .counters op, (part : Counters) => (part.step re2 op).map fun (r, part) => (.counters r, part)
  | .taskManager op, (part : TaskManager Q α) =>
      (part.step re2 op).map fun (r, part) => (.taskManager r, part)

/-- The bodies of all methods as statements. -/
abbrev Cuts (Q : Type) {α : Type} [LinearOrder α]
    [PriorityQueue Q (TaskQueueEntry α) taskQueueEntryOrder] (re2 : RE2) (iso : Iso8601) :=
  (op : SystemOp α) → Locking.Cut (op.serve (Q := Q) re2 iso)

section statements
open Locking

/-- `std::uint64_t& counter = data[request.key]; return {++counter};` -/
def Counters.getNextValueCut (re2 : RE2) (request : CounterGetNextValueRequest) :
    Cut fun self : Counters => self.step re2 (.getNextValue request) where
  body :=
    .stmt (fun self => match self.data.lookup request.key with
        | none => { self with data := self.data.insert request.key 0 }
        | some _ => self) fun _ =>
    .stmt (fun self =>
        ⟨self.data.insert request.key (((self.data.lookup request.key).getD 0 + 1) % 2 ^ 64)⟩)
      fun self =>
    .ret (.getNextValue (.ok ⟨((self.data.lookup request.key).getD 0 + 1) % 2 ^ 64⟩))
  run_eq self := by
    simp only [Body.run, step, getNextValue]
    cases hl : self.data.lookup request.key with
    | none => simp
    | some counter => simp [hl]

/-- `MutexState& mutex = data[key]`, the test of `mutex.held`, and the two writes. -/
def Mutexes.tryAcquireCut (re2 : RE2) (request : MutexTryAcquireRequest) :
    Cut fun self : Mutexes => self.step re2 (.tryAcquire request) where
  body :=
    .stmt (fun self => match self.data.lookup request.key with
        | none => { self with data := self.data.insert request.key {} }
        | some _ => self) fun _ =>
    .stmt id fun self =>
      if ((self.data.lookup request.key).getD {}).held then .ret (.tryAcquire (.ok ⟨false⟩)) else
    .stmt (fun self => ⟨self.data.insert request.key
        { (self.data.lookup request.key).getD {} with held := true }⟩) fun _ =>
    .stmt (fun self => ⟨self.data.insert request.key
        { (self.data.lookup request.key).getD {} with workerId := request.workerId }⟩) fun _ =>
    .ret (.tryAcquire (.ok ⟨true⟩))
  run_eq self := by
    simp only [Body.run, step, tryAcquire]
    cases hl : self.data.lookup request.key with
    | none => simp [Body.run]
    | some mutex => cases hm : mutex.held <;> simp [Body.run, hl, hm]

/-- `data[key].push_back(value)`, which creates the journal first. -/
def JournalMap.appendCut (re2 : RE2) (request : JournalAppendRequest) :
    Cut fun self : JournalMap => self.step re2 (.append request) where
  body :=
    .stmt (fun self => match self.data.lookup request.key with
        | none => { self with data := self.data.insert request.key [] }
        | some _ => self) fun _ =>
    .stmt (fun self => ⟨self.data.insert request.key
        ((self.data.lookup request.key).getD [] ++ [request.value])⟩) fun _ =>
    .ret (.append (.ok ()))
  run_eq self := by
    simp only [Body.run, step, append]
    cases hl : self.data.lookup request.key with
    | none => simp
    | some journal => simp [hl]

/-- The methods that look a key up and then write it, by the statements of the source; the others
in one. -/
def sourceCuts (re2 : RE2) (iso : Iso8601) : Cuts Q (α := α) re2 iso
  | .counters (.getNextValue request) =>
      (Counters.getNextValueCut re2 request).mapReply SystemReply.counters
  | .mutexes (.tryAcquire request) =>
      (Mutexes.tryAcquireCut re2 request).mapReply SystemReply.mutexes
  | .journalMap (.append request) =>
      (JournalMap.appendCut re2 request).mapReply SystemReply.journalMap
  | _ => .whole _

end statements

/-- A method: what it may refuse without the lock, and its body under the lock. -/
def SystemOp.method {re2 : RE2} {iso : Iso8601} (cuts : Cuts Q re2 iso) (op : SystemOp α) :
    Locking.Method Store (Store.Part Q α) (SystemReply α) :=
  match op.refusal re2 iso with
  | some r => .refuse r
  | none => .locked op.store (cuts op).body

/-- A call that is refused before its lock leaves the whole state alone. -/
theorem SystemOp.step_refusal {re2 : RE2} {iso : Iso8601} {op : SystemOp α} {r : SystemReply α}
    (h : op.refusal re2 iso = some r) (m : SystemState Q α) :
    SystemState.step re2 iso m op = some (r, m) := by
  have hpattern : ∀ {request r} (keys : List String), refusedPattern re2 request = some r →
      searchKeys re2 keys request = r := by
    intro request r keys hr
    unfold refusedPattern at hr
    unfold searchKeys
    cases hc : re2.compile request.pattern with
    | error e =>
        rw [hc] at hr
        cases hr
        rfl
    | ok pattern =>
        rw [hc] at hr
        cases hr
  cases op with
  | map op | journalMap op | mutexes op | counters op =>
      cases op with
      | searchKey request =>
          obtain ⟨result, hr, rfl⟩ := Option.map_eq_some_iff.1 h
          rw [← hpattern _ hr]
          rfl
      | _ => cases h
  | taskManager op =>
      cases op with
      | searchId request =>
          obtain ⟨result, hr, rfl⟩ := Option.map_eq_some_iff.1 h
          rw [← hpattern _ hr]
          rfl
      | _ => cases h
  | timeSeries op =>
      cases op with
      | searchKey request =>
          obtain ⟨result, hr, rfl⟩ := Option.map_eq_some_iff.1 h
          rw [← hpattern m.timeSeries.data.keys hr]
          rfl
      | append request =>
          obtain ⟨result, hr, rfl⟩ := Option.map_eq_some_iff.1 h
          unfold refusedDatetime at hr
          split at hr
          · next hparse =>
              cases hr
              simp [SystemState.step, TimeSeriesMap.step, TimeSeriesMap.append, hparse]
          · cases hr
      | get request =>
          obtain ⟨result, hr, rfl⟩ := Option.map_eq_some_iff.1 h
          unfold refusedBounds at hr
          split at hr
          · next hstart =>
              cases hr
              simp [SystemState.step, TimeSeriesMap.step, TimeSeriesMap.get, hstart]
          · next hstart =>
              split at hr
              · next hend =>
                  cases hr
                  simp [SystemState.step, TimeSeriesMap.step, TimeSeriesMap.get, hstart, hend]
              · cases hr

/-- The body under the lock is the step of the core on the store of the call. -/
theorem SystemOp.step_serve (re2 : RE2) (iso : Iso8601) (op : SystemOp α) (m : SystemState Q α) :
    (op.serve re2 iso ((SystemState.parts Q α).get op.store m)).map
        (fun (r, part) => (r, (SystemState.parts Q α).set op.store part m)) =
      SystemState.step re2 iso m op := by
  cases op <;>
    simp only [serve, store, SystemState.parts, SystemState.step, Option.bind_eq_bind,
      Option.map_map] <;>
    rw [Option.map_eq_bind] <;> rfl

/-- **One call at a time, the methods are the machine.** -/
theorem SystemState.machine_eq {re2 : RE2} {iso : Iso8601} (cuts : Cuts Q re2 iso) :
    (parts Q α).machine (SystemOp.method cuts) {} = machine Q re2 iso := by
  refine congrArg (Machine.mk _) (funext fun m => funext fun op => ?_)
  cases hr : op.refusal re2 iso with
  | some r =>
      rw [show op.method cuts = .refuse r by simp [SystemOp.method, hr], op.step_refusal hr]
  | none =>
      rw [show op.method cuts = .locked op.store (cuts op).body by simp [SystemOp.method, hr]]
      dsimp only
      rw [(cuts op).run_eq, op.step_serve]

/-- Every call on a server that is reached by calls is defined. -/
theorem SystemState.step_defined {re2 : RE2} {iso : Iso8601} {es : List (SystemEvent Q α)}
    {m : SystemState Q α} (h : (machine Q re2 iso).Run es m) (op : SystemOp α) :
    ∃ r m', (machine Q re2 iso).step m op = some (r, m') := by
  cases op with
  | map op =>
      obtain ⟨r, map, hs⟩ := m.map.step_defined re2 op
      exact ⟨.map r, _, by simp only [machine, step, hs]; rfl⟩
  | journalMap op =>
      obtain ⟨r, journalMap, hs⟩ := m.journalMap.step_defined re2 op
      exact ⟨.journalMap r, _, by simp only [machine, step, hs]; rfl⟩
  | timeSeries op =>
      obtain ⟨r, timeSeries, hs⟩ := m.timeSeries.step_defined re2 iso op
      exact ⟨.timeSeries r, _, by simp only [machine, step, hs]; rfl⟩
  | mutexes op =>
      obtain ⟨r, mutexes, hs⟩ := m.mutexes.step_defined re2 op
      exact ⟨.mutexes r, _, by simp only [machine, step, hs]; rfl⟩
  | counters op =>
      obtain ⟨r, counters, hs⟩ := m.counters.step_defined re2 op
      exact ⟨.counters r, _, by simp only [machine, step, hs]; rfl⟩
  | taskManager op =>
      obtain ⟨es', hrun, -⟩ := taskRun h
      have hsim := TaskManager.simulation (Q := Q) (α := α) re2
      obtain ⟨s, hc⟩ := hsim.run hrun
      obtain ⟨r, taskManager, -, hs, -⟩ := hsim.step op hc.related
      have hs : m.taskManager.step re2 op = some (r, taskManager) := hs
      exact ⟨.taskManager r, _, by simp only [machine, step, hs]; rfl⟩

/-! ## What the callers see -/

/-- What the callers of the server see. -/
abbrev SystemVisible (κ α : Type) := Locking.Visible κ (SystemOp α) (SystemReply α)

/-- An execution of the server on many threads, from its start. -/
abbrev SystemExec {κ : Type} [DecidableEq κ] {re2 : RE2} {iso : Iso8601} (cuts : Cuts Q re2 iso) :
    List (SystemVisible κ α) →
      Locking.Config (SystemState Q α) Store κ (Store.Part Q α) (SystemOp α) (SystemReply α) →
      Prop :=
  Locking.Exec (SystemState.parts Q α) (SystemOp.method cuts) {}

variable {κ : Type} [DecidableEq κ] {re2 : RE2} {iso : Iso8601} {cuts : Cuts Q re2 iso}
  {H : List (SystemVisible κ α)}
  {c : Locking.Config (SystemState Q α) Store κ (Store.Part Q α) (SystemOp α) (SystemReply α)}

/-- **Calls at the same time are a run of the server.** However the bodies of the methods are cut
into statements and however the statements of the calls interleave: there is a run of the server,
one call at a time, that serves every call that was answered with the reply that was sent, and
besides them only calls that have been made, each once. A call made after another was answered comes
after it in this run. While no lock is held the server is in the state the run leads to. -/
theorem concurrent_calls_are_a_run (h : SystemExec cuts H c) :
    ∃ l m, Locking.Linearizes (SystemState.machine Q re2 iso) H l m ∧
      ((∀ store, c.owner store = none) → c.state = m) := by
  obtain ⟨l, m, hlin, hstate⟩ := Locking.Exec.linearizes h
  rw [SystemState.machine_eq] at hlin
  exact ⟨l, m, hlin, hstate⟩

/-- **No call is kept waiting.** Whatever calls are under way and wherever their threads stand,
every call that was made and not answered can be answered, with no other call made or answered
first. -/
theorem no_call_is_kept_waiting (h : SystemExec cuts H c) {k : κ} (hmade : c.phase k ≠ .absent)
    (hopen : c.phase k ≠ .answered) :
    ∃ r c', Locking.Turns (SystemState.parts Q α) (SystemOp.method cuts) c [.answer k r] c' := by
  refine Locking.Exec.exists_answered (fun op hrun => ?_) h hmade hopen
  rw [SystemState.machine_eq] at hrun ⊢
  exact SystemState.step_defined hrun op

/-! ## Two calls at once -/

/-- Executions of a server that can be run. -/
abbrev SampleExec := SystemExec (κ := Nat)
  (sourceCuts (Q := ListQueue (taskQueueEntryOrder (α := Nat))) sampleRe2 sampleIso)

/-- The call that asks for the next number of one counter. -/
def nextNumber : SystemOp Nat := .counters (.getNextValue ⟨"n"⟩)

/-- The reply with a number. -/
def numbered (value : Nat) : SystemReply Nat := .counters (.getNextValue (.ok ⟨value⟩))

/-- Two calls ask for a number, and the second is ahead with its first statement. -/
theorem sampleExec_waiting : ∃ c, SampleExec [.call 0 nextNumber, .call 1 nextNumber] c ∧
    c.owner .counters = some 1 ∧ ∃ op store body, c.phase 0 = .waiting op store body := by
  have h₀ : SampleExec [] _ := .start
  have h₁ := h₀.turn (.arrive (k := 0) nextNumber rfl)
  have h₂ := h₁.turn (.arrive (k := 1) nextNumber rfl)
  have h₃ := h₂.turn (.prepare (k := 0) rfl rfl)
  have h₄ := h₃.turn (.prepare (k := 1) rfl rfl)
  have h₅ := h₄.turn (.lock (k := 1) rfl rfl)
  have h₆ := h₅.turn (.stmt (k := 1) rfl)
  exact ⟨_, h₆, rfl, _, _, _, rfl⟩

/-- The second call gets its number first and is answered while the first is under way. -/
theorem sampleExec_overlapping : ∃ c, SampleExec [.call 0 nextNumber, .call 1 nextNumber,
    .answer 1 (numbered 1), .answer 0 (numbered 2)] c := by
  have h₀ : SampleExec [] _ := .start
  have h₁ := h₀.turn (.arrive (k := 0) nextNumber rfl)
  have h₂ := h₁.turn (.arrive (k := 1) nextNumber rfl)
  have h₃ := h₂.turn (.prepare (k := 0) rfl rfl)
  have h₄ := h₃.turn (.prepare (k := 1) rfl rfl)
  have h₅ := h₄.turn (.lock (k := 1) rfl rfl)
  have h₆ := h₅.turn (.stmt (k := 1) rfl)
  have h₇ := h₆.turn (.stmt (k := 1) rfl)
  have h₈ := h₇.turn (.unlock (k := 1) rfl)
  have h₉ := h₈.turn (.lock (k := 0) rfl rfl)
  have h₁₀ := h₉.turn (.stmt (k := 0) rfl)
  have h₁₁ := h₁₀.turn (.answer (k := 1) rfl)
  have h₁₂ := h₁₁.turn (.stmt (k := 0) rfl)
  have h₁₃ := h₁₂.turn (.unlock (k := 0) rfl)
  exact ⟨_, h₁₃.turn (.answer (k := 0) rfl)⟩

/-- Two numbers are taken at once, and the one that was asked for second is answered first. -/
theorem concurrent_calls_are_a_run_overlapping : ∃ l m, Locking.Linearizes sampleServer
    [.call 0 nextNumber, .call 1 nextNumber, .answer 1 (numbered 1), .answer 0 (numbered 2)]
    l m := by
  obtain ⟨c, h⟩ := sampleExec_overlapping
  obtain ⟨l, m, hl, -⟩ := concurrent_calls_are_a_run h
  exact ⟨l, m, hl⟩

/-- A call that waits for a lock held by another call is answered all the same. -/
theorem no_call_is_kept_waiting_behind : ∃ c r c',
    SampleExec [.call 0 nextNumber, .call 1 nextNumber] c ∧ c.owner .counters = some 1 ∧
      Locking.Turns (SystemState.parts _ Nat) (SystemOp.method (sourceCuts sampleRe2 sampleIso)) c
        [.answer 0 r] c' := by
  obtain ⟨c, h, howner, op, store, body, hphase⟩ := sampleExec_waiting
  obtain ⟨r, c', hturns⟩ := no_call_is_kept_waiting h (k := 0) (by simp [hphase])
    (by simp [hphase])
  exact ⟨c, r, c', h, howner, hturns⟩

end DsService

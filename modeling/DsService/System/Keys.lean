import DsService.Core.SystemState
import DsService.Lib.History
import DsService.Store.Ownership
import DsService.Store.TimeSeries
import DsService.System.Refusal

/-!
# The keys of the stores

A search reports the keys of a store, and a store gets a key in one place only: where a call writes
under it. `SystemOp.writes` says which calls these are, `SystemState.step_keys` that a call adds the
key that it writes and no other and removes none, and `keys_appear_when_written` what every search
returns, from the history alone. The ids of the tasks are the rows of the table, so here the search
rests on the runs of the task manager, which are parts of the runs of the server (`taskRun`).
-/

namespace DsService

variable {Q α : Type}

/-! ## Writes -/

/-- The six stores of the server. -/
inductive Store where
  | map
  | journals
  | timeSeries
  | mutexes
  | counters
  | tasks
deriving DecidableEq

/-- The key under which a call writes. -/
def MapOp.writes : MapOp → Option String
  | .set request => some request.key
  | _ => none

def JournalOp.writes : JournalOp → Option String
  | .append request => some request.key
  | _ => none

/-- An append writes if its datetime parses. -/
def TimeSeriesOp.writes (iso : Iso8601) : TimeSeriesOp α → Option String
  | .append request => if (iso.parse request.datetime).isSome then some request.key else none
  | _ => none

/-- A `mutex_try_acquire` writes whether it succeeds or not. -/
def MutexOp.writes : MutexOp → Option String
  | .tryAcquire request => some request.key
  | _ => none

def CounterOp.writes : CounterOp → Option String
  | .getNextValue request => some request.key
  | _ => none

/-- The store and the key under which a call writes. A `task_add` writes if it succeeds. -/
def SystemOp.writes (iso : Iso8601) : SystemOp α → SystemReply α → Option (Store × String)
  | .map op, _ => op.writes.map (.map, ·)
  | .journalMap op, _ => op.writes.map (.journals, ·)
  | .timeSeries op, _ => (op.writes iso).map (.timeSeries, ·)
  | .mutexes op, _ => op.writes.map (.mutexes, ·)
  | .counters op, _ => op.writes.map (.counters, ·)
  | .taskManager op, .taskManager r => (op.added r).map fun request => (.tasks, request.taskId)
  | _, _ => none

/-! ## One call -/

section

variable {re2 : RE2} {iso : Iso8601} {k : String}

/-- A set adds its key. -/
theorem Map.step_keys {self self' : Map} {op : MapOp} {r : MapReply}
    (h : self.step re2 op = some (r, self')) :
    k ∈ self'.data ↔ k ∈ self.data ∨ op.writes = some k := by
  cases op with
  | set request =>
      cases h
      simp [MapOp.writes, AList.mem_insert, or_comm, eq_comm]
  | get | searchKey =>
      cases h
      simp [MapOp.writes]

/-- An append adds its key. -/
theorem JournalMap.step_keys {self self' : JournalMap} {op : JournalOp} {r : JournalReply}
    (h : self.step re2 op = some (r, self')) :
    k ∈ self'.data ↔ k ∈ self.data ∨ op.writes = some k := by
  cases op with
  | append request =>
      cases h
      simp [JournalOp.writes, AList.mem_insert, or_comm, eq_comm]
  | read request =>
      obtain ⟨_, -, heq⟩ := Option.bind_eq_some_iff.1 h
      cases heq
      simp [JournalOp.writes]
  | size | searchKey =>
      cases h
      simp [JournalOp.writes]

/-- An append adds its key if its datetime is parsed. -/
theorem TimeSeriesMap.step_keys {self self' : TimeSeriesMap α} {op : TimeSeriesOp α}
    {r : TimeSeriesReply α} (h : self.step re2 iso op = some (r, self')) :
    k ∈ self'.data ↔ k ∈ self.data ∨ op.writes iso = some k := by
  cases op with
  | append request =>
      simp only [step, append] at h
      split at h
      · next hparse =>
          cases h
          simp [TimeSeriesOp.writes, hparse]
      · next tp hparse =>
          cases h
          simp [TimeSeriesOp.writes, hparse, AList.mem_insert, or_comm, eq_comm]
  | get request =>
      obtain ⟨_, -, heq⟩ := Option.bind_eq_some_iff.1 h
      cases heq
      simp [TimeSeriesOp.writes]
  | searchKey =>
      cases h
      simp [TimeSeriesOp.writes]

/-- A release keeps its key, and an acquire that fails found it there. -/
theorem Mutexes.step_keys {self self' : Mutexes} {op : MutexOp} {r : MutexReply}
    (h : self.step re2 op = some (r, self')) :
    k ∈ self'.data ↔ k ∈ self.data ∨ op.writes = some k := by
  have hwrites : op.writes = some k ↔ ∃ w, op = .tryAcquire ⟨k, w⟩ := by
    cases op with
    | tryAcquire request =>
        obtain ⟨key, workerId⟩ := request
        simp [MutexOp.writes]
    | _ => simp [MutexOp.writes]
  rw [hwrites, ← AList.lookup_isSome, ← AList.lookup_isSome]
  rcases step_turn h k with ⟨-, hcell, hold⟩ | ⟨w, rfl, -, -, hcell⟩ | ⟨w, rfl, -, hheld, hcell⟩
  · rw [hcell]
    refine ⟨.inl, ?_⟩
    rintro (hk | ⟨w, hop⟩)
    · exact hk
    · exact Option.isSome_iff_ne_none.2 (hold w hop)
  · simp [hcell]
  · simp [hcell, hheld]

/-- Taking a value adds its key. -/
theorem Counters.step_keys {self self' : Counters} {op : CounterOp} {r : CounterReply}
    (h : self.step re2 op = some (r, self')) :
    k ∈ self'.data ↔ k ∈ self.data ∨ op.writes = some k := by
  cases op with
  | getNextValue request =>
      cases h
      simp [CounterOp.writes, AList.mem_insert, or_comm, eq_comm]
  | getCurrentValue | searchKey =>
      cases h
      simp [CounterOp.writes]

end

/-! ## The server -/

/-- The search of a store. -/
def Store.search (pattern : String) : Store → SystemOp α
  | .map => .map (.searchKey ⟨pattern⟩)
  | .journals => .journalMap (.searchKey ⟨pattern⟩)
  | .timeSeries => .timeSeries (.searchKey ⟨pattern⟩)
  | .mutexes => .mutexes (.searchKey ⟨pattern⟩)
  | .counters => .counters (.searchKey ⟨pattern⟩)
  | .tasks => .taskManager (.searchId ⟨pattern⟩)

/-- The reply to the search of a store. -/
def Store.found (result : Result SearchKeyResponse) : Store → SystemReply α
  | .map => .map (.searchKey result)
  | .journals => .journalMap (.searchKey result)
  | .timeSeries => .timeSeries (.searchKey result)
  | .mutexes => .mutexes (.searchKey result)
  | .counters => .counters (.searchKey result)
  | .tasks => .taskManager (.searchId result)

/-- An event of the server. -/
abbrev SystemEvent (Q α : Type) := Machine.Event (SystemState Q α) (SystemOp α) (SystemReply α)

/-- Some call of the history wrote under the key `k` of the store. -/
def Written (iso : Iso8601) (store : Store) (k : String) (es : List (SystemEvent Q α)) : Prop :=
  ∃ e ∈ es, e.op.writes iso e.reply = some (store, k)

/-- A key is written by an earlier call or by the last one. -/
theorem written_snoc {iso : Iso8601} {store : Store} {k : String} {es : List (SystemEvent Q α)}
    {e : SystemEvent Q α} : Written iso store k (es ++ [e]) ↔
      Written iso store k es ∨ e.op.writes iso e.reply = some (store, k) :=
  Machine.exists_snoc

/-- The call on the task manager that a call on the server is. -/
def SystemOp.taskCall : SystemOp α → SystemReply α → Option (TaskOp α × TaskReply α)
  | .taskManager op, .taskManager r => some (op, r)
  | _, _ => none

namespace SystemState

/-- The keys of a store, as its search sees them. -/
def keys (m : SystemState Q α) : Store → List String
  | .map => m.map.data.keys
  | .journals => m.journalMap.data.keys
  | .timeSeries => m.timeSeries.data.keys
  | .mutexes => m.mutexes.data.keys
  | .counters => m.counters.data.keys
  | .tasks => m.taskManager.tasks.taskId

variable [LinearOrder α] [PriorityQueue Q (TaskQueueEntry α) taskQueueEntryOrder]
variable {re2 : RE2} {iso : Iso8601} {m m' : SystemState Q α} {op : SystemOp α} {r : SystemReply α}
  {es : List (SystemEvent Q α)} {k : String}

/-- A search of any store is the same search over its keys. -/
theorem step_search (re2 : RE2) (iso : Iso8601) (m : SystemState Q α) (store : Store)
    (pattern : String) :
    step re2 iso m (store.search pattern) =
      some (store.found (searchKeys re2 (m.keys store) ⟨pattern⟩), m) := by
  cases store <;> rfl

/-- **A call adds the key under which it writes and no other, and removes none.** -/
theorem step_keys (h : step re2 iso m op = some (r, m')) {store : Store} (hstore : store ≠ .tasks) :
    k ∈ m'.keys store ↔ k ∈ m.keys store ∨ op.writes iso r = some (store, k) := by
  cases step_served h with
  | map hs =>
      have hkeys := Map.step_keys (k := k) hs
      cases store <;> simp_all [keys, SystemOp.writes, AList.mem_keys]
  | journalMap hs =>
      have hkeys := JournalMap.step_keys (k := k) hs
      cases store <;> simp_all [keys, SystemOp.writes, AList.mem_keys]
  | timeSeries hs =>
      have hkeys := TimeSeriesMap.step_keys (k := k) hs
      cases store <;> simp_all [keys, SystemOp.writes, AList.mem_keys]
  | mutexes hs =>
      have hkeys := Mutexes.step_keys (k := k) hs
      cases store <;> simp_all [keys, SystemOp.writes, AList.mem_keys]
  | counters hs =>
      have hkeys := Counters.step_keys (k := k) hs
      cases store <;> simp_all [keys, SystemOp.writes, AList.mem_keys]
  | taskManager hs => cases store <;> simp_all [keys, SystemOp.writes]

/-- **The calls on the task manager are a run of the task manager.** -/
theorem taskRun (h : (machine Q re2 iso).Run es m) :
    ∃ es', (TaskManager.machine Q re2).Run es' m.taskManager ∧
      es'.map Machine.Event.call = es.filterMap fun e => e.op.taskCall e.reply := by
  obtain ⟨es', n, hrun, hcalls, rfl⟩ := h.project (N := TaskManager.machine Q re2)
    SystemOp.taskCall (R := fun m n => m.taskManager = n) rfl
    (fun {m m' n op r o r'} hR hs hview => by
      cases step_served hs with
      | taskManager htask =>
          cases hview
          exact ⟨_, hR ▸ htask, rfl⟩
      | _ => cases hview)
    (fun {m m' n op r} hR hs hview => by
      cases step_served hs with
      | taskManager htask => cases hview
      | _ => exact hR)
  exact ⟨es', hrun, hcalls⟩

/-- The ids of the tasks are those of the successful `task_add` calls, each once. -/
theorem taskIds (h : (machine Q re2 iso).Run es m) :
    (m.keys .tasks).Nodup ∧ ∀ k, k ∈ m.keys .tasks ↔ Written iso .tasks k es := by
  obtain ⟨es', hrun, hcalls⟩ := taskRun h
  obtain ⟨s, hc⟩ := TaskManager.exists_taskRun hrun
  have hids : m.keys .tasks = (adds es').map (·.taskId) := hc.taskId_eq
  have hadds : adds es' = es.filterMap fun e => (e.op.taskCall e.reply).bind fun c =>
      c.1.added c.2 := by
    have hcall : adds es' = (es'.map Machine.Event.call).filterMap fun c => c.1.added c.2 := by
      rw [List.filterMap_map]
      rfl
    rw [hcall, hcalls, List.filterMap_filterMap]
  refine ⟨hids ▸ hc.taskId_nodup, fun k => ?_⟩
  rw [hids, hadds]
  simp only [List.mem_map, List.mem_filterMap]
  constructor
  · rintro ⟨request, ⟨⟨pre, op', r', post⟩, he, hadd⟩, rfl⟩
    refine ⟨_, he, ?_⟩
    obtain ⟨⟨op, r⟩, hcall, hrequest⟩ := Option.bind_eq_some_iff.1 hadd
    cases op' <;> cases r' <;> cases hcall
    simp only [SystemOp.writes, hrequest, Option.map_some]
  · rintro ⟨e, he, hw⟩
    obtain ⟨pre, op', r', post⟩ := e
    cases op' with
    | taskManager op =>
        cases r' with
        | taskManager r =>
            simp only [SystemOp.writes, Option.map_eq_some_iff, Prod.mk.injEq, true_and] at hw
            obtain ⟨request, hadd, rfl⟩ := hw
            exact ⟨request, ⟨_, he, hadd⟩, rfl⟩
        | _ => cases hw
    | _ => simp [SystemOp.writes] at hw

/-- **The keys of a store are those that were written, each once.** -/
theorem keys_written (h : (machine Q re2 iso).Run es m) (store : Store) :
    (m.keys store).Nodup ∧ ∀ k, k ∈ m.keys store ↔ Written iso store k es := by
  by_cases hstore : store = .tasks
  · rw [hstore]
    exact taskIds h
  · constructor
    · cases store with
      | map => exact m.map.data.keys_nodup
      | journals => exact m.journalMap.data.keys_nodup
      | timeSeries => exact m.timeSeries.data.keys_nodup
      | mutexes => exact m.mutexes.data.keys_nodup
      | counters => exact m.counters.data.keys_nodup
      | tasks => exact absurd rfl hstore
    · intro k
      induction h with
      | nil =>
          refine ⟨fun hk => ?_, fun ⟨e, he, _⟩ => by cases he⟩
          cases store <;> cases hk
      | snoc _ hs ih => rw [step_keys hs hstore, written_snoc, ih]

/-- A refused call writes nothing. -/
theorem writes_refused (h : step re2 iso m op = some (r, m')) (hr : r.error.isSome = true) :
    op.writes iso r = none := by
  cases step_served h with
  | @map op _ _ hs =>
      cases op with
      | set request => cases hs; cases hr
      | _ => rfl
  | @journalMap op _ _ hs =>
      cases op with
      | append request => cases hs; cases hr
      | _ => rfl
  | @timeSeries op _ _ hs =>
      cases op with
      | append request =>
          rcases TimeSeriesMap.append_cases iso m.timeSeries request with ⟨e, hparse, -⟩ |
            ⟨tp, self', -, happend, -⟩
          · simp [SystemOp.writes, TimeSeriesOp.writes, hparse]
          · simp only [TimeSeriesMap.step, happend] at hs
            cases hs
            cases hr
      | _ => rfl
  | @mutexes op _ _ hs =>
      cases op with
      | tryAcquire request =>
          rcases m.mutexes.tryAcquire_refused request with hacquire | ⟨self', hacquire⟩ <;>
            · simp only [Mutexes.step, hacquire] at hs
              cases hs
              cases hr
      | _ => rfl
  | @counters op _ _ hs =>
      cases op with
      | getNextValue request => cases hs; cases hr
      | _ => rfl
  | @taskManager op reply _ hs =>
      show Option.map _ (op.added reply) = none
      cases hadd : op.added reply with
      | none => rfl
      | some request =>
          obtain ⟨rfl, rfl⟩ := TaskOp.added_eq_some hadd
          cases hr

end SystemState

/-- **Keys appear exactly when written.** After every run and for every pattern that compiles, the
search of a store returns the keys that match and under which some call of the run wrote into this
store, each once. Each call of the run adds the key under which it writes to the store and no other,
and removes none; one that is answered with an error adds none. -/
theorem keys_appear_when_written [LinearOrder α]
    [PriorityQueue Q (TaskQueueEntry α) taskQueueEntryOrder] {re2 : RE2} {iso : Iso8601}
    {es : List (SystemEvent Q α)} {m : SystemState Q α}
    (h : (SystemState.machine Q re2 iso).Run es m) :
    (∀ store pattern isMatch, re2.compile pattern = .ok isMatch →
      ∃ keys, (SystemState.machine Q re2 iso).step m (store.search pattern) =
          some (store.found (.ok ⟨keys⟩), m) ∧ keys.Nodup ∧
        ∀ k, k ∈ keys ↔ isMatch k = true ∧ Written iso store k es) ∧
    ∀ e ∈ es, (∀ store k, k ∈ e.post.keys store ↔
        k ∈ e.pre.keys store ∨ e.op.writes iso e.reply = some (store, k)) ∧
      (e.reply.error.isSome = true → e.op.writes iso e.reply = none) := by
  refine ⟨fun store pattern isMatch hpattern => ?_, fun e he => ?_⟩
  · obtain ⟨hnodup, hkeys⟩ := SystemState.keys_written h store
    refine ⟨(m.keys store).filter isMatch, ?_, hnodup.filter _, fun k => ?_⟩
    · have hsearch := m.step_search re2 iso store pattern
      rw [searchKeys, hpattern] at hsearch
      exact hsearch
    · rw [List.mem_filter, hkeys, and_comm]
  · obtain ⟨es₁, es₂, rfl⟩ := List.append_of_mem he
    obtain ⟨hrun, hs⟩ := h.split
    have hpost := Machine.Run.snoc hrun hs
    refine ⟨fun store k => ?_, SystemState.writes_refused hs⟩
    rw [(SystemState.keys_written hrun store).2, (SystemState.keys_written hpost store).2,
      written_snoc]

/-- Calls that write, calls that read under other keys, and refused ones. -/
def someWrites : List (SystemOp Nat) :=
  [.map (.set ⟨"a", "1"⟩), .map (.get ⟨"b"⟩), .mutexes (.tryAcquire ⟨"k", "w"⟩),
    .mutexes (.tryAcquire ⟨"k", "v"⟩), .mutexes (.release ⟨"k", "w"⟩),
    .mutexes (.getWorkerId ⟨"j"⟩),
    .timeSeries (.append ⟨"t", .num 1, "late", 0⟩),
    .taskManager (.add ⟨"x", [], ["q"], .num 0, "f", ""⟩),
    .taskManager (.add ⟨"y", ["z"], ["q"], .num 0, "f", ""⟩), .taskManager (.cancel ⟨"x"⟩)]

/-- The ids of a run in which some adds are refused. -/
theorem keys_appear_when_written_some :
    ∃ keys, sampleServer.step (sampleServer.runOf someWrites).2 (Store.tasks.search "") =
        some (Store.tasks.found (.ok ⟨keys⟩), (sampleServer.runOf someWrites).2) ∧ keys.Nodup ∧
      ∀ k, k ∈ keys ↔ Written sampleIso .tasks k (sampleServer.runOf someWrites).1 := by
  have hrun := Machine.run_runOf (M := sampleServer) someWrites rfl
  obtain ⟨keys, hsearch, hnodup, hkeys⟩ :=
    (keys_appear_when_written hrun).1 .tasks "" (fun _ => true) rfl
  exact ⟨keys, hsearch, hnodup, fun k => (hkeys k).trans (and_iff_right rfl)⟩

end DsService

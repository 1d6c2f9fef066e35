import DsService.Core.Stores
import DsService.Core.TaskManager

/-!
# The state of the server

`SystemState` of `core/system-state.hpp`: the six top level structures side by side. A call names
one of them and is served under its lock. The `shutdown` flag is left out, since no operation reads
it.
-/

namespace DsService

/-- Every top level data structure the server holds. -/
structure SystemState (Q α : Type) where
  map : Map := {}
  journalMap : JournalMap := {}
  timeSeries : TimeSeriesMap α := {}
  mutexes : Mutexes := {}
  counters : Counters := {}
  taskManager : TaskManager Q α := {}

/-- The operations of the server. -/
inductive SystemOp (α : Type) where
  | map (op : MapOp)
  | journalMap (op : JournalOp)
  | timeSeries (op : TimeSeriesOp α)
  | mutexes (op : MutexOp)
  | counters (op : CounterOp)
  | taskManager (op : TaskOp α)

/-- The replies of the server. -/
inductive SystemReply (α : Type) where
  | map (reply : MapReply)
  | journalMap (reply : JournalReply)
  | timeSeries (reply : TimeSeriesReply α)
  | mutexes (reply : MutexReply)
  | counters (reply : CounterReply)
  | taskManager (reply : TaskReply α)

/-- The error a call was answered with. -/
def SystemReply.error {α : Type} : SystemReply α → Option Error
  | .map r => r.error
  | .journalMap r => r.error
  | .timeSeries r => r.error
  | .mutexes r => r.error
  | .counters r => r.error
  | .taskManager r => r.error

namespace SystemState

variable {Q α : Type} [LinearOrder α] [PriorityQueue Q (TaskQueueEntry α) taskQueueEntryOrder]

/-- One call on the server. -/
def step (re2 : RE2) (iso : Iso8601) (m : SystemState Q α) :
    SystemOp α → Option (SystemReply α × SystemState Q α)
  | .map op => do
      let (r, map) ← m.map.step re2 op
      return (.map r, { m with map := map })
  | .journalMap op => do
      let (r, journalMap) ← m.journalMap.step re2 op
      return (.journalMap r, { m with journalMap := journalMap })
  | .timeSeries op => do
      let (r, timeSeries) ← m.timeSeries.step re2 iso op
      return (.timeSeries r, { m with timeSeries := timeSeries })
  | .mutexes op => do
      let (r, mutexes) ← m.mutexes.step re2 op
      return (.mutexes r, { m with mutexes := mutexes })
  | .counters op => do
      let (r, counters) ← m.counters.step re2 op
      return (.counters r, { m with counters := counters })
  | .taskManager op => do
      let (r, taskManager) ← m.taskManager.step re2 op
      return (.taskManager r, { m with taskManager := taskManager })

/-- What a call does: the store it names serves it, and the other stores are as before. -/
inductive Served (re2 : RE2) (iso : Iso8601) (m : SystemState Q α) :
    SystemOp α → SystemReply α → SystemState Q α → Prop
  | map {op r map} (h : m.map.step re2 op = some (r, map)) :
      Served re2 iso m (.map op) (.map r) { m with map := map }
  | journalMap {op r journalMap} (h : m.journalMap.step re2 op = some (r, journalMap)) :
      Served re2 iso m (.journalMap op) (.journalMap r) { m with journalMap := journalMap }
  | timeSeries {op r timeSeries} (h : m.timeSeries.step re2 iso op = some (r, timeSeries)) :
      Served re2 iso m (.timeSeries op) (.timeSeries r) { m with timeSeries := timeSeries }
  | mutexes {op r mutexes} (h : m.mutexes.step re2 op = some (r, mutexes)) :
      Served re2 iso m (.mutexes op) (.mutexes r) { m with mutexes := mutexes }
  | counters {op r counters} (h : m.counters.step re2 op = some (r, counters)) :
      Served re2 iso m (.counters op) (.counters r) { m with counters := counters }
  | taskManager {op r taskManager} (h : m.taskManager.step re2 op = some (r, taskManager)) :
      Served re2 iso m (.taskManager op) (.taskManager r) { m with taskManager := taskManager }

/-- Every call of the server is served by one of its stores. -/
theorem step_served {re2 : RE2} {iso : Iso8601} {m m' : SystemState Q α} {op : SystemOp α}
    {r : SystemReply α} (h : step re2 iso m op = some (r, m')) : Served re2 iso m op r m' := by
  cases op with
  | map op =>
      obtain ⟨⟨reply, map⟩, hs, heq⟩ := Option.bind_eq_some_iff.1 h
      cases heq
      exact .map hs
  | journalMap op =>
      obtain ⟨⟨reply, journalMap⟩, hs, heq⟩ := Option.bind_eq_some_iff.1 h
      cases heq
      exact .journalMap hs
  | timeSeries op =>
      obtain ⟨⟨reply, timeSeries⟩, hs, heq⟩ := Option.bind_eq_some_iff.1 h
      cases heq
      exact .timeSeries hs
  | mutexes op =>
      obtain ⟨⟨reply, mutexes⟩, hs, heq⟩ := Option.bind_eq_some_iff.1 h
      cases heq
      exact .mutexes hs
  | counters op =>
      obtain ⟨⟨reply, counters⟩, hs, heq⟩ := Option.bind_eq_some_iff.1 h
      cases heq
      exact .counters hs
  | taskManager op =>
      obtain ⟨⟨reply, taskManager⟩, hs, heq⟩ := Option.bind_eq_some_iff.1 h
      cases heq
      exact .taskManager hs

/-- The server as a machine, started empty. -/
def machine (Q : Type) {α : Type} [LinearOrder α]
    [PriorityQueue Q (TaskQueueEntry α) taskQueueEntryOrder] (re2 : RE2) (iso : Iso8601) :
    Machine (SystemState Q α) (SystemOp α) (SystemReply α) where
  init := {}
  step := step re2 iso

end SystemState

end DsService

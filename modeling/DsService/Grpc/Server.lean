import DsService.Core.SystemState
import DsService.Grpc.Codec

/-!
# The server transport

`DsServiceImpl` of `cpp/grpc/server/grpc-server-transport.cpp`. Each method decodes its request,
hands it to the structure that owns the state, and encodes what comes back into the response it was
given.
-/

namespace DsService

/-- `reply`: a core result as a status, with its value encoded into the response. -/
def reply {plain proto : Type} [Message proto] [Codec plain proto] (result : Result plain)
    (response : proto) : Status × proto :=
  match result with
  | .error error => (toStatus error, response)
  | .ok value => ({}, Codec.encode value response)

/-- `reply` for a method that returns `Empty`. -/
def replyEmpty (result : Result Unit) (response : Proto.Empty) : Status × Proto.Empty :=
  match result with
  | .error error => (toStatus error, response)
  | .ok _ => ({}, response)

namespace DsServiceImpl

variable {Q α : Type} [LinearOrder α] [Zero α]
variable [PriorityQueue Q (TaskQueueEntry α) taskQueueEntryOrder]

open Codec (decode)

/-- The methods of the service. -/
def serve (re2 : RE2) (iso : Iso8601) :
    (rpc : Rpc) → rpc.Request α → rpc.Response α → SystemState Q α →
      Option ((Status × rpc.Response α) × SystemState Q α)
  | .mapSet, request, response, m =>
      let (r, map) := m.map.set (decode request)
      some (replyEmpty r response, { m with map := map })
  | .mapGet, request, response, m => some (reply (m.map.get (decode request)) response, m)
  | .mapSearchKey, request, response, m =>
      some (reply (m.map.searchKey re2 (decode request)) response, m)
  | .taskAdd, request, response, m => do
      let (r, taskManager) ← m.taskManager.add (decode request)
      return (replyEmpty r response, { m with taskManager := taskManager })
  | .taskGetStatus, request, response, m => do
      let r ← m.taskManager.getStatus (decode request)
      return (reply r response, m)
  | .taskGetOutput, request, response, m => do
      let r ← m.taskManager.getOutput (decode request)
      return (reply r response, m)
  | .taskGetCountByState, _, response, m => some (reply m.taskManager.getCountByState response, m)
  | .taskCancel, request, response, m => do
      let (r, taskManager) ← m.taskManager.cancel (decode request)
      return (reply r response, { m with taskManager := taskManager })
  | .taskGetPriority, request, response, m => do
      let r ← m.taskManager.getPriority (decode request)
      return (reply r response, m)
  | .taskSetPriority, request, response, m => do
      let (r, taskManager) ← m.taskManager.setPriority (decode request)
      return (replyEmpty r response, { m with taskManager := taskManager })
  | .taskGetWorkerId, request, response, m => do
      let r ← m.taskManager.getWorkerId (decode request)
      return (reply r response, m)
  | .taskSearchId, request, response, m =>
      some (reply (m.taskManager.searchId re2 (decode request)) response, m)
  | .taskGet, request, response, m => do
      let (r, taskManager) ← m.taskManager.get (decode request)
      return (reply r response, { m with taskManager := taskManager })
  | .taskDone, request, response, m => do
      let (r, taskManager) ← m.taskManager.done (decode request)
      return (replyEmpty r response, { m with taskManager := taskManager })
  | .journalSize, request, response, m =>
      some (reply (m.journalMap.size (decode request)) response, m)
  | .journalRead, request, response, m => do
      let r ← m.journalMap.read (decode request)
      return (reply r response, m)
  | .journalAppend, request, response, m =>
      let (r, journalMap) := m.journalMap.append (decode request)
      some (replyEmpty r response, { m with journalMap := journalMap })
  | .journalSearchKey, request, response, m =>
      some (reply (m.journalMap.searchKey re2 (decode request)) response, m)
  | .timeSeriesAppend, request, response, m =>
      let (r, timeSeries) := m.timeSeries.append iso (decode request)
      some (replyEmpty r response, { m with timeSeries := timeSeries })
  | .timeSeriesGet, request, response, m => do
      let r ← m.timeSeries.get iso (decode request)
      return (reply r response, m)
  | .timeSeriesSearchKey, request, response, m =>
      some (reply (m.timeSeries.searchKey re2 (decode request)) response, m)
  | .mutexTryAcquire, request, response, m =>
      let (r, mutexes) := m.mutexes.tryAcquire (decode request)
      some (reply r response, { m with mutexes := mutexes })
  | .mutexRelease, request, response, m =>
      let (r, mutexes) := m.mutexes.release (decode request)
      some (replyEmpty r response, { m with mutexes := mutexes })
  | .mutexGetWorkerId, request, response, m =>
      some (reply (m.mutexes.getWorkerId (decode request)) response, m)
  | .mutexSearchKey, request, response, m =>
      some (reply (m.mutexes.searchKey re2 (decode request)) response, m)
  | .counterGetNextValue, request, response, m =>
      let (r, counters) := m.counters.getNextValue (decode request)
      some (reply r response, { m with counters := counters })
  | .counterGetCurrentValue, request, response, m =>
      some (reply (m.counters.getCurrentValue (decode request)) response, m)
  | .counterSearchKey, request, response, m =>
      some (reply (m.counters.searchKey re2 (decode request)) response, m)

end DsServiceImpl

end DsService

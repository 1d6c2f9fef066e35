import DsService.Grpc.Transport

/-!
# The client

The methods of `ds::Client` (`cpp/client/client.cpp`) but `mutex_acquire`, which is a loop over one
of them, and `close`. A `ClientCall` is a method with its arguments in the order of `client.hpp`;
the default arguments are the caller's. `Client.call` is the body of the method: it builds the plain
request as the source does, by position or by field, and takes the value it returns out of the
response.
-/

namespace DsService

/-- A call of a method of the client. -/
inductive ClientCall (α : Type) where
  | mapSet (key value : String)
  | mapGet (key : String)
  | mapSearchKey (pattern : String)
  | taskAdd (taskId : String) (parentTaskIds queue : List String) (priority : Double α)
      (function input : String)
  | taskGetStatus (taskId : List String)
  | taskGetOutput (taskId : String)
  | taskGetCountByState
  | taskCancel (taskId : String)
  | taskGetPriority (taskId : String)
  | taskSetPriority (taskId : String) (priority : Double α)
  | taskGetWorkerId (taskId : String)
  | taskSearchId (pattern : String)
  | taskGet (workerId : String) (queue : List String)
  | taskDone (taskId workerId output : String) (failed : Bool)
  | journalSize (key : String)
  | journalRead (key : String) (start «end» : Nat)
  | journalAppend (key value : String)
  | journalSearchKey (pattern : String)
  | timeSeriesAppend (key : String) (value : Double α) (datetime : String) (step : Int)
  | timeSeriesGet (key : String) (startTime endTime : Option String)
      (startStep endStep : Option Int)
  | timeSeriesSearchKey (pattern : String)
  | mutexTryAcquire (key workerId : String)
  | mutexRelease (key workerId : String)
  | mutexGetWorkerId (key : String)
  | mutexSearchKey (pattern : String)
  | counterGetNextValue (key : String)
  | counterGetCurrentValue (key : String)
  | counterSearchKey (pattern : String)

/-- The type of the value a method returns. -/
abbrev ClientCall.Value {α : Type} : ClientCall α → Type
  | .mapSet .. | .taskAdd .. | .taskSetPriority .. | .taskDone .. | .journalAppend ..
  | .timeSeriesAppend .. | .mutexRelease .. => Unit
  | .mapGet _ | .taskGetOutput _ | .taskGetWorkerId _ | .mutexGetWorkerId _ => String
  | .mapSearchKey _ | .taskSearchId _ | .journalSearchKey _ | .timeSeriesSearchKey _
  | .mutexSearchKey _ | .counterSearchKey _ | .journalRead .. => List String
  | .taskGetStatus _ => List TaskState
  | .taskGetCountByState => TaskGetCountByStateResponse
  | .taskCancel _ | .mutexTryAcquire .. => Bool
  | .taskGetPriority _ => Double α
  | .taskGet .. => TaskGetResponse
  | .journalSize _ | .counterGetNextValue _ | .counterGetCurrentValue _ => Nat
  | .timeSeriesGet .. => List (TimeSeriesDataPoint α)

namespace Client

open GrpcClientTransport in
/-- The methods of the client. -/
def call {α : Type} [Zero α] : (c : ClientCall α) → Invocation α c.Value
  | .mapSet key value => mapSet ⟨key, value⟩
  | .mapGet key => (mapGet ⟨key⟩).map (·.value)
  | .mapSearchKey pattern => (mapSearchKey ⟨pattern⟩).map (·.key)
  | .taskAdd taskId parentTaskIds queue priority function input =>
      taskAdd
        { taskId := taskId
          parentTaskIds := parentTaskIds
          queue := queue
          priority := priority
          function := function
          input := input }
  | .taskGetStatus taskId => (taskGetStatus ⟨taskId⟩).map (·.state)
  | .taskGetOutput taskId => (taskGetOutput ⟨taskId⟩).map (·.output)
  | .taskGetCountByState => taskGetCountByState
  | .taskCancel taskId => (taskCancel ⟨taskId⟩).map (·.success)
  | .taskGetPriority taskId => (taskGetPriority ⟨taskId⟩).map (·.priority)
  | .taskSetPriority taskId priority => taskSetPriority ⟨taskId, priority⟩
  | .taskGetWorkerId taskId => (taskGetWorkerId ⟨taskId⟩).map (·.workerId)
  | .taskSearchId pattern => (taskSearchId ⟨pattern⟩).map (·.key)
  | .taskGet workerId queue => taskGet ⟨workerId, queue⟩
  | .taskDone taskId workerId output failed =>
      taskDone { taskId := taskId, output := output, workerId := workerId, failed := failed }
  | .journalSize key => (journalSize ⟨key⟩).map (·.size)
  | .journalRead key start «end» => (journalRead ⟨key, start, «end»⟩).map (·.entry)
  | .journalAppend key value => journalAppend ⟨key, value⟩
  | .journalSearchKey pattern => (journalSearchKey ⟨pattern⟩).map (·.key)
  | .timeSeriesAppend key value datetime step => timeSeriesAppend ⟨key, value, datetime, step⟩
  | .timeSeriesGet key startTime endTime startStep endStep =>
      (timeSeriesGet
        { key := key
          startTime := startTime
          endTime := endTime
          startStep := startStep
          endStep := endStep }).map (·.point)
  | .timeSeriesSearchKey pattern => (timeSeriesSearchKey ⟨pattern⟩).map (·.key)
  | .mutexTryAcquire key workerId => (mutexTryAcquire ⟨key, workerId⟩).map (·.acquired)
  | .mutexRelease key workerId => mutexRelease ⟨key, workerId⟩
  | .mutexGetWorkerId key => (mutexGetWorkerId ⟨key⟩).map (·.workerId)
  | .mutexSearchKey pattern => (mutexSearchKey ⟨pattern⟩).map (·.key)
  | .counterGetNextValue key => (counterGetNextValue ⟨key⟩).map (·.value)
  | .counterGetCurrentValue key => (counterGetCurrentValue ⟨key⟩).map (·.value)
  | .counterSearchKey pattern => (counterSearchKey ⟨pattern⟩).map (·.key)

end Client

end DsService

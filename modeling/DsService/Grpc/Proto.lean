import DsService.Core.Messages

/-!
# The protobuf messages

The messages, the methods and the status of `cpp/grpc/ds-service.proto` as the generated code has
them. Edition 2023 gives every singular field explicit presence, so such a field is an `Option`, and
the accessor of an unset field returns the default of its type. A repeated field is a list.

`Message` is what the wire needs of a message: the one with nothing set, and its fields of type
`string`, which have to be UTF-8. A field of type `bytes` may hold anything.
-/

namespace DsService

/-- A generated message type. -/
class Message (M : Type) where
  /-- The message as it is constructed, with no field set. -/
  blank : M
  /-- The values of the fields of type `string`. -/
  strings : M → List String

namespace Proto

structure Empty where

structure MapSetRequest where
  key : Option String := none
  value : Option String := none

structure MapGetRequest where
  key : Option String := none

structure MapGetResponse where
  value : Option String := none

structure SearchKeyRequest where
  pattern : Option String := none

structure SearchKeyResponse where
  key : List String := []

structure TaskAddRequest (α : Type) where
  taskId : Option String := none
  parentTaskIds : List String := []
  queue : List String := []
  priority : Option (Double α) := none
  function : Option String := none
  input : Option String := none

structure TaskGetStatusRequest where
  taskId : List String := []

/-- The enum is open: a peer may send any number for a state. -/
structure TaskGetStatusResponse where
  state : List Int := []

structure TaskGetOutputRequest where
  taskId : Option String := none

structure TaskGetOutputResponse where
  output : Option String := none

structure TaskGetCountByStateResponse where
  waiting : Option Nat := none
  ready : Option Nat := none
  running : Option Nat := none
  finished : Option Nat := none
  failed : Option Nat := none
  canceled : Option Nat := none

structure TaskCancelRequest where
  taskId : Option String := none

structure TaskCancelResponse where
  success : Option Bool := none

structure TaskGetPriorityRequest where
  taskId : Option String := none

structure TaskGetPriorityResponse (α : Type) where
  priority : Option (Double α) := none

structure TaskSetPriorityRequest (α : Type) where
  taskId : Option String := none
  priority : Option (Double α) := none

structure TaskGetWorkerIdRequest where
  taskId : Option String := none

structure TaskGetWorkerIdResponse where
  workerId : Option String := none

structure TaskGetRequest where
  workerId : Option String := none
  queue : List String := []

structure TaskGetResponse where
  taskId : Option String := none
  function : Option String := none
  input : Option String := none

structure TaskDoneRequest where
  taskId : Option String := none
  output : Option String := none
  workerId : Option String := none
  failed : Option Bool := none

structure JournalSizeRequest where
  key : Option String := none

structure JournalSizeResponse where
  size : Option Nat := none

structure JournalReadRequest where
  key : Option String := none
  start : Option Nat := none
  «end» : Option Nat := none

structure JournalReadResponse where
  entry : List String := []

structure JournalAppendRequest where
  key : Option String := none
  value : Option String := none

structure TimeSeriesAppendRequest (α : Type) where
  key : Option String := none
  value : Option (Double α) := none
  datetime : Option String := none
  step : Option Int := none

structure TimeSeriesDataPoint (α : Type) where
  value : Option (Double α) := none
  datetime : Option String := none
  step : Option Int := none

structure TimeSeriesGetRequest where
  key : Option String := none
  startTime : Option String := none
  endTime : Option String := none
  startStep : Option Int := none
  endStep : Option Int := none

structure TimeSeriesGetResponse (α : Type) where
  point : List (TimeSeriesDataPoint α) := []

structure MutexTryAcquireRequest where
  key : Option String := none
  workerId : Option String := none

structure MutexTryAcquireResponse where
  acquired : Option Bool := none

structure MutexReleaseRequest where
  key : Option String := none
  workerId : Option String := none

structure MutexGetWorkerIdRequest where
  key : Option String := none

structure MutexGetWorkerIdResponse where
  workerId : Option String := none

structure CounterGetNextValueRequest where
  key : Option String := none

structure CounterGetNextValueResponse where
  value : Option Nat := none

structure CounterGetCurrentValueRequest where
  key : Option String := none

structure CounterGetCurrentValueResponse where
  value : Option Nat := none

/-! ## Fields of type string -/

variable {α : Type}

instance : Message Empty := ⟨{}, fun _ => []⟩
instance : Message MapSetRequest := ⟨{}, fun m => m.key.toList⟩
instance : Message MapGetRequest := ⟨{}, fun m => m.key.toList⟩
instance : Message MapGetResponse := ⟨{}, fun _ => []⟩
instance : Message SearchKeyRequest := ⟨{}, fun m => m.pattern.toList⟩
instance : Message SearchKeyResponse := ⟨{}, fun m => m.key⟩
instance : Message (TaskAddRequest α) :=
  ⟨{}, fun m => m.taskId.toList ++ m.parentTaskIds ++ m.queue⟩
instance : Message TaskGetStatusRequest := ⟨{}, fun m => m.taskId⟩
instance : Message TaskGetStatusResponse := ⟨{}, fun _ => []⟩
instance : Message TaskGetOutputRequest := ⟨{}, fun m => m.taskId.toList⟩
instance : Message TaskGetOutputResponse := ⟨{}, fun _ => []⟩
instance : Message TaskGetCountByStateResponse := ⟨{}, fun _ => []⟩
instance : Message TaskCancelRequest := ⟨{}, fun m => m.taskId.toList⟩
instance : Message TaskCancelResponse := ⟨{}, fun _ => []⟩
instance : Message TaskGetPriorityRequest := ⟨{}, fun m => m.taskId.toList⟩
instance : Message (TaskGetPriorityResponse α) := ⟨{}, fun _ => []⟩
instance : Message (TaskSetPriorityRequest α) := ⟨{}, fun m => m.taskId.toList⟩
instance : Message TaskGetWorkerIdRequest := ⟨{}, fun m => m.taskId.toList⟩
instance : Message TaskGetWorkerIdResponse := ⟨{}, fun m => m.workerId.toList⟩
instance : Message TaskGetRequest := ⟨{}, fun m => m.workerId.toList ++ m.queue⟩
instance : Message TaskGetResponse := ⟨{}, fun m => m.taskId.toList⟩
instance : Message TaskDoneRequest := ⟨{}, fun m => m.taskId.toList ++ m.workerId.toList⟩
instance : Message JournalSizeRequest := ⟨{}, fun m => m.key.toList⟩
instance : Message JournalSizeResponse := ⟨{}, fun _ => []⟩
instance : Message JournalReadRequest := ⟨{}, fun m => m.key.toList⟩
instance : Message JournalReadResponse := ⟨{}, fun _ => []⟩
instance : Message JournalAppendRequest := ⟨{}, fun m => m.key.toList⟩
instance : Message (TimeSeriesAppendRequest α) := ⟨{}, fun m => m.key.toList ++ m.datetime.toList⟩
instance : Message TimeSeriesGetRequest :=
  ⟨{}, fun m => m.key.toList ++ m.startTime.toList ++ m.endTime.toList⟩
instance : Message (TimeSeriesGetResponse α) :=
  ⟨{}, fun m => m.point.flatMap fun point => point.datetime.toList⟩
instance : Message MutexTryAcquireRequest := ⟨{}, fun m => m.key.toList ++ m.workerId.toList⟩
instance : Message MutexTryAcquireResponse := ⟨{}, fun _ => []⟩
instance : Message MutexReleaseRequest := ⟨{}, fun m => m.key.toList ++ m.workerId.toList⟩
instance : Message MutexGetWorkerIdRequest := ⟨{}, fun m => m.key.toList⟩
instance : Message MutexGetWorkerIdResponse := ⟨{}, fun m => m.workerId.toList⟩
instance : Message CounterGetNextValueRequest := ⟨{}, fun m => m.key.toList⟩
instance : Message CounterGetNextValueResponse := ⟨{}, fun _ => []⟩
instance : Message CounterGetCurrentValueRequest := ⟨{}, fun m => m.key.toList⟩
instance : Message CounterGetCurrentValueResponse := ⟨{}, fun _ => []⟩

end Proto

/-! ## The methods -/

/-- The methods of the service `DsService`. A call is routed by the method it names. -/
inductive Rpc where
  | mapSet | mapGet | mapSearchKey
  | taskAdd | taskGetStatus | taskGetOutput | taskGetCountByState | taskCancel
  | taskGetPriority | taskSetPriority | taskGetWorkerId | taskSearchId | taskGet | taskDone
  | journalSize | journalRead | journalAppend | journalSearchKey
  | timeSeriesAppend | timeSeriesGet | timeSeriesSearchKey
  | mutexTryAcquire | mutexRelease | mutexGetWorkerId | mutexSearchKey
  | counterGetNextValue | counterGetCurrentValue | counterSearchKey
deriving DecidableEq, Repr

/-- The type of the request of a method. -/
abbrev Rpc.Request (α : Type) : Rpc → Type
  | .mapSet => Proto.MapSetRequest
  | .mapGet => Proto.MapGetRequest
  | .mapSearchKey => Proto.SearchKeyRequest
  | .taskAdd => Proto.TaskAddRequest α
  | .taskGetStatus => Proto.TaskGetStatusRequest
  | .taskGetOutput => Proto.TaskGetOutputRequest
  | .taskGetCountByState => Proto.Empty
  | .taskCancel => Proto.TaskCancelRequest
  | .taskGetPriority => Proto.TaskGetPriorityRequest
  | .taskSetPriority => Proto.TaskSetPriorityRequest α
  | .taskGetWorkerId => Proto.TaskGetWorkerIdRequest
  | .taskSearchId => Proto.SearchKeyRequest
  | .taskGet => Proto.TaskGetRequest
  | .taskDone => Proto.TaskDoneRequest
  | .journalSize => Proto.JournalSizeRequest
  | .journalRead => Proto.JournalReadRequest
  | .journalAppend => Proto.JournalAppendRequest
  | .journalSearchKey => Proto.SearchKeyRequest
  | .timeSeriesAppend => Proto.TimeSeriesAppendRequest α
  | .timeSeriesGet => Proto.TimeSeriesGetRequest
  | .timeSeriesSearchKey => Proto.SearchKeyRequest
  | .mutexTryAcquire => Proto.MutexTryAcquireRequest
  | .mutexRelease => Proto.MutexReleaseRequest
  | .mutexGetWorkerId => Proto.MutexGetWorkerIdRequest
  | .mutexSearchKey => Proto.SearchKeyRequest
  | .counterGetNextValue => Proto.CounterGetNextValueRequest
  | .counterGetCurrentValue => Proto.CounterGetCurrentValueRequest
  | .counterSearchKey => Proto.SearchKeyRequest

/-- The type of the response of a method. -/
abbrev Rpc.Response (α : Type) : Rpc → Type
  | .mapSet => Proto.Empty
  | .mapGet => Proto.MapGetResponse
  | .mapSearchKey => Proto.SearchKeyResponse
  | .taskAdd => Proto.Empty
  | .taskGetStatus => Proto.TaskGetStatusResponse
  | .taskGetOutput => Proto.TaskGetOutputResponse
  | .taskGetCountByState => Proto.TaskGetCountByStateResponse
  | .taskCancel => Proto.TaskCancelResponse
  | .taskGetPriority => Proto.TaskGetPriorityResponse α
  | .taskSetPriority => Proto.Empty
  | .taskGetWorkerId => Proto.TaskGetWorkerIdResponse
  | .taskSearchId => Proto.SearchKeyResponse
  | .taskGet => Proto.TaskGetResponse
  | .taskDone => Proto.Empty
  | .journalSize => Proto.JournalSizeResponse
  | .journalRead => Proto.JournalReadResponse
  | .journalAppend => Proto.Empty
  | .journalSearchKey => Proto.SearchKeyResponse
  | .timeSeriesAppend => Proto.Empty
  | .timeSeriesGet => Proto.TimeSeriesGetResponse α
  | .timeSeriesSearchKey => Proto.SearchKeyResponse
  | .mutexTryAcquire => Proto.MutexTryAcquireResponse
  | .mutexRelease => Proto.Empty
  | .mutexGetWorkerId => Proto.MutexGetWorkerIdResponse
  | .mutexSearchKey => Proto.SearchKeyResponse
  | .counterGetNextValue => Proto.CounterGetNextValueResponse
  | .counterGetCurrentValue => Proto.CounterGetCurrentValueResponse
  | .counterSearchKey => Proto.SearchKeyResponse

instance (α : Type) (rpc : Rpc) : Message (rpc.Request α) := by
  cases rpc <;> infer_instance

instance (α : Type) (rpc : Rpc) : Message (rpc.Response α) := by
  cases rpc <;> infer_instance

/-! ## Status -/

/-- The status codes of gRPC. -/
inductive StatusCode where
  | ok
  | cancelled
  | unknown
  | invalidArgument
  | deadlineExceeded
  | notFound
  | alreadyExists
  | permissionDenied
  | resourceExhausted
  | failedPrecondition
  | aborted
  | outOfRange
  | unimplemented
  | internal
  | unavailable
  | dataLoss
  | unauthenticated
deriving DecidableEq, Repr

/-- How a call ended: a code and a message. -/
structure Status where
  errorCode : StatusCode := .ok
  errorMessage : String := ""
deriving DecidableEq, Repr

end DsService

import DsService.Grpc.Proto

/-!
# The codec

`cpp/grpc/codec.cpp`: the conversions between the plain messages and the protobuf messages. Each
plain type has one instance of `Codec`, whose `encode` and `decode` are the two overloads of the
source for it, and which carries the proof that decoding what was encoded into a new message gives
it back. An `encode` writes into `out` as the source does, so a repeated field is appended to.
-/

namespace DsService

/-! ## Task states and status codes -/

/-- `to_proto`: the number of a state, the same on both sides of the wire. -/
def toProto : TaskState → Int
  | .waiting => 0
  | .ready => 1
  | .running => 2
  | .finished => 3
  | .failed => 4
  | .canceled => 5
  | .undefined => 6

/-- `from_proto`: a number out of the range of the enum reads as undefined. -/
def fromProto (state : Int) : TaskState :=
  if state < 0 ∨ state > 6 then .undefined
  else match state with
    | 0 => .waiting
    | 1 => .ready
    | 2 => .running
    | 3 => .finished
    | 4 => .failed
    | 5 => .canceled
    | _ => .undefined

/-- A state comes back from the wire as it was. -/
theorem fromProto_toProto (state : TaskState) : fromProto (toProto state) = state := by
  cases state <;> rfl

/-- `to_status_code`: `closed` and `transport` have no counterpart. -/
def toStatusCode : ErrorCode → StatusCode
  | .notFound => .notFound
  | .alreadyExists => .alreadyExists
  | .invalidArgument => .invalidArgument
  | .failedPrecondition => .failedPrecondition
  | .messageTooLarge => .resourceExhausted
  | .unavailable => .unavailable
  | .deadlineExceeded => .deadlineExceeded
  | .cancelled => .cancelled
  | .closed => .unknown
  | .transport => .unknown

/-- `from_status_code`: a code with no counterpart is `transport`. -/
def fromStatusCode : StatusCode → ErrorCode
  | .notFound => .notFound
  | .alreadyExists => .alreadyExists
  | .invalidArgument => .invalidArgument
  | .failedPrecondition => .failedPrecondition
  | .resourceExhausted => .messageTooLarge
  | .unavailable => .unavailable
  | .deadlineExceeded => .deadlineExceeded
  | .cancelled => .cancelled
  | _ => .transport

/-- Every code but `closed` comes back as itself. -/
theorem fromStatusCode_toStatusCode {code : ErrorCode} (hclosed : code ≠ .closed) :
    fromStatusCode (toStatusCode code) = code := by
  cases code with
  | closed => exact absurd rfl hclosed
  | _ => rfl

def toStatus (error : Error) : Status := ⟨toStatusCode error.code, error.message⟩

/-! ## Messages -/

/-- The two overloads of the codec for one plain type. -/
class Codec (plain : Type) (proto : outParam Type) [Message proto] where
  encode : plain → proto → proto
  decode : proto → plain
  /-- What is encoded into a new message decodes to itself. -/
  decode_encode : ∀ message, decode (encode message Message.blank) = message

namespace Codec

instance : Codec MapSetRequest Proto.MapSetRequest where
  decode message := ⟨message.key.getD "", message.value.getD ""⟩
  encode message out := { out with key := some message.key, value := some message.value }
  decode_encode _ := rfl

instance : Codec MapGetRequest Proto.MapGetRequest where
  decode message := ⟨message.key.getD ""⟩
  encode message out := { out with key := some message.key }
  decode_encode _ := rfl

instance : Codec MapGetResponse Proto.MapGetResponse where
  decode message := ⟨message.value.getD ""⟩
  encode message out := { out with value := some message.value }
  decode_encode _ := rfl

instance : Codec SearchKeyRequest Proto.SearchKeyRequest where
  decode message := ⟨message.pattern.getD ""⟩
  encode message out := { out with pattern := some message.pattern }
  decode_encode _ := rfl

instance : Codec SearchKeyResponse Proto.SearchKeyResponse where
  decode message := ⟨message.key⟩
  encode message out := { out with key := out.key ++ message.key }
  decode_encode _ := rfl

variable {α : Type} [Zero α]

instance : Codec (TaskAddRequest α) (Proto.TaskAddRequest α) where
  decode message :=
    { taskId := message.taskId.getD ""
      parentTaskIds := message.parentTaskIds
      queue := message.queue
      priority := message.priority.getD (.num 0)
      function := message.function.getD ""
      input := message.input.getD "" }
  encode message out :=
    { out with
      taskId := some message.taskId
      parentTaskIds := out.parentTaskIds ++ message.parentTaskIds
      queue := out.queue ++ message.queue
      priority := some message.priority
      function := some message.function
      input := some message.input }
  decode_encode _ := rfl

instance : Codec TaskGetStatusRequest Proto.TaskGetStatusRequest where
  decode message := ⟨message.taskId⟩
  encode message out := { out with taskId := out.taskId ++ message.taskId }
  decode_encode _ := rfl

instance : Codec TaskGetStatusResponse Proto.TaskGetStatusResponse where
  decode message := ⟨message.state.map fromProto⟩
  encode message out := { out with state := out.state ++ message.state.map toProto }
  decode_encode message := by
    have hstate : (message.state.map toProto).map fromProto = message.state := by
      rw [List.map_map]
      exact (List.map_congr_left fun state _ => fromProto_toProto state).trans (List.map_id _)
    show TaskGetStatusResponse.mk ((message.state.map toProto).map fromProto) = message
    rw [hstate]

instance : Codec TaskGetOutputRequest Proto.TaskGetOutputRequest where
  decode message := ⟨message.taskId.getD ""⟩
  encode message out := { out with taskId := some message.taskId }
  decode_encode _ := rfl

instance : Codec TaskGetOutputResponse Proto.TaskGetOutputResponse where
  decode message := ⟨message.output.getD ""⟩
  encode message out := { out with output := some message.output }
  decode_encode _ := rfl

instance : Codec TaskGetCountByStateResponse Proto.TaskGetCountByStateResponse where
  decode message :=
    { waiting := message.waiting.getD 0
      ready := message.ready.getD 0
      running := message.running.getD 0
      finished := message.finished.getD 0
      failed := message.failed.getD 0
      canceled := message.canceled.getD 0 }
  encode message out :=
    { out with
      waiting := some message.waiting
      ready := some message.ready
      running := some message.running
      finished := some message.finished
      failed := some message.failed
      canceled := some message.canceled }
  decode_encode _ := rfl

instance : Codec TaskCancelRequest Proto.TaskCancelRequest where
  decode message := ⟨message.taskId.getD ""⟩
  encode message out := { out with taskId := some message.taskId }
  decode_encode _ := rfl

instance : Codec TaskCancelResponse Proto.TaskCancelResponse where
  decode message := ⟨message.success.getD false⟩
  encode message out := { out with success := some message.success }
  decode_encode _ := rfl

instance : Codec TaskGetPriorityRequest Proto.TaskGetPriorityRequest where
  decode message := ⟨message.taskId.getD ""⟩
  encode message out := { out with taskId := some message.taskId }
  decode_encode _ := rfl

instance : Codec (TaskGetPriorityResponse α) (Proto.TaskGetPriorityResponse α) where
  decode message := ⟨message.priority.getD (.num 0)⟩
  encode message out := { out with priority := some message.priority }
  decode_encode _ := rfl

instance : Codec (TaskSetPriorityRequest α) (Proto.TaskSetPriorityRequest α) where
  decode message := ⟨message.taskId.getD "", message.priority.getD (.num 0)⟩
  encode message out :=
    { out with taskId := some message.taskId, priority := some message.priority }
  decode_encode _ := rfl

instance : Codec TaskGetWorkerIdRequest Proto.TaskGetWorkerIdRequest where
  decode message := ⟨message.taskId.getD ""⟩
  encode message out := { out with taskId := some message.taskId }
  decode_encode _ := rfl

instance : Codec TaskGetWorkerIdResponse Proto.TaskGetWorkerIdResponse where
  decode message := ⟨message.workerId.getD ""⟩
  encode message out := { out with workerId := some message.workerId }
  decode_encode _ := rfl

instance : Codec TaskGetRequest Proto.TaskGetRequest where
  decode message := ⟨message.workerId.getD "", message.queue⟩
  encode message out :=
    { out with workerId := some message.workerId, queue := out.queue ++ message.queue }
  decode_encode _ := rfl

instance : Codec TaskGetResponse Proto.TaskGetResponse where
  decode message :=
    { taskId := message.taskId.getD ""
      function := message.function.getD ""
      input := message.input.getD "" }
  encode message out :=
    { out with
      taskId := some message.taskId
      function := some message.function
      input := some message.input }
  decode_encode _ := rfl

instance : Codec TaskDoneRequest Proto.TaskDoneRequest where
  decode message :=
    { taskId := message.taskId.getD ""
      output := message.output.getD ""
      workerId := message.workerId.getD ""
      failed := message.failed.getD false }
  encode message out :=
    { out with
      taskId := some message.taskId
      output := some message.output
      workerId := some message.workerId
      failed := some message.failed }
  decode_encode _ := rfl

instance : Codec JournalSizeRequest Proto.JournalSizeRequest where
  decode message := ⟨message.key.getD ""⟩
  encode message out := { out with key := some message.key }
  decode_encode _ := rfl

instance : Codec JournalSizeResponse Proto.JournalSizeResponse where
  decode message := ⟨message.size.getD 0⟩
  encode message out := { out with size := some message.size }
  decode_encode _ := rfl

instance : Codec JournalReadRequest Proto.JournalReadRequest where
  decode message := ⟨message.key.getD "", message.start.getD 0, message.end.getD 0⟩
  encode message out :=
    { out with key := some message.key, start := some message.start, «end» := some message.end }
  decode_encode _ := rfl

instance : Codec JournalReadResponse Proto.JournalReadResponse where
  decode message := ⟨message.entry⟩
  encode message out := { out with entry := out.entry ++ message.entry }
  decode_encode _ := rfl

instance : Codec JournalAppendRequest Proto.JournalAppendRequest where
  decode message := ⟨message.key.getD "", message.value.getD ""⟩
  encode message out := { out with key := some message.key, value := some message.value }
  decode_encode _ := rfl

instance : Codec (TimeSeriesAppendRequest α) (Proto.TimeSeriesAppendRequest α) where
  decode message :=
    ⟨message.key.getD "", message.value.getD (.num 0), message.datetime.getD "",
      message.step.getD 0⟩
  encode message out :=
    { out with
      key := some message.key
      value := some message.value
      datetime := some message.datetime
      step := some message.step }
  decode_encode _ := rfl

/-- The four bounds are set only where they are present, so that an unset bound is told apart from
an empty text or 0. -/
instance : Codec TimeSeriesGetRequest Proto.TimeSeriesGetRequest where
  decode message :=
    { key := message.key.getD ""
      startTime := if message.startTime.isSome then some (message.startTime.getD "") else none
      endTime := if message.endTime.isSome then some (message.endTime.getD "") else none
      startStep := if message.startStep.isSome then some (message.startStep.getD 0) else none
      endStep := if message.endStep.isSome then some (message.endStep.getD 0) else none }
  encode message out :=
    { out with
      key := some message.key
      startTime := message.startTime <|> out.startTime
      endTime := message.endTime <|> out.endTime
      startStep := message.startStep <|> out.startStep
      endStep := message.endStep <|> out.endStep }
  decode_encode message := by
    obtain ⟨key, startTime, endTime, startStep, endStep⟩ := message
    cases startTime <;> cases endTime <;> cases startStep <;> cases endStep <;> rfl

/-- One point of a response. -/
def encodePoint (point : TimeSeriesDataPoint α) : Proto.TimeSeriesDataPoint α :=
  { value := some point.value, datetime := some point.datetime, step := some point.step }

def decodePoint (point : Proto.TimeSeriesDataPoint α) : TimeSeriesDataPoint α :=
  ⟨point.value.getD (.num 0), point.datetime.getD "", point.step.getD 0⟩

instance : Codec (TimeSeriesGetResponse α) (Proto.TimeSeriesGetResponse α) where
  decode message := ⟨message.point.map decodePoint⟩
  encode message out := { out with point := out.point ++ message.point.map encodePoint }
  decode_encode message := by
    have hpoint : (message.point.map encodePoint).map decodePoint = message.point := by
      rw [List.map_map]
      exact (List.map_congr_left fun _ _ => rfl).trans (List.map_id _)
    show TimeSeriesGetResponse.mk ((message.point.map encodePoint).map decodePoint) = message
    rw [hpoint]

instance : Codec MutexTryAcquireRequest Proto.MutexTryAcquireRequest where
  decode message := ⟨message.key.getD "", message.workerId.getD ""⟩
  encode message out := { out with key := some message.key, workerId := some message.workerId }
  decode_encode _ := rfl

instance : Codec MutexTryAcquireResponse Proto.MutexTryAcquireResponse where
  decode message := ⟨message.acquired.getD false⟩
  encode message out := { out with acquired := some message.acquired }
  decode_encode _ := rfl

instance : Codec MutexReleaseRequest Proto.MutexReleaseRequest where
  decode message := ⟨message.key.getD "", message.workerId.getD ""⟩
  encode message out := { out with key := some message.key, workerId := some message.workerId }
  decode_encode _ := rfl

instance : Codec MutexGetWorkerIdRequest Proto.MutexGetWorkerIdRequest where
  decode message := ⟨message.key.getD ""⟩
  encode message out := { out with key := some message.key }
  decode_encode _ := rfl

instance : Codec MutexGetWorkerIdResponse Proto.MutexGetWorkerIdResponse where
  decode message := ⟨message.workerId.getD ""⟩
  encode message out := { out with workerId := some message.workerId }
  decode_encode _ := rfl

instance : Codec CounterGetNextValueRequest Proto.CounterGetNextValueRequest where
  decode message := ⟨message.key.getD ""⟩
  encode message out := { out with key := some message.key }
  decode_encode _ := rfl

instance : Codec CounterGetNextValueResponse Proto.CounterGetNextValueResponse where
  decode message := ⟨message.value.getD 0⟩
  encode message out := { out with value := some message.value }
  decode_encode _ := rfl

instance : Codec CounterGetCurrentValueRequest Proto.CounterGetCurrentValueRequest where
  decode message := ⟨message.key.getD ""⟩
  encode message out := { out with key := some message.key }
  decode_encode _ := rfl

instance : Codec CounterGetCurrentValueResponse Proto.CounterGetCurrentValueResponse where
  decode message := ⟨message.value.getD 0⟩
  encode message out := { out with value := some message.value }
  decode_encode _ := rfl

end Codec

end DsService

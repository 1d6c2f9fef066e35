import DsService.Grpc.Server

/-!
# The wire and the client transport

`GrpcClientTransport` of `cpp/grpc/client/grpc-client-transport.cpp`, for a call that gRPC carries
from one end to the other. How such a call lives beside others, and beside `close`, is another
model.

`Channel` is gRPC with protobuf. It promises delivery only of what fits it: text fields in UTF-8,
and a message within the size limit.

A method of the transport makes one call, so it is an `Invocation`: the method of the service it
starts, the message it sends, and what it does with the response.
-/

namespace DsService

/-- The trailer of a call is sent like a message, with the text of its error as a field. -/
instance : Message Status := ⟨{}, fun status => [status.errorMessage]⟩

/-- gRPC between a client and a server. -/
structure Channel where
  /-- The text is valid UTF-8. -/
  utf8 : String → Prop
  /-- The size of a message on the wire. -/
  size : {M : Type} → [Message M] → M → Nat
  /-- `MAX_MESSAGE_SIZE_BYTES`. -/
  maxMessageSize : Nat
  /-- What the other end receives, or the status the call fails with. -/
  send : {M : Type} → [Message M] → M → Except Status M
  send_eq : ∀ {M : Type} [Message M] (message : M), (∀ text ∈ Message.strings message, utf8 text) →
    size message ≤ maxMessageSize → send message = .ok message

/-- The channel promises to deliver this message. -/
def Channel.Fits (ch : Channel) {M : Type} [Message M] (message : M) : Prop :=
  (∀ text ∈ Message.strings message, ch.utf8 text) ∧ ch.size message ≤ ch.maxMessageSize

/-- A message within the limit is sent. -/
theorem Channel.Fits.send {ch : Channel} {M : Type} [Message M] {message : M}
    (h : ch.Fits message) : ch.send message = .ok message :=
  ch.send_eq message h.1 h.2

/-- One call of the transport. -/
structure Invocation (α V : Type) where
  rpc : Rpc
  request : rpc.Request α
  finish : rpc.Response α → V

def Invocation.map {α V W : Type} (f : V → W) (call : Invocation α V) : Invocation α W :=
  { call with finish := fun response => f (call.finish response) }

namespace GrpcClientTransport

/-- `to_error`: a call that `close` cancelled reports `closed` rather than `cancelled`. -/
def toError (status : Status) (closed : Bool) : Error :=
  if closed && status.errorCode == .cancelled then ⟨.closed, "The client is closed."⟩
  else ⟨fromStatusCode status.errorCode, status.errorMessage⟩

/-- What `invoke` returns or throws once the call is done. -/
def outcome {R : Type} (closed : Bool) (status : Status) (response : R) : Result R :=
  if status.errorCode ≠ .ok then .error (toError status closed) else .ok response

section
variable {Q α : Type} [LinearOrder α] [Zero α]
variable [PriorityQueue Q (TaskQueueEntry α) taskQueueEntryOrder]

/-- One call from the client to the server and back. A response travels only with an OK status. -/
def exchange (re2 : RE2) (iso : Iso8601) (ch : Channel) (rpc : Rpc) (request : rpc.Request α)
    (m : SystemState Q α) : Option ((Status × rpc.Response α) × SystemState Q α) :=
  match ch.send request with
  | .error failure => some ((failure, Message.blank), m)
  | .ok request => do
      let ((status, response), m) ← DsServiceImpl.serve re2 iso rpc request Message.blank m
      match ch.send status with
      | .error failure => return ((failure, Message.blank), m)
      | .ok status =>
          if status.errorCode ≠ .ok then return ((status, Message.blank), m)
          else match ch.send response with
            | .error failure => return ((failure, Message.blank), m)
            | .ok response => return ((status, response), m)

/-- `invoke`: the call, then its outcome. `closed` is what `end_call` reports. -/
def invoke {V : Type} (re2 : RE2) (iso : Iso8601) (ch : Channel) (closed : Bool)
    (call : Invocation α V) (m : SystemState Q α) : Option (Result V × SystemState Q α) := do
  let ((status, response), m) ← exchange re2 iso ch call.rpc call.request m
  return ((outcome closed status response).map call.finish, m)

end

/-! ## The methods -/

section
variable {α : Type} [Zero α]

/-- `unary`: encode a plain request into a new message, and invoke the call with it. -/
def unary {plain : Type} (rpc : Rpc) [Codec plain (rpc.Request α)] (request : plain) :
    Invocation α (rpc.Response α) :=
  ⟨rpc, Codec.encode request Message.blank, id⟩

/-- A call that is answered with `Empty` returns nothing. -/
def unit (call : Invocation α Proto.Empty) : Invocation α Unit := call.map fun _ => ()

def mapSet (request : MapSetRequest) : Invocation α Unit :=
  unit (unary .mapSet request)

def mapGet (request : MapGetRequest) : Invocation α MapGetResponse :=
  (unary .mapGet request).map Codec.decode

def mapSearchKey (request : SearchKeyRequest) : Invocation α SearchKeyResponse :=
  (unary .mapSearchKey request).map Codec.decode

def taskAdd (request : TaskAddRequest α) : Invocation α Unit :=
  unit (unary .taskAdd request)

def taskGetStatus (request : TaskGetStatusRequest) : Invocation α TaskGetStatusResponse :=
  (unary .taskGetStatus request).map Codec.decode

def taskGetOutput (request : TaskGetOutputRequest) : Invocation α TaskGetOutputResponse :=
  (unary .taskGetOutput request).map Codec.decode

def taskGetCountByState : Invocation α TaskGetCountByStateResponse :=
  (⟨.taskGetCountByState, {}, id⟩ : Invocation α Proto.TaskGetCountByStateResponse).map Codec.decode

def taskCancel (request : TaskCancelRequest) : Invocation α TaskCancelResponse :=
  (unary .taskCancel request).map Codec.decode

def taskGetPriority (request : TaskGetPriorityRequest) : Invocation α (TaskGetPriorityResponse α) :=
  (unary .taskGetPriority request).map Codec.decode

def taskSetPriority (request : TaskSetPriorityRequest α) : Invocation α Unit :=
  unit (unary .taskSetPriority request)

def taskGetWorkerId (request : TaskGetWorkerIdRequest) : Invocation α TaskGetWorkerIdResponse :=
  (unary .taskGetWorkerId request).map Codec.decode

def taskSearchId (request : SearchKeyRequest) : Invocation α SearchKeyResponse :=
  (unary .taskSearchId request).map Codec.decode

def taskGet (request : TaskGetRequest) : Invocation α TaskGetResponse :=
  (unary .taskGet request).map Codec.decode

def taskDone (request : TaskDoneRequest) : Invocation α Unit :=
  unit (unary .taskDone request)

def journalSize (request : JournalSizeRequest) : Invocation α JournalSizeResponse :=
  (unary .journalSize request).map Codec.decode

def journalRead (request : JournalReadRequest) : Invocation α JournalReadResponse :=
  (unary .journalRead request).map Codec.decode

def journalAppend (request : JournalAppendRequest) : Invocation α Unit :=
  unit (unary .journalAppend request)

def journalSearchKey (request : SearchKeyRequest) : Invocation α SearchKeyResponse :=
  (unary .journalSearchKey request).map Codec.decode

def timeSeriesAppend (request : TimeSeriesAppendRequest α) : Invocation α Unit :=
  unit (unary .timeSeriesAppend request)

def timeSeriesGet (request : TimeSeriesGetRequest) : Invocation α (TimeSeriesGetResponse α) :=
  (unary .timeSeriesGet request).map Codec.decode

def timeSeriesSearchKey (request : SearchKeyRequest) : Invocation α SearchKeyResponse :=
  (unary .timeSeriesSearchKey request).map Codec.decode

def mutexTryAcquire (request : MutexTryAcquireRequest) : Invocation α MutexTryAcquireResponse :=
  (unary .mutexTryAcquire request).map Codec.decode

def mutexRelease (request : MutexReleaseRequest) : Invocation α Unit :=
  unit (unary .mutexRelease request)

def mutexGetWorkerId (request : MutexGetWorkerIdRequest) : Invocation α MutexGetWorkerIdResponse :=
  (unary .mutexGetWorkerId request).map Codec.decode

def mutexSearchKey (request : SearchKeyRequest) : Invocation α SearchKeyResponse :=
  (unary .mutexSearchKey request).map Codec.decode

def counterGetNextValue (request : CounterGetNextValueRequest) :
    Invocation α CounterGetNextValueResponse :=
  (unary .counterGetNextValue request).map Codec.decode

def counterGetCurrentValue (request : CounterGetCurrentValueRequest) :
    Invocation α CounterGetCurrentValueResponse :=
  (unary .counterGetCurrentValue request).map Codec.decode

def counterSearchKey (request : SearchKeyRequest) : Invocation α SearchKeyResponse :=
  (unary .counterSearchKey request).map Codec.decode

end

end GrpcClientTransport

end DsService

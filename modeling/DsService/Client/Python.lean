import DsService.Client.Methods
import DsService.Grpc.Calls

/-!
# The Python client

`connect` of `cpp/client/connect.cpp`, and the client of `python/ds_service_client/client.py` on top
of it: what a Python caller gets back from a method, or which exception it raises.

Each method of `DsServiceClient` but `mutex_acquire` runs the method of the C++ client of the same
name under `translate_error`, on the arguments it was given (one string for a list of one). So a
call is a `ClientCall` here too. The methods of `DsServiceClientAsync` run the same call under the
same handler, on a thread of a pool.
-/

namespace DsService

/-! ## Addresses -/

/-- `address.find("://")`: what stands before the first separator, and what after it. -/
def splitScheme : List Char → Option (List Char × List Char)
  | [] => none
  | ':' :: '/' :: '/' :: target => some ([], target)
  | c :: rest => (splitScheme rest).map fun (scheme, target) => (c :: scheme, target)

/-- `connect`: the target for the gRPC transport. -/
def connect (address : String) : Result String :=
  let (scheme, target) := match splitScheme address.toList with
    | none => ("grpc", address)
    | some (scheme, target) => (String.ofList scheme, String.ofList target)
  if target = "" then makeError .invalidArgument "The address is empty."
  else if scheme = "grpc" then .ok target
  else makeError .invalidArgument
    ("Unknown transport '" ++ scheme ++ "' in address '" ++ address ++ "'.")

/-! ## Exceptions -/

/-- The classes of the exceptions that the client raises. -/
inductive PyClass where
  | keyError
  | valueError
  | timeoutError
  | runtimeError
  | taskStateError
  | mutexNotHeld
  | noTaskAvailable
  | transportError
deriving DecidableEq, Repr

/-- A raised exception. -/
structure PyError where
  cls : PyClass
  message : String
deriving DecidableEq, Repr

/-- `FORK_MESSAGE`. -/
def forkMessage : String :=
  "ds_service_client cannot make calls in a process forked " ++
  "after a client was created, because its gRPC does not survive fork(). " ++
  "Use the spawn or forkserver start method of multiprocessing, " ++
  "or create the first client after forking."

/-- The class `translate_error` raises for a code. -/
def translateCode (notFound failedPrecondition : PyClass) : ErrorCode → PyClass
  | .notFound => notFound
  | .alreadyExists | .invalidArgument | .messageTooLarge => .valueError
  | .failedPrecondition => failedPrecondition
  | .unavailable | .deadlineExceeded => .timeoutError
  | .closed => .runtimeError
  | .cancelled | .transport => .transportError

/-- `translate_error` around a body that fails with this error. -/
def translateError (notFound failedPrecondition : PyClass) (e : Error) : PyError :=
  ⟨translateCode notFound failedPrecondition e.code, e.message⟩

/-! ## Processes -/

/-- The globals `_client_created` and `_forked_after_client` of a process. -/
structure PyProcess where
  clientCreated : Bool := false
  forkedAfterClient : Bool := false
deriving DecidableEq, Repr

namespace PyProcess

/-- `_after_fork_in_child`: the globals of the child, which starts with those of its parent. -/
def afterForkInChild (p : PyProcess) : PyProcess :=
  if p.clientCreated then { p with forkedAfterClient := true } else p

/-- `connect`, with the value of `DS_SERVER_ADDRESS`. -/
def connect (p : PyProcess) (environ : Option String) (address : Option String) :
    Except PyError String × PyProcess :=
  match address.or environ with
  | none => (.error ⟨.keyError, "DS_SERVER_ADDRESS"⟩, p)
  | some address =>
      if p.forkedAfterClient then (.error ⟨.runtimeError, forkMessage⟩, p)
      else match DsService.connect address with
        | .error e => (.error (translateError .keyError .taskStateError e), p)
        | .ok target => (.ok target, { p with clientCreated := true })

end PyProcess

/-- What changes the globals on the way to a process: a `connect`, with the value of
`DS_SERVER_ADDRESS`, and a fork, after which the way goes on in the child. -/
inductive PyOp where
  | connect (environ address : Option String)
  | fork
deriving DecidableEq, Repr

def PyProcess.step (p : PyProcess) : PyOp → PyProcess
  | .connect environ address => (p.connect environ address).2
  | .fork => p.afterForkInChild

/-- The globals of a process, by what led to it from the first process on. -/
def PyProcess.after (ops : List PyOp) : PyProcess := ops.foldl step {}

/-! ## The methods -/

namespace DsServiceClient

variable {α : Type}

/-- The `not_found` of the handler around a method. -/
def notFound : ClientCall α → PyClass
  | .taskGet .. => .noTaskAvailable
  | _ => .keyError

/-- The `failed_precondition` of the handler around a method. -/
def failedPrecondition : ClientCall α → PyClass
  | .mutexRelease .. | .mutexGetWorkerId _ => .mutexNotHeld
  | _ => .taskStateError

variable {Q : Type} [LinearOrder α] [Zero α]
variable [PriorityQueue Q (TaskQueueEntry α) taskQueueEntryOrder]

/-- A method called in the process `p`, on a client that is closed or not, and that is closed
meanwhile or not. -/
def call (re2 : RE2) (iso : Iso8601) (ch : Channel) (p : PyProcess) (closed closing : Bool)
    (c : ClientCall α) (m : SystemState Q α) :
    Option (Except PyError c.Value × SystemState Q α) :=
  if p.forkedAfterClient then some (.error ⟨.runtimeError, forkMessage⟩, m)
  else do
    let (result, m) ←
      if closed then some (.error GrpcClientTransport.closedError, m)
      else GrpcClientTransport.invoke re2 iso ch closing (Client.call c) m
    return (result.mapError (translateError (notFound c) (failedPrecondition c)), m)

end DsServiceClient

end DsService

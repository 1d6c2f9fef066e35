import Mathlib.Data.List.AList
import Mathlib.Algebra.Order.Ring.Nat

/-!
# The plain types of the service

Errors (`ds-service/error.hpp`), task states (`ds-service/task-state.hpp`) and the request and
response structs (`ds-service/messages.hpp`). A `std::string` is a `String` with one `Char` per
byte. A `double` is a number of a linear order `α` or the unordered NaN (`Double`), since the
server does nothing with one but compare it.
-/

namespace DsService

/-! ## Errors -/

/-- Why an operation failed. -/
inductive ErrorCode where
  | notFound
  | alreadyExists
  | invalidArgument
  | failedPrecondition
  | messageTooLarge
  | unavailable
  | deadlineExceeded
  | cancelled
  | closed
  | transport
deriving DecidableEq, Repr

/-- A failed operation: its code, and a message for a person to read. -/
structure Error where
  code : ErrorCode
  message : String
deriving DecidableEq, Repr

/-- What an operation of the server core returns. -/
abbrev Result (T : Type) := Except Error T

/-- The failed `Result` of an operation. -/
def makeError {T : Type} (code : ErrorCode) (message : String) : Result T :=
  .error ⟨code, message⟩

/-- The `Error` of a refusal. -/
def errorOf {T : Type} : Result T → Option Error
  | .ok _ => none
  | .error error => some error

/-! ## Doubles -/

/-- A `double`: a number, or NaN. -/
inductive Double (α : Type) where
  | num (x : α)
  | nan
deriving DecidableEq, Repr

namespace Double

variable {α : Type} [LinearOrder α]

/-- `a < b`, false as soon as one side is NaN. -/
def lt : Double α → Double α → Bool
  | num x, num y => decide (x < y)
  | _, _ => false

/-- `a != b`, true as soon as one side is NaN. -/
def ne : Double α → Double α → Bool
  | num x, num y => decide (x ≠ y)
  | _, _ => true

/-- The value is a number. -/
def isNum : Double α → Bool
  | num _ => true
  | nan => false

end Double

/-! ## Hash maps -/

/-- The hash map that every top level data structure is built on. No operation promises an
iteration order; the model's is that of the entries. -/
abbrev HashMap (K V : Type) := AList (fun _ : K => V)

/-! ## Task states -/

/-- The state of a task. -/
inductive TaskState where
  | waiting
  | ready
  | running
  | finished
  | failed
  | canceled
  | undefined
deriving DecidableEq, Repr

/-! ## Requests and responses -/

structure MapSetRequest where
  key : String
  value : String

structure MapGetRequest where
  key : String

structure MapGetResponse where
  value : String

structure SearchKeyRequest where
  pattern : String

structure SearchKeyResponse where
  key : List String

structure TaskAddRequest (α : Type) where
  taskId : String
  parentTaskIds : List String
  queue : List String
  priority : Double α
  function : String
  input : String

structure TaskGetStatusRequest where
  taskId : List String

structure TaskGetStatusResponse where
  state : List TaskState

structure TaskGetOutputRequest where
  taskId : String

structure TaskGetOutputResponse where
  output : String

structure TaskGetCountByStateResponse where
  waiting : Nat := 0
  ready : Nat := 0
  running : Nat := 0
  finished : Nat := 0
  failed : Nat := 0
  canceled : Nat := 0

structure TaskCancelRequest where
  taskId : String

structure TaskCancelResponse where
  success : Bool

structure TaskGetPriorityRequest where
  taskId : String

structure TaskGetPriorityResponse (α : Type) where
  priority : Double α

structure TaskSetPriorityRequest (α : Type) where
  taskId : String
  priority : Double α

structure TaskGetWorkerIdRequest where
  taskId : String

structure TaskGetWorkerIdResponse where
  workerId : String

structure TaskGetRequest where
  workerId : String
  queue : List String

structure TaskGetResponse where
  taskId : String
  function : String
  input : String

structure TaskDoneRequest where
  taskId : String
  output : String
  workerId : String
  failed : Bool

structure JournalSizeRequest where
  key : String

structure JournalSizeResponse where
  size : Nat

structure JournalReadRequest where
  key : String
  start : Nat
  «end» : Nat

structure JournalReadResponse where
  entry : List String

structure JournalAppendRequest where
  key : String
  value : String

structure TimeSeriesAppendRequest (α : Type) where
  key : String
  value : Double α
  datetime : String
  step : Int

structure TimeSeriesDataPoint (α : Type) where
  value : Double α
  datetime : String
  step : Int

structure TimeSeriesGetRequest where
  key : String
  startTime : Option String
  endTime : Option String
  startStep : Option Int
  endStep : Option Int

structure TimeSeriesGetResponse (α : Type) where
  point : List (TimeSeriesDataPoint α)

structure MutexTryAcquireRequest where
  key : String
  workerId : String

structure MutexTryAcquireResponse where
  acquired : Bool

structure MutexReleaseRequest where
  key : String
  workerId : String

structure MutexGetWorkerIdRequest where
  key : String

structure MutexGetWorkerIdResponse where
  workerId : String

structure CounterGetNextValueRequest where
  key : String

structure CounterGetNextValueResponse where
  value : Nat

structure CounterGetCurrentValueRequest where
  key : String

structure CounterGetCurrentValueResponse where
  value : Nat

/-! ## Regular expressions -/

/-- RE2, as the key searches use it: a pattern compiles to the predicate
`RE2::PartialMatch(·, pattern)`, or `pattern.error()` says why it does not. -/
structure RE2 where
  compile : String → Except String (String → Bool)

/-- The keys a search returns, of the keys of its structure. -/
def searchKeys (re2 : RE2) (keys : List String) (request : SearchKeyRequest) :
    Result SearchKeyResponse :=
  match re2.compile request.pattern with
  | .error error => makeError .invalidArgument ("Invalid regular expression: " ++ error)
  | .ok pattern => .ok ⟨keys.filter pattern⟩

end DsService

import DsService.Core.Messages

/-!
# The map, the journals, the time series, the mutexes and the counters

The five small structures of `core/data-structures.hpp`, method by method. A method takes the
structure and the plain request and returns the reply with the structure it leaves. Methods that
read a vector with the unchecked `operator[]` return an `Option`, `none` being the access out of
bounds.

Each structure has its operations as a type, the replies to them, and the `step` that serves one
call under the lock of the structure.

The clock text functions `parse_iso8601_utc` and `format_iso8601_utc` are the fields of `Iso8601`.
-/

namespace DsService

/-! ## Map -/

/-- The string to string map. -/
structure Map where
  data : HashMap String String := ∅

namespace Map

def set (self : Map) (request : MapSetRequest) : Result Unit × Map :=
  (.ok (), { self with data := self.data.insert request.key request.value })

def get (self : Map) (request : MapGetRequest) : Result MapGetResponse :=
  match self.data.lookup request.key with
  | none => makeError .notFound ("Key " ++ request.key ++ " not found.")
  | some value => .ok ⟨value⟩

def searchKey (re2 : RE2) (self : Map) (request : SearchKeyRequest) : Result SearchKeyResponse :=
  searchKeys re2 self.data.keys request

end Map

/-- The operations of the map, each with its request. -/
inductive MapOp where
  | set (request : MapSetRequest)
  | get (request : MapGetRequest)
  | searchKey (request : SearchKeyRequest)

/-- The replies of the map, one form per operation. -/
inductive MapReply where
  | set (result : Result Unit)
  | get (result : Result MapGetResponse)
  | searchKey (result : Result SearchKeyResponse)

def Map.step (re2 : RE2) (self : Map) : MapOp → Option (MapReply × Map)
  | .set request =>
      let (r, self) := self.set request
      some (.set r, self)
  | .get request => some (.get (self.get request), self)
  | .searchKey request => some (.searchKey (self.searchKey re2 request), self)

def MapReply.error : MapReply → Option Error
  | .set r => errorOf r
  | .get r => errorOf r
  | .searchKey r => errorOf r

/-! ## JournalMap -/

/-- The map from a key to an append only journal. -/
structure JournalMap where
  data : HashMap String (List String) := ∅

namespace JournalMap

def size (self : JournalMap) (request : JournalSizeRequest) : Result JournalSizeResponse :=
  match self.data.lookup request.key with
  | none => .ok ⟨0⟩
  | some journal => .ok ⟨journal.length⟩

def read (self : JournalMap) (request : JournalReadRequest) :
    Option (Result JournalReadResponse) :=
  match self.data.lookup request.key with
  | none => some (.ok ⟨[]⟩)
  | some journal => do
      let size := journal.length
      let start := min request.start size
      let «end» := min request.end size
      -- the loop runs over `start ≤ index < end`, so not at all when `end ≤ start`
      let entry ← (List.range' start («end» - start)).mapM (journal[·]?)
      return .ok ⟨entry⟩

def append (self : JournalMap) (request : JournalAppendRequest) : Result Unit × JournalMap :=
  let journal := (self.data.lookup request.key).getD []
  (.ok (), { self with data := self.data.insert request.key (journal ++ [request.value]) })

def searchKey (re2 : RE2) (self : JournalMap) (request : SearchKeyRequest) :
    Result SearchKeyResponse :=
  searchKeys re2 self.data.keys request

end JournalMap

/-- The operations of the journals, each with its request. -/
inductive JournalOp where
  | size (request : JournalSizeRequest)
  | read (request : JournalReadRequest)
  | append (request : JournalAppendRequest)
  | searchKey (request : SearchKeyRequest)

/-- The replies of the journals, one form per operation. -/
inductive JournalReply where
  | size (result : Result JournalSizeResponse)
  | read (result : Result JournalReadResponse)
  | append (result : Result Unit)
  | searchKey (result : Result SearchKeyResponse)

def JournalMap.step (re2 : RE2) (self : JournalMap) :
    JournalOp → Option (JournalReply × JournalMap)
  | .size request => some (.size (self.size request), self)
  | .read request => do
      let r ← self.read request
      return (.read r, self)
  | .append request =>
      let (r, self) := self.append request
      some (.append r, self)
  | .searchKey request => some (.searchKey (self.searchKey re2 request), self)

def JournalReply.error : JournalReply → Option Error
  | .size r => errorOf r
  | .read r => errorOf r
  | .append r => errorOf r
  | .searchKey r => errorOf r

/-! ## TimeSeriesMap -/

/-- The two directions between a datetime text and a `system_clock` time point, in nanoseconds
since 1970. -/
structure Iso8601 where
  parse : String → Option Int
  format : Int → String

/-- The points recorded under one key, one vector per column. The columns are of one length. -/
structure TimeSeries (α : Type) where
  value : List (Double α) := []
  time : List Int := []
  step : List Int := []
  time_length : time.length = value.length := by simp
  step_length : step.length = value.length := by simp

/-- The map from a key to a time series. -/
structure TimeSeriesMap (α : Type) where
  data : HashMap String (TimeSeries α) := ∅

namespace TimeSeriesMap

variable {α : Type}

def append (iso : Iso8601) (self : TimeSeriesMap α) (request : TimeSeriesAppendRequest α) :
    Result Unit × TimeSeriesMap α :=
  match iso.parse request.datetime with
  | none =>
      (makeError .invalidArgument ("Invalid ISO 8601 UTC datetime: " ++ request.datetime), self)
  | some tp =>
      let series := (self.data.lookup request.key).getD {}
      let series := { value := series.value ++ [request.value], time := series.time ++ [tp],
                      step := series.step ++ [request.step],
                      time_length := by simp [series.time_length]
                      step_length := by simp [series.step_length] }
      (.ok (), { self with data := self.data.insert request.key series })

/-- A time bound of a request: absent or empty is no bound, and `field` names the one that does
not parse. -/
def timeBound (iso : Iso8601) (field : String) : Option String → Result (Option Int)
  | none => .ok none
  | some text =>
      if text = "" then .ok none
      else match iso.parse text with
        | none => makeError .invalidArgument ("Invalid ISO 8601 UTC " ++ field ++ ": " ++ text)
        | some tp => .ok (some tp)

/-- One turn of the loop of `get`: the point at `index`, unless a bound excludes it. -/
def pointAt (iso : Iso8601) (series : TimeSeries α) (startTime endTime : Option Int)
    (request : TimeSeriesGetRequest) (index : Nat) : Option (Option (TimeSeriesDataPoint α)) := do
  let value ← series.value[index]?
  let time ← series.time[index]?
  let step ← series.step[index]?
  if startTime.any (time < ·) then return none
  else if endTime.any (time ≥ ·) then return none
  else if request.startStep.any (step < ·) then return none
  else if request.endStep.any (step ≥ ·) then return none
  else return some ⟨value, iso.format time, step⟩

def get (iso : Iso8601) (self : TimeSeriesMap α) (request : TimeSeriesGetRequest) :
    Option (Result (TimeSeriesGetResponse α)) :=
  match timeBound iso "start_time" request.startTime with
  | .error error => some (.error error)
  | .ok startTime =>
      match timeBound iso "end_time" request.endTime with
      | .error error => some (.error error)
      | .ok endTime =>
          match self.data.lookup request.key with
          | none => some (.ok ⟨[]⟩)
          | some series => do
              let points ← (List.range series.value.length).mapM
                (pointAt iso series startTime endTime request)
              return .ok ⟨points.filterMap id⟩

def searchKey (re2 : RE2) (self : TimeSeriesMap α) (request : SearchKeyRequest) :
    Result SearchKeyResponse :=
  searchKeys re2 self.data.keys request

end TimeSeriesMap

/-- The operations of the time series, each with its request. -/
inductive TimeSeriesOp (α : Type) where
  | append (request : TimeSeriesAppendRequest α)
  | get (request : TimeSeriesGetRequest)
  | searchKey (request : SearchKeyRequest)

/-- The replies of the time series, one form per operation. -/
inductive TimeSeriesReply (α : Type) where
  | append (result : Result Unit)
  | get (result : Result (TimeSeriesGetResponse α))
  | searchKey (result : Result SearchKeyResponse)

def TimeSeriesMap.step {α : Type} (re2 : RE2) (iso : Iso8601) (self : TimeSeriesMap α) :
    TimeSeriesOp α → Option (TimeSeriesReply α × TimeSeriesMap α)
  | .append request =>
      let (r, self) := self.append iso request
      some (.append r, self)
  | .get request => do
      let r ← self.get iso request
      return (.get r, self)
  | .searchKey request => some (.searchKey (self.searchKey re2 request), self)

def TimeSeriesReply.error {α : Type} : TimeSeriesReply α → Option Error
  | .append r => errorOf r
  | .get r => errorOf r
  | .searchKey r => errorOf r

/-! ## Mutexes -/

/-- One named mutex, as seen by the workers. -/
structure MutexState where
  held : Bool := false
  workerId : String := ""

/-- The map from a key to a named mutex. -/
structure Mutexes where
  data : HashMap String MutexState := ∅

namespace Mutexes

def tryAcquire (self : Mutexes) (request : MutexTryAcquireRequest) :
    Result MutexTryAcquireResponse × Mutexes :=
  -- `data[key]` creates a free mutex under a key not seen before
  let self := match self.data.lookup request.key with
    | none => { self with data := self.data.insert request.key {} }
    | some _ => self
  let mutex := (self.data.lookup request.key).getD {}
  if mutex.held then (.ok ⟨false⟩, self)
  else (.ok ⟨true⟩, { self with data := self.data.insert request.key ⟨true, request.workerId⟩ })

def release (self : Mutexes) (request : MutexReleaseRequest) : Result Unit × Mutexes :=
  match self.data.lookup request.key with
  | none => (makeError .failedPrecondition ("Mutex " ++ request.key ++ " is not held."), self)
  | some mutex =>
      if !mutex.held then
        (makeError .failedPrecondition ("Mutex " ++ request.key ++ " is not held."), self)
      else if mutex.workerId ≠ request.workerId then
        (makeError .failedPrecondition ("Mutex " ++ request.key ++ " is held by worker " ++
          mutex.workerId ++ ", not " ++ request.workerId ++ "."), self)
      else (.ok (), { self with data := self.data.insert request.key {} })

def getWorkerId (self : Mutexes) (request : MutexGetWorkerIdRequest) :
    Result MutexGetWorkerIdResponse :=
  match self.data.lookup request.key with
  | none => makeError .notFound ("Mutex " ++ request.key ++ " not found.")
  | some mutex =>
      if !mutex.held then
        makeError .failedPrecondition ("Mutex " ++ request.key ++ " is not held.")
      else .ok ⟨mutex.workerId⟩

def searchKey (re2 : RE2) (self : Mutexes) (request : SearchKeyRequest) :
    Result SearchKeyResponse :=
  searchKeys re2 self.data.keys request

end Mutexes

/-- The operations of the mutexes, each with its request. -/
inductive MutexOp where
  | tryAcquire (request : MutexTryAcquireRequest)
  | release (request : MutexReleaseRequest)
  | getWorkerId (request : MutexGetWorkerIdRequest)
  | searchKey (request : SearchKeyRequest)

/-- The replies of the mutexes, one form per operation. -/
inductive MutexReply where
  | tryAcquire (result : Result MutexTryAcquireResponse)
  | release (result : Result Unit)
  | getWorkerId (result : Result MutexGetWorkerIdResponse)
  | searchKey (result : Result SearchKeyResponse)

def Mutexes.step (re2 : RE2) (self : Mutexes) : MutexOp → Option (MutexReply × Mutexes)
  | .tryAcquire request =>
      let (r, self) := self.tryAcquire request
      some (.tryAcquire r, self)
  | .release request =>
      let (r, self) := self.release request
      some (.release r, self)
  | .getWorkerId request => some (.getWorkerId (self.getWorkerId request), self)
  | .searchKey request => some (.searchKey (self.searchKey re2 request), self)

def MutexReply.error : MutexReply → Option Error
  | .tryAcquire r => errorOf r
  | .release r => errorOf r
  | .getWorkerId r => errorOf r
  | .searchKey r => errorOf r

/-! ## Counters -/

/-- The map from a key to a monotonic counter. -/
structure Counters where
  data : HashMap String Nat := ∅

namespace Counters

def getNextValue (self : Counters) (request : CounterGetNextValueRequest) :
    Result CounterGetNextValueResponse × Counters :=
  let counter := ((self.data.lookup request.key).getD 0 + 1) % 2 ^ 64
  (.ok ⟨counter⟩, { self with data := self.data.insert request.key counter })

def getCurrentValue (self : Counters) (request : CounterGetCurrentValueRequest) :
    Result CounterGetCurrentValueResponse :=
  .ok ⟨(self.data.lookup request.key).getD 0⟩

def searchKey (re2 : RE2) (self : Counters) (request : SearchKeyRequest) :
    Result SearchKeyResponse :=
  searchKeys re2 self.data.keys request

end Counters

/-- The operations of the counters, each with its request. -/
inductive CounterOp where
  | getNextValue (request : CounterGetNextValueRequest)
  | getCurrentValue (request : CounterGetCurrentValueRequest)
  | searchKey (request : SearchKeyRequest)

/-- The replies of the counters, one form per operation. -/
inductive CounterReply where
  | getNextValue (result : Result CounterGetNextValueResponse)
  | getCurrentValue (result : Result CounterGetCurrentValueResponse)
  | searchKey (result : Result SearchKeyResponse)

def Counters.step (re2 : RE2) (self : Counters) : CounterOp → Option (CounterReply × Counters)
  | .getNextValue request =>
      let (r, self) := self.getNextValue request
      some (.getNextValue r, self)
  | .getCurrentValue request => some (.getCurrentValue (self.getCurrentValue request), self)
  | .searchKey request => some (.searchKey (self.searchKey re2 request), self)

def CounterReply.error : CounterReply → Option Error
  | .getNextValue r => errorOf r
  | .getCurrentValue r => errorOf r
  | .searchKey r => errorOf r

end DsService

import Mathlib.Data.Finset.Basic
import DsService.Grpc.Transport
import DsService.Lib.Machine

/-!
# The calls of a client in flight

`invoke`, `begin_call`, `end_call`, `wait` and `close` of
`cpp/grpc/client/grpc-client-transport.cpp`, with any number of threads inside them at once. A
section under `calls_lock_` or under the lock of a call is one step, and so is each thing a thread
does between two of them. The steps of all threads interleave in any order.

A `Call` is what the thread in `invoke`, the completion callback and `close` share of one call,
together with the place in `invoke` its thread has reached. gRPC completes a started call once, at
any time and with any status; the status of a call that was cancelled before it was started is
CANCELLED. `should_cancel` may answer anything, and may throw.
-/

namespace DsService

namespace GrpcClientTransport

/-! ## One call -/

/-- Where the thread in `invoke` is. -/
inductive Phase (E : Type) where
  /-- `begin_call` has registered the call, and the RPC is not started yet. -/
  | registered
  /-- In the loop of `wait`, with its local `cancelled`. -/
  | waiting (cancelled : Bool)
  /-- In `should_cancel`, without the lock of the call. -/
  | polling
  /-- `should_cancel` threw. -/
  | caught (failure : E)
  /-- Waiting for the call to complete before the exception goes on. -/
  | draining (failure : E)
  /-- Past the wait, with `failure` set if `should_cancel` threw. -/
  | returned (failure : Option E)
  /-- Past `end_call`. -/
  | ended

/-- One call. -/
structure Call (R E : Type) where
  phase : Phase E := .registered
  /-- `TryCancel` has been called on the context. -/
  cancelRequested : Bool := false
  /-- The call was started on a context already cancelled. -/
  startedCancelled : Bool := false
  /-- What the callback reported, and the response: set once `done` is. -/
  completion : Option (Status × R) := none

/-- The steps of a call that leave the other calls alone. -/
inductive CallOp (R E : Type) where
  /-- `start` on the stub. -/
  | start
  /-- The completion callback. -/
  | complete (status : Status) (response : R)
  /-- A wait in `wait` runs out, and `should_cancel` is called. -/
  | poll
  /-- `should_cancel` returns. -/
  | polled (cancel : Bool)
  /-- `should_cancel` throws. -/
  | threw (failure : E)
  /-- The `TryCancel` of the `catch`. -/
  | stop
  /-- A wait ends because the call is done. -/
  | wake

/-- How `invoke` ends. -/
inductive Outcome (R E : Type) where
  | response (response : R)
  | error (error : Error)
  | rethrow (failure : E)

namespace Call

variable {R E : Type}

def tryCancel (c : Call R E) : Call R E := { c with cancelRequested := true }

/-- One step of a call; `polls` says that the client has a `should_cancel`. -/
def step (polls : Bool) (c : Call R E) : CallOp R E → Option (Call R E)
  | .start =>
      match c.phase with
      | .registered =>
          some { c with phase := .waiting false, startedCancelled := c.cancelRequested }
      | _ => none
  | .complete status response =>
      match c.phase, c.completion with
      | .registered, _ | .ended, _ | _, some _ => none
      | _, none =>
          if c.startedCancelled && status.errorCode != .cancelled then none
          else some { c with completion := some (status, response) }
  | .poll =>
      match c.phase with
      | .waiting false =>
          if polls && c.completion.isNone then some { c with phase := .polling } else none
      | _ => none
  | .polled cancel =>
      match c.phase with
      | .polling =>
          let c := if cancel then c.tryCancel else c
          some { c with phase := .waiting cancel }
      | _ => none
  | .threw failure =>
      match c.phase with
      | .polling => some { c with phase := .caught failure }
      | _ => none
  | .stop =>
      match c.phase with
      | .caught failure => some { c.tryCancel with phase := .draining failure }
      | _ => none
  | .wake =>
      match c.phase, c.completion with
      | .waiting _, some _ => some { c with phase := .returned none }
      | .draining failure, some _ => some { c with phase := .returned (some failure) }
      | _, _ => none

/-- What `invoke` does after `end_call`, which reported `closed`. -/
def outcome (c : Call R E) (closed : Bool) : Option (Outcome R E) :=
  match c.phase, c.completion with
  | .returned (some failure), _ => some (.rethrow failure)
  | .returned none, some (status, response) =>
      match GrpcClientTransport.outcome closed status response with
      | .error error => some (.error error)
      | .ok response => some (.response response)
  | _, _ => none

end Call

/-! ## The transport -/

/-- The calls of a client, each under the address of its `Call`. -/
structure Calls (R E : Type) where
  closed : Bool := false
  /-- `calls_`. -/
  calls : Finset Nat := ∅
  /-- Every call a `begin_call` has registered, ended ones with it. -/
  call : Nat → Option (Call R E) := fun _ => none

/-- The steps of the threads that use a client. -/
inductive CallsOp (R E : Type) where
  | beginCall (id : Nat)
  | call (id : Nat) (op : CallOp R E)
  | endCall (id : Nat)
  | close

/-- What every call of a closed client throws. -/
def closedError : Error := ⟨.closed, "The client is closed."⟩

namespace Calls

variable {R E : Type}

def put (s : Calls R E) (id : Nat) (c : Call R E) : Calls R E :=
  { s with call := Function.update s.call id (some c) }

/-- One step of the client. The reply is the outcome of the `invoke` that ends with it. -/
def step (polls : Bool) (s : Calls R E) :
    CallsOp R E → Option (Option (Outcome R E) × Calls R E)
  | .beginCall id =>
      match s.call id with
      | some _ => none
      | none =>
          if s.closed then some (some (.error closedError), s)
          else some (none, { s.put id {} with calls := insert id s.calls })
  | .call id op => do
      let c ← s.call id
      let c ← c.step polls op
      return (none, s.put id c)
  | .endCall id => do
      let c ← s.call id
      let outcome ← c.outcome s.closed
      return (some outcome, { s.put id { c with phase := .ended } with calls := s.calls.erase id })
  | .close =>
      some (none,
        { s with
          closed := true
          call := fun id => if id ∈ s.calls then (s.call id).map Call.tryCancel else s.call id })

/-- The client as a machine, with no call and not closed. -/
def machine (R E : Type) (polls : Bool) : Machine (Calls R E) (CallsOp R E) (Option (Outcome R E))
    where
  init := {}
  step := step polls

end Calls

end GrpcClientTransport

end DsService

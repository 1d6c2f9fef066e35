import DsService.Lib.Machine
import Mathlib.Data.Finset.Erase
import Mathlib.Data.Finset.Insert
import Mathlib.Data.Finset.Lattice.Basic

/-!
# The server process

`main` and `await_shutdown_signal` of `cpp/server/main.cpp`, as the steps of the two threads they
run in, over the contract of `ServerTransport` in `cpp/server/transport.hpp`. A step is one call
that can block, fail or be seen from outside; what such a call returned is part of the step.

The kernel keeps the signals sent to the process. One that some thread does not block takes its
default action, which kills the process; one that every thread blocks stays pending, once however
often it is sent, until `sigwait` takes it. A new thread has the mask of the thread that creates it.
Only SIGINT and SIGTERM are modelled.
-/

namespace DsService

/-- A signal that asks the server to stop. -/
inductive Signal where
  | sigint
  | sigterm
deriving DecidableEq, Repr

/-- `shutdown_signals`. -/
def shutdownSignals : Finset Signal := {.sigint, .sigterm}

/-- `SHUTDOWN_GRACE_S`. -/
def shutdownGraceS : Nat := 5

/-- The deadline of a shutdown that reads this time, in nanoseconds. -/
def shutdownDeadline (now : Int) : Int := now + shutdownGraceS * 1000000000

/-- A `ServerTransport`. One that is draining is in `shutdown`, which has not completed. -/
inductive TransportState where
  | idle
  | serving
  | draining (deadline : Int)
  | down
deriving DecidableEq, Repr

/-- How a process ends. `terminated` is `std::terminate`, and `crashed` a call of a transport that
holds no server. -/
inductive ProcessEnd where
  | exited (code : Nat)
  | killed (signal : Signal)
  | terminated
  | crashed
deriving DecidableEq, Repr

/-- Where `main` is: before the mask, before its arguments, before the start of a transport, in
the wait for one, or gone with the process. -/
inductive MainPhase where
  | masking
  | parsing
  | starting (i : Nat)
  | waiting (i : Nat)
  | ended (ending : ProcessEnd)
deriving DecidableEq, Repr

/-- Where the shutdown thread is: in `sigwait`, past it, at a transport, or at its end. -/
inductive ShutdownPhase where
  | sigwait
  | taken
  | shutting (i : Nat) (deadline : Int)
  | done (deadline : Int)
deriving DecidableEq, Repr

/-- How `parse_args` ends. For `--help` and `--version` it prints and exits by itself. -/
inductive ParseOutcome where
  | parsed
  | failed
  | printed
deriving DecidableEq, Repr

/-- The process. `masks` has the signals each thread blocks, the thread of `main` first, and
`shutdown` is the flag of `SystemState`. -/
structure Process where
  main : MainPhase := .masking
  masks : List (Finset Signal)
  pending : Finset Signal := ∅
  thread : Option ShutdownPhase := none
  joinable : Bool := false
  transport : Nat → TransportState := fun _ => .idle
  shutdown : Bool := false

/-- A step, with what the call it stands for returned. -/
inductive ProcessOp where
  /-- Someone sends a signal to the process. -/
  | signal (signal : Signal)
  /-- A thread of a transport, or `main` in `start`, creates a thread. -/
  | spawn (thread : Nat)
  /-- `pthread_sigmask`. -/
  | mask (ok : Bool)
  | parseArgs (outcome : ParseOutcome)
  | start (bound : Bool)
  /-- The constructor of `shutdown_thread`. -/
  | launch (created : Bool)
  | wait
  | join
  /-- `sigwait`, with the signal it took, or none where it failed. -/
  | sigwait (signal : Option Signal)
  /-- The flag, and the deadline read off the clock. -/
  | flag (now : Int)
  /-- The shutdown thread calls `shutdown` on its next transport. -/
  | shutdown
  /-- That call returns. -/
  | drained
  /-- The loop of the shutdown thread ends. -/
  | finish
deriving DecidableEq, Repr

namespace Process

/-- The end of the process. -/
def finishWith (p : Process) (ending : ProcessEnd) : Process := { p with main := .ended ending }

/-- How the process ends when `main` returns, which destroys `shutdown_thread`. -/
def leaving (p : Process) (code : Nat) : ProcessEnd :=
  if p.joinable then .terminated else .exited code

/-- `main` returns. -/
def leave (p : Process) (code : Nat) : Process := p.finishWith (p.leaving code)

def setTransport (p : Process) (i : Nat) (state : TransportState) : Process :=
  { p with transport := Function.update p.transport i state }

/-- The steps of the thread of `main`, of `n` transports. -/
def stepMain (n : Nat) (p : Process) : ProcessOp → Option Process
  | .mask ok =>
      if p.main ≠ .masking then none
      else if ok then
        some { p with masks := p.masks.modifyHead (· ∪ shutdownSignals), main := .parsing }
      else some (p.leave 1)
  | .parseArgs outcome =>
      if p.main ≠ .parsing then none
      else match outcome with
        | .parsed => some { p with main := .starting 0 }
        | .failed => some (p.finishWith (.exited 1))
        | .printed => some (p.finishWith (.exited 0))
  | .start bound =>
      match p.main with
      | .starting i =>
          if i < n then
            if bound then some { p.setTransport i .serving with main := .starting (i + 1) }
            else some (p.leave 1)
          else none
      | _ => none
  | .launch created =>
      if p.main ≠ .starting n then none
      else if created then
        some { p with
          masks := p.masks ++ p.masks.head?.toList
          thread := some .sigwait
          joinable := true
          main := .waiting 0 }
      else some (p.finishWith .terminated)
  | .wait =>
      match p.main with
      | .waiting i =>
          if i < n then
            match p.transport i with
            | .idle => some (p.finishWith .crashed)
            | .down => some { p with main := .waiting (i + 1) }
            | _ => none
          else none
      | _ => none
  | .join =>
      match p.main, p.thread with
      | .waiting i, some (.done _) => if i = n then some ({ p with joinable := false }.leave 0)
          else none
      | _, _ => none
  | _ => none

/-- The steps of `await_shutdown_signal`. -/
def stepThread (n : Nat) (p : Process) : ProcessOp → Option Process
  | .sigwait signal =>
      if p.thread ≠ some .sigwait then none
      else match signal with
        | none => some { p with thread := some .taken }
        | some signal =>
            if signal ∈ p.pending then
              some { p with pending := p.pending.erase signal, thread := some .taken }
            else none
  | .flag now =>
      if p.thread ≠ some .taken then none
      else some { p with shutdown := true, thread := some (.shutting 0 (shutdownDeadline now)) }
  | .shutdown =>
      match p.thread with
      | some (.shutting i deadline) =>
          if i < n then
            match p.transport i with
            | .idle => some (p.finishWith .crashed)
            | .serving => some (p.setTransport i (.draining deadline))
            | _ => none
          else none
      | _ => none
  | .drained =>
      match p.thread with
      | some (.shutting i deadline) =>
          if i < n ∧ p.transport i = .draining deadline then
            some { p.setTransport i .down with thread := some (.shutting (i + 1) deadline) }
          else none
      | _ => none
  | .finish =>
      match p.thread with
      | some (.shutting i deadline) =>
          if i = n then some { p with thread := some (.done deadline) } else none
      | _ => none
  | _ => none

/-- A signal sent to the process: killed if some thread takes it, pending otherwise. -/
def send (p : Process) (signal : Signal) : Process :=
  if ∀ mask ∈ p.masks, signal ∈ mask then { p with pending := insert signal p.pending }
  else p.finishWith (.killed signal)

/-- A new thread, with the mask of the one that creates it. The threads of a transport are created
in its `start` and later. -/
def spawn (p : Process) (thread : Nat) : Option Process :=
  match p.main with
  | .starting _ | .waiting _ => do
      let mask ← p.masks[thread]?
      return { p with masks := p.masks ++ [mask] }
  | _ => none

/-- The process has ended. -/
def ended (p : Process) : Bool :=
  match p.main with
  | .ended _ => true
  | _ => false

/-- The steps of a process that has not ended. -/
def stepAlive (n : Nat) (p : Process) : ProcessOp → Option Process
  | .signal signal => some (p.send signal)
  | .spawn thread => p.spawn thread
  | op => (p.stepMain n op).or (p.stepThread n op)

/-- Nothing happens in a process that has ended. -/
def step (n : Nat) (p : Process) (op : ProcessOp) : Option (Unit × Process) :=
  if p.ended then none else (p.stepAlive n op).map ((), ·)

/-- The process with `n` transports, started by one whose thread blocks the signals `mask`. -/
def machine (n : Nat) (mask : Finset Signal) : Machine Process ProcessOp Unit where
  init := { masks := [mask] }
  step := step n

end Process

end DsService

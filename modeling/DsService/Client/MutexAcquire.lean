import DsService.Grpc.Calls
import DsService.Store.Ownership
import DsService.Task.History

/-!
# Waiting for a mutex

`Client::mutex_acquire` (`cpp/client/client.cpp`) and the server it talks to. The thread polls
`mutex_try_acquire` until it succeeds, the timeout has elapsed, or an attempt throws. The request of
an attempt travels on its own: the server executes it at some time, or never, and the call may fail
before or after that, for example because its deadline passed or because the client was closed.
Requests of other clients are served in between.

The result of the loop follows the replies (`mutex_acquire_follows_its_replies`). Of an attempt
whose call fails the thread does not know whether the server executed it, so an exception does not
say that the mutex is not held (`mutex_acquire_lost_reply`).
-/

namespace DsService

namespace Client

open GrpcClientTransport (Outcome closedError)

/-- Where the thread in `mutex_acquire` is. -/
inductive AcquireThread (E : Type) where
  /-- Before the next `mutex_try_acquire`. -/
  | attempting
  /-- In `mutex_try_acquire`, with the call begun. -/
  | waiting
  /-- Past an attempt that did not acquire. -/
  | retrying
  /-- In `sleep_for`, for this many nanoseconds. -/
  | sleeping (delay : Int)
  /-- Returned, or thrown. -/
  | ended (outcome : Outcome Unit E)

/-- The request of the last attempt. -/
inductive AcquireRequest where
  /-- On its way to the server. -/
  | sent
  /-- Executed, with this result on its way back. -/
  | executed (result : Result MutexTryAcquireResponse)

/-- One `mutex_acquire` and the server. -/
structure Acquire (E : Type) where
  mutexes : Mutexes := {}
  thread : AcquireThread E := .attempting
  request : Option AcquireRequest := none

/-- Who takes a step. -/
inductive AcquireOp (E : Type) where
  /-- The server serves another client. -/
  | other (op : MutexOp)
  /-- The thread begins an attempt. -/
  | send
  /-- The client is closed, and the attempt throws before it is sent. -/
  | refuse
  /-- The server serves the request of the attempt. -/
  | execute
  /-- The reply arrives. -/
  | receive
  /-- The call of the attempt fails, or its `should_cancel` throws. -/
  | fail (failure : Error ⊕ E)
  /-- The thread reads the clock and decides how long to sleep. -/
  | retry (now jitter : Int)
  /-- The sleep is over. -/
  | wake

/-- `MUTEX_ACQUIRE_SLEEP` in nanoseconds. -/
def mutexAcquireSleep : Int := 500000000

/-- `MUTEX_ACQUIRE_JITTER` in nanoseconds. -/
def mutexAcquireJitter : Int := 100000000

/-- What `mutex_acquire` throws once its timeout has elapsed. -/
def timedOut (key : String) : Error :=
  ⟨.deadlineExceeded, "Timed out acquiring mutex '" ++ key ++ "'."⟩

namespace Acquire

variable {E : Type}

/-- What the thread does with a reply. -/
def received : Result MutexTryAcquireResponse → AcquireThread E
  | .ok ⟨true⟩ => .ended (.response ())
  | .ok ⟨false⟩ => .retrying
  | .error error => .ended (.error error)

/-- What the thread does after an attempt that did not acquire. -/
def delayed (key : String) (deadline : Option Int) (now jitter : Int) : AcquireThread E :=
  let delay := mutexAcquireSleep + jitter
  match deadline with
  | none => .sleeping delay
  | some deadline =>
      let remaining := deadline - now
      if remaining ≤ 0 then .ended (.error (timedOut key)) else .sleeping (min delay remaining)

/-- One step. The reply is that of the server, when it serves a request. -/
def step (re2 : RE2) (key workerId : String) (deadline : Option Int) (s : Acquire E) :
    AcquireOp E → Option (Option MutexReply × Acquire E)
  | .other op => do
      let (r, mutexes) ← s.mutexes.step re2 op
      return (some r, { s with mutexes := mutexes })
  | .send =>
      match s.thread with
      | .attempting => some (none, { s with thread := .waiting, request := some .sent })
      | _ => none
  | .refuse =>
      match s.thread with
      | .attempting => some (none, { s with thread := .ended (.error closedError) })
      | _ => none
  | .execute =>
      match s.request with
      | some .sent =>
          let (r, mutexes) := s.mutexes.tryAcquire ⟨key, workerId⟩
          some (some (.tryAcquire r), { s with mutexes := mutexes, request := some (.executed r) })
      | _ => none
  | .receive =>
      match s.thread, s.request with
      | .waiting, some (.executed r) => some (none, { s with thread := received r })
      | _, _ => none
  | .fail failure =>
      match s.thread with
      | .waiting => some (none, { s with thread := .ended (failure.elim .error .rethrow) })
      | _ => none
  | .retry now jitter =>
      match s.thread with
      | .retrying =>
          if jitter < -mutexAcquireJitter ∨ mutexAcquireJitter < jitter then none
          else some (none, { s with thread := delayed key deadline now jitter })
      | _ => none
  | .wake =>
      match s.thread with
      | .sleeping _ => some (none, { s with thread := .attempting })
      | _ => none

/-- One `mutex_acquire` with its server, from an empty server and before the first attempt. -/
def machine (E : Type) (re2 : RE2) (key workerId : String) (deadline : Option Int) :
    Machine (Acquire E) (AcquireOp E) (Option MutexReply) where
  init := {}
  step := step re2 key workerId deadline

/-! ## What an attempt leaves -/

abbrev AcquireEvent (E : Type) := Machine.Event (Acquire E) (AcquireOp E) (Option MutexReply)

/-- The server executed an attempt that acquired the mutex. -/
def Acquired (key workerId : String) (es : List (AcquireEvent E)) : Prop :=
  ∃ e ∈ es, e.op = .execute ∧ e.pre.mutexes.Free key ∧
    e.post.mutexes.data.lookup key = some ⟨true, workerId⟩

/-- The call of an attempt failed after it was sent. -/
def CallFailed (es : List (AcquireEvent E)) : Prop := ∃ e ∈ es, ∃ failure, e.op = .fail failure

section
variable {key workerId : String} {es : List (AcquireEvent E)} {e : AcquireEvent E}

/-- The mutex was acquired before or by the last call. -/
theorem acquired_snoc : Acquired key workerId (es ++ [e]) ↔ Acquired key workerId es ∨
    e.op = .execute ∧ e.pre.mutexes.Free key ∧
      e.post.mutexes.data.lookup key = some ⟨true, workerId⟩ :=
  Machine.exists_snoc

/-- A call failed before or as the last one. -/
theorem callFailed_snoc :
    CallFailed (es ++ [e]) ↔ CallFailed es ∨ ∃ failure, e.op = .fail failure :=
  Machine.exists_snoc

end

/-- The last attempt has not acquired the mutex, and will not. -/
def Settled (request : Option AcquireRequest) : Prop :=
  request ≠ some .sent ∧ request ≠ some (.executed (.ok ⟨true⟩))

/-- What the place of the thread says about the request of its last attempt. -/
def Agrees (failed : Prop) (request : Option AcquireRequest) : AcquireThread E → Prop
  | .attempting | .retrying | .sleeping _ => Settled request
  | .waiting => ∃ r, request = some r
  | .ended (.response ()) => request = some (.executed (.ok ⟨true⟩))
  | .ended _ => failed ∨ Settled request

/-- A failure that is known explains what one before it did. -/
theorem Agrees.mono {failed failed' : Prop} {request : Option AcquireRequest}
    {thread : AcquireThread E} (h : Agrees failed request thread) (hfailed : failed → failed') :
    Agrees failed' request thread := by
  match thread, h with
  | .attempting, h | .retrying, h | .sleeping _, h | .waiting, h | .ended (.response ()), h =>
      exact h
  | .ended (.error _), h | .ended (.rethrow _), h => exact h.imp_left hfailed

structure Invariant (key workerId : String) (es : List (AcquireEvent E)) (s : Acquire E) :
    Prop where
  acquired : Acquired key workerId es ↔ s.request = some (.executed (.ok ⟨true⟩))
  agrees : Agrees (CallFailed es) s.request s.thread

/-- A reply of false settles the attempt. -/
theorem settled_false : Settled (some (.executed (.ok ⟨false⟩))) := ⟨nofun, nofun⟩

/-- Past its checks `mutex_acquire` sleeps or times out. -/
theorem delayed_agrees {failed : Prop} {request : Option AcquireRequest} (h : Settled request)
    (key : String) (deadline : Option Int) (now jitter : Int) :
    Agrees (E := E) failed request (delayed key deadline now jitter) := by
  cases deadline with
  | none => exact h
  | some deadline =>
    unfold delayed
    dsimp only
    split
    · exact .inr h
    · exact h

/-- What the thread makes of a reply agrees with it. -/
theorem received_agrees {failed : Prop} (r : Result MutexTryAcquireResponse) :
    Agrees (E := E) failed (some (.executed r)) (received r) := by
  match r with
  | .ok ⟨true⟩ => rfl
  | .ok ⟨false⟩ => exact settled_false
  | .error error => exact .inr ⟨nofun, nofun⟩

/-- The server answers an attempt with whether the mutex was free, and then it has acquired it. -/
theorem tryAcquire_acquires (mutexes : Mutexes) (key workerId : String) :
    (mutexes.tryAcquire ⟨key, workerId⟩).1 = .ok ⟨true⟩ ↔
      mutexes.Free key ∧
        (mutexes.tryAcquire ⟨key, workerId⟩).2.data.lookup key = some ⟨true, workerId⟩ := by
  rcases mutexes.free_or_held key with hfree | ⟨holder, hheld⟩
  · obtain ⟨mutexes', heq, hlookup, -⟩ := @Mutexes.tryAcquire_free mutexes ⟨key, workerId⟩ hfree
    rw [heq]
    exact ⟨fun _ => ⟨hfree, hlookup⟩, fun _ => rfl⟩
  · rw [@Mutexes.tryAcquire_held mutexes ⟨key, workerId⟩ holder hheld]
    refine ⟨nofun, fun ⟨hfree, _⟩ => ?_⟩
    unfold Mutexes.Free at hfree
    rw [hheld] at hfree
    cases hfree

namespace Invariant

variable {re2 : RE2} {key workerId : String} {deadline : Option Int}
variable {es : List (AcquireEvent E)} {s s' : Acquire E} {op : AcquireOp E} {r : Option MutexReply}

/-- A step of the thread or of another client moves the thread, and executes no attempt. -/
theorem moved (h : Invariant key workerId es s) (hrequest : s'.request = s.request)
    (hop : op ≠ .execute)
    (hagrees : Agrees (CallFailed (es ++ [⟨s, op, r, s'⟩])) s.request s'.thread) :
    Invariant key workerId (es ++ [⟨s, op, r, s'⟩]) s' := by
  refine ⟨?_, by rw [hrequest]; exact hagrees⟩
  rw [acquired_snoc, hrequest, h.acquired]
  exact ⟨fun hor => hor.elim id fun hexecute => absurd hexecute.1 hop, .inl⟩

/-- **An attempt that the server executes keeps the invariant.** -/
theorem execute (h : Invariant key workerId es s) (hsent : s.request = some .sent)
    {result : Result MutexTryAcquireResponse} {mutexes : Mutexes}
    (htry : s.mutexes.tryAcquire ⟨key, workerId⟩ = (result, mutexes)) :
    Invariant key workerId
      (es ++ [⟨s, .execute, r, { s with mutexes := mutexes, request := some (.executed result) }⟩])
      { s with mutexes := mutexes, request := some (.executed result) } := by
  have hagrees := h.agrees
  have hnot : ¬ Acquired key workerId es := by
    rw [h.acquired, hsent]
    nofun
  refine ⟨?_, ?_⟩
  · have hiff := tryAcquire_acquires s.mutexes key workerId
    rw [htry] at hiff
    rw [acquired_snoc, Option.some.injEq, AcquireRequest.executed.injEq, hiff]
    simp [hnot]
  · -- only a thread that waits, or whose call has failed, has a request under way
    show Agrees _ _ s.thread
    rw [hsent] at hagrees
    match s.thread, hagrees with
    | .attempting, hagrees | .retrying, hagrees | .sleeping _, hagrees => exact absurd rfl hagrees.1
    | .waiting, _ => exact ⟨_, rfl⟩
    | .ended (.response ()), hagrees => cases hagrees
    | .ended (.error _), hagrees | .ended (.rethrow _), hagrees =>
      exact .inl (callFailed_snoc.2 (.inl (hagrees.resolve_right fun hsettled => hsettled.1 rfl)))

/-- Every step keeps the invariant. -/
theorem step (h : Invariant key workerId es s)
    (hs : s.step re2 key workerId deadline op = some (r, s')) :
    Invariant key workerId (es ++ [⟨s, op, r, s'⟩]) s' := by
  have hagrees := h.agrees
  cases op with
  | other op =>
    simp only [Acquire.step, Option.bind_eq_bind, Option.bind_eq_some_iff] at hs
    obtain ⟨⟨reply, mutexes⟩, -, heq⟩ := hs
    cases heq
    exact h.moved rfl nofun (hagrees.mono fun hfailed => callFailed_snoc.2 (.inl hfailed))
  | send =>
    simp only [Acquire.step] at hs
    split at hs
    · next hthread =>
      cases hs
      rw [hthread] at hagrees
      refine ⟨?_, ⟨_, rfl⟩⟩
      rw [acquired_snoc, h.acquired]
      simp [hagrees.2]
    · cases hs
  | refuse =>
    simp only [Acquire.step] at hs
    split at hs
    · next hthread =>
      cases hs
      rw [hthread] at hagrees
      exact h.moved rfl nofun (.inr hagrees)
    · cases hs
  | execute =>
    simp only [Acquire.step] at hs
    split at hs
    · next hsent =>
      cases hs
      exact h.execute hsent rfl
    · cases hs
  | receive =>
    simp only [Acquire.step] at hs
    split at hs
    · next result _ hrequest =>
      cases hs
      refine h.moved rfl nofun ?_
      rw [hrequest]
      exact received_agrees result
    · cases hs
  | fail failure =>
    simp only [Acquire.step] at hs
    split at hs
    · cases hs
      refine h.moved rfl nofun ?_
      cases failure with
      | inl | inr => exact .inl (callFailed_snoc.2 (.inr ⟨_, rfl⟩))
    · cases hs
  | retry now jitter =>
    simp only [Acquire.step] at hs
    split at hs
    · next hthread =>
      split at hs
      · cases hs
      · cases hs
        rw [hthread] at hagrees
        exact h.moved rfl nofun (delayed_agrees hagrees key deadline now jitter)
    · cases hs
  | wake =>
    simp only [Acquire.step] at hs
    split at hs
    · next hthread =>
      cases hs
      rw [hthread] at hagrees
      exact h.moved rfl nofun hagrees
    · cases hs

end Invariant

/-- **The invariant holds after every run.** -/
theorem invariant {re2 : RE2} {key workerId : String} {deadline : Option Int}
    {es : List (AcquireEvent E)} {s : Acquire E}
    (h : (machine E re2 key workerId deadline).Run es s) : Invariant key workerId es s := by
  induction h with
  | nil => exact ⟨by simp [Acquired, machine], ⟨nofun, nofun⟩⟩
  | snoc _ hs ih => exact ih.step hs

/-- **`mutex_acquire` follows its replies.** It returns only if one of its attempts acquired the
mutex, and it makes no attempt after one that did. As long as no call of an attempt fails, it ends
by returning exactly if one of its attempts acquired the mutex, and a thread that has not ended by
then returns with the reply it waits for. -/
theorem mutex_acquire_follows_its_replies {re2 : RE2} {key workerId : String}
    {deadline : Option Int} {es : List (AcquireEvent E)} {s : Acquire E}
    (h : (machine E re2 key workerId deadline).Run es s) :
    (s.thread = .ended (.response ()) → Acquired key workerId es) ∧
    (∀ outcome, s.thread = .ended outcome → ¬ CallFailed es →
      (outcome = .response () ↔ Acquired key workerId es)) ∧
    (Acquired key workerId es → (∀ outcome, s.thread ≠ .ended outcome) →
      s.step re2 key workerId deadline .receive
        = some (none, { s with thread := .ended (.response ()) })) ∧
    ∀ (es₁ : List (AcquireEvent E)) (e : AcquireEvent E) (es₂ : List (AcquireEvent E)),
      es = es₁ ++ e :: es₂ → e.op = .send → ¬ Acquired key workerId es₁ := by
  have hinv := invariant h
  have hagrees := hinv.agrees
  refine ⟨fun hthread => ?_, fun outcome hthread hfailed => ?_, fun hacquired hended => ?_, ?_⟩
  · rw [hthread] at hagrees
    exact hinv.acquired.2 hagrees
  · rw [hinv.acquired]
    rw [hthread] at hagrees
    match outcome, hagrees with
    | .response (), hagrees => exact ⟨fun _ => hagrees, fun _ => rfl⟩
    | .error _, hagrees | .rethrow _, hagrees =>
      exact ⟨nofun, fun hrequest => absurd hrequest (hagrees.resolve_left hfailed).2⟩
  · have hrequest := hinv.acquired.1 hacquired
    cases hthread : s.thread with
    | waiting =>
      simp only [Acquire.step, hthread, hrequest]
      rfl
    | ended outcome => exact absurd hthread (hended outcome)
    | attempting | retrying | sleeping =>
      rw [hthread] at hagrees
      exact absurd hrequest hagrees.2
  · rintro es₁ ⟨pre, op, r, post⟩ es₂ rfl hop
    cases hop
    obtain ⟨hrun, hs⟩ := h.split
    have hpre := invariant hrun
    rw [hpre.acquired]
    simp only [machine, Acquire.step] at hs
    split at hs
    · next hthread =>
      have hagrees := hpre.agrees
      rw [hthread] at hagrees
      exact hagrees.2
    · cases hs

/-- The mutex is held by another worker at the first attempt and free at the second. -/
def secondAttempt : List (AcquireOp Empty) :=
  [.other (.tryAcquire ⟨"k", "v"⟩), .send, .execute, .receive, .retry 0 0, .wake,
    .other (.release ⟨"k", "v"⟩), .send, .execute, .receive]

/-- A mutex that is free at the second attempt. -/
theorem mutex_acquire_follows_its_replies_second :
    Acquired "k" "w" ((machine Empty sampleRe2 "k" "w" (some 1000000000)).runOf secondAttempt).1 :=
  (mutex_acquire_follows_its_replies (Machine.run_runOf secondAttempt rfl)).1 rfl

/-- The server executes the attempt, and the deadline of its call passes before the reply
arrives. -/
def lostReply : List (AcquireOp Empty) :=
  [.send, .execute, .fail (.inl ⟨.deadlineExceeded, "Deadline Exceeded"⟩)]

/-- **The thread throws, and the mutex is left held.** -/
theorem mutex_acquire_lost_reply :
    ∃ es s, (machine Empty sampleRe2 "k" "w" none).Run es s ∧
      s.thread = .ended (.error ⟨.deadlineExceeded, "Deadline Exceeded"⟩) ∧
      Acquired "k" "w" es ∧ s.mutexes.data.lookup "k" = some ⟨true, "w"⟩ := by
  refine ⟨_, _, Machine.run_runOf lostReply rfl, rfl, ?_, rfl⟩
  exact ⟨_, List.mem_of_getElem? (i := 1) rfl, rfl, rfl, rfl⟩

end Acquire

end Client

end DsService

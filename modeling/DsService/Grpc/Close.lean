import DsService.Grpc.Calls
import DsService.Lib.History

/-!
# Closing a client

`close_lets_no_call_escape`: what `close` does to the calls of any number of threads, in every order
of their steps. `Invariant` ties the state of a client to the steps behind it; every statement about
a run is read off it.
-/

namespace DsService

namespace GrpcClientTransport

variable {R E : Type} {polls : Bool}

/-! ## One call -/

namespace Call

variable {c c' : Call R E}

/-- What gRPC is relied on for: a call started after its cancellation completes as cancelled. -/
structure Ok (c : Call R E) : Prop where
  registered : c.phase = .registered → c.startedCancelled = false ∧ c.completion = none
  cancelled : c.startedCancelled = true → ∀ {status response},
    c.completion = some (status, response) → status.errorCode = .cancelled

/-- What a step of a call keeps. -/
structure Keeps (c c' : Call R E) : Prop where
  phase : c.phase ≠ .ended
  phase' : c'.phase ≠ .ended
  cancelRequested : c.cancelRequested = true → c'.cancelRequested = true
  startedCancelled : c.phase ≠ .registered →
    c'.phase ≠ .registered ∧ c'.startedCancelled = c.startedCancelled
  ok : c.Ok → c'.Ok

/-- A step of a call starts it, completes it, or moves its thread, which may request a
cancellation. -/
theorem step_cases {op : CallOp R E} (h : c.step polls op = some c') :
    (op = .start ∧ c.phase = .registered ∧
      c' = { c with phase := .waiting false, startedCancelled := c.cancelRequested }) ∨
    (∃ status response, c.phase ≠ .registered ∧ c.phase ≠ .ended ∧
      (c.startedCancelled = true → status.errorCode = .cancelled) ∧
      c' = { c with completion := some (status, response) }) ∨
    ∃ phase cancel, c.phase ≠ .registered ∧ c.phase ≠ .ended ∧ phase ≠ .registered ∧
      phase ≠ .ended ∧
      c' = { c with phase := phase, cancelRequested := c.cancelRequested || cancel } := by
  obtain ⟨phase, cancelRequested, startedCancelled, completion⟩ := c
  cases op with
  | start =>
    cases phase with
    | registered => cases h; exact .inl ⟨rfl, rfl, rfl⟩
    | _ => cases h
  | complete status response =>
    refine .inr (.inl ⟨status, response, ?_⟩)
    simp only [step] at h
    split at h
    · cases h
    · cases h
    · cases h
    · next hreg hend =>
      split at h
      · cases h
      · next hstatus =>
        cases h
        refine ⟨hreg, hend, ?_, rfl⟩
        rintro rfl
        simpa using hstatus
  | poll =>
    simp only [step] at h
    split at h
    · split at h
      · cases h
        exact .inr (.inr ⟨.polling, false, nofun, nofun, nofun, nofun, by simp⟩)
      · cases h
    · cases h
  | polled cancel =>
    cases phase with
    | polling =>
      cases h
      refine .inr (.inr ⟨.waiting cancel, cancel, nofun, nofun, nofun, nofun, ?_⟩)
      cases cancel <;> simp [tryCancel]
    | _ => cases h
  | threw failure =>
    cases phase with
    | polling =>
      cases h
      exact .inr (.inr ⟨.caught failure, false, nofun, nofun, nofun, nofun, by simp⟩)
    | _ => cases h
  | stop =>
    cases phase with
    | caught failure =>
      cases h
      exact .inr (.inr ⟨.draining failure, true, nofun, nofun, nofun, nofun, by simp [tryCancel]⟩)
    | _ => cases h
  | wake =>
    cases completion with
    | none => cases phase <;> cases h
    | some completion =>
      cases phase with
      | waiting cancelled =>
        cases h
        exact .inr (.inr ⟨.returned none, false, nofun, nofun, nofun, nofun, by simp⟩)
      | draining failure =>
        cases h
        exact .inr (.inr ⟨.returned (some failure), false, nofun, nofun, nofun, nofun, by simp⟩)
      | _ => cases h

/-- A start waits, and notes whether it comes too late. -/
theorem step_start (h : c.step polls .start = some c') :
    c' = { c with phase := .waiting false, startedCancelled := c.cancelRequested } := by
  simp only [step] at h
  split at h
  · cases h
    rfl
  · cases h

/-- Every step of a call keeps what `Keeps` lists. -/
theorem step_keeps {op : CallOp R E} (h : c.step polls op = some c') : Keeps c c' := by
  obtain ⟨-, hphase, rfl⟩ | ⟨status, response, hreg, hend, hstatus, rfl⟩ |
    ⟨phase, cancel, hreg, hend, hreg', hend', rfl⟩ := step_cases h
  · refine ⟨by rw [hphase]; nofun, nofun, id, fun hne => absurd hphase hne, fun hok => ⟨nofun, ?_⟩⟩
    intro _ status response hcompletion
    rw [(hok.registered hphase).2] at hcompletion
    cases hcompletion
  · refine ⟨hend, hend, id, fun _ => ⟨hreg, rfl⟩, fun _ => ⟨fun hp => absurd hp hreg, ?_⟩⟩
    intro hstarted status' response' hcompletion
    cases hcompletion
    exact hstatus hstarted
  · refine ⟨hend, hend', fun hc => ?_, fun _ => ⟨hreg', rfl⟩, fun hok => ?_⟩
    · show (c.cancelRequested || cancel) = true
      rw [hc, Bool.true_or]
    · exact ⟨fun hp => absurd hp hreg', hok.cancelled⟩

/-- A call whose outcome is out has left its wait. -/
theorem outcome_phase {closed : Bool} {outcome : Outcome R E}
    (h : c.outcome closed = some outcome) :
    c.phase ≠ .ended := by
  rintro hphase
  rw [Call.outcome, hphase] at h
  cases h

/-- A cancelled call reports `closed` on a closed client. -/
theorem outcome_cancelled {closed : Bool} {status : Status} {response : R}
    (hphase : c.phase = .returned none) (hcompletion : c.completion = some (status, response))
    (hstatus : status.errorCode = .cancelled) :
    c.outcome closed =
      some (.error (if closed then closedError else ⟨.cancelled, status.errorMessage⟩)) := by
  unfold Call.outcome
  rw [hphase, hcompletion]
  cases closed <;> simp [GrpcClientTransport.outcome, toError, hstatus, closedError, fromStatusCode]

/-- No status of the wire says `Closed`. -/
theorem fromStatusCode_ne_closed (code : StatusCode) : fromStatusCode code ≠ .closed := by
  cases code <;> nofun

/-- No status of the server reads as `closed`. -/
theorem outcome_closed {closed : Bool} {error : Error} (h : c.outcome closed = some (.error error))
    (hcode : error.code = .closed) : closed = true := by
  unfold Call.outcome at h
  split at h
  · cases h
  · next status response _ _ =>
    unfold GrpcClientTransport.outcome at h
    split at h
    · next herror =>
      cases h
      split at herror
      · cases herror
        unfold toError at hcode
        split at hcode
        · next hclosed => exact (Bool.and_eq_true_iff.1 hclosed).1
        · exact absurd hcode (fromStatusCode_ne_closed _)
      · cases herror
    · cases h
  · cases h

/-- A call started after its cancellation ends as closed on a closed client, unless its own
`should_cancel` threw. -/
theorem Ok.outcome_started {outcome : Outcome R E} (hok : c.Ok)
    (hstarted : c.startedCancelled = true)
    (h : c.outcome true = some outcome) :
    outcome = .error closedError ∨ ∃ failure, outcome = .rethrow failure := by
  cases hphase : c.phase with
  | returned failure =>
    cases failure with
    | some failure =>
      rw [Call.outcome, hphase] at h
      cases h
      exact .inr ⟨failure, rfl⟩
    | none =>
      cases hcompletion : c.completion with
      | none =>
        rw [Call.outcome, hphase, hcompletion] at h
        cases h
      | some completion =>
        obtain ⟨status, response⟩ := completion
        have hstatus := hok.cancelled hstarted hcompletion
        rw [outcome_cancelled hphase hcompletion hstatus] at h
        cases h
        exact .inl rfl
  | _ =>
    rw [Call.outcome, hphase] at h
    cases h

end Call

/-! ## The history of a client -/

abbrev CallsEvent (R E : Type) :=
  Machine.Event (Calls R E) (CallsOp R E) (Option (Outcome R E))

/-- Some `close` has run. -/
def Closed (es : List (CallsEvent R E)) : Prop := ∃ e ∈ es, e.op = .close

/-- The `begin_call` of this call has succeeded. -/
def Began (es : List (CallsEvent R E)) (id : Nat) : Prop :=
  ∃ e ∈ es, e.op = .beginCall id ∧ e.reply = none

/-- The `end_call` of this call has run. -/
def Ended (es : List (CallsEvent R E)) (id : Nat) : Prop := ∃ e ∈ es, e.op = .endCall id

section
variable {es : List (CallsEvent R E)} {s s' : Calls R E} {op : CallsOp R E}
variable {r : Option (Outcome R E)} {id : Nat}

/-- The client is closed by an earlier call or by the last one. -/
theorem closed_snoc : Closed (es ++ [⟨s, op, r, s'⟩]) ↔ Closed es ∨ op = .close :=
  Machine.exists_snoc

/-- A call has begun if it is not refused. -/
theorem began_snoc :
    Began (es ++ [⟨s, op, r, s'⟩]) id ↔ Began es id ∨ op = .beginCall id ∧ r = none :=
  Machine.exists_snoc

/-- A call has ended by an earlier step or by the last one. -/
theorem ended_snoc : Ended (es ++ [⟨s, op, r, s'⟩]) id ↔ Ended es id ∨ op = .endCall id :=
  Machine.exists_snoc

end

/-- The state of a client against the steps behind it. -/
structure Invariant (es : List (CallsEvent R E)) (s : Calls R E) : Prop where
  closed : s.closed = true ↔ Closed es
  began : ∀ id, Began es id ↔ ∃ c, s.call id = some c
  ended : ∀ id, Ended es id ↔ ∃ c, s.call id = some c ∧ c.phase = .ended
  calls : ∀ id, id ∈ s.calls ↔ ∃ c, s.call id = some c ∧ c.phase ≠ .ended
  cancelled : s.closed = true → ∀ id ∈ s.calls, ∀ c, s.call id = some c → c.cancelRequested = true
  ok : ∀ id c, s.call id = some c → c.Ok

namespace Calls

variable {s s' : Calls R E} {r : Option (Outcome R E)}

/-- A `begin_call` throws on a closed client, and registers a new call otherwise. -/
theorem step_beginCall {id : Nat} (h : s.step polls (.beginCall id) = some (r, s')) :
    s.call id = none ∧
      (s.closed = true ∧ r = some (.error closedError) ∧ s' = s ∨
        s.closed = false ∧ r = none ∧ s' = { s.put id {} with calls := insert id s.calls }) := by
  simp only [step] at h
  split at h
  · cases h
  · next hnone =>
    split at h
    · next hclosed => cases h; exact ⟨hnone, .inl ⟨hclosed, rfl, rfl⟩⟩
    · next hclosed => cases h; exact ⟨hnone, .inr ⟨by simpa using hclosed, rfl, rfl⟩⟩

/-- A step of one call. -/
theorem step_call {id : Nat} {o : CallOp R E} (h : s.step polls (.call id o) = some (r, s')) :
    ∃ c c', s.call id = some c ∧ c.step polls o = some c' ∧ r = none ∧ s' = s.put id c' := by
  simp only [step, Option.bind_eq_bind, Option.bind_eq_some_iff] at h
  obtain ⟨c, hc, c', hstep, heq⟩ := h
  cases heq
  exact ⟨c, c', hc, hstep, rfl, rfl⟩

/-- The end of a call takes it from the set of calls. -/
theorem step_endCall {id : Nat} (h : s.step polls (.endCall id) = some (r, s')) :
    ∃ c outcome, s.call id = some c ∧ c.outcome s.closed = some outcome ∧ r = some outcome ∧
      s' = { s.put id { c with phase := .ended } with calls := s.calls.erase id } := by
  simp only [step, Option.bind_eq_bind, Option.bind_eq_some_iff] at h
  obtain ⟨c, hc, outcome, houtcome, heq⟩ := h
  cases heq
  exact ⟨c, outcome, hc, houtcome, rfl, rfl⟩

/-- One call is replaced. -/
theorem put_call (s : Calls R E) (id id' : Nat) (c : Call R E) :
    (s.put id c).call id' = if id' = id then some c else s.call id' :=
  Function.update_apply ..

/-- The other calls stay. -/
theorem put_call_ne {s : Calls R E} {id id' : Nat} (h : s.call id' ≠ s.call id) (c : Call R E) :
    (s.put id c).call id' = s.call id' := by
  have hne : id' ≠ id := fun heq => h (congrArg s.call heq)
  rw [put_call, if_neg hne]

end Calls

/-- The invariant holds of a client without calls. -/
theorem invariant_init : Invariant [] ({} : Calls R E) := by
  refine ⟨?_, ?_, ?_, ?_, nofun, fun id c hc => ?_⟩
  · simp [Closed]
  · simp [Began]
  · simp [Ended]
  · simp
  · cases hc

namespace Invariant

variable {es : List (CallsEvent R E)} {s : Calls R E} {id : Nat} {c c' : Call R E}

/-- **A call that is refused keeps the invariant.** -/
theorem refused (h : Invariant es s) (outcome : Outcome R E) :
    Invariant (es ++ [⟨s, .beginCall id, some outcome, s⟩]) s := by
  refine ⟨?_, fun id' => ?_, fun id' => ?_, h.calls, h.cancelled, h.ok⟩
  · rw [closed_snoc, ← h.closed]
    simp
  · rw [began_snoc, ← h.began id']
    simp
  · rw [ended_snoc, ← h.ended id']
    simp

/-- The step `e` leaves every call but one alone, and that one as `c'`. -/
theorem put {s' : Calls R E} {op : CallsOp R E} {r : Option (Outcome R E)} (h : Invariant es s)
    (hclosed : s'.closed = s.closed) (hop : op ≠ .close)
    (hcall : ∀ id', s'.call id' = if id' = id then some c' else s.call id')
    (hcalls : ∀ id', id' ∈ s'.calls ↔ if id' = id then c'.phase ≠ .ended else id' ∈ s.calls)
    (hbegan : ∀ id', op = .beginCall id' ∧ r = none ∨ Began es id' ↔ id' = id ∨ Began es id')
    (hended : ∀ id', op = .endCall id' ↔ id' = id ∧ c'.phase = .ended) (hlive : ¬ Ended es id)
    (hcancel : s.closed = true → c'.phase ≠ .ended → c'.cancelRequested = true) (hok : c'.Ok) :
    Invariant (es ++ [⟨s, op, r, s'⟩]) s' := by
  refine ⟨?_, fun id' => ?_, fun id' => ?_, fun id' => ?_, fun hc id' hid' c₁ hc₁ => ?_,
    fun id' c₁ hc₁ => ?_⟩
  · rw [closed_snoc, hclosed, h.closed]
    simp [hop]
  · rw [began_snoc, or_comm, hbegan id', hcall]
    split
    · next heq => simp [heq]
    · next hne => simp [hne, h.began id']
  · rw [ended_snoc, hended id', hcall]
    split
    · next heq => subst heq; simp [hlive]
    · next hne => simp [hne, h.ended id']
  · rw [hcalls, hcall]
    split
    · next heq => simp
    · exact h.calls id'
  · rw [hclosed] at hc
    rw [hcalls] at hid'
    rw [hcall] at hc₁
    split at hc₁
    · next heq =>
      cases hc₁
      rw [if_pos heq] at hid'
      exact hcancel hc hid'
    · next hne =>
      rw [if_neg hne] at hid'
      exact h.cancelled hc id' hid' c₁ hc₁
  · rw [hcall] at hc₁
    split at hc₁
    · cases hc₁
      exact hok
    · exact h.ok id' c₁ hc₁

/-- A call whose phase is not the last one has not ended. -/
theorem not_ended (h : Invariant es s) (hc : s.call id = some c) (hphase : c.phase ≠ .ended) :
    ¬ Ended es id := by
  rw [h.ended]
  rintro ⟨c₁, hc₁, hphase₁⟩
  rw [hc] at hc₁
  cases hc₁
  exact hphase hphase₁

/-- **A call that begins keeps the invariant.** -/
theorem beginCall (h : Invariant es s) (hnone : s.call id = none) (hclosed : s.closed = false) :
    Invariant (es ++ [⟨s, .beginCall id, none, { s.put id {} with calls := insert id s.calls }⟩])
      { s.put id {} with calls := insert id s.calls } := by
  refine h.put rfl nofun (fun id' => s.put_call id id' {}) (fun id' => ?_) (fun id' => ?_) ?_ ?_ ?_
    ⟨fun _ => ⟨rfl, rfl⟩, nofun⟩
  · rw [Finset.mem_insert]
    split
    · next heq => simp [heq]
    · next hne => simp [hne]
  · simp [eq_comm]
  · simp
  · rw [h.ended]
    simp [hnone]
  · simp [hclosed]

/-- **A step of a call keeps the invariant.** -/
theorem call (h : Invariant es s) (hc : s.call id = some c) (hkeeps : Call.Keeps c c')
    (o : CallOp R E) :
    Invariant (es ++ [⟨s, .call id o, none, s.put id c'⟩]) (s.put id c') := by
  have hmem : id ∈ s.calls := (h.calls id).2 ⟨c, hc, hkeeps.phase⟩
  have hbegan : Began es id := (h.began id).2 ⟨c, hc⟩
  refine h.put rfl nofun (fun id' => s.put_call id id' c') (fun id' => ?_) (fun id' => ?_)
    (fun id' => ?_) (h.not_ended hc hkeeps.phase)
    (fun hclosed _ => hkeeps.cancelRequested (h.cancelled hclosed id hmem c hc))
    (hkeeps.ok (h.ok id c hc))
  · split
    · next heq => simp [heq, Calls.put, hmem, hkeeps.phase']
    · rfl
  · simp only [reduceCtorEq, false_and, false_or]
    exact ⟨.inr, fun hor => hor.elim (fun heq => heq ▸ hbegan) fun hb => hb⟩
  · simp [hkeeps.phase']

/-- **The end of a call keeps the invariant.** -/
theorem endCall (h : Invariant es s) (hc : s.call id = some c) (hphase : c.phase ≠ .ended)
    (outcome : Outcome R E) :
    Invariant (es ++ [⟨s, .endCall id, some outcome,
        { s.put id { c with phase := .ended } with calls := s.calls.erase id }⟩])
      { s.put id { c with phase := .ended } with calls := s.calls.erase id } := by
  have hbegan : Began es id := (h.began id).2 ⟨c, hc⟩
  refine h.put rfl nofun (fun id' => s.put_call id id' { c with phase := .ended })
    (fun id' => ?_) (fun id' => ?_) (fun id' => ?_) (h.not_ended hc hphase)
    (fun _ hne => absurd rfl hne) ⟨nofun, (h.ok id c hc).cancelled⟩
  · rw [Finset.mem_erase]
    split
    · next heq => simp [heq]
    · next hne => simp [hne]
  · simp only [reduceCtorEq, false_and, false_or]
    exact ⟨.inr, fun hor => hor.elim (fun heq => heq ▸ hbegan) fun hb => hb⟩
  · simp [eq_comm]

/-- **A close keeps the invariant**, as it cancels every call of the set. -/
theorem close (h : Invariant es s) {s' : Calls R E}
    (hs' : s' = { s with
      closed := true
      call := fun id => if id ∈ s.calls then (s.call id).map Call.tryCancel else s.call id }) :
    Invariant (es ++ [⟨s, .close, none, s'⟩]) s' := by
  -- a call keeps its phase, so the calls that began and ended are the same
  have hphase : ∀ id' (P : Phase E → Prop),
      (∃ c, s'.call id' = some c ∧ P c.phase) ↔ ∃ c, s.call id' = some c ∧ P c.phase := by
    intro id' P
    subst hs'
    cases hc : s.call id' with
    | none => simp [hc]
    | some c => by_cases hid : id' ∈ s.calls <;> simp [hc, hid, Call.tryCancel]
  have hcalls : s'.calls = s.calls := by rw [hs']
  refine ⟨?_, fun id' => ?_, fun id' => ?_, fun id' => ?_, fun _ id' hid' c₁ hc₁ => ?_,
    fun id' c₁ hc₁ => ?_⟩
  · rw [closed_snoc, hs']
    simp
  · rw [began_snoc, h.began id']
    simpa using (hphase id' fun _ => True).symm
  · rw [ended_snoc, h.ended id', hphase id' (· = .ended)]
    simp
  · rw [hcalls, h.calls id', hphase id' (· ≠ .ended)]
  · rw [hcalls] at hid'
    rw [hs'] at hc₁
    simp only [if_pos hid', Option.map_eq_some_iff] at hc₁
    obtain ⟨c, -, rfl⟩ := hc₁
    rfl
  · rw [hs'] at hc₁
    simp only at hc₁
    split at hc₁
    · obtain ⟨c, hc, rfl⟩ := Option.map_eq_some_iff.1 hc₁
      exact ⟨(h.ok id' c hc).registered, (h.ok id' c hc).cancelled⟩
    · exact h.ok id' c₁ hc₁

end Invariant

/-- The invariant holds along every run. -/
theorem invariant {es : List (CallsEvent R E)} {s : Calls R E}
    (h : (Calls.machine R E polls).Run es s) : Invariant es s := by
  induction h with
  | nil => exact invariant_init
  | @snoc es s s' op r _ hs ih =>
    replace hs : s.step polls op = some (r, s') := hs
    cases op with
    | beginCall id =>
      obtain ⟨hnone, ⟨-, rfl, rfl⟩ | ⟨hclosed, rfl, rfl⟩⟩ := Calls.step_beginCall hs
      · exact ih.refused _
      · exact ih.beginCall hnone hclosed
    | call id o =>
      obtain ⟨c, c', hc, hstep, rfl, rfl⟩ := Calls.step_call hs
      exact ih.call hc (Call.step_keeps hstep) o
    | endCall id =>
      obtain ⟨c, outcome, hc, houtcome, rfl, rfl⟩ := Calls.step_endCall hs
      exact ih.endCall hc (Call.outcome_phase houtcome) outcome
    | close =>
      cases hs
      exact ih.close rfl

/-! ## What close promises -/

section
variable {es es₁ es₂ : List (CallsEvent R E)} {e : CallsEvent R E} {s : Calls R E} {id : Nat}

/-- A run is cut at one of its steps. -/
theorem split_step {pre post : Calls R E} {op : CallsOp R E} {reply : Option (Outcome R E)}
    (h : (Calls.machine R E polls).Run (es₁ ++ ⟨pre, op, reply, post⟩ :: es₂) s) :
    (Calls.machine R E polls).Run es₁ pre ∧ pre.step polls op = some (reply, post) :=
  h.split

/-- A closed client stays closed, and registers no call. -/
theorem stays_unregistered {s s' : Calls R E} {op : CallsOp R E} {r : Option (Outcome R E)}
    (hs : s.step polls op = some (r, s')) (h : s.closed = true ∧ s.call id = none) :
    s'.closed = true ∧ s'.call id = none := by
  obtain ⟨hclosed, hnone⟩ := h
  cases op with
  | beginCall id' =>
    obtain ⟨-, ⟨-, -, rfl⟩ | ⟨hopen, -⟩⟩ := Calls.step_beginCall hs
    · exact ⟨hclosed, hnone⟩
    · rw [hclosed] at hopen
      cases hopen
  | call id' o =>
    obtain ⟨c, c', hc, -, -, rfl⟩ := Calls.step_call hs
    exact ⟨hclosed, (Calls.put_call_ne (by rw [hc, hnone]; nofun) c').trans hnone⟩
  | endCall id' =>
    obtain ⟨c, outcome, hc, -, -, rfl⟩ := Calls.step_endCall hs
    exact ⟨hclosed, (Calls.put_call_ne (by rw [hc, hnone]; nofun) _).trans hnone⟩
  | close =>
    cases hs
    refine ⟨rfl, ?_⟩
    simp [hnone]

/-- A `begin_call` after a `close` throws, and its call is never started. -/
theorem begin_after_close (h : (Calls.machine R E polls).Run (es₁ ++ e :: es₂) s)
    (hop : e.op = .beginCall id) (hclosed : Closed es₁) :
    e.reply = some (.error closedError) ∧ e.post = e.pre ∧
      ∀ e' ∈ es₂, e'.op ≠ .call id .start := by
  obtain ⟨pre, op, reply, post⟩ := e
  cases hop
  obtain ⟨hrun, hs⟩ := split_step h
  have hpre : pre.closed = true := (invariant hrun).closed.2 hclosed
  obtain ⟨hnone, ⟨-, rfl, rfl⟩ | ⟨hopen, -⟩⟩ := Calls.step_beginCall hs
  · refine ⟨rfl, rfl, fun e' he' hstart => ?_⟩
    have hstable := h.stable (P := fun s => s.closed = true ∧ s.call id = none)
      (fun _ hs => stays_unregistered hs) ⟨hpre, hnone⟩
    obtain ⟨es₃, es₄, rfl⟩ := List.append_of_mem he'
    obtain ⟨pre', op', reply', post'⟩ := e'
    cases hstart
    rw [← List.cons_append, ← List.append_assoc] at h
    obtain ⟨c, c', hc, -⟩ := Calls.step_call (split_step h).2
    rw [(hstable.2 _ he').1.2] at hc
    cases hc
  · rw [hpre] at hopen
    cases hopen

/-- What a cancelled call throws, unless its own `should_cancel` threw. -/
theorem end_cancelled (h : (Calls.machine R E polls).Run (es₁ ++ e :: es₂) s)
    (hop : e.op = .endCall id) {c : Call R E} {status : Status} {response : R}
    (hc : e.pre.call id = some c) (hphase : c.phase = .returned none)
    (hcompletion : c.completion = some (status, response))
    (hstatus : status.errorCode = .cancelled) :
    e.reply = some (.error
      (if e.pre.closed = true then closedError else ⟨.cancelled, status.errorMessage⟩)) := by
  obtain ⟨pre, op, reply, post⟩ := e
  cases hop
  obtain ⟨c', outcome, hc', houtcome, rfl, -⟩ := Calls.step_endCall (split_step h).2
  rw [hc] at hc'
  cases hc'
  rw [Call.outcome_cancelled hphase hcompletion hstatus] at houtcome
  exact houtcome.symm

/-- Who throws `closed` has seen a `close`. -/
theorem closed_of_error (h : (Calls.machine R E polls).Run (es₁ ++ e :: es₂) s) {error : Error}
    (hreply : e.reply = some (.error error)) (hcode : error.code = .closed) : Closed es₁ := by
  obtain ⟨pre, op, reply, post⟩ := e
  cases hreply
  obtain ⟨hrun, hs⟩ := split_step h
  rw [← (invariant hrun).closed]
  cases op with
  | beginCall id =>
    obtain ⟨-, ⟨hclosed, -⟩ | ⟨-, hreply, -⟩⟩ := Calls.step_beginCall hs
    · exact hclosed
    · cases hreply
  | call id o =>
    obtain ⟨_, _, _, _, hreply, _⟩ := Calls.step_call hs
    cases hreply
  | endCall id =>
    obtain ⟨c, outcome, -, houtcome, hreply, -⟩ := Calls.step_endCall hs
    cases hreply
    exact Call.outcome_closed houtcome hcode
  | close => cases hs

/-- A `close` leaves the calls that have ended alone. -/
theorem close_ended (h : (Calls.machine R E polls).Run (es₁ ++ e :: es₂) s) (hop : e.op = .close)
    (hended : Ended es₁ id) : e.post.call id = e.pre.call id := by
  obtain ⟨pre, op, reply, post⟩ := e
  cases hop
  obtain ⟨hrun, hs⟩ := split_step h
  cases hs
  have hid : id ∉ pre.calls := by
    rw [(invariant hrun).calls]
    rintro ⟨c, hc, hphase⟩
    exact (invariant hrun).not_ended hc hphase hended
  exact if_neg hid

/-- A second `close` changes nothing. -/
theorem close_again (h : (Calls.machine R E polls).Run (es₁ ++ e :: es₂) s) (hop : e.op = .close)
    (hclosed : Closed es₁) : e.post = e.pre := by
  obtain ⟨pre, op, reply, post⟩ := e
  cases hop
  obtain ⟨hrun, hs⟩ := split_step h
  cases hs
  have hpre : pre.closed = true := (invariant hrun).closed.2 hclosed
  have hcall : (fun id => if id ∈ pre.calls then (pre.call id).map Call.tryCancel else pre.call id)
      = pre.call := by
    funext id
    split
    · next hid =>
      cases hc : pre.call id with
      | none => rfl
      | some c =>
        have hcancelled := (invariant hrun).cancelled hpre id hid c hc
        simp only [Option.map_some, Call.tryCancel, ← hcancelled]
    · rfl
  show Calls.mk true pre.calls _ = pre
  rw [hcall, ← hpre]

/-- A call stays started, on the context it was started on. -/
theorem stays_started {s s' : Calls R E} {op : CallsOp R E} {r : Option (Outcome R E)}
    (hs : s.step polls op = some (r, s'))
    (h : ∃ c, s.call id = some c ∧ c.phase ≠ .registered ∧ c.startedCancelled = true) :
    ∃ c, s'.call id = some c ∧ c.phase ≠ .registered ∧ c.startedCancelled = true := by
  obtain ⟨c, hc, hphase, hstarted⟩ := h
  cases op with
  | beginCall id' =>
    obtain ⟨hnone, ⟨-, -, rfl⟩ | ⟨-, -, rfl⟩⟩ := Calls.step_beginCall hs
    · exact ⟨c, hc, hphase, hstarted⟩
    · exact ⟨c, (Calls.put_call_ne (by rw [hc, hnone]; nofun) _).trans hc, hphase, hstarted⟩
  | call id' o =>
    obtain ⟨c₁, c₁', hc₁, hstep, -, rfl⟩ := Calls.step_call hs
    rw [Calls.put_call]
    split
    · next heq =>
      subst heq
      rw [hc] at hc₁
      cases hc₁
      obtain ⟨hphase', hstarted'⟩ := (Call.step_keeps hstep).startedCancelled hphase
      exact ⟨c₁', rfl, hphase', hstarted'.trans hstarted⟩
    · exact ⟨c, hc, hphase, hstarted⟩
  | endCall id' =>
    obtain ⟨c₁, outcome, hc₁, -, -, rfl⟩ := Calls.step_endCall hs
    show ∃ c, (s.put id' _).call id = some c ∧ _
    rw [Calls.put_call]
    split
    · next heq =>
      subst heq
      rw [hc] at hc₁
      cases hc₁
      exact ⟨_, rfl, nofun, hstarted⟩
    · exact ⟨c, hc, hphase, hstarted⟩
  | close =>
    cases hs
    by_cases hid : id ∈ s.calls
    · exact ⟨c.tryCancel, by simp [hid, hc], hphase, hstarted⟩
    · exact ⟨c, by simp [hid, hc], hphase, hstarted⟩

/-- A call registered before a `close` and started after it ends as closed, unless its own
`should_cancel` throws. -/
theorem start_after_close (h : (Calls.machine R E polls).Run (es₁ ++ e :: es₂) s)
    (hop : e.op = .call id .start) (hclosed : Closed es₁) {e' : CallsEvent R E} (he' : e' ∈ es₂)
    (hop' : e'.op = .endCall id) :
    e'.reply = some (.error closedError) ∨ ∃ failure, e'.reply = some (.rethrow failure) := by
  obtain ⟨pre, op, reply, post⟩ := e
  cases hop
  obtain ⟨hrun, hs⟩ := split_step h
  have hinv := invariant hrun
  have hpre : pre.closed = true := hinv.closed.2 hclosed
  -- at its start the call has been cancelled by the `close`
  have hpost : ∃ c, post.call id = some c ∧ c.phase ≠ .registered ∧ c.startedCancelled = true := by
    obtain ⟨c, c', hc, hstep, -, rfl⟩ := Calls.step_call hs
    have hmem : id ∈ pre.calls := (hinv.calls id).2 ⟨c, hc, (Call.step_keeps hstep).phase⟩
    have hcancelled := hinv.cancelled hpre id hmem c hc
    rw [Call.step_start hstep, Calls.put_call, if_pos rfl]
    exact ⟨_, rfl, nofun, hcancelled⟩
  have hstable := (h.stable (P := fun s => ∃ c, s.call id = some c ∧ c.phase ≠ .registered ∧
    c.startedCancelled = true) (fun _ hs => stays_started hs) hpost).2 e' he'
  obtain ⟨es₃, es₄, rfl⟩ := List.append_of_mem he'
  obtain ⟨pre', op', reply', post'⟩ := e'
  cases hop'
  rw [← List.cons_append, ← List.append_assoc] at h
  obtain ⟨hrun', hs'⟩ := split_step h
  have hclosed' : pre'.closed = true := by
    obtain ⟨e₀, he₀, heq⟩ := hclosed
    exact (invariant hrun').closed.2 ⟨e₀, by simp [he₀], heq⟩
  obtain ⟨c, outcome, hc, houtcome, rfl, -⟩ := Calls.step_endCall hs'
  obtain ⟨c₁, hc₁, -, hstarted⟩ := hstable.1
  rw [hc] at hc₁
  cases hc₁
  rw [hclosed'] at houtcome
  obtain rfl | ⟨failure, rfl⟩ := ((invariant hrun').ok id c hc).outcome_started hstarted houtcome
  · exact .inl rfl
  · exact .inr ⟨failure, rfl⟩

/-- **No call escapes a `close`.** `calls_` holds the calls between their `begin_call` and their
`end_call`, a `close` has cancelled all of them, and every later call throws `closed` at once. A
cancelled call throws `closed` if a `close` ran before its `end_call` and `cancelled` if none did,
nothing else throws `closed`, and another `close` could as well not have been made. -/
theorem close_lets_no_call_escape (h : (Calls.machine R E polls).Run es s) :
    (∀ id, id ∈ s.calls ↔ Began es id ∧ ¬ Ended es id) ∧
    (Closed es → ∀ id ∈ s.calls, ∃ c, s.call id = some c ∧ c.cancelRequested = true) ∧
    ∀ (es₁ : List (CallsEvent R E)) (e : CallsEvent R E) (es₂ : List (CallsEvent R E)),
      es = es₁ ++ e :: es₂ →
      (∀ id, e.op = .beginCall id → Closed es₁ →
        e.reply = some (.error closedError) ∧ e.post = e.pre ∧
          ∀ e' ∈ es₂, e'.op ≠ .call id .start) ∧
      (∀ id c status response, e.op = .endCall id → e.pre.call id = some c →
        c.phase = .returned none → c.completion = some (status, response) →
        status.errorCode = .cancelled →
          (Closed es₁ → e.reply = some (.error closedError)) ∧
          (¬ Closed es₁ → e.reply = some (.error ⟨.cancelled, status.errorMessage⟩))) ∧
      (∀ error, e.reply = some (.error error) → error.code = .closed → Closed es₁) ∧
      (∀ id, e.op = .call id .start → Closed es₁ → ∀ e' ∈ es₂, e'.op = .endCall id →
        e'.reply = some (.error closedError) ∨ ∃ failure, e'.reply = some (.rethrow failure)) ∧
      (e.op = .close → ∀ id, Ended es₁ id → e.post.call id = e.pre.call id) ∧
      (e.op = .close → Closed es₁ → (Calls.machine R E polls).Run (es₁ ++ es₂) s) := by
  have hinv := invariant h
  refine ⟨fun id => ?_, fun hclosed id hid => ?_, ?_⟩
  · rw [hinv.calls, hinv.began, hinv.ended]
    constructor
    · rintro ⟨c, hc, hphase⟩
      refine ⟨⟨c, hc⟩, ?_⟩
      rintro ⟨c', hc', hphase'⟩
      rw [hc] at hc'
      cases hc'
      exact hphase hphase'
    · rintro ⟨⟨c, hc⟩, hended⟩
      exact ⟨c, hc, fun hphase => hended ⟨c, hc, hphase⟩⟩
  · obtain ⟨c, hc, -⟩ := (hinv.calls id).1 hid
    exact ⟨c, hc, hinv.cancelled (hinv.closed.2 hclosed) id hid c hc⟩
  · rintro es₁ e es₂ rfl
    refine ⟨fun id => begin_after_close h, ?_, fun error => closed_of_error h,
      fun id hop hclosed e' => start_after_close h hop hclosed, fun hop id => close_ended h hop,
      fun hop hclosed => h.remove (close_again h hop hclosed)⟩
    intro id c status response hop hc hphase hcompletion hstatus
    rw [end_cancelled h hop hc hphase hcompletion hstatus]
    have hpre := (invariant h.split.1).closed
    exact ⟨fun hclosed => by rw [if_pos (hpre.2 hclosed)],
      fun hopen => by rw [if_neg fun hclosed => hopen (hpre.1 hclosed)]⟩

/-- Two calls and a `close` between the start of the one and the start of the other. -/
def closeBetween : List (CallsOp Unit Unit) :=
  [.beginCall 0, .call 0 .start, .beginCall 1, .close, .call 1 .start]

/-- A close that comes between the begin and the start of a call. -/
theorem close_lets_no_call_escape_between :
    (Calls.machine Unit Unit true).Run ((Calls.machine Unit Unit true).runOf closeBetween).1
        ((Calls.machine Unit Unit true).runOf closeBetween).2 ∧
      ∃ c, ((Calls.machine Unit Unit true).runOf closeBetween).2.call 1 = some c ∧
        c.cancelRequested = true := by
  have hrun := Machine.run_runOf (M := Calls.machine Unit Unit true) closeBetween rfl
  refine ⟨hrun, (close_lets_no_call_escape hrun).2.1 ?_ 1 ?_⟩
  · exact ⟨_, List.mem_of_getElem? (i := 3) rfl, rfl⟩
  · decide

end

end GrpcClientTransport

end DsService

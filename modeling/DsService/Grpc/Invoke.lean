import DsService.Grpc.Close

/-!
# No call outlives its invoke

The request and the response of a call live on the stack of the thread in `invoke`, and the
completion callback writes to them, so that `invoke` must not leave before the callback has run.
`invoke_outlives_its_call` says that it does not, and what it leaves with, in every order of the
steps and for every answer of `should_cancel`, exceptions included. `Move` has the moves of one
call, and `Past` ties the place its thread has reached to the steps behind it.
-/

namespace DsService

namespace GrpcClientTransport

variable {R E : Type} {polls : Bool}

/-! ## The moves of a call -/

/-- The exception on its way out, until the call has ended. -/
def Phase.failure : Phase E → Option E
  | .caught failure => some failure
  | .draining failure => some failure
  | .returned failure => failure
  | _ => none

/-- How far the thread of a completed call is from its end. -/
def Phase.rank : Phase E → Nat
  | .registered => 6
  | .polling => 5
  | .caught _ => 4
  | .draining _ => 3
  | .waiting _ => 2
  | .returned _ => 1
  | .ended => 0

/-- The moves of a call, on the place of its thread and on what the callback reported. -/
inductive Move : Phase E → Option (Status × R) → CallOp R E → Phase E → Option (Status × R) → Prop
  | start {done : Option (Status × R)} : Move .registered done .start (.waiting false) done
  | complete {phase : Phase E} {status : Status} {response : R} (hreg : phase ≠ .registered)
      (hend : phase ≠ .ended) :
      Move phase none (.complete status response) phase (some (status, response))
  | poll : Move (.waiting false) none .poll .polling none
  | polled {done : Option (Status × R)} {cancel : Bool} :
      Move .polling done (.polled cancel) (.waiting cancel) done
  | threw {done : Option (Status × R)} {failure : E} :
      Move .polling done (.threw failure) (.caught failure) done
  | stop {done : Option (Status × R)} {failure : E} :
      Move (.caught failure) done .stop (.draining failure) done
  | wake {cancelled : Bool} {completion : Status × R} :
      Move (.waiting cancelled) (some completion) .wake (.returned none) (some completion)
  | drain {failure : E} {completion : Status × R} :
      Move (.draining failure) (some completion) .wake (.returned (some failure)) (some completion)

/-- Every step of a call is one of the moves. -/
theorem Call.step_move {c c' : Call R E} {op : CallOp R E} (h : c.step polls op = some c') :
    Move c.phase c.completion op c'.phase c'.completion := by
  obtain ⟨phase, cancelRequested, startedCancelled, completion⟩ := c
  cases op with
  | start =>
    cases phase with
    | registered => cases h; exact .start
    | _ => cases h
  | complete status response =>
    simp only [step] at h
    split at h
    · cases h
    · cases h
    · cases h
    · next hreg hend =>
      split at h
      · cases h
      · cases h
        exact .complete hreg hend
  | poll =>
    simp only [step] at h
    split at h
    · split at h
      · next hpoll =>
        cases h
        cases completion with
        | none => exact .poll
        | some completion => simp at hpoll
      · cases h
    · cases h
  | polled cancel =>
    cases phase with
    | polling =>
      cases h
      cases cancel <;> exact .polled
    | _ => cases h
  | threw failure =>
    cases phase with
    | polling => cases h; exact .threw
    | _ => cases h
  | stop =>
    cases phase with
    | caught failure => cases h; exact .stop
    | _ => cases h
  | wake =>
    cases completion with
    | none => cases phase <;> cases h
    | some completion =>
      cases phase with
      | waiting cancelled => cases h; exact .wake
      | draining failure => cases h; exact .drain
      | _ => cases h

/-- A move of a completed call brings its thread closer to the end. -/
theorem Move.rank_lt {phase phase' : Phase E} {done done' : Option (Status × R)} {op : CallOp R E}
    (h : Move phase done op phase' done') (hdone : done ≠ none) : phase'.rank < phase.rank := by
  cases h with
  | complete _ _ => exact absurd rfl hdone
  | poll => exact absurd rfl hdone
  | _ => simp [Phase.rank]

/-- What a step of the client does to a call: it moves it, registers it, ends it, or leaves the
place of its thread and what the callback reported alone. -/
theorem Calls.step_place {s s' : Calls R E} {op : CallsOp R E} {r : Option (Outcome R E)}
    (hs : s.step polls op = some (r, s')) (id : Nat) :
    (∃ o c c', op = .call id o ∧ s.call id = some c ∧ s'.call id = some c' ∧
      Move c.phase c.completion o c'.phase c'.completion) ∨
    ((∀ o, op ≠ .call id o) ∧ s.call id = none ∧ s'.call id = some {}) ∨
    ((∀ o, op ≠ .call id o) ∧
      ∃ c, s.call id = some c ∧ s'.call id = some { c with phase := .ended }) ∨
    (∀ o, op ≠ .call id o) ∧ (s'.call id).map (fun c => (c.phase, c.completion)) =
      (s.call id).map fun c => (c.phase, c.completion) := by
  have hput : ∀ {id'} (c : Call R E), id ≠ id' → (s.put id' c).call id = s.call id :=
    fun c hne => (s.put_call _ _ c).trans (if_neg hne)
  have hself : ∀ c : Call R E, (s.put id c).call id = some c :=
    fun c => (s.put_call _ _ c).trans (if_pos rfl)
  cases op with
  | beginCall id' =>
    obtain ⟨hnew, ⟨-, -, rfl⟩ | ⟨-, -, rfl⟩⟩ := step_beginCall hs
    · exact .inr (.inr (.inr ⟨nofun, rfl⟩))
    · rcases eq_or_ne id id' with rfl | hne
      · exact .inr (.inl ⟨nofun, hnew, hself _⟩)
      · exact .inr (.inr (.inr ⟨nofun, congrArg _ (hput {} hne)⟩))
  | call id' o =>
    obtain ⟨c, c', hc, hstep, -, rfl⟩ := step_call hs
    rcases eq_or_ne id id' with rfl | hne
    · exact .inl ⟨o, c, c', rfl, hc, hself c', Call.step_move hstep⟩
    · refine .inr (.inr (.inr ⟨fun o heq => ?_, congrArg _ (hput c' hne)⟩))
      cases heq
      exact hne rfl
  | endCall id' =>
    obtain ⟨c, outcome, hc, -, -, rfl⟩ := step_endCall hs
    rcases eq_or_ne id id' with rfl | hne
    · exact .inr (.inr (.inl ⟨nofun, c, hc, hself _⟩))
    · exact .inr (.inr (.inr ⟨nofun, congrArg _ (hput _ hne)⟩))
  | close =>
    cases hs
    refine .inr (.inr (.inr ⟨nofun, ?_⟩))
    simp only
    split
    · rw [Option.map_map]
      rfl
    · rfl

/-! ## The steps behind a call -/

/-- The step of this call has been taken. -/
def Did (es : List (CallsEvent R E)) (id : Nat) (op : CallOp R E) : Prop :=
  ∃ e ∈ es, e.op = .call id op

/-- The place of a call against the steps behind it. -/
structure Past (es : List (CallsEvent R E)) (id : Nat) (phase : Phase E)
    (done : Option (Status × R)) : Prop where
  completed : ∀ status response,
    done = some (status, response) ↔ Did es id (.complete status response)
  threw : phase ≠ .ended → ∀ failure, phase.failure = some failure ↔ Did es id (.threw failure)
  cancelled : Did es id (.polled true) →
    phase = .waiting true ∨ phase = .returned none ∨ phase = .ended
  returned : ∀ failure, phase = .returned failure → done ≠ none

section
variable {es : List (CallsEvent R E)} {s s' : Calls R E} {op : CallsOp R E}
variable {r : Option (Outcome R E)} {id id' : Nat} {o o' : CallOp R E}

/-- A call has made an earlier step or the last one. -/
theorem did_snoc :
    Did (es ++ [⟨s, op, r, s'⟩]) id o ↔ Did es id o ∨ op = .call id o :=
  Machine.exists_snoc

/-- The same at a step of the call itself. -/
theorem did_snoc_call :
    Did (es ++ [⟨s, .call id o', r, s'⟩]) id o ↔ Did es id o ∨ o' = o := by
  simp [did_snoc]

/-- A step that is not one of the call leaves its history alone. -/
theorem did_snoc_other (hop : ∀ o, op ≠ .call id o) :
    Did (es ++ [⟨s, op, r, s'⟩]) id o ↔ Did es id o := by
  rw [did_snoc, or_iff_left (hop o)]

/-- The past of a call is kept by what is no step of it. -/
theorem Past.other {phase : Phase E} {done : Option (Status × R)} (h : Past es id phase done)
    (hop : ∀ o, op ≠ .call id o) : Past (es ++ [⟨s, op, r, s'⟩]) id phase done where
  completed status response := by
    rw [did_snoc_other hop]
    exact h.completed status response
  threw hne failure := by
    rw [did_snoc_other hop]
    exact h.threw hne failure
  cancelled hd := h.cancelled ((did_snoc_other hop).1 hd)
  returned := h.returned

/-- **A move of a call keeps its past.** -/
theorem Past.move {phase phase' : Phase E} {done done' : Option (Status × R)}
    (h : Past es id phase done) (hm : Move phase done o phase' done') :
    Past (es ++ [⟨s, .call id o, r, s'⟩]) id phase' done' where
  completed status response := by
    rw [did_snoc_call]
    have hc := h.completed status response
    cases hm with
    | complete _ _ =>
      rw [← hc]
      simp
    | _ => rw [hc]; simp
  threw hne failure := by
    rw [did_snoc_call]
    cases hm with
    | complete _ hend => rw [h.threw hend]; simp
    | _ =>
      rw [← h.threw nofun]
      simp [Phase.failure]
  cancelled hd := by
    rw [did_snoc_call] at hd
    cases hm with
    | polled =>
      rcases hd with hd | hd
      · have := h.cancelled hd
        simp at this
      · cases hd
        exact .inl rfl
    | complete _ _ => exact h.cancelled (hd.resolve_right nofun)
    | wake => exact .inr (.inl rfl)
    | _ =>
      have := h.cancelled (hd.resolve_right nofun)
      simp at this
  returned failure hphase := by
    cases hm with
    | complete _ _ => nofun
    | wake => nofun
    | drain => nofun
    | _ => cases hphase

/-- A call that has just begun. -/
theorem Past.new (h : ∀ o, ¬ Did es id o) : Past es id (.registered : Phase E) none where
  completed status response := by simp [h]
  threw _ failure := by simp [h, Phase.failure]
  cancelled hd := absurd hd (h _)
  returned := nofun

/-- A call that has ended keeps its past. -/
theorem Past.ended {phase : Phase E} {done : Option (Status × R)} (h : Past es id phase done) :
    Past es id .ended done where
  completed := h.completed
  threw hne := absurd rfl hne
  cancelled _ := .inr (.inr rfl)
  returned := nofun

/-- The calls of a run against the steps behind them. -/
theorem past (h : (Calls.machine R E polls).Run es s) (id : Nat) :
    (s.call id = none → ∀ o, ¬ Did es id o) ∧
      ∀ c, s.call id = some c → Past es id c.phase c.completion := by
  induction h with
  | nil =>
    refine ⟨fun _ o => ?_, fun c hc => ?_⟩
    · rintro ⟨e, he, -⟩
      cases he
    · have hc : none = some c := hc
      cases hc
  | @snoc es s s' op r _ hs ih =>
    obtain ⟨hnone, hsome⟩ := ih
    rcases Calls.step_place hs id with ⟨o, c, c', rfl, hc, hc', hm⟩ | ⟨hop, hnew, hc'⟩ |
      ⟨hop, c, hc, hc'⟩ | ⟨hop, hkeep⟩
    · rw [hc']
      refine ⟨nofun, fun c₁ hc₁ => ?_⟩
      cases hc₁
      exact (hsome c hc).move hm
    · rw [hc']
      refine ⟨nofun, fun c₁ hc₁ => ?_⟩
      cases hc₁
      exact Past.new fun o hd => hnone hnew o ((did_snoc_other hop).1 hd)
    · rw [hc']
      refine ⟨nofun, fun c₁ hc₁ => ?_⟩
      cases hc₁
      exact (hsome c hc).ended.other hop
    · refine ⟨fun hn o hd => ?_, fun c' hc' => ?_⟩
      · rw [hn] at hkeep
        exact hnone (Option.map_eq_none_iff.1 hkeep.symm) o ((did_snoc_other hop).1 hd)
      · rw [hc'] at hkeep
        obtain ⟨c, hc, heq⟩ := Option.map_eq_some_iff.1 hkeep.symm
        obtain ⟨hphase, hdone⟩ := Prod.mk.inj heq
        rw [← hphase, ← hdone]
        exact (hsome c hc).other hop

end

/-! ## What invoke promises -/

section
variable {es es₁ es₂ : List (CallsEvent R E)} {e : CallsEvent R E} {s : Calls R E} {id : Nat}

/-- An outcome of a registered call comes from the completion. -/
theorem Call.outcome_cases {c : Call R E} {closed : Bool} {outcome : Outcome R E}
    (h : c.outcome closed = some outcome) :
    (∃ failure, c.phase = .returned (some failure) ∧ outcome = .rethrow failure) ∨
      c.phase = .returned none ∧ ∃ status response, c.completion = some (status, response) ∧
        outcome = if status.errorCode = .ok then .response response
          else .error (toError status closed) := by
  unfold Call.outcome at h
  split at h
  · next failure hphase =>
    cases h
    exact .inl ⟨failure, hphase, rfl⟩
  · next status response hphase hdone =>
    refine .inr ⟨hphase, status, response, hdone, ?_⟩
    unfold GrpcClientTransport.outcome at h
    by_cases hok : status.errorCode = .ok
    · rw [if_neg (not_not.2 hok)] at h
      cases h
      rw [if_pos hok]
    · rw [if_pos hok] at h
      cases h
      rw [if_neg hok]
  · cases h

/-- A completed call that has not ended goes on: its thread has a step to take, and no more than its
rank of them. -/
theorem completed_goes_on (h : (Calls.machine R E polls).Run es s) {c : Call R E}
    (hc : s.call id = some c) (hdone : c.completion ≠ none) (hphase : c.phase ≠ .ended) :
    ((∃ o c', c.step polls o = some c') ∨ ∃ outcome, c.outcome s.closed = some outcome) ∧
      ∀ o c', c.step polls o = some c' → c'.phase.rank < c.phase.rank := by
  refine ⟨?_, fun o c' hstep => (Call.step_move hstep).rank_lt hdone⟩
  have hok := (invariant h).ok id c hc
  obtain ⟨phase, cancelRequested, startedCancelled, _ | ⟨status, response⟩⟩ := c
  · exact absurd rfl hdone
  cases phase with
  | registered => exact absurd (hok.registered rfl).2 nofun
  | waiting cancelled => exact .inl ⟨.wake, _, rfl⟩
  | polling => exact .inl ⟨.polled false, _, rfl⟩
  | caught failure => exact .inl ⟨.stop, _, rfl⟩
  | draining failure => exact .inl ⟨.wake, _, rfl⟩
  | returned failure =>
    cases failure with
    | some failure => exact .inr ⟨.rethrow failure, rfl⟩
    | none =>
      refine .inr ?_
      simp only [Call.outcome]
      split
      · exact ⟨_, rfl⟩
      · exact ⟨_, rfl⟩
  | ended => exact absurd rfl hphase

/-- Who leaves `invoke` has ended its call, or has not begun it. -/
theorem reply_of_end (h : (Calls.machine R E polls).Run (es₁ ++ e :: es₂) s)
    {outcome : Outcome R E} (hreply : e.reply = some outcome) :
    (∃ id, e.op = .endCall id) ∨
      (∃ id, e.op = .beginCall id) ∧ Closed es₁ ∧ outcome = .error closedError := by
  obtain ⟨pre, op, reply, post⟩ := e
  cases hreply
  obtain ⟨hrun, hs⟩ := split_step h
  cases op with
  | beginCall id =>
    obtain ⟨-, ⟨hclosed, hreply, -⟩ | ⟨-, hreply, -⟩⟩ := Calls.step_beginCall hs
    · cases hreply
      exact .inr ⟨⟨id, rfl⟩, (invariant hrun).closed.1 hclosed, rfl⟩
    · cases hreply
  | call id o =>
    obtain ⟨_, _, _, _, hreply, _⟩ := Calls.step_call hs
    cases hreply
  | endCall id => exact .inl ⟨id, rfl⟩
  | close => cases hs

/-- After its end a call takes no step, the callback included, and does not end again. -/
theorem nothing_after_end (h : (Calls.machine R E polls).Run (es₁ ++ e :: es₂) s)
    (hended : Ended es₁ id) : e.op ≠ .endCall id ∧ ∀ o, e.op ≠ .call id o := by
  obtain ⟨pre, op, reply, post⟩ := e
  obtain ⟨hrun, hs⟩ := split_step h
  obtain ⟨c, hc, hphase⟩ := ((invariant hrun).ended id).1 hended
  refine ⟨?_, fun o => ?_⟩
  · rintro rfl
    obtain ⟨c', outcome, hc', houtcome, -⟩ := Calls.step_endCall hs
    rw [hc] at hc'
    cases hc'
    exact Call.outcome_phase houtcome hphase
  · rintro rfl
    obtain ⟨c', c'', hc', hstep, -⟩ := Calls.step_call hs
    rw [hc] at hc'
    cases hc'
    exact (Call.step_keeps hstep).phase hphase

/-- After `should_cancel` has said yes it is not asked again. -/
theorem no_poll_after_cancel (h : (Calls.machine R E polls).Run (es₁ ++ e :: es₂) s)
    (hcancel : Did es₁ id (.polled true)) :
    e.op ≠ .call id .poll ∧ (∀ cancel, e.op ≠ .call id (.polled cancel)) ∧
      ∀ failure, e.op ≠ .call id (.threw failure) := by
  obtain ⟨pre, op, reply, post⟩ := e
  obtain ⟨hrun, hs⟩ := split_step h
  -- the thread is in its wait with the flag set, or has left it
  have hmove : ∀ {o}, op = .call id o → ∃ (c c' : Call R E),
      Move c.phase c.completion o c'.phase c'.completion ∧
        (c.phase = .waiting true ∨ c.phase = .returned none ∨ c.phase = .ended) := by
    rintro o rfl
    obtain ⟨c, c', hc, hstep, -⟩ := Calls.step_call hs
    exact ⟨c, c', Call.step_move hstep, ((past hrun id).2 c hc).cancelled hcancel⟩
  refine ⟨fun hop => ?_, fun cancel hop => ?_, fun failure hop => ?_⟩
  all_goals
    obtain ⟨c, c', hm, hphase⟩ := hmove hop
    generalize c.phase = phase, c.completion = done, c'.phase = phase',
      c'.completion = done' at hm hphase
    cases hm
    simp at hphase

/-- What `invoke` leaves with. -/
theorem end_outcome (h : (Calls.machine R E polls).Run (es₁ ++ e :: es₂) s)
    (hop : e.op = .endCall id) :
    (∃ status response, Did es₁ id (.complete status response)) ∧
    (∀ failure, Did es₁ id (.threw failure) → e.reply = some (.rethrow failure)) ∧
    ((∀ failure, ¬ Did es₁ id (.threw failure)) → ∀ status response,
      Did es₁ id (.complete status response) →
        e.reply = some (if status.errorCode = .ok then .response response
          else .error (toError status e.pre.closed))) := by
  obtain ⟨pre, op, reply, post⟩ := e
  cases hop
  obtain ⟨hrun, hs⟩ := split_step h
  obtain ⟨c, outcome, hc, houtcome, rfl, -⟩ := Calls.step_endCall hs
  have hpast := (past hrun id).2 c hc
  have hthrew := hpast.threw (Call.outcome_phase houtcome)
  refine ⟨?_, fun failure hd => ?_, fun hnone status response hd => ?_⟩
  · obtain ⟨⟨status, response⟩, hdone⟩ : ∃ completion, c.completion = some completion := by
      rcases Call.outcome_cases houtcome with ⟨failure, hphase, -⟩ | ⟨hphase, -⟩
      · exact Option.ne_none_iff_exists'.1 (hpast.returned _ hphase)
      · exact Option.ne_none_iff_exists'.1 (hpast.returned _ hphase)
    exact ⟨status, response, (hpast.completed _ _).1 hdone⟩
  · have hfailure := (hthrew failure).2 hd
    rcases Call.outcome_cases houtcome with ⟨failure', hphase, rfl⟩ | ⟨hphase, -⟩
    · rw [hphase] at hfailure
      cases hfailure
      rfl
    · rw [hphase] at hfailure
      cases hfailure
  · rcases Call.outcome_cases houtcome with
      ⟨failure, hphase, -⟩ | ⟨-, status', response', hdone, rfl⟩
    · exact absurd ((hthrew failure).1 (by rw [hphase]; rfl)) (hnone failure)
    · rw [(hpast.completed status response).2 hd] at hdone
      cases hdone
      rfl

/-- **`invoke` outlives its call.** Once its `begin_call` has succeeded, `invoke` returns or throws
only with its `end_call`, which comes after the completion callback, takes the call out of `calls_`,
and is not made again; no step of the call comes after it. It throws what `should_cancel` threw, if
it did, whatever the status, and otherwise returns the response or throws the error of the status. A
yes of `should_cancel` is the last answer `wait` asks for. A call that has completed never waits for
another thread, and its thread is at most five steps from the end. -/
theorem invoke_outlives_its_call (h : (Calls.machine R E polls).Run es s) :
    (∀ (es₁ : List (CallsEvent R E)) (e : CallsEvent R E) (es₂ : List (CallsEvent R E)),
      es = es₁ ++ e :: es₂ →
      (∀ outcome, e.reply = some outcome → (∃ id, e.op = .endCall id) ∨
        (∃ id, e.op = .beginCall id) ∧ Closed es₁ ∧ outcome = .error closedError) ∧
      (∀ id, e.op = .endCall id →
        Began es₁ id ∧ (∃ status response, Did es₁ id (.complete status response)) ∧
        id ∈ e.pre.calls ∧ e.post.calls = e.pre.calls.erase id ∧
        (∀ e' ∈ es₁ ++ es₂, e'.op ≠ .endCall id) ∧ (∀ e' ∈ es₂, ∀ o, e'.op ≠ .call id o) ∧
        (∀ failure, Did es₁ id (.threw failure) → e.reply = some (.rethrow failure)) ∧
        ((∀ failure, ¬ Did es₁ id (.threw failure)) → ∀ status response,
          Did es₁ id (.complete status response) →
            e.reply = some (if status.errorCode = .ok then .response response
              else .error (toError status e.pre.closed)))) ∧
      (∀ id, e.op = .call id (.polled true) → ∀ e' ∈ es₂, e'.op ≠ .call id .poll ∧
        (∀ cancel, e'.op ≠ .call id (.polled cancel)) ∧
        ∀ failure, e'.op ≠ .call id (.threw failure))) ∧
    ∀ id c, s.call id = some c → c.completion ≠ none → c.phase ≠ .ended →
      ((∃ o c', c.step polls o = some c') ∨ ∃ outcome, c.outcome s.closed = some outcome) ∧
        ∀ o c', c.step polls o = some c' → c'.phase.rank < c.phase.rank := by
  refine ⟨?_, fun id c => completed_goes_on h⟩
  rintro es₁ e es₂ rfl
  -- a later event of the run, with the history before it
  have hlater : ∀ e' ∈ es₂, ∃ es₃ es₄,
      (Calls.machine R E polls).Run ((es₁ ++ e :: es₃) ++ e' :: es₄) s := by
    intro e' he'
    obtain ⟨es₃, es₄, rfl⟩ := List.append_of_mem he'
    refine ⟨es₃, es₄, ?_⟩
    rw [List.append_assoc, List.cons_append]
    exact h
  refine ⟨fun outcome => reply_of_end h, fun id hop => ?_, fun id hop e' he' => ?_⟩
  · obtain ⟨hcomplete, hrethrow, hstatus⟩ := end_outcome h hop
    have hinv := invariant h.split.1
    have hended : ∀ es₃, Ended (es₁ ++ e :: es₃) id := fun es₃ => ⟨e, by simp, hop⟩
    have hs : e.pre.step polls (.endCall id) = some (e.reply, e.post) := hop ▸ h.split.2
    obtain ⟨c, outcome, hc, houtcome, -, hpost⟩ := Calls.step_endCall hs
    have hphase := Call.outcome_phase houtcome
    refine ⟨(hinv.began id).2 ⟨c, hc⟩, hcomplete, (hinv.calls id).2 ⟨c, hc, hphase⟩,
      by rw [hpost], fun e' he' => ?_, fun e' he' => ?_, hrethrow, hstatus⟩
    · rcases List.mem_append.1 he' with he' | he'
      · exact fun hop' => hinv.not_ended hc hphase ⟨e', he', hop'⟩
      · obtain ⟨es₃, es₄, hrun⟩ := hlater e' he'
        exact (nothing_after_end hrun (hended es₃)).1
    · obtain ⟨es₃, es₄, hrun⟩ := hlater e' he'
      exact (nothing_after_end hrun (hended es₃)).2
  · obtain ⟨es₃, es₄, hrun⟩ := hlater e' he'
    exact no_poll_after_cancel hrun ⟨e, by simp, hop⟩

/-- A call whose `should_cancel` throws while the server answers. -/
def throwing : List (CallsOp Unit Unit) :=
  [.beginCall 0, .call 0 .start, .call 0 .poll, .call 0 (.complete {} ()), .call 0 (.threw ()),
    .call 0 .stop, .call 0 .wake, .endCall 0]

/-- A wait that throws, and the call that is canceled for it. -/
theorem invoke_outlives_its_call_throwing :
    ∃ e ∈ ((Calls.machine Unit Unit true).runOf throwing).1, e.op = .endCall 0 ∧
      e.reply = some (.rethrow ()) := by
  have hrun := Machine.run_runOf (M := Calls.machine Unit Unit true) throwing rfl
  let es := ((Calls.machine Unit Unit true).runOf throwing).1
  obtain ⟨e, he⟩ : ∃ e, es[7]? = some e := ⟨_, rfl⟩
  have hsplit : es = es.take 7 ++ e :: [] := by
    cases he
    rfl
  have hop : e.op = .endCall 0 := by
    cases he
    rfl
  have hthrew : Did (es.take 7) 0 (.threw ()) := ⟨_, List.mem_of_getElem? (i := 4) rfl, rfl⟩
  have hend := ((invoke_outlives_its_call hrun).1 (es.take 7) e [] hsplit).2.1 0 hop
  exact ⟨e, List.mem_of_getElem? he, hop, hend.2.2.2.2.2.2.1 () hthrew⟩

end

end GrpcClientTransport

end DsService

import DsService.Client.MutexAcquire
import Mathlib.Algebra.Order.Ring.Int

/-!
# How long `mutex_acquire` waits

With a timeout the loop of `Client::mutex_acquire` ends: `mutex_acquire_is_bounded`. Each sleep but
the last takes the 0.4 seconds that the jitter leaves at least, and no sleep reaches past the
deadline. The clock is the one of `std::chrono::steady_clock`: it does not go back, and `sleep_for`
lasts at least as long as it is asked to (`SleepsFully`).
-/

namespace DsService

namespace Client

variable {E : Type}

/-- What the thread reads from the clock. -/
def AcquireOp.reading : AcquireOp E → Option Int
  | .retry now _ => some now
  | _ => none

/-- A step of the thread, not of the server. -/
def AcquireOp.isThread : AcquireOp E → Bool
  | .other _ | .execute => false
  | _ => true

namespace Acquire

/-- The sleep that an event begins, with the reading of the clock before it. -/
def sleepOf (e : AcquireEvent E) : Option (Int × Int) :=
  match e.op, e.post.thread with
  | .retry now _, .sleeping delay => some (now, delay)
  | _, _ => none

/-- The sleeps of a history. -/
def sleeps (es : List (AcquireEvent E)) : List (Int × Int) := es.filterMap sleepOf

/-- The first reading that the clock can show: `start`, or the end of the last sleep. -/
def earliest (start : Int) (es : List (AcquireEvent E)) : Int :=
  match (sleeps es).getLast? with
  | none => start
  | some (now, delay) => now + delay

/-- The clock was at `start` before the first attempt, does not go back, and no sleep is cut
short. -/
def SleepsFully (start : Int) (es : List (AcquireEvent E)) : Prop :=
  ∀ i < es.length, ∀ now ∈ es[i]?.bind (·.op.reading), earliest start (es.take i) ≤ now

instance (start : Int) (es : List (AcquireEvent E)) : Decidable (SleepsFully start es) :=
  inferInstanceAs (Decidable (∀ i < es.length, ∀ now ∈ es[i]?.bind (·.op.reading), _))

/-- How often the thread has read the clock. -/
def readings (es : List (AcquireEvent E)) : Nat := es.countP (·.op.reading.isSome)

/-- How many steps the thread has taken. -/
def threadSteps (es : List (AcquireEvent E)) : Nat := es.countP (·.op.isThread)

/-- The thread's place in its loop. -/
def place : AcquireThread E → Int
  | .attempting => 0
  | .waiting => 1
  | .retrying | .ended _ => 2
  | .sleeping _ => -1

/-- The past of a loop whose deadline is at `d`. -/
structure Paced (start d : Int) (es : List (AcquireEvent E)) (s : Acquire E) : Prop where
  steps : (threadSteps es : Int) ≤ 4 * readings es + place s.thread
  read : readings es ≤ (sleeps es).length + 1
  awake : (∀ outcome, s.thread ≠ .ended outcome) → readings es = (sleeps es).length
  slept : ((sleeps es).map Prod.snd).sum ≤ earliest start es - start
  within : earliest start es ≤ start + (d - start).toNat
  /-- All sleeps were long, unless the last one reached the deadline. -/
  long : d ≤ earliest start es ∨ ((sleeps es).length : Int) * 400000000 ≤ earliest start es - start
  few : ((sleeps es).length : Int) * 400000000 < (d - start).toNat + 400000000

section
variable {re2 : RE2} {key workerId : String} {start d : Int}
variable {es : List (AcquireEvent E)} {s s' : Acquire E} {op : AcquireOp E} {r : Option MutexReply}

/-- The readings of the clock are counted call by call. -/
theorem readings_snoc {e : AcquireEvent E} :
    readings (es ++ [e]) = readings es + if e.op.reading.isSome then 1 else 0 := by
  rw [readings, List.countP_append, List.countP_singleton]
  rfl

/-- The steps of the thread are counted call by call. -/
theorem threadSteps_snoc {e : AcquireEvent E} :
    threadSteps (es ++ [e]) = threadSteps es + if e.op.isThread then 1 else 0 := by
  rw [threadSteps, List.countP_append, List.countP_singleton]
  rfl

/-- A step that begins no sleep leaves the sleeps. -/
theorem sleeps_other {e : AcquireEvent E} (he : sleepOf e = none) :
    sleeps (es ++ [e]) = sleeps es := by
  simp [sleeps, he]

/-- A call that is no sleep does not move the earliest time. -/
theorem earliest_other {e : AcquireEvent E} (he : sleepOf e = none) :
    earliest start (es ++ [e]) = earliest start es := by
  rw [earliest, earliest, sleeps_other he]

/-- A sleep ends no earlier than it is told to. -/
theorem earliest_sleep {e : AcquireEvent E} {now delay : Int} (he : sleepOf e = some (now, delay)) :
    earliest start (es ++ [e]) = now + delay := by
  simp [earliest, sleeps, he]

/-- Nothing has been done yet. -/
theorem Paced.nil (key : String) (d : Int) :
    Paced start d ([] : List (AcquireEvent E)) (machine E re2 key workerId (some d)).init where
  steps := by simp [machine, place, threadSteps, readings]
  read := by simp [readings]
  awake _ := rfl
  slept := by simp [sleeps, earliest]
  within := by simp [sleeps, earliest]
  long := .inr (by simp [sleeps, earliest])
  few := by
    simp only [sleeps, List.filterMap_nil, List.length_nil]
    omega

/-- A step that does not read the clock. -/
theorem Paced.other (h : Paced start d es s) (hop : op.reading = none)
    (hplace : place s.thread + (if op.isThread then 1 else 0) ≤ place s'.thread)
    (hended : ∀ outcome, s.thread = .ended outcome → ∃ outcome, s'.thread = .ended outcome) :
    Paced start d (es ++ [⟨s, op, r, s'⟩]) s' := by
  have hnone : sleepOf ⟨s, op, r, s'⟩ = none := by
    cases op with
    | retry now jitter => cases hop
    | _ => rfl
  have hread : readings (es ++ [⟨s, op, r, s'⟩]) = readings es := by
    rw [readings_snoc, if_neg (by simp [hop]), Nat.add_zero]
  refine ⟨?_, ?_, fun hawake => ?_, ?_, ?_, ?_, ?_⟩
  · have hsteps := h.steps
    rw [threadSteps_snoc, hread]
    dsimp only
    split at hplace <;> simp_all <;> omega
  · rw [hread, sleeps_other hnone]
    exact h.read
  · rw [hread, sleeps_other hnone]
    refine h.awake fun outcome houtcome => ?_
    obtain ⟨outcome', houtcome'⟩ := hended outcome houtcome
    exact hawake outcome' houtcome'
  · rw [earliest_other hnone, sleeps_other hnone]
    exact h.slept
  · rw [earliest_other hnone]
    exact h.within
  · rw [earliest_other hnone, sleeps_other hnone]
    exact h.long
  · rw [sleeps_other hnone]
    exact h.few

/-- The deadline is past. -/
theorem Paced.past (h : Paced start d es s) (hthread : s.thread = .retrying) {now jitter : Int}
    {outcome : GrpcClientTransport.Outcome Unit E} (hthread' : s'.thread = .ended outcome) :
    Paced start d (es ++ [⟨s, .retry now jitter, r, s'⟩]) s' := by
  have hnone : sleepOf ⟨s, .retry now jitter, r, s'⟩ = none := by
    simp only [sleepOf, hthread']
  have hawake := h.awake fun _ heq => by cases hthread.symm.trans heq
  have hsteps := h.steps
  rw [hthread] at hsteps
  refine ⟨?_, ?_, fun hnot => absurd hthread' (hnot _), ?_, ?_, ?_, ?_⟩
  · rw [threadSteps_snoc, readings_snoc, hthread']
    simp only [AcquireOp.isThread, AcquireOp.reading, Option.isSome_some, if_true, place]
      at hsteps ⊢
    omega
  · rw [readings_snoc, sleeps_other hnone, hawake]
    exact le_rfl
  · rw [earliest_other hnone, sleeps_other hnone]
    exact h.slept
  · rw [earliest_other hnone]
    exact h.within
  · rw [earliest_other hnone, sleeps_other hnone]
    exact h.long
  · rw [sleeps_other hnone]
    exact h.few

/-- The deadline is not past: the sleep is a long one, or ends at the deadline. -/
theorem Paced.sleep (h : Paced start d es s) (hthread : s.thread = .retrying)
    {now jitter delay : Int} (hnow : earliest start es ≤ now)
    (hthread' : s'.thread = .sleeping delay) (hpos : 0 < d - now) (hle : delay ≤ d - now)
    (hlong : 400000000 ≤ delay ∨ delay = d - now) :
    Paced start d (es ++ [⟨s, .retry now jitter, r, s'⟩]) s' := by
  have hsleep : sleepOf ⟨s, .retry now jitter, r, s'⟩ = some (now, delay) := by
    simp only [sleepOf, hthread']
  have hsleeps : sleeps (es ++ [⟨s, .retry now jitter, r, s'⟩]) = sleeps es ++ [(now, delay)] := by
    simp [sleeps, hsleep]
  have hawake := h.awake fun _ heq => by cases hthread.symm.trans heq
  have hsteps := h.steps
  rw [hthread] at hsteps
  have hslept := h.slept
  have hwithin := h.within
  -- no sleep before this one reached the deadline
  have hall := h.long.resolve_left (by omega)
  refine ⟨?_, ?_, fun _ => ?_, ?_, ?_, ?_, ?_⟩
  · rw [threadSteps_snoc, readings_snoc, hthread']
    simp only [AcquireOp.isThread, AcquireOp.reading, Option.isSome_some, if_true, place]
      at hsteps ⊢
    omega
  · rw [readings_snoc, hsleeps, hawake, List.length_append]
    exact Nat.le_succ _
  · rw [readings_snoc, hsleeps, hawake, List.length_append]
    rfl
  · rw [earliest_sleep hsleep, hsleeps, List.map_append, List.sum_append]
    simp only [List.map_cons, List.map_nil, List.sum_cons, List.sum_nil]
    omega
  · rw [earliest_sleep hsleep]
    omega
  · rw [earliest_sleep hsleep, hsleeps, List.length_append, List.length_singleton]
    push_cast
    omega
  · rw [hsleeps, List.length_append, List.length_singleton]
    push_cast
    omega

/-- Past an attempt that did not acquire, at a reading that the clock can show. -/
theorem Paced.retry (h : Paced start d es s) {now jitter : Int}
    (hs : s.step re2 key workerId (some d) (.retry now jitter) = some (r, s'))
    (hnow : earliest start es ≤ now) :
    Paced start d (es ++ [⟨s, .retry now jitter, r, s'⟩]) s' := by
  simp only [step] at hs
  split at hs
  · next hthread =>
    split at hs
    · cases hs
    · next hjitter =>
      cases hs
      unfold mutexAcquireJitter at hjitter
      by_cases hpast : d - now ≤ 0
      · exact h.past hthread (if_pos hpast)
      · refine h.sleep hthread hnow (if_neg hpast) (by omega) (min_le_right _ _) ?_
        unfold mutexAcquireSleep
        omega
  · cases hs

/-- A reply ends the loop, or sends it on to the clock. -/
theorem place_received (result : Result MutexTryAcquireResponse) :
    place (received (E := E) result) = 2 := by
  match result with
  | .ok ⟨true⟩ => rfl
  | .ok ⟨false⟩ => rfl
  | .error _ => rfl

/-- Every step keeps the pace. -/
theorem Paced.step (h : Paced start d es s)
    (hs : s.step re2 key workerId (some d) op = some (r, s'))
    (hnow : ∀ now ∈ op.reading, earliest start es ≤ now) :
    Paced start d (es ++ [⟨s, op, r, s'⟩]) s' := by
  cases op with
  | other op =>
    simp only [Acquire.step, Option.bind_eq_bind, Option.bind_eq_some_iff] at hs
    obtain ⟨⟨reply, mutexes⟩, -, heq⟩ := hs
    cases heq
    exact h.other rfl (by simp [AcquireOp.isThread]) fun outcome houtcome => ⟨outcome, houtcome⟩
  | execute =>
    simp only [Acquire.step] at hs
    split at hs
    · cases hs
      exact h.other rfl (by simp [AcquireOp.isThread]) fun outcome houtcome => ⟨outcome, houtcome⟩
    · cases hs
  | retry now jitter => exact h.retry hs (hnow now rfl)
  | send =>
    simp only [Acquire.step] at hs
    split at hs
    · next hthread =>
      cases hs
      refine h.other rfl (by simp [hthread, AcquireOp.isThread, place]) fun outcome heq => ?_
      cases hthread.symm.trans heq
    · cases hs
  | refuse =>
    simp only [Acquire.step] at hs
    split at hs
    · next hthread =>
      cases hs
      refine h.other rfl (by simp [hthread, AcquireOp.isThread, place]) fun _ _ => ⟨_, rfl⟩
    · cases hs
  | receive =>
    simp only [Acquire.step] at hs
    split at hs
    · next result hthread _ =>
      cases hs
      refine h.other rfl ?_ fun outcome heq => ?_
      · rw [hthread, place_received]
        exact le_rfl
      · cases hthread.symm.trans heq
    · cases hs
  | fail failure =>
    simp only [Acquire.step] at hs
    split at hs
    · next hthread =>
      cases hs
      refine h.other rfl (by simp [hthread, AcquireOp.isThread, place]) fun _ _ => ⟨_, rfl⟩
    · cases hs
  | wake =>
    simp only [Acquire.step] at hs
    split at hs
    · next hthread =>
      cases hs
      refine h.other rfl (by simp [hthread, AcquireOp.isThread, place]) fun outcome heq => ?_
      cases hthread.symm.trans heq
    · cases hs

/-- A run whose sleeps are full had full sleeps before its last call, which came no earlier than
their end. -/
theorem SleepsFully.snoc {e : AcquireEvent E} (h : SleepsFully start (es ++ [e])) :
    SleepsFully start es ∧ ∀ now ∈ e.op.reading, earliest start es ≤ now := by
  constructor
  · intro i hi now hnow
    have hle := h i (by rw [List.length_append]; omega) now
    rw [List.getElem?_append_left hi, List.take_append_of_le_length hi.le] at hle
    exact hle hnow
  · intro now hnow
    have hle := h es.length (by simp) now
    rw [List.getElem?_concat_length, List.take_left] at hle
    exact hle hnow

end

end Acquire

end Client

end DsService

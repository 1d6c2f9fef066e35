import DsService.Client.MutexAcquire
import DsService.Lib.Rounding
import DsService.Store.Datetime
import Mathlib.Data.Rat.Floor
import Mathlib.Tactic.Linarith

/-!
# Deadlines

Two places turn a timeout in seconds into a deadline of a clock, in signed nanoseconds of 64 bits:
`begin_call` for each call, and `Client::mutex_acquire` for its whole loop. A timeout is a double,
and so is the number of nanoseconds that `duration_cast` cuts to a whole one, so a deadline is off
by more than a tick if no double is that close to the timeout in nanoseconds. A conversion out of
range and an overflow are undefined. `begin_call` sets no deadline for a timeout of `NO_DEADLINE_S`
or more, and so never overflows; `mutex_acquire` has no such test, and needs its deadline to fit the
clock as well (`no_premature_deadline`).
-/

namespace DsService

open Rounding (IsFloat roundTo isFloat_int isFloat_floor roundTo_le le_roundTo roundTo_of_isFloat
  abs_sub_lt_one_iff floor_roundTo_iff)

namespace Chrono

/-- A result in 64 bits. What leaves them is undefined. -/
def checked (x : Int) : Option Int := if Representable x then some x else none

/-- `duration_cast` from seconds to the nanoseconds of a clock: the product is a double, which has
53 significant bits, and it is cut towards zero. The exponent of a double is bounded, but what lies
beyond its bounds is cut to zero or out of range. -/
def durationCast (seconds : ℚ) : Option Int :=
  let count := roundTo 53 (seconds * 1000000000)
  checked (count.num.tdiv count.den)

/-- `now + duration_cast(timeout)`. -/
def deadlineAfter (timeout : ℚ) (now : Int) : Option Int := do
  let duration ← durationCast timeout
  checked (now + duration)

end Chrono

open Chrono

namespace GrpcClientTransport

/-- `NO_DEADLINE_S`. -/
def noDeadlineS : ℚ := 1000000000

/-- The deadline that `begin_call` sets, if it sets one. -/
def beginCallDeadline (timeout : ℚ) (now : Int) : Option (Option Int) :=
  if timeout < noDeadlineS then (deadlineAfter timeout now).map some else some none

end GrpcClientTransport

open GrpcClientTransport

namespace Client

/-- The deadline of `mutex_acquire`, if it has a timeout. -/
def mutexAcquireDeadline (timeout : Option ℚ) (now : Int) : Option (Option Int) :=
  match timeout with
  | none => some none
  | some timeout => (deadlineAfter timeout now).map some

/-! ## What a deadline promises -/

/-- The deadline was computed without overflow, and is absent or the timeout away, rounded to one of
the two ticks next to it. -/
def DeadlineExact (timeout : ℚ) (now : Int) (deadline : Option (Option Int)) : Prop :=
  deadline = some none ∨
    ∃ ticks : ℤ, deadline = some (some (now + ticks)) ∧ |ticks - timeout * 1000000000| < 1

/-- What `mutex_acquire` does at the clock reading `t` after an attempt that did not acquire: it
throws only if the ticks of the timeout have elapsed, and otherwise sleeps, for a positive time, and
no longer than the deadline is away. -/
structure Patient {E : Type} (ticks now : Int) (deadline : Option Int) (key : String)
    (t : Int) (thread : AcquireThread E) : Prop where
  ended : ∀ outcome, thread = .ended outcome →
    outcome = .error (timedOut key) ∧ ticks ≤ t - now
  sleeping : ∀ delay, thread = .sleeping delay →
    0 < delay ∧ ∀ d, deadline = some d → delay ≤ d - t
  /-- The remaining time is computed without overflow. -/
  remaining : 0 ≤ t → Representable t → ∀ d, deadline = some d → Representable (d - t)

/-- Neither deadline is premature. -/
structure NoPrematureDeadline (timeout : ℚ) (now : Int) : Prop where
  beginCall : DeadlineExact timeout now (beginCallDeadline timeout now)
  acquire : DeadlineExact timeout now (mutexAcquireDeadline (some timeout) now)
  run : ∀ {E : Type} {re2 : RE2} {key workerId : String} {deadline : Option Int}
    {es : List (Acquire.AcquireEvent E)} {s : Acquire E},
    mutexAcquireDeadline (some timeout) now = some deadline →
    (Acquire.machine E re2 key workerId deadline).Run es s →
    ∀ e ∈ es, ∀ t jitter, e.op = .retry t jitter →
      Patient ⌊timeout * 1000000000⌋ now deadline key t e.post.thread

/-- A double is less than a tick away. -/
def NearDouble (x : ℚ) : Prop := ∃ d, IsFloat 53 d ∧ |d - x| < 1

/-- Below 2^53 every whole number is a double. -/
theorem nearDouble_of_lt {x : ℚ} (hx : 0 ≤ x) (h : x < 2 ^ 53) : NearDouble x :=
  ⟨_, (isFloat_floor (by norm_num) hx h).1, abs_sub_lt_one_iff.2 (.inl rfl)⟩

/-! ## When it is kept -/

variable {timeout : ℚ} {now : Int}

/-- The ticks that the code takes a timeout for. -/
def castTicks (timeout : ℚ) : ℤ := ⌊roundTo 53 (timeout * 1000000000)⌋

/-- Rounding does not make a timeout negative. -/
theorem roundTo_nonneg (h : 0 ≤ timeout) : 0 ≤ roundTo 53 (timeout * 1000000000) := by
  have hzero : IsFloat 53 (0 : ℤ) := isFloat_int (by norm_num) (by norm_num)
  exact_mod_cast le_roundTo (by norm_num) hzero (by push_cast; positivity)

/-- Nor does cutting. -/
theorem castTicks_nonneg (h : 0 ≤ timeout) : 0 ≤ castTicks timeout :=
  Int.floor_nonneg.2 (roundTo_nonneg h)

/-- Cutting towards zero rounds down. -/
theorem durationCast_eq (h : 0 ≤ timeout) : durationCast timeout = checked (castTicks timeout) := by
  have hnum := Rat.num_nonneg.2 (roundTo_nonneg h)
  unfold durationCast castTicks
  dsimp only
  rw [Int.tdiv_eq_ediv_of_nonneg hnum, Rat.floor_def']

/-- The timeout is rounded to the tick exactly if a double is that close. -/
theorem castTicks_iff (h : 0 ≤ timeout) :
    |castTicks timeout - timeout * 1000000000| < 1 ↔ NearDouble (timeout * 1000000000) :=
  floor_roundTo_iff (by norm_num) (by positivity)

/-- The deadline is the ticks away if it fits the clock, and undefined otherwise. -/
theorem deadlineAfter_eq (h : 0 ≤ timeout) (hnow : 0 ≤ now) : deadlineAfter timeout now =
    if now + castTicks timeout < 2 ^ 63 then some (now + castTicks timeout) else none := by
  have hticks := castTicks_nonneg h
  unfold deadlineAfter
  simp only [durationCast_eq h, checked]
  generalize castTicks timeout = ticks at hticks
  by_cases hsum : now + ticks < 2 ^ 63
  · have hrep : Representable ticks := ⟨by omega, by omega⟩
    have hrep' : Representable (now + ticks) := ⟨by omega, hsum⟩
    rw [if_pos hrep, if_pos hsum]
    exact if_pos hrep'
  · have hrep' : ¬ Representable (now + ticks) := fun hrep => hsum hrep.2
    rw [if_neg hsum]
    by_cases hrep : Representable ticks
    · rw [if_pos hrep]
      exact if_neg hrep'
    · rw [if_neg hrep]
      rfl

/-- `begin_call` sets no deadline that the clock cannot hold. -/
theorem beginCallDeadline_eq (h : 0 ≤ timeout) (hnow : 0 ≤ now)
    (hnow' : now ≤ 8000000000000000000) : beginCallDeadline timeout now =
      some (if timeout < noDeadlineS then some (now + castTicks timeout) else none) := by
  unfold beginCallDeadline
  split
  · next hlt =>
    have hfloat : IsFloat 53 1000000000000000000 := ⟨3814697265625, 18, by norm_num, by norm_num⟩
    have hround : roundTo 53 (timeout * 1000000000) ≤ 1000000000000000000 := by
      refine roundTo_le (by norm_num) hfloat ?_
      unfold noDeadlineS at hlt
      linarith
    have hticks : castTicks timeout ≤ 1000000000000000000 :=
      Int.floor_le_iff.2 (by push_cast; linarith)
    rw [deadlineAfter_eq h hnow, if_pos (by omega)]
    rfl
  · rfl

/-- A deadline that was computed is exact if the ticks are those of the timeout. -/
theorem deadlineExact_iff {ticks : ℤ} : DeadlineExact timeout now (some (some (now + ticks))) ↔
    |ticks - timeout * 1000000000| < 1 := by
  constructor
  · rintro (h | ⟨ticks', h, hticks⟩)
    · cases h
    · obtain rfl : ticks = ticks' := by
        have := Option.some.inj (Option.some.inj h)
        omega
      exact hticks
  · exact fun h => .inr ⟨ticks, rfl, h⟩

/-- The deadline of `begin_call` is exact if it is absent or a double is close enough. -/
theorem beginCallDeadline_exact (h : 0 ≤ timeout) (hnow : 0 ≤ now)
    (hnow' : now ≤ 8000000000000000000) :
    DeadlineExact timeout now (beginCallDeadline timeout now) ↔
      noDeadlineS ≤ timeout ∨ NearDouble (timeout * 1000000000) := by
  rw [beginCallDeadline_eq h hnow hnow', ← castTicks_iff h, ← not_lt]
  split
  · next hlt => rw [deadlineExact_iff, or_iff_right (not_not.2 hlt)]
  · next hle => exact iff_of_true (.inl rfl) (.inl hle)

/-- The deadline of `mutex_acquire` is exact if a double is close enough and it fits the clock. -/
theorem mutexAcquireDeadline_exact (h : 0 ≤ timeout) (hnow : 0 ≤ now) :
    DeadlineExact timeout now (mutexAcquireDeadline (some timeout) now) ↔
      NearDouble (timeout * 1000000000) ∧ now + castTicks timeout < 2 ^ 63 := by
  unfold mutexAcquireDeadline
  simp only
  rw [deadlineAfter_eq h hnow, ← castTicks_iff h]
  split
  · next hsum => rw [Option.map_some, deadlineExact_iff, and_iff_left hsum]
  · next hsum =>
    refine iff_of_false ?_ fun hand => hsum hand.2
    rintro (hd | ⟨ticks, hd, -⟩)
    · cases hd
    · cases hd

/-- The deadline of a timeout is never absent. -/
theorem mutexAcquireDeadline_eq_some {deadline : Option Int} (h : 0 ≤ timeout) (hnow : 0 ≤ now)
    (hd : mutexAcquireDeadline (some timeout) now = some deadline) :
    now + castTicks timeout < 2 ^ 63 ∧ deadline = some (now + castTicks timeout) := by
  unfold mutexAcquireDeadline at hd
  simp only at hd
  rw [deadlineAfter_eq h hnow] at hd
  split at hd
  · next hsum => exact ⟨hsum, (Option.some.inj hd).symm⟩
  · cases hd

/-- A thread that waits for some ticks waits for fewer. -/
theorem Patient.mono {E : Type} {ticks ticks' : Int} {deadline : Option Int} {key : String}
    {t : Int} {thread : AcquireThread E} (h : Patient ticks now deadline key t thread)
    (hle : ticks' ≤ ticks) : Patient ticks' now deadline key t thread :=
  ⟨fun outcome heq => (h.ended outcome heq).imp_right hle.trans, h.sleeping, h.remaining⟩

/-- What the thread does past an attempt, with a deadline that is the ticks away. -/
theorem delayed_patient {E : Type} {ticks : Int} (hticks : 0 ≤ ticks) (hnow : 0 ≤ now)
    (hsum : now + ticks < 2 ^ 63) (key : String) (t : Int) {jitter : Int}
    (hj : ¬ (jitter < -mutexAcquireJitter ∨ mutexAcquireJitter < jitter)) :
    Patient (E := E) ticks now (some (now + ticks)) key t
      (Acquire.delayed key (some (now + ticks)) t jitter) := by
  have hdelay : 0 < mutexAcquireSleep + jitter := by
    unfold mutexAcquireJitter at hj
    unfold mutexAcquireSleep
    omega
  have hrem : 0 ≤ t → Representable t → ∀ d, some (now + ticks) = some d →
      Representable (d - t) := by
    rintro ht ⟨-, ht'⟩ d hd
    cases hd
    exact ⟨by omega, by omega⟩
  unfold Acquire.delayed
  dsimp only
  split
  · next hle =>
    refine ⟨fun outcome heq => ?_, nofun, hrem⟩
    cases heq
    exact ⟨rfl, by omega⟩
  · next hpos =>
    refine ⟨nofun, fun delay heq => ?_, hrem⟩
    cases heq
    refine ⟨lt_min hdelay (by omega), fun d hd => ?_⟩
    cases hd
    exact min_le_right _ _

/-- The clock is read only past an attempt that did not acquire. -/
theorem step_retry {E : Type} {re2 : RE2} {key workerId : String} {deadline : Option Int}
    {s s' : Acquire E} {t jitter : Int} {r : Option MutexReply}
    (hs : s.step re2 key workerId deadline (.retry t jitter) = some (r, s')) :
    ¬ (jitter < -mutexAcquireJitter ∨ mutexAcquireJitter < jitter) ∧
      s'.thread = Acquire.delayed key deadline t jitter := by
  simp only [Acquire.step] at hs
  split at hs
  · split at hs
    · cases hs
    · next hj =>
      cases hs
      exact ⟨hj, rfl⟩
  · cases hs

/-- Past every attempt that did not acquire, the thread waits for the ticks that the code takes the
timeout for. -/
theorem run_patient {E : Type} {re2 : RE2} {key workerId : String} {deadline : Option Int}
    {es : List (Acquire.AcquireEvent E)} {s : Acquire E} (h : 0 ≤ timeout) (hnow : 0 ≤ now)
    (hd : mutexAcquireDeadline (some timeout) now = some deadline)
    (hrun : (Acquire.machine E re2 key workerId deadline).Run es s) :
    ∀ e ∈ es, ∀ t jitter, e.op = .retry t jitter →
      Patient (castTicks timeout) now deadline key t e.post.thread := by
  intro e he t jitter hop
  obtain ⟨hsum, rfl⟩ := mutexAcquireDeadline_eq_some h hnow hd
  obtain ⟨es₁, es₂, rfl⟩ := List.append_of_mem he
  obtain ⟨pre, op, reply, post⟩ := e
  cases hop
  have hs : pre.step re2 key workerId _ (.retry t jitter) = some (reply, post) := hrun.split.2
  obtain ⟨hj, hthread⟩ := step_retry hs
  show Patient _ _ _ _ _ post.thread
  rw [hthread]
  exact delayed_patient (castTicks_nonneg h) hnow hsum key t hj

/-- **No deadline is premature as long as a double is close enough and the clock can hold it.** The
deadline of `begin_call` never overflows. It is absent or the timeout away, to the tick, exactly for
a timeout of `NO_DEADLINE_S` or more and for one with a double less than a tick from its
nanoseconds, as there is for every timeout below 2^53 of them. That of `mutex_acquire` is the
timeout away, and its loop patient in every run, exactly if there is such a double and now and the
nanoseconds as a double together stay below 2^63. -/
theorem no_premature_deadline (h : 0 ≤ timeout) (hnow : 0 ≤ now)
    (hnow' : now ≤ 8000000000000000000) :
    beginCallDeadline timeout now ≠ none ∧
      (DeadlineExact timeout now (beginCallDeadline timeout now) ↔
        noDeadlineS ≤ timeout ∨ NearDouble (timeout * 1000000000)) ∧
      (NoPrematureDeadline timeout now ↔
        NearDouble (timeout * 1000000000) ∧ now + roundTo 53 (timeout * 1000000000) < 2 ^ 63) := by
  have hfits : now + castTicks timeout < 2 ^ 63 ↔
      now + roundTo 53 (timeout * 1000000000) < 2 ^ 63 := by
    rw [← lt_sub_iff_add_lt', ← lt_sub_iff_add_lt', castTicks, Int.floor_lt]
    push_cast
    rfl
  refine ⟨?_, beginCallDeadline_exact h hnow hnow', fun hno => ?_, fun ⟨hnear, hsum⟩ => ?_⟩
  · rw [beginCallDeadline_eq h hnow hnow']
    nofun
  · rw [← hfits]
    exact (mutexAcquireDeadline_exact h hnow).1 hno.acquire
  · refine ⟨(beginCallDeadline_exact h hnow hnow').2 (.inr hnear),
      (mutexAcquireDeadline_exact h hnow).2 ⟨hnear, hfits.2 hsum⟩, ?_⟩
    intro E re2 key workerId deadline es s hd hrun e he t jitter hop
    refine (run_patient h hnow hd hrun e he t jitter hop).mono ?_
    rcases abs_sub_lt_one_iff.1 ((castTicks_iff h).2 hnear) with heq | heq
    · exact heq.ge
    · exact heq ▸ Int.floor_le_ceil _

/-- The default timeout of a call. -/
theorem no_premature_deadline_fiveMinutes : NoPrematureDeadline 300 1000000000000000 := by
  have hfloat : IsFloat 53 (300 * 1000000000) := ⟨300000000000, 0, by norm_num, by norm_num⟩
  have hround : roundTo 53 (300 * 1000000000) = 300 * 1000000000 :=
    roundTo_of_isFloat (by norm_num) hfloat
  refine (no_premature_deadline (by norm_num) (by norm_num) (by norm_num)).2.2.2
    ⟨nearDouble_of_lt (by norm_num) (by norm_num), ?_⟩
  rw [hround]
  norm_num

-- The double nearest to 864000000.7: the deadline is 47 nanoseconds early.
example : beginCallDeadline (3623878658936013 / 4194304) 0 = some (some 864000000700000000) ∧
    864000000700000047 < (3623878658936013 / 4194304 : ℚ) * 1000000000 := by
  decide +kernel

/-- **A timeout of 10^10 seconds has no deadline in 64 bits.** -/
theorem mutexAcquireDeadline_overflows :
    mutexAcquireDeadline (some 10000000000) 1000000000000000 = none ∧
      ¬ NoPrematureDeadline 10000000000 1000000000000000 := by
  have hround : roundTo 53 (10000000000 * 1000000000) = 10000000000 * 1000000000 :=
    roundTo_of_isFloat (by norm_num) ⟨19073486328125, 19, by norm_num, by norm_num⟩
  have hnone : mutexAcquireDeadline (some 10000000000) 1000000000000000 = none := by
    unfold mutexAcquireDeadline
    simp only
    rw [deadlineAfter_eq (by norm_num) (by norm_num), castTicks, hround]
    norm_num
  refine ⟨hnone, fun hno => ?_⟩
  rcases hno.acquire with hd | ⟨ticks, hd, -⟩
  · rw [hnone] at hd
    cases hd
  · rw [hnone] at hd
    cases hd

end Client

end DsService

import DsService.Core.Stores
import DsService.Lib.History

/-!
# Who holds a mutex

The mutexes keep one cell per key and no history. `Mutexes.cell_iff` reads the cell off the history
of calls: it exists exactly if a `mutex_try_acquire` named the key, and is held by `w` exactly if
the latest turn of the key, a successful acquire or release, is an acquire by `w`. Mutual exclusion
(`mutual_exclusion`) follows from it, since an acquire that succeeds found the cell free and a
release that succeeds found it held by the worker that releases it.
-/

namespace DsService

/-! ## Turns -/

/-- A call that changes who holds a mutex. -/
inductive Turn where
  | acquired (workerId : String)
  | released (workerId : String)
deriving DecidableEq

/-- The turn of the mutex `k` that a call is, by its request and its reply. -/
def MutexOp.turn (k : String) : MutexOp → MutexReply → Option Turn
  | .tryAcquire request, .tryAcquire (.ok ⟨true⟩) =>
      if request.key = k then some (.acquired request.workerId) else none
  | .release request, .release (.ok ()) =>
      if request.key = k then some (.released request.workerId) else none
  | _, _ => none

/-- The key that a call names. -/
def MutexOp.key? : MutexOp → Option String
  | .tryAcquire request => some request.key
  | .release request => some request.key
  | .getWorkerId request => some request.key
  | .searchKey _ => none

/-- The error code of a refusal. -/
def refusalCode {T : Type} (r : Result T) : Option ErrorCode := (errorOf r).map Error.code

namespace Mutexes

/-- The mutexes as a machine, started empty. -/
def machine (re2 : RE2) : Machine Mutexes MutexOp MutexReply where
  init := {}
  step := step re2

/-- An event of the mutexes. -/
abbrev MutexEvent := Machine.Event Mutexes MutexOp MutexReply

/-- The turn of the mutex `k` at an event. -/
def turnAt (k : String) (e : MutexEvent) : Option Turn := e.op.turn k e.reply

/-- Some `mutex_try_acquire` of the history named `k`. -/
def Named (k : String) (es : List MutexEvent) : Prop :=
  ∃ e ∈ es, ∃ workerId, e.op = .tryAcquire ⟨k, workerId⟩

/-- The mutex is free, or has never been named. -/
def Free (self : Mutexes) (k : String) : Prop := ((self.data.lookup k).getD {}).held = false

variable {re2 : RE2} {self self' : Mutexes} {op : MutexOp} {r : MutexReply} {k w : String}

/-- A free mutex is acquired, and no other one is touched. -/
theorem tryAcquire_free {request : MutexTryAcquireRequest} (h : self.Free request.key) :
    ∃ self', self.tryAcquire request = (.ok ⟨true⟩, self') ∧
      self'.data.lookup request.key = some ⟨true, request.workerId⟩ ∧
      ∀ k, k ≠ request.key → self'.data.lookup k = self.data.lookup k := by
  unfold Free at h
  unfold tryAcquire
  cases hl : self.data.lookup request.key with
  | none =>
      refine ⟨_, if_neg (by simp), AList.lookup_insert _, fun k hk => ?_⟩
      rw [AList.lookup_insert_ne hk, AList.lookup_insert_ne hk]
  | some mutex =>
      rw [hl] at h
      dsimp only
      rw [hl]
      refine ⟨_, if_neg (by simpa using h), AList.lookup_insert _, fun k hk => ?_⟩
      exact AList.lookup_insert_ne hk

/-- A mutex that is held is not acquired, not even by its holder. -/
theorem tryAcquire_held {request : MutexTryAcquireRequest} {workerId : String}
    (h : self.data.lookup request.key = some ⟨true, workerId⟩) :
    self.tryAcquire request = (.ok ⟨false⟩, self) := by
  unfold tryAcquire
  rw [h]
  dsimp only
  rw [h]
  rfl

/-- A mutex is free or held by a worker. -/
theorem free_or_held (self : Mutexes) (k : String) :
    self.Free k ∨ ∃ workerId, self.data.lookup k = some ⟨true, workerId⟩ := by
  unfold Free
  cases self.data.lookup k with
  | none => exact .inl rfl
  | some mutex =>
      obtain ⟨held, workerId⟩ := mutex
      cases held with
      | false => exact .inl rfl
      | true => exact .inr ⟨workerId, rfl⟩

/-- A release succeeds for the holder, and writes nothing otherwise. -/
theorem release_cases (self : Mutexes) (request : MutexReleaseRequest) :
    (self.data.lookup request.key = some ⟨true, request.workerId⟩ ∧
      ∃ self', self.release request = (.ok (), self') ∧
        self'.data.lookup request.key = some {} ∧
        ∀ k, k ≠ request.key → self'.data.lookup k = self.data.lookup k) ∨
      ∃ e, self.release request = (.error e, self) := by
  unfold release
  cases hl : self.data.lookup request.key with
  | none => exact .inr ⟨_, rfl⟩
  | some mutex =>
      obtain ⟨held, workerId⟩ := mutex
      cases held with
      | false => exact .inr ⟨_, rfl⟩
      | true =>
          by_cases hw : workerId = request.workerId
          · subst hw
            refine .inl ⟨rfl, _, if_neg (not_not.2 rfl), AList.lookup_insert _, fun k hk => ?_⟩
            exact AList.lookup_insert_ne hk
          · exact .inr ⟨_, if_pos hw⟩

/-- **What a call does to the mutex `k`**: nothing, or it takes the free mutex, or the holder gives
it back. -/
theorem step_turn (h : self.step re2 op = some (r, self')) (k : String) :
    (op.turn k r = none ∧ self'.data.lookup k = self.data.lookup k ∧
      ∀ w, op = .tryAcquire ⟨k, w⟩ → self.data.lookup k ≠ none) ∨
    (∃ w, op = .tryAcquire ⟨k, w⟩ ∧ op.turn k r = some (.acquired w) ∧ self.Free k ∧
      self'.data.lookup k = some ⟨true, w⟩) ∨
    (∃ w, op = .release ⟨k, w⟩ ∧ op.turn k r = some (.released w) ∧
      self.data.lookup k = some ⟨true, w⟩ ∧ self'.data.lookup k = some {}) := by
  cases op with
  | tryAcquire request =>
      rcases self.free_or_held request.key with hfree | ⟨workerId, hheld⟩
      · obtain ⟨self₁, heq, hkey, hother⟩ := tryAcquire_free hfree
        simp only [step, heq] at h
        cases h
        by_cases hk : request.key = k
        · subst hk
          exact .inr (.inl ⟨request.workerId, rfl, if_pos rfl, hfree, hkey⟩)
        · refine .inl ⟨if_neg hk, hother k (Ne.symm hk), fun w hop => ?_⟩
          cases hop
          exact absurd rfl hk
      · simp only [step, tryAcquire_held hheld] at h
        cases h
        refine .inl ⟨rfl, rfl, fun w hop => ?_⟩
        cases hop
        simp [hheld]
  | release request =>
      rcases self.release_cases request with ⟨hheld, self₁, heq, hkey, hother⟩ | ⟨e, heq⟩
      · simp only [step, heq] at h
        cases h
        by_cases hk : request.key = k
        · subst hk
          exact .inr (.inr ⟨request.workerId, rfl, if_pos rfl, hheld, hkey⟩)
        · exact .inl ⟨if_neg hk, hother k (Ne.symm hk), fun w hop => by cases hop⟩
      · simp only [step, heq] at h
        cases h
        exact .inl ⟨rfl, rfl, fun w hop => by cases hop⟩
  | getWorkerId | searchKey =>
      cases h
      exact .inl ⟨rfl, rfl, fun w hop => by cases hop⟩

/-! ## The cell and the history -/

variable {es : List MutexEvent} {m : Mutexes}

/-- A key is named by an earlier acquire or by the last call. -/
theorem named_snoc {e : MutexEvent} :
    Named k (es ++ [e]) ↔ Named k es ∨ ∃ w, e.op = .tryAcquire ⟨k, w⟩ :=
  Machine.exists_snoc

/-- **The cell of a mutex is its history.** -/
theorem cell_iff (h : (machine re2).Run es m) (k : String) :
    (m.data.lookup k = none ↔ ¬ Named k es) ∧
      ∀ w, m.data.lookup k = some ⟨true, w⟩ ↔ Machine.Latest (turnAt k) es (.acquired w) := by
  induction h with
  | nil =>
      refine ⟨⟨fun _ => ?_, fun _ => rfl⟩, fun w => ⟨fun hl => ?_, fun hl => ?_⟩⟩
      · rintro ⟨e, he, -⟩
        cases he
      · cases hl
      · exact absurd hl Machine.not_latest_nil
  | @snoc es m m' op r _ hs ih =>
      obtain ⟨ihnone, ihheld⟩ := ih
      rw [named_snoc]
      simp only [Machine.latest_snoc, turnAt]
      rcases step_turn hs k with ⟨hturn, hcell, hold⟩ | ⟨w₁, hop, hturn, -, hcell⟩ |
        ⟨w₁, hop, hturn, hheld, hcell⟩
      · rw [hcell, hturn, ihnone]
        refine ⟨not_congr ⟨.inl, ?_⟩, fun w => ?_⟩
        · rintro (hn | ⟨w, hop⟩)
          · exact hn
          · by_contra hn
            exact hold w hop (ihnone.2 hn)
        · rw [ihheld]
          simp
      · rw [hcell, hturn]
        refine ⟨⟨nofun, fun hn => absurd (.inr ⟨w₁, hop⟩) hn⟩, fun w => ?_⟩
        simp
      · rw [hcell, hturn]
        refine ⟨⟨nofun, fun hn => ?_⟩, fun w => by simp⟩
        refine absurd (.inl ?_) hn
        by_contra hnot
        rw [ihnone.2 hnot] at hheld
        cases hheld

/-- A release that succeeds undoes the latest turn, an acquire by the same worker. -/
theorem released_latest {es₁ es₂ : List MutexEvent} {e : MutexEvent}
    (h : (machine re2).Run (es₁ ++ e :: es₂) m) (he : turnAt k e = some (.released w)) :
    Machine.Latest (turnAt k) es₁ (.acquired w) := by
  obtain ⟨hrun, hs⟩ := h.split
  rcases step_turn hs k with ⟨hturn, -⟩ | ⟨w₁, -, hturn, -⟩ | ⟨w₁, -, hturn, hheld, -⟩
  · rw [turnAt, hturn] at he; cases he
  · rw [turnAt, hturn] at he; cases he
  · rw [turnAt, hturn] at he
    cases he
    exact ((cell_iff hrun k).2 w).1 hheld

/-- While `w` holds a mutex the next turn is its release. -/
theorem turn_of_held {es₁ es₂ : List MutexEvent} {e : MutexEvent} {t : Turn}
    (h : (machine re2).Run (es₁ ++ e :: es₂) m)
    (hlast : Machine.Latest (turnAt k) es₁ (.acquired w)) (he : turnAt k e = some t) :
    t = .released w := by
  obtain ⟨hrun, hs⟩ := h.split
  have hcell := ((cell_iff hrun k).2 w).2 hlast
  rcases step_turn hs k with ⟨hturn, -⟩ | ⟨w₁, -, -, hfree, -⟩ | ⟨w₁, -, hturn, hheld, -⟩
  · rw [turnAt, hturn] at he; cases he
  · rw [Free, hcell] at hfree; cases hfree
  · rw [hcell] at hheld
    cases hheld
    rw [turnAt, hturn] at he
    cases he
    rfl

/-- Between two acquires the first worker releases. -/
theorem released_between {es₁ es₂ es₃ : List MutexEvent} {e e' : MutexEvent} {w' : String}
    (h : (machine re2).Run (es₁ ++ e :: (es₂ ++ e' :: es₃)) m)
    (he : turnAt k e = some (.acquired w)) (he' : turnAt k e' = some (.acquired w')) :
    ∃ f ∈ es₂, turnAt k f = some (.released w) := by
  by_cases hnone : ∀ f ∈ es₂, turnAt k f = none
  · -- the second acquire would be a turn while the first worker holds the mutex
    have hlast : Machine.Latest (turnAt k) (es₁ ++ e :: es₂) (.acquired w) :=
      ⟨es₁, e, es₂, rfl, he, hnone⟩
    rw [← List.cons_append, ← List.append_assoc] at h
    cases turn_of_held h hlast he'
  · push Not at hnone
    obtain ⟨l₁, f, l₂, t, rfl, hf, hl⟩ := Machine.exists_first hnone
    have hlast : Machine.Latest (turnAt k) (es₁ ++ e :: l₁) (.acquired w) :=
      ⟨es₁, e, l₁, rfl, he, hl⟩
    rw [List.append_assoc, ← List.cons_append, ← List.append_assoc, List.cons_append] at h
    rw [turn_of_held h hlast hf] at hf
    exact ⟨f, by simp, hf⟩

/-! ## One key at a time -/

/-- The reply to a release depends on its mutex only. -/
theorem release_congr {other : Mutexes} {request : MutexReleaseRequest}
    (h : self.data.lookup request.key = other.data.lookup request.key) :
    (self.release request).1 = (other.release request).1 := by
  unfold release
  rw [h]
  cases other.data.lookup request.key with
  | none => rfl
  | some mutex =>
      dsimp only
      split
      · rfl
      · split <;> rfl

/-- The reply to an acquire depends on its mutex only. -/
theorem tryAcquire_congr {other : Mutexes} {request : MutexTryAcquireRequest}
    (h : self.data.lookup request.key = other.data.lookup request.key) :
    (self.tryAcquire request).1 = (other.tryAcquire request).1 := by
  rcases self.free_or_held request.key with hfree | ⟨workerId, hheld⟩
  · obtain ⟨self', heq, -⟩ := tryAcquire_free hfree
    have hfree' : other.Free request.key := by
      unfold Free at hfree ⊢
      rwa [← h]
    obtain ⟨other', heq', -⟩ := tryAcquire_free hfree'
    rw [heq, heq']
  · rw [tryAcquire_held hheld, tryAcquire_held (h ▸ hheld)]

/-- The holder that is reported depends on the mutex only. -/
theorem getWorkerId_congr {other : Mutexes} (h : self.data.lookup k = other.data.lookup k) :
    self.getWorkerId ⟨k⟩ = other.getWorkerId ⟨k⟩ := by
  unfold getWorkerId
  rw [h]

/-- A call that names `k` is answered from the cell of `k`. -/
theorem step_congr {other : Mutexes} (h : self.step re2 op = some (r, self'))
    (hk : op.key? = some k) (hcell : self.data.lookup k = other.data.lookup k) :
    ∃ other', other.step re2 op = some (r, other') ∧
      self'.data.lookup k = other'.data.lookup k := by
  have hreply : ∃ other', other.step re2 op = some (r, other') := by
    cases op with
    | tryAcquire request =>
        cases hk
        have hr : MutexReply.tryAcquire (self.tryAcquire request).1 = r :=
          congrArg Prod.fst (Option.some.inj h)
        rw [← hr, tryAcquire_congr hcell]
        exact ⟨_, rfl⟩
    | release request =>
        cases hk
        have hr : MutexReply.release (self.release request).1 = r :=
          congrArg Prod.fst (Option.some.inj h)
        rw [← hr, release_congr hcell]
        exact ⟨_, rfl⟩
    | getWorkerId request =>
        cases hk
        have hr : MutexReply.getWorkerId (self.getWorkerId request) = r :=
          congrArg Prod.fst (Option.some.inj h)
        rw [← hr, getWorkerId_congr hcell]
        exact ⟨_, rfl⟩
    | searchKey => cases hk
  obtain ⟨other', hother⟩ := hreply
  refine ⟨other', hother, ?_⟩
  rcases step_turn h k with ⟨hturn, hself, -⟩ | ⟨w, -, hturn, -, hself⟩ |
      ⟨w, -, hturn, -, hself⟩ <;>
    rcases step_turn hother k with ⟨hturn', hself', -⟩ | ⟨w', -, hturn', -, hself'⟩ |
      ⟨w', -, hturn', -, hself'⟩ <;>
    rw [hturn] at hturn' <;> cases hturn' <;> rw [hself, hself']
  exact hcell

/-- A call that does not name `k` leaves its cell. -/
theorem step_other (h : self.step re2 op = some (r, self')) (hk : op.key? ≠ some k) :
    self'.data.lookup k = self.data.lookup k := by
  rcases step_turn h k with ⟨-, hcell, -⟩ | ⟨w, rfl, -⟩ | ⟨w, rfl, -⟩
  · exact hcell
  · exact absurd rfl hk
  · exact absurd rfl hk

/-- **The calls that name a key are a run of their own**, with the same replies. -/
theorem run_key (h : (machine re2).Run es m) (k : String) :
    ∃ es' m', (machine re2).Run es' m' ∧
      es'.map Machine.Event.call =
        (es.filter fun e => e.op.key? = some k).map Machine.Event.call ∧
      m'.data.lookup k = m.data.lookup k := by
  obtain ⟨es', m', hrun, hcalls, hcell⟩ := h.project (N := machine re2)
    (fun (op : MutexOp) r => if op.key? = some k then some (op, r) else none)
    (R := fun (self other : Mutexes) => self.data.lookup k = other.data.lookup k) rfl
    (fun hcell hs hview => by
      split at hview
      · next hk =>
          cases hview
          exact step_congr hs hk hcell
      · cases hview)
    (fun hcell hs hview => by
      split at hview
      · cases hview
      · next hk => exact (step_other hs hk).trans hcell)
  refine ⟨es', m', hrun, hcalls.trans ?_, hcell.symm⟩
  rw [← List.filterMap_eq_map, List.filterMap_filter]
  refine List.filterMap_congr fun e _ => ?_
  by_cases hk : e.op.key? = some k <;> simp [hk, Machine.Event.call]

/-! ## Asking for the holder -/

/-- The holder is reported exactly if there is one. -/
theorem getWorkerId_ok_iff : m.getWorkerId ⟨k⟩ = .ok ⟨w⟩ ↔ m.data.lookup k = some ⟨true, w⟩ := by
  unfold getWorkerId
  cases m.data.lookup k with
  | none => exact ⟨nofun, nofun⟩
  | some mutex =>
      obtain ⟨held, workerId⟩ := mutex
      cases held <;> simp [makeError]

/-- `NotFound` says that the key is not there. -/
theorem getWorkerId_notFound_iff :
    refusalCode (m.getWorkerId ⟨k⟩) = some .notFound ↔ m.data.lookup k = none := by
  unfold getWorkerId
  cases m.data.lookup k with
  | none => exact ⟨fun _ => rfl, fun _ => rfl⟩
  | some mutex =>
      obtain ⟨held, workerId⟩ := mutex
      cases held <;> simp [makeError, refusalCode, errorOf]

/-- `FailedPrecondition` says that the key is there and nobody holds it. -/
theorem getWorkerId_failedPrecondition_iff :
    refusalCode (m.getWorkerId ⟨k⟩) = some .failedPrecondition ↔
      m.data.lookup k ≠ none ∧ ∀ w, m.data.lookup k ≠ some ⟨true, w⟩ := by
  unfold getWorkerId
  cases m.data.lookup k with
  | none => simp [makeError, refusalCode, errorOf]
  | some mutex =>
      obtain ⟨held, workerId⟩ := mutex
      cases held <;> simp [makeError, refusalCode, errorOf]

end Mutexes

open Mutexes in
/-- **Mutual exclusion of named mutexes.** In every run and for every key: between two acquires that
succeed the worker of the first releases; a release that succeeds has the acquire by the same worker
as the latest turn before it; `mutex_get_worker_id` returns a worker exactly when the latest turn is
its acquire, FailedPrecondition exactly when the key was named and is free, and NotFound exactly
when it was never named. The calls that name the key have the same replies without all other
calls. -/
theorem mutual_exclusion {re2 : RE2} {es : List MutexEvent} {m : Mutexes}
    (h : (Mutexes.machine re2).Run es m) (k : String) :
    (∀ es₁ e es₂ e' es₃ w w', es = es₁ ++ e :: (es₂ ++ e' :: es₃) →
        turnAt k e = some (.acquired w) → turnAt k e' = some (.acquired w') →
        ∃ f ∈ es₂, turnAt k f = some (.released w)) ∧
      (∀ es₁ e es₂ w, es = es₁ ++ e :: es₂ → turnAt k e = some (.released w) →
        Machine.Latest (turnAt k) es₁ (.acquired w)) ∧
      (∀ w, m.getWorkerId ⟨k⟩ = .ok ⟨w⟩ ↔ Machine.Latest (turnAt k) es (.acquired w)) ∧
      (refusalCode (m.getWorkerId ⟨k⟩) = some .failedPrecondition ↔
        Named k es ∧ ∀ w, ¬ Machine.Latest (turnAt k) es (.acquired w)) ∧
      (refusalCode (m.getWorkerId ⟨k⟩) = some .notFound ↔ ¬ Named k es) ∧
      ∃ es' m', (Mutexes.machine re2).Run es' m' ∧
        es'.map Machine.Event.call =
          (es.filter fun e => e.op.key? = some k).map Machine.Event.call ∧
        m'.getWorkerId ⟨k⟩ = m.getWorkerId ⟨k⟩ := by
  obtain ⟨hnone, hheld⟩ := cell_iff h k
  refine ⟨?between, ?matched, ?holder, ?free, ?unnamed, ?other⟩
  case between =>
    rintro es₁ e es₂ e' es₃ w w' rfl he he'
    exact released_between h he he'
  case matched =>
    rintro es₁ e es₂ w rfl he
    exact released_latest h he
  case holder => exact fun w => getWorkerId_ok_iff.trans (hheld w)
  case free =>
    rw [getWorkerId_failedPrecondition_iff, ne_eq, hnone, not_not]
    simp only [ne_eq, hheld]
  case unnamed => exact getWorkerId_notFound_iff.trans hnone
  case other =>
    obtain ⟨es', m', hrun, hcalls, hcell⟩ := run_key h k
    exact ⟨es', m', hrun, hcalls, getWorkerId_congr hcell⟩

/-- Two workers, one of them with an empty id, take turns at one mutex, with refusals and another
mutex between. -/
def handover : List MutexOp :=
  [.tryAcquire ⟨"k", ""⟩, .tryAcquire ⟨"k", ""⟩, .release ⟨"k", "v"⟩, .tryAcquire ⟨"j", "v"⟩,
    .release ⟨"k", ""⟩, .getWorkerId ⟨"k"⟩, .tryAcquire ⟨"k", "v"⟩, .searchKey ⟨""⟩]

/-- The mutex goes from one worker to the other. -/
theorem mutual_exclusion_handover :
    ((Mutexes.machine ⟨fun _ => .ok fun _ => true⟩).runOf handover).2.getWorkerId ⟨"k"⟩ =
        .ok ⟨"v"⟩ ∧
      Machine.Latest (Mutexes.turnAt "k")
        ((Mutexes.machine ⟨fun _ => .ok fun _ => true⟩).runOf handover).1 (.acquired "v") := by
  have hrun := Machine.run_runOf (M := Mutexes.machine ⟨fun _ => .ok fun _ => true⟩) handover rfl
  have hholder :
      ((Mutexes.machine ⟨fun _ => .ok fun _ => true⟩).runOf handover).2.getWorkerId ⟨"k"⟩ =
      .ok ⟨"v"⟩ := rfl
  exact ⟨hholder, ((mutual_exclusion hrun "k").2.2.1 "v").1 hholder⟩

end DsService

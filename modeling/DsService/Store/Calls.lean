import DsService.Core.Stores

/-!
# Calls on the small stores

Every call is defined: `journal_read` and `time_series_get` are the two operations that index a
vector, and their indices come from a loop over it. And a refused call writes nothing
(`step_refused`): every early return comes before the first write, and `mutex_try_acquire` creates a
key only where it then succeeds.
-/

namespace DsService

/-! ## Every call is defined -/

/-- A loop whose turns are all defined is defined. -/
theorem exists_mapM {β γ : Type} {f : β → Option γ} {l : List β} (h : ∀ a ∈ l, ∃ b, f a = some b) :
    ∃ bs, l.mapM f = some bs := by
  induction l with
  | nil => exact ⟨[], rfl⟩
  | cons a l ih =>
      obtain ⟨b, hb⟩ := h a (.head _)
      obtain ⟨bs, hbs⟩ := ih fun a ha => h a (.tail _ ha)
      exact ⟨b :: bs, by rw [List.mapM_cons, hb, hbs]; rfl⟩

/-- A vector has an element at every index below its length. -/
theorem exists_getElem? {β : Type} {l : List β} {i : Nat} (h : i < l.length) :
    ∃ a, l[i]? = some a :=
  ⟨l[i], List.getElem?_eq_getElem h⟩

/-- The indices of a read are clamped to the length of the journal. -/
theorem JournalMap.read_defined (self : JournalMap) (request : JournalReadRequest) :
    ∃ r, self.read request = some r := by
  unfold read
  split
  · exact ⟨_, rfl⟩
  · next journal _ =>
      obtain ⟨entry, hentry⟩ := exists_mapM (f := fun i => journal[i]?)
        (l := List.range' (min request.start journal.length)
          (min request.end journal.length - min request.start journal.length)) fun i hi => by
        rw [List.mem_range'_1] at hi
        exact exists_getElem? (by omega)
      exact ⟨.ok ⟨entry⟩, by simp only [hentry]; rfl⟩

/-- Every call on the journals is defined. -/
theorem JournalMap.step_defined (re2 : RE2) (self : JournalMap) (op : JournalOp) :
    ∃ r self', self.step re2 op = some (r, self') := by
  cases op with
  | read request =>
      obtain ⟨r, hr⟩ := self.read_defined request
      exact ⟨.read r, self, by simp [step, hr]⟩
  | size | append | searchKey => exact ⟨_, _, rfl⟩

variable {α : Type}

/-- The three vectors of a series have one length, so an index of one is an index of all. -/
theorem TimeSeriesMap.pointAt_defined (iso : Iso8601) (series : TimeSeries α)
    (startTime endTime : Option Int) (request : TimeSeriesGetRequest) {i : Nat}
    (h : i < series.value.length) :
    ∃ p, pointAt iso series startTime endTime request i = some p := by
  obtain ⟨value, hvalue⟩ := exists_getElem? h
  obtain ⟨time, htime⟩ := exists_getElem? (series.time_length.symm ▸ h)
  obtain ⟨step, hstep⟩ := exists_getElem? (series.step_length.symm ▸ h)
  unfold pointAt
  simp only [hvalue, htime, hstep, Option.bind_eq_bind, Option.bind_some]
  split
  · exact ⟨_, rfl⟩
  split
  · exact ⟨_, rfl⟩
  split
  · exact ⟨_, rfl⟩
  split <;> exact ⟨_, rfl⟩

/-- The loop of a get stays below the length of the series. -/
theorem TimeSeriesMap.get_defined (iso : Iso8601) (self : TimeSeriesMap α)
    (request : TimeSeriesGetRequest) : ∃ r, self.get iso request = some r := by
  unfold get
  split
  · exact ⟨_, rfl⟩
  split
  · exact ⟨_, rfl⟩
  split
  · exact ⟨_, rfl⟩
  · next startTime _ _ endTime _ _ series _ =>
      obtain ⟨points, hpoints⟩ := exists_mapM (l := List.range series.value.length)
        fun i hi => pointAt_defined iso series startTime endTime request (List.mem_range.1 hi)
      exact ⟨.ok ⟨points.filterMap id⟩, by rw [hpoints]; rfl⟩

/-- Every call on the time series is defined. -/
theorem TimeSeriesMap.step_defined (re2 : RE2) (iso : Iso8601) (self : TimeSeriesMap α)
    (op : TimeSeriesOp α) : ∃ r self', self.step re2 iso op = some (r, self') := by
  cases op with
  | get request =>
      obtain ⟨r, hr⟩ := self.get_defined iso request
      exact ⟨.get r, self, by simp [step, hr]⟩
  | append | searchKey => exact ⟨_, _, rfl⟩

/-- Every call on the map is defined. -/
theorem Map.step_defined (re2 : RE2) (self : Map) (op : MapOp) :
    ∃ r self', self.step re2 op = some (r, self') := by
  cases op <;> exact ⟨_, _, rfl⟩

/-- Every call on the mutexes is defined. -/
theorem Mutexes.step_defined (re2 : RE2) (self : Mutexes) (op : MutexOp) :
    ∃ r self', self.step re2 op = some (r, self') := by
  cases op <;> exact ⟨_, _, rfl⟩

/-- Every call on the counters is defined. -/
theorem Counters.step_defined (re2 : RE2) (self : Counters) (op : CounterOp) :
    ∃ r self', self.step re2 op = some (r, self') := by
  cases op <;> exact ⟨_, _, rfl⟩

/-! ## A refused call writes nothing -/

/-- A set never fails, and the other calls write nothing. -/
theorem Map.step_refused {re2 : RE2} {self self' : Map} {op : MapOp} {r : MapReply}
    (h : self.step re2 op = some (r, self')) (hr : r.error.isSome = true) : self' = self := by
  cases op with
  | set request => cases h; cases hr
  | get | searchKey => cases h; rfl

/-- An append never fails, and the other calls write nothing. -/
theorem JournalMap.step_refused {re2 : RE2} {self self' : JournalMap} {op : JournalOp}
    {r : JournalReply} (h : self.step re2 op = some (r, self')) (hr : r.error.isSome = true) :
    self' = self := by
  cases op with
  | append request => cases h; cases hr
  | read request =>
      simp only [step, Option.bind_eq_bind, Option.bind_eq_some_iff] at h
      obtain ⟨_, -, heq⟩ := h
      cases heq
      rfl
  | size | searchKey => cases h; rfl

/-- An append parses its datetime before it writes. -/
theorem TimeSeriesMap.step_refused {re2 : RE2} {iso : Iso8601} {self self' : TimeSeriesMap α}
    {op : TimeSeriesOp α} {r : TimeSeriesReply α} (h : self.step re2 iso op = some (r, self'))
    (hr : r.error.isSome = true) : self' = self := by
  cases op with
  | append request =>
      simp only [step, append] at h
      split at h
      · cases h; rfl
      · cases h; cases hr
  | get request =>
      simp only [step, Option.bind_eq_bind, Option.bind_eq_some_iff] at h
      obtain ⟨_, -, heq⟩ := h
      cases heq
      rfl
  | searchKey => cases h; rfl

/-- A key that `mutex_try_acquire` creates is free, so a refusal found the key there. -/
theorem Mutexes.tryAcquire_refused (self : Mutexes) (request : MutexTryAcquireRequest) :
    self.tryAcquire request = (.ok ⟨false⟩, self) ∨
      ∃ self', self.tryAcquire request = (.ok ⟨true⟩, self') := by
  unfold tryAcquire
  cases hl : self.data.lookup request.key with
  | none =>
      dsimp only
      rw [AList.lookup_insert]
      exact .inr ⟨_, rfl⟩
  | some mutex =>
      dsimp only
      rw [hl]
      cases hm : mutex.held with
      | true => exact .inl (if_pos hm)
      | false => exact .inr ⟨_, if_neg (by simp [hm])⟩

/-- A release checks the holder before it writes. -/
theorem Mutexes.release_refused {self self' : Mutexes} {request : MutexReleaseRequest} {e : Error}
    (h : self.release request = (.error e, self')) : self' = self := by
  unfold release at h
  split at h
  · cases h; rfl
  · split at h
    · cases h; rfl
    · split at h
      · cases h; rfl
      · cases h

/-- A call that fails, or an acquire of a mutex that is held, leaves the mutexes as they are. -/
theorem Mutexes.step_refused {re2 : RE2} {self self' : Mutexes} {op : MutexOp} {r : MutexReply}
    (h : self.step re2 op = some (r, self'))
    (hr : r.error.isSome = true ∨ r = .tryAcquire (.ok ⟨false⟩)) : self' = self := by
  cases op with
  | tryAcquire request =>
      rcases self.tryAcquire_refused request with heq | ⟨self₁, heq⟩
      · simp only [step, heq] at h
        cases h; rfl
      · simp only [step, heq] at h
        cases h
        rcases hr with hr | hr <;> cases hr
  | release request =>
      cases hrel : self.release request with
      | mk result self₁ =>
          simp only [step, hrel] at h
          cases h
          cases result with
          | ok _ => rcases hr with hr | hr <;> cases hr
          | error e => exact release_refused hrel
  | getWorkerId | searchKey => cases h; rfl

/-- Taking a value never fails, and the other calls write nothing. -/
theorem Counters.step_refused {re2 : RE2} {self self' : Counters} {op : CounterOp}
    {r : CounterReply} (h : self.step re2 op = some (r, self')) (hr : r.error.isSome = true) :
    self' = self := by
  cases op with
  | getNextValue request => cases h; cases hr
  | getCurrentValue | searchKey => cases h; rfl

end DsService

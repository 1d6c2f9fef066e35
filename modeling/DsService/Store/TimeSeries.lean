import DsService.Lib.History
import DsService.Lib.Windows
import DsService.Store.Calls

/-!
# Windows of a time series

A series is three columns grown side by side. Read row by row (`TimeSeries.points`) they are the
points of the appends that were accepted, in order, each with its own value, time and step
(`TimeSeriesMap.pointsOf_eq`), and `time_series_get` filters these rows by the bounds that the
request has (`TimeSeriesMap.get_eq`). So the windows between neighbouring bounds of a sequence that
does not decrease share the points out among them (`time_series_windows_partition`).

The reading of a datetime text is the partial function `iso.parse`, whatever it is.
-/

namespace DsService

variable {α : Type}

/-! ## Points -/

/-- A point of a series: a row of its three columns. -/
structure Point (α : Type) where
  value : Double α
  time : Int
  step : Int

/-- The point lies within the bounds that are present. -/
def Point.within (startTime endTime startStep endStep : Option Int) (p : Point α) : Bool :=
  startTime.all (· ≤ p.time) && endTime.all (p.time < ·) &&
    startStep.all (· ≤ p.step) && endStep.all (p.step < ·)

/-- A point as it is reported. -/
def Point.report (iso : Iso8601) (p : Point α) : TimeSeriesDataPoint α :=
  ⟨p.value, iso.format p.time, p.step⟩

/-- The point that an append to `k` records, if it is accepted. -/
def TimeSeriesOp.accepts (iso : Iso8601) (k : String) :
    TimeSeriesOp α → TimeSeriesReply α → Option (Point α)
  | .append request, .append (.ok ()) =>
      if request.key = k then
        (iso.parse request.datetime).map fun tp => ⟨request.value, tp, request.step⟩
      else none
  | _, _ => none

/-- What a time bound of a request stands for: absent or empty is none, any other text is the time
it parses to. -/
def Bound (iso : Iso8601) (text : Option String) (bound : Option Int) : Prop :=
  (text = none ∨ text = some "") ∧ bound = none ∨
    ∃ t tp, text = some t ∧ t ≠ "" ∧ iso.parse t = some tp ∧ bound = some tp

namespace TimeSeries

/-- The rows of the columns. -/
def points (series : TimeSeries α) : List (Point α) :=
  (series.value.zip (series.time.zip series.step)).map fun row => ⟨row.1, row.2.1, row.2.2⟩

/-- A series has as many points as values. -/
theorem points_length (series : TimeSeries α) : series.points.length = series.value.length := by
  simp [points, series.time_length, series.step_length]

/-- A point is read off the three vectors. -/
theorem points_getElem? (series : TimeSeries α) {i : Nat} {p : Point α}
    (h : series.points[i]? = some p) :
    series.value[i]? = some p.value ∧ series.time[i]? = some p.time ∧
      series.step[i]? = some p.step := by
  simp only [points, List.getElem?_map, Option.map_eq_some_iff] at h
  obtain ⟨⟨value, time, step⟩, hrow, rfl⟩ := h
  rw [List.getElem?_zip_eq_some, List.getElem?_zip_eq_some] at hrow
  exact hrow

/-- The three `push_back` calls of an append add one row. -/
theorem points_push (series : TimeSeries α) (value : Double α) (time step : Int) :
    (series.value ++ [value]).zip ((series.time ++ [time]).zip (series.step ++ [step])) =
      series.value.zip (series.time.zip series.step) ++ [(value, time, step)] := by
  have hlen : series.time.length = series.step.length := by
    rw [series.time_length, series.step_length]
  rw [List.zip_append hlen, List.zip_append (by simp [series.time_length, series.step_length])]
  rfl

end TimeSeries

namespace TimeSeriesMap

/-- The time series as a machine, started empty. -/
def machine (α : Type) (re2 : RE2) (iso : Iso8601) :
    Machine (TimeSeriesMap α) (TimeSeriesOp α) (TimeSeriesReply α) where
  init := {}
  step := step re2 iso

/-- An event of the time series. -/
abbrev SeriesEvent (α : Type) :=
  Machine.Event (TimeSeriesMap α) (TimeSeriesOp α) (TimeSeriesReply α)

/-- The points that a history records under `k`, in order. -/
def accepted (iso : Iso8601) (k : String) (es : List (SeriesEvent α)) : List (Point α) :=
  es.filterMap fun e => e.op.accepts iso k e.reply

/-- The points of the series `k`, none if it does not exist. -/
def pointsOf (self : TimeSeriesMap α) (k : String) : List (Point α) :=
  ((self.data.lookup k).map TimeSeries.points).getD []

variable {re2 : RE2} {iso : Iso8601} {self self' m : TimeSeriesMap α} {op : TimeSeriesOp α}
  {r : TimeSeriesReply α} {k : String} {es : List (SeriesEvent α)}

/-- An append is accepted exactly when its datetime parses, and then records its point. -/
theorem append_cases (iso : Iso8601) (self : TimeSeriesMap α)
    (request : TimeSeriesAppendRequest α) :
    (∃ e, iso.parse request.datetime = none ∧ self.append iso request = (.error e, self)) ∨
      ∃ tp self', iso.parse request.datetime = some tp ∧ self.append iso request = (.ok (), self') ∧
        self'.pointsOf request.key =
          self.pointsOf request.key ++ [⟨request.value, tp, request.step⟩] ∧
        ∀ k, k ≠ request.key → self'.pointsOf k = self.pointsOf k := by
  unfold append
  cases hparse : iso.parse request.datetime with
  | none => exact .inl ⟨_, rfl, rfl⟩
  | some tp =>
      refine .inr ⟨tp, _, rfl, rfl, ?_, fun k hk => ?_⟩
      · have hold : self.pointsOf request.key =
            ((self.data.lookup request.key).getD {}).points := by
          unfold pointsOf
          cases self.data.lookup request.key <;> rfl
        rw [hold]
        simp only [pointsOf, AList.lookup_insert, Option.map_some, Option.getD_some,
          TimeSeries.points, TimeSeries.points_push, List.map_append, List.map_singleton]
      · simp only [pointsOf, AList.lookup_insert_ne hk]

/-- **What a call does to the series `k`**: it adds the point of an append to `k` that is accepted,
and nothing else. -/
theorem step_pointsOf (h : self.step re2 iso op = some (r, self')) (k : String) :
    self'.pointsOf k = self.pointsOf k ++ (op.accepts iso k r).toList := by
  cases op with
  | append request =>
      rcases append_cases iso self request with ⟨e, -, heq⟩ | ⟨tp, self₁, hparse, heq, hkey, hother⟩
      · simp only [step, heq] at h
        cases h
        simp [TimeSeriesOp.accepts]
      · simp only [step, heq] at h
        cases h
        by_cases hk : request.key = k
        · subst hk
          simp [hkey, TimeSeriesOp.accepts, hparse]
        · simp [hother k (Ne.symm hk), TimeSeriesOp.accepts, hk]
  | get request =>
      obtain ⟨_, -, heq⟩ := Option.bind_eq_some_iff.1 h
      cases heq
      simp [TimeSeriesOp.accepts]
  | searchKey =>
      cases h
      simp [TimeSeriesOp.accepts]

/-- **A series holds the points that were accepted.** -/
theorem pointsOf_eq (h : (machine α re2 iso).Run es m) (k : String) :
    m.pointsOf k = accepted iso k es := by
  induction h with
  | nil => rfl
  | snoc _ hs ih =>
      rw [step_pointsOf hs k, ih, accepted, accepted, List.filterMap_append]
      congr 1

/-! ## The loop of `time_series_get` -/

/-- A bound that is missing or can be parsed is accepted. -/
theorem timeBound_ok_iff {field : String} {text : Option String} {bound : Option Int} :
    timeBound iso field text = .ok bound ↔ Bound iso text bound := by
  unfold timeBound Bound
  cases text with
  | none => simp [eq_comm]
  | some t =>
      by_cases ht : t = ""
      · simp [ht, eq_comm]
      · cases hparse : iso.parse t <;> simp [ht, hparse, makeError, eq_comm]

/-- A bound is refused with `InvalidArgument`. -/
theorem timeBound_error {field : String} {text : Option String} {e : Error}
    (h : timeBound iso field text = .error e) : e.code = .invalidArgument := by
  unfold timeBound at h
  cases text with
  | none => cases h
  | some t =>
      dsimp only at h
      split at h
      · cases h
      · split at h
        · cases h; rfl
        · cases h

/-- A lower bound that excludes a value, and one that does not. -/
theorem any_lt_eq_not (bound : Option Int) (x : Int) :
    (bound.any fun b => decide (x < b)) = !bound.all fun b => decide (b ≤ x) := by
  cases bound with
  | none => rfl
  | some b =>
      show decide (x < b) = !decide (b ≤ x)
      rw [← decide_not, decide_eq_decide, Int.not_le]

/-- An upper bound that excludes a value, and one that does not. -/
theorem any_ge_eq_not (bound : Option Int) (x : Int) :
    (bound.any fun b => decide (x ≥ b)) = !bound.all fun b => decide (x < b) := by
  cases bound with
  | none => rfl
  | some b =>
      show decide (b ≤ x) = !decide (x < b)
      rw [← decide_not, decide_eq_decide, Int.not_lt]

/-- One turn of the loop, on the row that it reads. -/
theorem pointAt_eq {series : TimeSeries α} {startTime endTime : Option Int}
    {request : TimeSeriesGetRequest} {i : Nat} {p : Point α} (h : series.points[i]? = some p) :
    pointAt iso series startTime endTime request i =
      some (if p.within startTime endTime request.startStep request.endStep then
        some (p.report iso) else none) := by
  obtain ⟨hvalue, htime, hstep⟩ := series.points_getElem? h
  unfold pointAt Point.within
  simp only [hvalue, htime, hstep, Option.bind_eq_bind, Option.bind_some, any_lt_eq_not,
    any_ge_eq_not]
  cases startTime.all fun b => decide (b ≤ p.time)
  · rfl
  cases endTime.all fun b => decide (p.time < b)
  · rfl
  cases request.startStep.all fun b => decide (b ≤ p.step)
  · rfl
  cases request.endStep.all fun b => decide (p.step < b) <;> rfl

/-- A loop that computes one value from each row computes them all. -/
theorem mapM_range'_rows {β γ : Type} {f : Nat → Option γ} {g : β → γ} :
    ∀ (l : List β) (start : Nat), (∀ i a, l[i]? = some a → f (start + i) = some (g a)) →
      (List.range' start l.length).mapM f = some (l.map g)
  | [], _, _ => rfl
  | a :: l, start, h => by
      have hhead : f start = some (g a) := h 0 a rfl
      have htail := mapM_range'_rows (f := f) (g := g) l (start + 1) fun i b hb => by
        rw [Nat.add_right_comm, Nat.add_assoc]
        exact h (i + 1) b hb
      rw [List.length_cons, List.range'_succ, List.mapM_cons, htail, hhead]
      rfl

/-- **`time_series_get` filters the points by the bounds that are present**, and refuses a time
bound that does not parse. -/
theorem get_eq (iso : Iso8601) (self : TimeSeriesMap α) (request : TimeSeriesGetRequest)
    {startTime endTime : Option Int} (hs : Bound iso request.startTime startTime)
    (he : Bound iso request.endTime endTime) :
    self.get iso request = some (.ok ⟨((self.pointsOf request.key).filter
      (Point.within startTime endTime request.startStep request.endStep)).map
        (Point.report iso)⟩) := by
  unfold get pointsOf
  rw [timeBound_ok_iff.2 hs, timeBound_ok_iff.2 he]
  dsimp only
  cases self.data.lookup request.key with
  | none => rfl
  | some series =>
      have hturn : ∀ i p, series.points[i]? = some p →
          pointAt iso series startTime endTime request (0 + i) =
            some (if p.within startTime endTime request.startStep request.endStep then
              some (p.report iso) else none) := by
        intro i p hp
        rw [Nat.zero_add]
        exact pointAt_eq hp
      have hloop := mapM_range'_rows series.points 0 hturn
      rw [series.points_length, ← List.range_eq_range'] at hloop
      simp only [hloop, Option.bind_eq_bind, Option.bind_some, Option.map_some, Option.getD_some]
      rw [List.filterMap_map, ← List.filterMap_eq_map, List.filterMap_filter]
      rfl

/-- A get with a bound that cannot be parsed is refused. -/
theorem get_refused (self : TimeSeriesMap α) {request : TimeSeriesGetRequest}
    (h : (∀ b, ¬ Bound iso request.startTime b) ∨ ∀ b, ¬ Bound iso request.endTime b) :
    ∃ e, self.get iso request = some (.error e) ∧ e.code = .invalidArgument := by
  unfold get
  cases hs : timeBound iso "start_time" request.startTime with
  | error e => exact ⟨e, rfl, timeBound_error hs⟩
  | ok startTime =>
      cases he : timeBound iso "end_time" request.endTime with
      | error e => exact ⟨e, rfl, timeBound_error he⟩
      | ok endTime =>
          rcases h with h | h
          · exact absurd (timeBound_ok_iff.1 hs) (h startTime)
          · exact absurd (timeBound_ok_iff.1 he) (h endTime)

/-- What `time_series_get` returned are points of the series, in order. -/
theorem get_ok {request : TimeSeriesGetRequest} {points : List (TimeSeriesDataPoint α)}
    (h : self.get iso request = some (.ok ⟨points⟩)) :
    ∃ keep : Point α → Bool,
      points = ((self.pointsOf request.key).filter keep).map (Point.report iso) := by
  by_cases hbad : (∀ b, ¬ Bound iso request.startTime b) ∨ ∀ b, ¬ Bound iso request.endTime b
  · obtain ⟨e, he, -⟩ := get_refused self hbad
    rw [he] at h
    cases h
  · push Not at hbad
    obtain ⟨⟨startTime, hs⟩, ⟨endTime, he⟩⟩ := hbad
    rw [get_eq iso self request hs he] at h
    cases h
    exact ⟨_, rfl⟩

/-- An append is answered without an error exactly when its datetime parses. -/
theorem append_accepted_iff (h : (machine α re2 iso).Run es m) {e : SeriesEvent α} (he : e ∈ es)
    {request : TimeSeriesAppendRequest α} (hop : e.op = .append request) :
    e.reply = .append (.ok ()) ↔ (iso.parse request.datetime).isSome = true := by
  obtain ⟨es₁, es₂, rfl⟩ := List.append_of_mem he
  obtain ⟨-, hs⟩ := h.split
  obtain ⟨pre, op, reply, post⟩ := e
  cases hop
  have hs : TimeSeriesMap.step re2 iso pre (.append request) = some (reply, post) := hs
  rcases append_cases iso pre request with ⟨e, hparse, heq⟩ | ⟨tp, self', hparse, heq, -⟩
  · simp only [step, heq] at hs
    cases hs
    simp [hparse]
  · simp only [step, heq] at hs
    cases hs
    simp [hparse]

end TimeSeriesMap

/-! ## Windows -/

/-- The request with the time bounds number `i` and `j` of a sequence. -/
def TimeSeriesGetRequest.timeWindow (request : TimeSeriesGetRequest) (t : Nat → String)
    (i j : Nat) :
    TimeSeriesGetRequest :=
  { request with startTime := some (t i), endTime := some (t j) }

/-- The request with the step bounds number `i` and `j` of a sequence. -/
def TimeSeriesGetRequest.stepWindow (request : TimeSeriesGetRequest) (b : Nat → Int) (i j : Nat) :
    TimeSeriesGetRequest :=
  { request with startStep := some (b i), endStep := some (b j) }

/-- A window of time is one test more. -/
theorem Point.within_time {p : Point α} {a b : Int} {startStep endStep : Option Int} :
    p.within (some a) (some b) startStep endStep =
      (decide (a ≤ p.time ∧ p.time < b) && p.within none none startStep endStep) := by
  simp [within, Bool.and_assoc]

/-- A window of steps is one test more. -/
theorem Point.within_step {p : Point α} {a b : Int} {startTime endTime : Option Int} :
    p.within startTime endTime (some a) (some b) =
      (decide (a ≤ p.step ∧ p.step < b) && p.within startTime endTime none none) := by
  simp [within, Bool.and_comm, Bool.and_assoc, Bool.and_left_comm]

/-- Filters by the windows of an axis share out what the filter by the whole interval returns. -/
theorem windows_partition {axis : Point α → Int} {rest : Point α → Bool}
    {within : Int → Int → Point α → Bool}
    (hwithin : ∀ a b p, within a b p = (decide (a ≤ axis p ∧ axis p < b) && rest p))
    {n : Nat} {b : Nat → Int} (hmono : ∀ i, i < n → b i ≤ b (i + 1)) (iso : Iso8601)
    (l : List (Point α)) :
    (∀ p, within (b 0) (b n) p = true → ∃! i, i < n ∧ within (b i) (b (i + 1)) p = true) ∧
      ((List.range n).flatMap fun i => (l.filter (within (b i) (b (i + 1)))).map
        (Point.report iso)).Perm ((l.filter (within (b 0) (b n))).map (Point.report iso)) := by
  constructor
  · intro p hp
    rw [hwithin, Bool.and_eq_true, decide_eq_true_eq] at hp
    obtain ⟨⟨h0, hn⟩, hrest⟩ := hp
    simpa only [hwithin, hrest, Bool.and_true, decide_eq_true_eq]
      using existsUnique_window hmono h0 hn
  · have hfilter : ∀ a c, l.filter (within a c) =
        (l.filter rest).filter fun p => a ≤ axis p ∧ axis p < c := by
      intro a c
      rw [List.filter_filter]
      exact List.filter_congr fun p _ => hwithin a c p
    simp only [hfilter]
    rw [← List.map_flatMap]
    exact (flatMap_windows_perm axis (l.filter rest) hmono).map _

/-- **Time series windows partition the series.** After every run, an append was accepted exactly if
its datetime parses. `time_series_get` returns the points of the accepted appends to its key, in
order, that lie within the bounds that are present, and refuses a time bound that does not parse.
For times that do not decrease, every point that the interval from the first to the last returns is
in exactly one of the windows between neighbours, and the replies for the windows together are a
permutation of the reply for the interval, whatever the step bounds. The same holds of steps,
whatever the time bounds. -/
theorem time_series_windows_partition {re2 : RE2} {iso : Iso8601}
    {es : List (TimeSeriesMap.SeriesEvent α)} {m : TimeSeriesMap α}
    (h : (TimeSeriesMap.machine α re2 iso).Run es m) (request : TimeSeriesGetRequest) :
    (∀ e ∈ es, ∀ append, e.op = .append append →
      (e.reply = .append (.ok ()) ↔ (iso.parse append.datetime).isSome = true)) ∧
    (∀ startTime endTime, Bound iso request.startTime startTime →
      Bound iso request.endTime endTime →
      m.get iso request = some (.ok ⟨((TimeSeriesMap.accepted iso request.key es).filter
        (Point.within startTime endTime request.startStep request.endStep)).map
          (Point.report iso)⟩)) ∧
    ((∀ b, ¬ Bound iso request.startTime b) ∨ (∀ b, ¬ Bound iso request.endTime b) →
      ∃ e, m.get iso request = some (.error e) ∧ e.code = .invalidArgument) ∧
    (∀ (n : Nat) (t : Nat → String) (b : Nat → Int),
      (∀ i, i ≤ n → t i ≠ "" ∧ iso.parse (t i) = some (b i)) → (∀ i, i < n → b i ≤ b (i + 1)) →
      (∀ p, p.within (some (b 0)) (some (b n)) request.startStep request.endStep = true →
        ∃! i, i < n ∧ (p : Point α).within (some (b i)) (some (b (i + 1))) request.startStep
          request.endStep = true) ∧
      ∃ points all, (∀ i, i < n → m.get iso (request.timeWindow t i (i + 1)) =
          some (.ok ⟨points i⟩)) ∧ m.get iso (request.timeWindow t 0 n) = some (.ok ⟨all⟩) ∧
        ((List.range n).flatMap points).Perm all) ∧
    ∀ (n : Nat) (b : Nat → Int) startTime endTime, Bound iso request.startTime startTime →
      Bound iso request.endTime endTime → (∀ i, i < n → b i ≤ b (i + 1)) →
      (∀ p, p.within startTime endTime (some (b 0)) (some (b n)) = true →
        ∃! i, i < n ∧ (p : Point α).within startTime endTime (some (b i)) (some (b (i + 1))) =
          true) ∧
      ∃ points all, (∀ i, i < n → m.get iso (request.stepWindow b i (i + 1)) =
          some (.ok ⟨points i⟩)) ∧ m.get iso (request.stepWindow b 0 n) = some (.ok ⟨all⟩) ∧
        ((List.range n).flatMap points).Perm all := by
  have hget : ∀ {request : TimeSeriesGetRequest} {startTime endTime},
      Bound iso request.startTime startTime → Bound iso request.endTime endTime →
      m.get iso request = some (.ok ⟨((TimeSeriesMap.accepted iso request.key es).filter
        (Point.within startTime endTime request.startStep request.endStep)).map
          (Point.report iso)⟩) := by
    intro request startTime endTime hs he
    rw [TimeSeriesMap.get_eq iso m request hs he, TimeSeriesMap.pointsOf_eq h]
  refine ⟨?accepted, fun startTime endTime hs he => hget hs he, fun hbad => m.get_refused hbad,
    ?times, ?steps⟩
  case accepted =>
    exact fun e he append hop => TimeSeriesMap.append_accepted_iff h he hop
  case times =>
    intro n t b hparse hmono
    have hbound : ∀ {i}, i ≤ n → Bound iso (some (t i)) (some (b i)) := fun {i} hi =>
      .inr ⟨t i, b i, rfl, (hparse i hi).1, (hparse i hi).2, rfl⟩
    have hwithin : ∀ a c (p : Point α), p.within (some a) (some c) request.startStep
        request.endStep = (decide (a ≤ p.time ∧ p.time < c) &&
          p.within none none request.startStep request.endStep) := fun a c p => Point.within_time
    obtain ⟨hunique, hperm⟩ :=
      windows_partition hwithin hmono iso (TimeSeriesMap.accepted iso request.key es)
    refine ⟨hunique, _, _, fun i hi => ?_, ?_, hperm⟩
    · exact hget (hbound (by omega)) (hbound (by omega))
    · exact hget (hbound (by omega)) (hbound (by omega))
  case steps =>
    intro n b startTime endTime hs he hmono
    have hwithin : ∀ a c (p : Point α), p.within startTime endTime (some a) (some c) =
        (decide (a ≤ p.step ∧ p.step < c) && p.within startTime endTime none none) :=
      fun a c p => Point.within_step
    obtain ⟨hunique, hperm⟩ :=
      windows_partition hwithin hmono iso (TimeSeriesMap.accepted iso request.key es)
    exact ⟨hunique, _, _, fun i _ => hget hs he, hget hs he, hperm⟩

/-- A clock that reads the texts of three instants. -/
def threeInstants : Iso8601 where
  parse text := if text = "0" then some 0 else if text = "1" then some 1
    else if text = "2" then some 2 else none
  format tp := toString tp

/-- Appends out of order, one of them refused. -/
def unsortedSeries : List (TimeSeriesOp Nat) :=
  [.append ⟨"k", .num 5, "1", 0⟩, .append ⟨"k", .num 6, "late", 1⟩, .append ⟨"j", .num 7, "0", 0⟩,
    .append ⟨"k", .nan, "0", -1⟩]

/-- Points that were appended out of order, in two windows of time. -/
theorem time_series_windows_partition_unsorted :
    ∃ points all, (∀ i, i < 2 →
        ((TimeSeriesMap.machine Nat ⟨fun _ => .ok fun _ => true⟩ threeInstants).runOf
          unsortedSeries).2.get threeInstants
            ((⟨"k", none, none, none, some 0⟩ : TimeSeriesGetRequest).timeWindow
              (fun i => toString i) i (i + 1)) = some (.ok ⟨points i⟩)) ∧
      ((TimeSeriesMap.machine Nat ⟨fun _ => .ok fun _ => true⟩ threeInstants).runOf
        unsortedSeries).2.get threeInstants
          ((⟨"k", none, none, none, some 0⟩ : TimeSeriesGetRequest).timeWindow
            (fun i => toString i) 0 2) = some (.ok ⟨all⟩) ∧
      ((List.range 2).flatMap points).Perm all := by
  have hrun := Machine.run_runOf
    (M := TimeSeriesMap.machine Nat ⟨fun _ => .ok fun _ => true⟩ threeInstants) unsortedSeries rfl
  exact ((time_series_windows_partition hrun ⟨"k", none, none, none, some 0⟩).2.2.2.1 2
    (fun i => toString i) (fun i => i) (by decide) (by decide)).2

end DsService

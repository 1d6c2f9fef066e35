import DsService.Store.Spelling
import DsService.Store.TimeSeries
import DsService.Task.History

/-!
# The instant of a datetime text

A datetime that the grammar spells denotes an instant, in nanoseconds since 1970 with no bound and
with all the digits of its fraction (`Denotes`). `parse_iso8601_utc` returns a count of 64 bits and
checks nothing: a text that denotes a whole number of nanoseconds is read as this number modulo
2^64, and a text with digits that run on denotes another instant than the one it is read as, or
none. So an accepted text is read right exactly if it denotes a whole number of nanoseconds that
fits into the 64 bits (`datetime_denotes_its_instant`). The end of the year 9999 does not fit
(`year9999_precedes_2024`).
-/

namespace DsService

namespace Chrono

/-! ## Instants -/

/-- The instant of a date and a time of day at an offset, in nanoseconds since 1970. -/
def Fields.instant (f : Fields) : Int :=
  Calendar.dayNumber f.year f.month f.day * 86400000000000 + f.timeOfDay - f.offset * 60000000000

/-- The instant is one that a time point can hold. -/
def Representable (t : Int) : Prop := -2 ^ 63 ≤ t ∧ t < 2 ^ 63

instance (t : Int) : Decidable (Representable t) := inferInstanceAs (Decidable (_ ∧ _))

/-- What fits into 64 bits is not wrapped. -/
theorem wrap64_eq_iff (x : Int) : wrap64 x = x ↔ Representable x := by
  unfold wrap64 Representable
  omega

/-- Wrapping on the way changes nothing about the result. -/
theorem wrap64_wrap64 (x y z : Int) :
    wrap64 (wrap64 (wrap64 x + y) - wrap64 z) = wrap64 (x + y - z) := by
  unfold wrap64
  omega

/-- The month of an accepted text is one of twelve. -/
theorem Fields.ok_month {f : Fields} (h : f.ok = true) : 1 ≤ f.month ∧ f.month ≤ 12 := by
  simp only [ok, Calendar.isDate, Bool.and_eq_true, decide_eq_true_eq] at h
  exact ⟨h.1.1.1.1.1.1, h.1.1.1.1.1.2⟩

/-- The time point is the instant in 64 bits. -/
theorem Fields.timePoint_eq {f : Fields} (h : f.ok = true) : f.timePoint = wrap64 f.instant := by
  obtain ⟨h1, h12⟩ := ok_month h
  unfold timePoint instant
  rw [Calendar.daysSinceEpoch_eq h1 h12]
  exact wrap64_wrap64 ..

end Chrono

open Chrono

/-! ## What a text denotes -/

/-- The text denotes the instant, in nanoseconds since 1970. -/
def Denotes (s : String) (t : ℚ) : Prop :=
  ∃ f q, Spells s.toList f q ∧ f.ok = true ∧ t = f.instant + q

/-- A text denotes one instant. -/
theorem Denotes.unique {s : String} {t t' : ℚ} (h : Denotes s t) (h' : Denotes s t') : t = t' := by
  obtain ⟨f, q, hspells, -, rfl⟩ := h
  obtain ⟨f', q', hspells', -, rfl⟩ := h'
  obtain ⟨rfl, rfl⟩ := hspells.unique hspells'
  rfl

/-- The instant of the fields that are read, in whole nanoseconds with no bound. -/
def readInstant (s : String) : Option Int := (readIso8601 s).map Fields.instant

/-- What is parsed is the instant that is read, in the 64 bits of a time point. -/
theorem parseIso8601Utc_eq (s : String) : parseIso8601Utc s = (readInstant s).map wrap64 := by
  unfold parseIso8601Utc readInstant
  cases hread : readIso8601 s with
  | none => rfl
  | some f => exact congrArg some (Fields.timePoint_eq (readIso8601_sound hread).1)

/-- The nanoseconds count from the second on. -/
theorem Chrono.Fields.instant_nanosecond (f : Fields) :
    f.instant = Fields.instant { f with nanosecond := 0 } + f.nanosecond := by
  unfold instant timeOfDay
  dsimp only
  omega

/-- **An accepted text is read as the whole number of nanoseconds that it denotes.** -/
theorem readInstant_of_denotes {s : String} {t t' : Int} (hread : readInstant s = some t')
    (h : Denotes s t) : t' = t := by
  obtain ⟨g, hg, rfl⟩ := Option.map_eq_some_iff.1 hread
  obtain ⟨f, q, hspells, hok, ht⟩ := h
  have hq : q = (t - f.instant : ℤ) := by
    push_cast
    linarith
  obtain ⟨rfl, hns⟩ := eq_of_spells hspells hok hg ⟨_, hq⟩
  rw [hns, ← Int.cast_natCast, ← Int.cast_add, ← g.instant_nanosecond] at ht
  exact (Int.cast_injective ht).symm

/-- An accepted text denotes what is read, unless its digits run on. -/
theorem denotes_readInstant {s : String} {t : Int} (hread : readInstant s = some t)
    (hrun : ¬ RunsOn s.toList) : Denotes s t := by
  obtain ⟨f, hf, rfl⟩ := Option.map_eq_some_iff.1 hread
  obtain ⟨hok, hspells⟩ := readIso8601_sound hf
  refine ⟨_, _, hspells.resolve_right hrun, hok, ?_⟩
  rw [f.instant_nanosecond]
  push_cast
  rfl

/-- A time point is in its range. -/
theorem representable_wrap64 (x : Int) : Representable (wrap64 x) := by
  unfold Representable wrap64
  omega

/-- What is parsed is in the range of a time point. -/
theorem parse_representable {s : String} {tp : Int} (h : parseIso8601Utc s = some tp) :
    Representable tp := by
  rw [parseIso8601Utc_eq] at h
  obtain ⟨t, -, rfl⟩ := Option.map_eq_some_iff.1 h
  exact representable_wrap64 t

/-- **A text that denotes a time point is read as it.** -/
theorem parse_of_denotes {s : String} {tp t : Int} (hparse : parseIso8601Utc s = some tp)
    (h : Denotes s t) (hrep : Representable t) : tp = t := by
  rw [parseIso8601Utc_eq] at hparse
  obtain ⟨t', hread, rfl⟩ := Option.map_eq_some_iff.1 hparse
  rw [readInstant_of_denotes hread h]
  exact (wrap64_eq_iff t).2 hrep

/-! ## What is parsed against what is denoted -/

/-- A text that is accepted denotes a time point. -/
def Fits (s : String) : Prop :=
  ∀ tp, parseIso8601Utc s = some tp → ∃ t : ℤ, Denotes s t ∧ Representable t

open Classical in
/-- The whole number of nanoseconds that a text denotes. -/
noncomputable def denoted (s : String) : Option Int :=
  if h : ∃ t : ℤ, Denotes s t then some h.choose else none

/-- The whole number that a text denotes is found exactly if there is one. -/
theorem denoted_eq_some_iff {s : String} {t : Int} : denoted s = some t ↔ Denotes s t := by
  unfold denoted
  constructor
  · intro h
    split at h
    · next hex =>
      cases h
      exact hex.choose_spec
    · cases h
  · intro h
    have hex : ∃ t : ℤ, Denotes s t := ⟨t, h⟩
    rw [dif_pos hex]
    exact congrArg some (Int.cast_injective (hex.choose_spec.unique h))

/-- A clock that accepts what the server accepts, and reads it as the instant it denotes. -/
noncomputable def exactIso (format : Int → String) : Iso8601 :=
  ⟨fun s => (parseIso8601Utc s).bind fun _ => denoted s, format⟩

/-- A text that fits is parsed exactly. -/
theorem parse_eq_exact {s : String} {format : Int → String} (h : Fits s) :
    parseIso8601Utc s = (exactIso format).parse s := by
  cases hparse : parseIso8601Utc s with
  | none => simp [exactIso, hparse]
  | some tp =>
    obtain ⟨t, hdenotes, hrep⟩ := h tp hparse
    rw [parse_of_denotes hparse hdenotes hrep]
    simp [exactIso, hparse, denoted_eq_some_iff.2 hdenotes]

section
variable {α : Type} {re2 : RE2} {format : Int → String} {k : String}

/-- A bound that fits stands for the instant it denotes. -/
theorem Bound.of_exact {text : Option String} {bound : Option Int}
    (h : Bound (exactIso format) text bound) (hfits : ∀ t, text = some t → Fits t) :
    Bound (chronoIso format) text bound := by
  rcases h with h | ⟨t, tp, htext, hne, hparse, hbound⟩
  · exact .inl h
  · exact .inr ⟨t, tp, htext, hne, (parse_eq_exact (hfits t htext)).trans hparse, hbound⟩

/-- Appends that fit record the instants they denote. -/
theorem accepted_exact {es : List (TimeSeriesMap.SeriesEvent α)}
    (h : ∀ e ∈ es, ∀ request, e.op = .append request → Fits request.datetime) :
    TimeSeriesMap.accepted (chronoIso format) k es =
      TimeSeriesMap.accepted (exactIso format) k es := by
  unfold TimeSeriesMap.accepted
  refine List.filterMap_congr fun e he => ?_
  obtain ⟨pre, op, reply, post⟩ := e
  cases op with
  | append request =>
    have hparse : (chronoIso format).parse request.datetime =
        (exactIso format).parse request.datetime := parse_eq_exact (h _ he request rfl)
    cases reply with
    | append result =>
      cases result with
      | ok _ => simp only [TimeSeriesOp.accepts, hparse]
      | error _ => rfl
    | get | searchKey => rfl
  | get | searchKey => rfl

/-- **An accepted datetime is read as the instant it denotes exactly when that is a time point**, a
whole number of nanoseconds in the range of 64 bits. It is a whole number unless the digits of the
text run on. Among datetimes that denote time points, the order of what is parsed is that of the
instants, and `time_series_get` returns the points whose instants lie within the instants of its
bounds. -/
theorem datetime_denotes_its_instant :
    (∀ s tp, parseIso8601Utc s = some tp →
      (Denotes s tp ↔ ∃ t : ℤ, Denotes s t ∧ Representable t) ∧
        (¬ RunsOn s.toList → ∃ t : ℤ, Denotes s t)) ∧
    (∀ s₁ s₂ tp₁ tp₂ (t₁ t₂ : ℤ), parseIso8601Utc s₁ = some tp₁ → parseIso8601Utc s₂ = some tp₂ →
      Denotes s₁ t₁ → Denotes s₂ t₂ → Representable t₁ → Representable t₂ →
        (tp₁ < tp₂ ↔ t₁ < t₂)) ∧
    ∀ (es : List (TimeSeriesMap.SeriesEvent α)) (m : TimeSeriesMap α),
      (TimeSeriesMap.machine α re2 (chronoIso format)).Run es m →
      (∀ e ∈ es, ∀ request, e.op = .append request → Fits request.datetime) →
      ∀ (request : TimeSeriesGetRequest) (startTime endTime : Option Int),
        Bound (exactIso format) request.startTime startTime →
        Bound (exactIso format) request.endTime endTime →
        (∀ t, request.startTime = some t → Fits t) → (∀ t, request.endTime = some t → Fits t) →
        m.get (chronoIso format) request = some (.ok
          ⟨((TimeSeriesMap.accepted (exactIso format) request.key es).filter
            (Point.within startTime endTime request.startStep request.endStep)).map
              (Point.report (chronoIso format))⟩) := by
  refine ⟨fun s tp h => ⟨⟨fun hdenotes => ?_, ?_⟩, fun hrun => ?_⟩, ?_, ?_⟩
  · exact ⟨tp, hdenotes, parse_representable h⟩
  · rintro ⟨t, hdenotes, hrep⟩
    rwa [parse_of_denotes h hdenotes hrep]
  · rw [parseIso8601Utc_eq] at h
    obtain ⟨t, hread, -⟩ := Option.map_eq_some_iff.1 h
    exact ⟨t, denotes_readInstant hread hrun⟩
  · intro s₁ s₂ tp₁ tp₂ t₁ t₂ hp₁ hp₂ hd₁ hd₂ hr₁ hr₂
    rw [parse_of_denotes hp₁ hd₁ hr₁, parse_of_denotes hp₂ hd₂ hr₂]
  · intro es m h happends request startTime endTime hs he hfs hfe
    rw [TimeSeriesMap.get_eq (chronoIso format) m request (hs.of_exact hfs) (he.of_exact hfe),
      TimeSeriesMap.pointsOf_eq h, accepted_exact happends]

end

/-- The instant of fields whose date exists, by the formula. -/
theorem readInstant_of_read {s : String} {f : Fields} (h : readIso8601 s = some f) :
    readInstant s = some (Calendar.daysSinceEpoch f.year f.month f.day * 86400000000000 +
      f.timeOfDay - f.offset * 60000000000) := by
  obtain ⟨h1, h12⟩ := Fields.ok_month (readIso8601_sound h).1
  rw [readInstant, h, Calendar.daysSinceEpoch_eq h1 h12]
  rfl

/-- An offset counts against the time of the day. -/
theorem datetime_denotes_its_instant_offset :
    Denotes "2024-01-02T09:00:00+05:30" (1704166200000000000 : ℤ) := by
  have hread : readIso8601 "2024-01-02T09:00:00+05:30" = some ⟨2024, 1, 2, 9, 0, 0, 0, 330⟩ := by
    decide
  have hinstant : readInstant "2024-01-02T09:00:00+05:30" = some 1704166200000000000 := by
    rw [readInstant_of_read hread]
    decide
  exact ((@datetime_denotes_its_instant Nat sampleRe2 fun _ => "").1 _ _ (by decide)).1.2
    ⟨_, denotes_readInstant hinstant (by decide), by decide⟩

-- The tenth digit of the fraction is taken for an offset of an hour.
example : parseIso8601Utc "2024-01-02T03:04:05.1234567891" =
    parseIso8601Utc "2024-01-02T02:04:05.123456789Z" := by
  decide

/-- A point of 2024, and the bound it is asked for with. -/
def untilYear9999 : List (TimeSeriesOp Nat) :=
  [.append ⟨"k", .num 1, "2024-01-01T00:00:00Z", 0⟩,
    .get ⟨"k", none, some "9999-12-31T23:59:59Z", none, none⟩]

/-- **The end of the year 9999 is read as an instant of 1816**, so a point of 2024 is not before
it. -/
theorem year9999_precedes_2024 :
    parseIso8601Utc "9999-12-31T23:59:59Z" = some (-4852116232933722624) ∧
      Denotes "9999-12-31T23:59:59Z" (253402300799000000000 : ℤ) ∧
      parseIso8601Utc "2024-01-01T00:00:00Z" = some 1704067200000000000 ∧
      Denotes "2024-01-01T00:00:00Z" (1704067200000000000 : ℤ) ∧
      ((TimeSeriesMap.machine Nat sampleRe2 (chronoIso fun _ => "")).runOf untilYear9999).1.map
          (fun e => (e.op, e.reply)) =
        [(.append ⟨"k", .num 1, "2024-01-01T00:00:00Z", 0⟩, .append (.ok ())),
          (.get ⟨"k", none, some "9999-12-31T23:59:59Z", none, none⟩, .get (.ok ⟨[]⟩))] := by
  have h9999 : readIso8601 "9999-12-31T23:59:59Z" = some ⟨9999, 12, 31, 23, 59, 59, 0, 0⟩ := by
    decide
  have h2024 : readIso8601 "2024-01-01T00:00:00Z" = some ⟨2024, 1, 1, 0, 0, 0, 0, 0⟩ := by decide
  refine ⟨by decide, denotes_readInstant ?_ (by decide), by decide,
    denotes_readInstant ?_ (by decide), rfl⟩
  · rw [readInstant_of_read h9999]
    decide
  · rw [readInstant_of_read h2024]
    decide

end DsService

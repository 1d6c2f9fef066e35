import DsService.Store.Datetime

/-!
# Printing a time point and reading it back

`format_iso8601_utc` has two shapes, the whole seconds and six fractional digits, and
`parse_iso8601_utc` has four formats that it tries in order. The first two want an offset where the
printed text has its `Z`, and fail there, so the third reads the fields that were printed
(`readIso8601_printZulu`), and their instant is the time point floored to the unit of the shape.
-/

namespace DsService

namespace Chrono

variable {n v : Nat}

/-! ## What is printed is spelled -/

/-- The digits of a number spell it. -/
theorem number_decimal (n v : Nat) : number (decimal n v) = v := by
  unfold decimal List.leftpad
  rw [number_eq, Nat.ofDigitChars_append, Nat.ofDigitChars_replicate_zero, Nat.mul_zero,
    Nat.ofDigitChars_ten_toDigits]

/-- A number is printed in digits. -/
theorem decimal_digit {c : Char} (h : c ∈ decimal n v) : c.isDigit = true := by
  unfold decimal List.leftpad at h
  rcases List.mem_append.1 h with h | h
  · rw [List.eq_of_mem_replicate h]
    rfl
  · exact Nat.isDigit_of_mem_toDigits (by decide) (by decide) h

/-- A number below `10 ^ n` has exactly `n` digits. -/
theorem decimal_length (hn : 0 < n) (hv : v < 10 ^ n) : (decimal n v).length = n := by
  unfold decimal
  rw [List.length_leftpad]
  exact Nat.max_eq_left ((Nat.length_toDigits_le_iff (by decide) hn).2 hv)

/-- A number that fits into the digits is spelled by them. -/
theorem decimal_spells (hn : 0 < n) (hv : v < 10 ^ n) : SpellsNumber n (decimal n v) v where
  ne_nil := List.length_pos_iff.1 (by rwa [decimal_length hn hv])
  length := (decimal_length hn hv).le
  digit _ := decimal_digit
  number := number_decimal n v

/-! ## What is printed is read -/

/-- The fields that a precision of `p` digits prints in full, with a year of four digits. -/
structure Fields.Prints (p : Nat) (f : Fields) : Prop where
  ok : f.ok = true
  year_nonneg : 0 ≤ f.year
  year_le : f.year ≤ 9999
  precision : p ≤ 9
  nanosecond : f.nanosecond < 10 ^ 9
  dvd : 10 ^ (9 - p) ∣ f.nanosecond

/-- The fields of a date and a time of the day have two digits. -/
theorem Fields.ok_spells {f : Fields} (h : f.ok = true) :
    ∀ v ∈ [f.month, f.day, f.hour, f.minute, f.second], SpellsNumber 2 (decimal 2 v) v := by
  intro v hv
  have hday := Calendar.monthLength_le f.year f.month
  simp only [ok, Calendar.isDate, Bool.and_eq_true, decide_eq_true_eq] at h
  simp only [List.mem_cons, List.not_mem_nil, or_false] at hv
  refine decimal_spells (by decide) (Nat.lt_of_lt_of_le (m := 100) ?_ (by decide))
  omega

/-- A year since 0 is printed in four digits. -/
theorem printYear_eq {y : Int} (h : 0 ≤ y) : printYear y = decimal 4 y.toNat := by
  unfold printYear
  rw [if_neg (Int.not_lt.2 h), List.nil_append]
  congr 1
  omega

/-- The text of the fields, and what follows it. -/
theorem Fields.print_append {p : Nat} {f : Fields} (h : 0 ≤ f.year) (cs : List Char) :
    f.print p ++ cs = decimal 4 f.year.toNat ++ '-' :: (decimal 2 f.month ++ '-' ::
      (decimal 2 f.day ++ 'T' :: (decimal 2 f.hour ++ ':' :: (decimal 2 f.minute ++ ':' ::
        (decimal 2 f.second ++ (printFraction p f.nanosecond ++ cs)))))) := by
  unfold print
  rw [printYear_eq h]
  simp only [List.append_assoc, List.cons_append]

/-- The seconds are read with the fraction that is printed. -/
theorem readSeconds_print {p : Nat} {f : Fields} (h : f.Prints p) :
    readSeconds (decimal 2 f.second ++ (printFraction p f.nanosecond ++ ['Z'])) =
      some ((f.second, f.nanosecond), ['Z']) := by
  have hsecond := Fields.ok_spells h.ok f.second (by simp)
  have hstop : Stops ['Z'] := stops_cons rfl
  have hns := h.nanosecond
  have hdvd := h.dvd
  unfold printFraction
  split
  · next hp =>
    subst hp
    rw [Nat.eq_zero_of_dvd_of_lt hdvd hns]
    exact readSeconds_whole hsecond (.inr hstop) (by decide)
  · next hp =>
    have hlt : f.nanosecond / 10 ^ (9 - p) < 10 ^ p := by
      rw [Nat.div_lt_iff_lt_mul (by positivity), ← pow_add, Nat.add_sub_cancel' h.precision]
      exact hns
    have hlen := decimal_length (Nat.pos_of_ne_zero hp) hlt
    have hread := readSeconds_point hsecond (hlen.trans_le h.precision)
      (fun c => decimal_digit) (.inr hstop)
    rwa [hlen, number_decimal, Nat.div_mul_cancel hdvd] at hread

/-- **The fields that are printed are read back.** -/
theorem readIso8601_print {p : Nat} {f : Fields} (h : f.Prints p) (hoffset : f.offset = 0) :
    readIso8601 (String.ofList (f.print p ++ ['Z'])) = some f := by
  have htwo := Fields.ok_spells h.ok
  have hyear : f.year.toNat < 10 ^ 4 := by
    have := h.year_le
    omega
  have huntil := @SpellsUntil.mk _ _ _ _ _ _
    (decimal 2 f.second ++ (printFraction p f.nanosecond ++ ['Z'])) _ _ _ _ _ _ .none
    (decimal_spells (by decide) hyear) (htwo f.month (by simp)) (htwo f.day (by simp))
    (htwo f.hour (by simp)) (htwo f.minute (by simp))
  have hsigned : signed false f.year.toNat = f.year := Int.toNat_of_nonneg h.year_nonneg
  rw [List.nil_append, ← Fields.print_append h.year_nonneg, hsigned] at huntil
  rw [← String.toList_ofList (l := f.print p ++ ['Z'])] at huntil
  have hseconds : readSeconds _ = some ((f.second, f.nanosecond), ['Z'] ++ []) :=
    readSeconds_print h
  rw [readIso8601_spelled huntil hseconds h.ok .zulu nofun, ← hoffset]

/-! ## The fields of a time point -/

/-- The fields of a time point are a date and a time of the day. -/
theorem Fields.ofTimePoint_ok (tp : Int) : (ofTimePoint tp).ok = true := by
  have hdate : Calendar.isDate (ofTimePoint tp).year (ofTimePoint tp).month
      (ofTimePoint tp).day = true := Calendar.dateOf_isDate (tp / 86400000000000)
  have hhour : (ofTimePoint tp).hour < 24 := by
    have hday : (tp % 86400000000000).toNat < 86400000000000 := by omega
    exact Nat.div_lt_of_lt_mul hday
  have hminute : (ofTimePoint tp).minute < 60 := Nat.mod_lt _ (by decide)
  have hsecond : (ofTimePoint tp).second < 60 := Nat.mod_lt _ (by decide)
  simp [ok, hdate, hhour, hminute, hsecond]

/-- **The fields of a time point stand for it.** -/
theorem Fields.ofTimePoint_instant (tp : Int) : (ofTimePoint tp).instant = tp := by
  obtain ⟨h1, h12⟩ := ok_month (ofTimePoint_ok tp)
  have hdays : Calendar.dayNumber (ofTimePoint tp).year (ofTimePoint tp).month
      (ofTimePoint tp).day = tp / 86400000000000 := by
    rw [← Calendar.daysSinceEpoch_eq h1 h12]
    exact Calendar.daysSinceEpoch_dateOf _
  have htime : (ofTimePoint tp).timeOfDay = tp % 86400000000000 := by
    have hday : (tp % 86400000000000).toNat < 86400000000000 := by omega
    simp only [timeOfDay, ofTimePoint]
    omega
  have hoffset : (ofTimePoint tp).offset = 0 := rfl
  unfold instant
  rw [hdays, htime, hoffset]
  omega

/-- A time that is a multiple of the unit of a precision, within three centuries of 1970. -/
structure Ticks (p : Nat) (t : Int) : Prop where
  precision : p ≤ 9
  lower : -10 ^ 19 ≤ t
  upper : t ≤ 10 ^ 19
  dvd : 10 ^ (9 - p) ∣ t

/-- The fields of a time in ticks can be printed and read back. -/
theorem Fields.ofTimePoint_prints {p : Nat} {t : Int} (h : Ticks p t) :
    (ofTimePoint t).Prints p := by
  have hlo := h.lower
  have hhi := h.upper
  have hyear := @Calendar.dateOf_year (t / 86400000000000) (by omega) (by omega)
  have hunit : (10 : Int) ^ (9 - p) ∣ 1000000000 := pow_dvd_pow 10 (Nat.sub_le 9 p)
  have hday : (1000000000 : Int) ∣ 86400000000000 := by decide
  have hns : ((ofTimePoint t).nanosecond : Int) = t % 86400000000000 % 1000000000 := by
    simp only [ofTimePoint]
    omega
  refine ⟨ofTimePoint_ok t, hyear.1, hyear.2, h.precision, Nat.mod_lt _ (by decide), ?_⟩
  rw [← Int.natCast_dvd_natCast, hns, Int.emod_emod_of_dvd t hday]
  push_cast
  rw [Int.emod_def]
  exact Int.dvd_sub h.dvd (hunit.mul_right _)

/-- The time point is on a whole second. -/
def WholeSecond (t : Int) : Prop := t % 1000000000 = 0

instance (t : Int) : Decidable (WholeSecond t) := inferInstanceAs (Decidable (_ = _))

/-- A time point floored to the microsecond. -/
def truncate (t : Int) : Int := t / 1000 * 1000

/-- A whole second has nothing to cut off. -/
theorem truncate_of_wholeSecond {t : Int} (h : WholeSecond t) : truncate t = t := by
  unfold WholeSecond at h
  unfold truncate
  omega

/-- A whole second in range is a time in seconds. -/
theorem Ticks.second {t : Int} (h : Representable t) (hsecond : WholeSecond t) : Ticks 0 t := by
  unfold Representable at h
  exact ⟨by decide, by omega, by omega, Int.dvd_of_emod_eq_zero hsecond⟩

/-- Without its nanoseconds a time is one in microseconds. -/
theorem Ticks.truncate {t : Int} (h : Representable t) : Ticks 6 (truncate t) := by
  unfold Representable at h
  unfold Chrono.truncate
  exact ⟨by decide, by omega, by omega, Int.dvd_mul_left ..⟩

end Chrono

open Chrono

/-! ## The two shapes -/

/-- What is printed in ticks is read back by its fields. -/
theorem readIso8601_printZulu {p : Nat} {ticks : Int} (h : Ticks p (ticks * 10 ^ (9 - p))) :
    readIso8601 (printZulu p ticks) = some (Fields.ofTimePoint (ticks * 10 ^ (9 - p))) := by
  unfold printZulu
  exact readIso8601_print (Fields.ofTimePoint_prints h) rfl

/-- What is printed in ticks is read back as the instant. -/
theorem readInstant_printZulu {p : Nat} {ticks : Int} (h : Ticks p (ticks * 10 ^ (9 - p))) :
    readInstant (printZulu p ticks) = some (ticks * 10 ^ (9 - p)) := by
  rw [readInstant, readIso8601_printZulu h]
  exact congrArg some (Fields.ofTimePoint_instant _)

/-- The comparison with the whole second is exact, also where it wraps. -/
theorem wrap64_second_eq_iff {tp : Int} (h : Representable tp) :
    wrap64 (tp / 1000000000 * 1000000000) = tp ↔ WholeSecond tp := by
  unfold wrap64 WholeSecond
  unfold Representable at h
  omega

/-- A whole second is printed without a fraction. -/
theorem formatIso8601Utc_whole {tp : Int} (h : Representable tp) (hsecond : WholeSecond tp) :
    formatIso8601Utc tp = printZulu 0 (tp / 1000000000) :=
  if_pos ((wrap64_second_eq_iff h).2 hsecond)

/-- Any other time is printed with six digits of a fraction. -/
theorem formatIso8601Utc_fraction {tp : Int} (h : Representable tp) (hsecond : ¬ WholeSecond tp) :
    formatIso8601Utc tp = printZulu 6 (tp / 1000) :=
  if_neg (mt (wrap64_second_eq_iff h).1 hsecond)

/-- **What is printed denotes the time point floored to the microsecond.** -/
theorem readInstant_formatIso8601Utc {tp : Int} (h : Representable tp) :
    readInstant (formatIso8601Utc tp) = some (truncate tp) := by
  by_cases hsecond : WholeSecond tp
  · have hticks : tp / 1000000000 * 10 ^ (9 - 0) = tp := by
      unfold WholeSecond at hsecond
      omega
    rw [formatIso8601Utc_whole h hsecond, readInstant_printZulu, hticks,
      truncate_of_wholeSecond hsecond]
    rw [hticks]
    exact Ticks.second h hsecond
  · rw [formatIso8601Utc_fraction h hsecond]
    exact readInstant_printZulu (Ticks.truncate h)

/-- What is printed is parsed as the time without its nanoseconds. -/
theorem parse_formatIso8601Utc {tp : Int} (h : Representable tp)
    (htrunc : Representable (truncate tp)) :
    parseIso8601Utc (formatIso8601Utc tp) = some (truncate tp) := by
  rw [parseIso8601Utc_eq, readInstant_formatIso8601Utc h]
  exact congrArg some ((wrap64_eq_iff _).2 htrunc)

/-- To cut off the nanoseconds goes back in time, before 1970 as well. -/
theorem truncate_le (t : Int) : truncate t ≤ t := by
  unfold truncate
  omega

/-- Printed alike, two time points are the same to the microsecond. -/
theorem truncate_eq_of_format {t₁ t₂ : Int} (h₁ : Representable t₁) (h₂ : Representable t₂)
    (h : formatIso8601Utc t₁ = formatIso8601Utc t₂) : truncate t₁ = truncate t₂ := by
  have hread := congrArg readInstant h
  rw [readInstant_formatIso8601Utc h₁, readInstant_formatIso8601Utc h₂] at hread
  exact Option.some.inj hread

/-- A time that is printed alike is no earlier than what the text denotes. -/
theorem truncate_le_of_format {t₁ t₂ : Int} (h₁ : Representable t₁) (h₂ : Representable t₂)
    (h : formatIso8601Utc t₁ = formatIso8601Utc t₂) : truncate t₂ ≤ t₁ := by
  rw [← truncate_eq_of_format h₁ h₂ h]
  exact truncate_le t₁

/-- The whole second is no later than the microsecond. -/
theorem representable_truncate {t : Int} (h : Representable t)
    (hsecond : Representable (t / 1000000000 * 1000000000)) : Representable (truncate t) := by
  unfold Representable at h hsecond ⊢
  unfold truncate
  omega

/-! ## Reading a returned datetime back -/

section
variable {α : Type} {re2 : RE2} {k : String}

/-- Recorded times are time points. -/
theorem accepted_representable {format : Int → String}
    {es : List (TimeSeriesMap.SeriesEvent α)} {p : Point α}
    (h : p ∈ TimeSeriesMap.accepted (chronoIso format) k es) : Representable p.time := by
  obtain ⟨e, -, haccepts⟩ := List.mem_filterMap.1 h
  unfold TimeSeriesOp.accepts at haccepts
  split at haccepts
  · split at haccepts
    · obtain ⟨tp, hparse, rfl⟩ := Option.map_eq_some_iff.1 haccepts
      exact parse_representable hparse
    · cases haccepts
  · cases haccepts

/-- A returned datetime is a time bound. -/
theorem Bound.of_format {t : Int} (h : Representable t) (htrunc : Representable (truncate t)) :
    Bound (chronoIso formatIso8601Utc) (some (formatIso8601Utc t)) (some (truncate t)) := by
  have hparse := parse_formatIso8601Utc h htrunc
  refine .inr ⟨_, _, rfl, ?_, hparse, rfl⟩
  have hnone : parseIso8601Utc "" = none := by decide
  intro hempty
  rw [hempty, hnone] at hparse
  cases hparse

/-- Of a part of a list, what is kept only if a filter keeps it is within the filtered list. -/
theorem filter_sublist_filter {β : Type} {l₁ l₂ : List β} {kept wanted : β → Bool}
    (hsub : l₁.Sublist l₂) (h : ∀ a ∈ l₁, wanted a = true → kept a = true) :
    (l₁.filter wanted).Sublist (l₂.filter kept) := by
  have hboth : l₁.filter wanted = (l₁.filter kept).filter wanted := by
    rw [List.filter_filter]
    refine List.filter_congr fun a ha => ?_
    cases hw : wanted a with
    | false => rfl
    | true => rw [h a ha hw]; rfl
  rw [hboth]
  exact List.filter_sublist.trans (hsub.filter kept)

/-- **What is printed is read back, floored to the microsecond**, if the whole second is a time
point. So a datetime that `time_series_get` returned is, as a lower bound, one that returns all the
points with this datetime again, now and after any further calls, and as an upper bound one that
returns none of them. -/
theorem printed_datetime_reads_back :
    (∀ tp, Representable tp → Representable (tp / 1000000000 * 1000000000) →
      parseIso8601Utc (formatIso8601Utc tp) = some (tp / 1000 * 1000)) ∧
    ∀ (es later : List (TimeSeriesMap.SeriesEvent α)) (m m' : TimeSeriesMap α),
      (TimeSeriesMap.machine α re2 (chronoIso formatIso8601Utc)).Run es m →
      (TimeSeriesMap.machine α re2 (chronoIso formatIso8601Utc)).Run (es ++ later) m' →
      ∀ (request : TimeSeriesGetRequest) (points : List (TimeSeriesDataPoint α)),
        m.get (chronoIso formatIso8601Utc) request = some (.ok ⟨points⟩) →
        ∀ point ∈ points,
          ∃ p ∈ TimeSeriesMap.accepted (chronoIso formatIso8601Utc) request.key es,
            p.report (chronoIso formatIso8601Utc) = point ∧
            (Representable (p.time / 1000000000 * 1000000000) →
              ∃ since before : List (TimeSeriesDataPoint α),
                m'.get (chronoIso formatIso8601Utc)
                    ⟨request.key, some point.datetime, none, none, none⟩ = some (.ok ⟨since⟩) ∧
                m'.get (chronoIso formatIso8601Utc)
                    ⟨request.key, none, some point.datetime, none, none⟩ = some (.ok ⟨before⟩) ∧
                (points.filter fun other => other.datetime = point.datetime).Sublist since ∧
                ∀ other ∈ before, other.datetime ≠ point.datetime) := by
  refine ⟨fun tp h hsecond => parse_formatIso8601Utc h (representable_truncate h hsecond), ?_⟩
  intro es later m m' hrun hrun' request points hget point hpoint
  obtain ⟨keep, rfl⟩ := TimeSeriesMap.get_ok hget
  rw [TimeSeriesMap.pointsOf_eq hrun] at hpoint ⊢
  obtain ⟨p, hp, rfl⟩ := List.mem_map.1 hpoint
  have hp := (List.mem_filter.1 hp).1
  refine ⟨p, hp, rfl, fun hsecond => ?_⟩
  have htime := accepted_representable hp
  have hbound := Bound.of_format htime (representable_truncate htime hsecond)
  have hnone : Bound (chronoIso formatIso8601Utc) none none := .inl ⟨.inl rfl, rfl⟩
  have hsince := TimeSeriesMap.get_eq _ m' ⟨request.key, some (p.report (chronoIso
    formatIso8601Utc)).datetime, none, none, none⟩ hbound hnone
  have hbefore := TimeSeriesMap.get_eq _ m' ⟨request.key, none, some (p.report (chronoIso
    formatIso8601Utc)).datetime, none, none⟩ hnone hbound
  rw [TimeSeriesMap.pointsOf_eq hrun'] at hsince hbefore
  refine ⟨_, _, hsince, hbefore, ?_, ?_⟩
  · have hgrown : (TimeSeriesMap.accepted (chronoIso formatIso8601Utc) request.key es).Sublist
        (TimeSeriesMap.accepted (chronoIso formatIso8601Utc) request.key (es ++ later)) := by
      rw [TimeSeriesMap.accepted, TimeSeriesMap.accepted, List.filterMap_append]
      exact List.sublist_append_left ..
    rw [List.filter_map]
    refine (filter_sublist_filter (List.filter_sublist.trans hgrown) fun q hq heq => ?_).map _
    have hq := (List.mem_filter.1 hq).1
    have heq : formatIso8601Utc q.time = formatIso8601Utc p.time := of_decide_eq_true heq
    simp only [Point.within, Option.all_some, Option.all_none, Bool.and_true, decide_eq_true_eq]
    exact truncate_le_of_format (accepted_representable hq) htime heq
  · intro other hother
    obtain ⟨q, hq, rfl⟩ := List.mem_map.1 hother
    obtain ⟨hq, hwithin⟩ := List.mem_filter.1 hq
    intro heq
    have hle := truncate_le_of_format (accepted_representable hq) htime heq
    simp only [Point.within, Option.all_some, Option.all_none, Bool.and_true, Bool.true_and,
      decide_eq_true_eq] at hwithin
    exact absurd hwithin (Int.not_lt.2 hle)

/-- One point, a nanosecond before 1970. -/
def lastNanosecond1969 : List (TimeSeriesOp Nat) :=
  [.append ⟨"k", .num 1, "1969-12-31T23:59:59.999999999Z", 0⟩]

/-- The last nanosecond before 1970, which is printed as the last microsecond. -/
theorem printed_datetime_reads_back_before1970 :
    parseIso8601Utc (formatIso8601Utc (-1)) = some (-1000) ∧
      ∃ since before : List (TimeSeriesDataPoint Nat),
        ((TimeSeriesMap.machine Nat sampleRe2 (chronoIso formatIso8601Utc)).runOf
          lastNanosecond1969).2.get (chronoIso formatIso8601Utc)
            ⟨"k", some "1969-12-31T23:59:59.999999Z", none, none, none⟩ = some (.ok ⟨since⟩) ∧
        ((TimeSeriesMap.machine Nat sampleRe2 (chronoIso formatIso8601Utc)).runOf
          lastNanosecond1969).2.get (chronoIso formatIso8601Utc)
            ⟨"k", none, some "1969-12-31T23:59:59.999999Z", none, none⟩ = some (.ok ⟨before⟩) ∧
        [⟨.num 1, "1969-12-31T23:59:59.999999Z", 0⟩].Sublist since ∧
        ∀ other ∈ before, other.datetime ≠ "1969-12-31T23:59:59.999999Z" := by
  have h := @printed_datetime_reads_back Nat sampleRe2
  have hrun := Machine.run_runOf (M := TimeSeriesMap.machine Nat sampleRe2
    (chronoIso formatIso8601Utc)) lastNanosecond1969 rfl
  refine ⟨h.1 (-1) (by decide) (by decide), ?_⟩
  obtain ⟨p, hp, -, hbounds⟩ := h.2 _ [] _ _ hrun (by simpa using hrun)
    ⟨"k", none, none, none, none⟩ [⟨.num 1, "1969-12-31T23:59:59.999999Z", 0⟩] rfl _
    List.mem_cons_self
  obtain rfl : p = ⟨.num 1, -1, 0⟩ := List.mem_singleton.1 hp
  exact hbounds (by decide)

end

end DsService

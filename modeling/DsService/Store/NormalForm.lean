import DsService.Store.RoundTrip

/-!
# The normal form of a datetime text

A returned datetime is the text of the stored time (`normalize`). Its shape is chosen by the whole
nanoseconds, and its digits are those of the microseconds, so two time points are printed alike
exactly if they agree to the microsecond and are both on a whole second or both off it
(`format_eq_iff`). Reading a returned datetime back therefore changes nothing, but for the times
that are off a whole second by less than a microsecond: they come back with a fraction of six zeros,
and the second time without it (`normalize_eq_iff`).
-/

namespace DsService

open Chrono

/-- What an appended datetime is returned as. -/
def normalize (s : String) : Option String := (parseIso8601Utc s).map formatIso8601Utc

/-- Off a whole second, by less than a microsecond. -/
def JustOffSecond (t : Int) : Prop := 0 < t % 1000000000 ∧ t % 1000000000 < 1000

/-! ## Shapes -/

/-- The shapes differ by the fraction. -/
theorem Chrono.Fields.print_eq (p : Nat) (f : Fields) :
    f.print p = f.print 0 ++ printFraction p f.nanosecond := by
  simp [Fields.print, printFraction]

/-- A time is printed by its fields and the digits of its fraction. -/
theorem printZulu_eq (p : Nat) (ticks : Int) :
    printZulu p ticks = String.ofList ((Fields.ofTimePoint (ticks * 10 ^ (9 - p))).print 0 ++
      (printFraction p (Fields.ofTimePoint (ticks * 10 ^ (9 - p))).nanosecond ++ ['Z'])) := by
  unfold printZulu
  rw [Fields.print_eq, List.append_assoc]

/-- To cut off the nanoseconds makes a whole second only of a time that is just off one. -/
theorem wholeSecond_truncate_iff (t : Int) :
    (WholeSecond (truncate t) ↔ WholeSecond t) ↔ ¬ JustOffSecond t := by
  unfold WholeSecond truncate JustOffSecond
  omega

/-- What has whole microseconds is not cut further. -/
theorem truncate_truncate (t : Int) : truncate (truncate t) = truncate t := by
  unfold truncate
  omega

/-- The microsecond that a time is printed to, in the ticks of the shape with a fraction. -/
theorem truncate_ticks (t : Int) : t / 1000 * 10 ^ (9 - 6) = truncate t := rfl

/-- A whole second, in the ticks of the shape without a fraction. -/
theorem second_ticks {t : Int} (h : WholeSecond t) : t / 1000000000 * 10 ^ (9 - 0) = t := by
  unfold WholeSecond at h
  omega

/-- The two shapes are never the same text. -/
theorem printZulu_ne {t t' : Int} (h : WholeSecond t) (heq : t = truncate t') :
    printZulu 0 (t / 1000000000) ≠ printZulu 6 (t' / 1000) := by
  intro htext
  rw [printZulu_eq, printZulu_eq, second_ticks h, truncate_ticks, ← heq, String.ofList_inj,
    List.append_cancel_left_eq, List.append_cancel_right_eq] at htext
  cases htext

/-- **Printed alike.** -/
theorem format_eq_iff {t₁ t₂ : Int} (h₁ : Representable t₁) (h₂ : Representable t₂) :
    formatIso8601Utc t₁ = formatIso8601Utc t₂ ↔
      truncate t₁ = truncate t₂ ∧ (WholeSecond t₁ ↔ WholeSecond t₂) := by
  constructor
  · intro heq
    have htrunc := truncate_eq_of_format h₁ h₂ heq
    refine ⟨htrunc, fun hs₁ => ?_, fun hs₂ => ?_⟩
    · by_contra hs₂
      rw [formatIso8601Utc_whole h₁ hs₁, formatIso8601Utc_fraction h₂ hs₂] at heq
      rw [truncate_of_wholeSecond hs₁] at htrunc
      exact printZulu_ne hs₁ htrunc heq
    · by_contra hs₁
      rw [formatIso8601Utc_fraction h₁ hs₁, formatIso8601Utc_whole h₂ hs₂] at heq
      rw [truncate_of_wholeSecond hs₂] at htrunc
      exact printZulu_ne hs₂ htrunc.symm heq.symm
  · rintro ⟨htrunc, hsecond⟩
    by_cases hs₁ : WholeSecond t₁
    · rw [← truncate_of_wholeSecond hs₁, htrunc, truncate_of_wholeSecond (hsecond.1 hs₁)]
    · rw [formatIso8601Utc_fraction h₁ hs₁, formatIso8601Utc_fraction h₂ (mt hsecond.2 hs₁)]
      unfold truncate at htrunc
      congr 1
      omega

/-! ## Reading back -/

/-- A text is normalized to what its instant is printed as. -/
theorem normalize_of_read {s : String} {t : Int} (hs : readInstant s = some t)
    (h : Representable t) : normalize s = some (formatIso8601Utc t) := by
  rw [normalize, parseIso8601Utc_eq, hs, Option.map_some, (wrap64_eq_iff t).2 h]
  rfl

/-- What is printed is normalized to the time without its nanoseconds. -/
theorem normalize_format {t : Int} (h : Representable t) (htrunc : Representable (truncate t)) :
    normalize (formatIso8601Utc t) = some (formatIso8601Utc (truncate t)) :=
  normalize_of_read (readInstant_formatIso8601Utc h) htrunc

/-- **A datetime that was returned is returned as it is**, unless it stands for a time just off a
whole second. -/
theorem normalize_eq_iff {t : Int} (h : Representable t) (htrunc : Representable (truncate t)) :
    normalize (formatIso8601Utc t) = some (formatIso8601Utc t) ↔ ¬ JustOffSecond t := by
  rw [normalize_format h htrunc, Option.some_inj, format_eq_iff htrunc h, truncate_truncate,
    ← wholeSecond_truncate_iff]
  exact and_iff_right rfl

/-- A time just off a whole second is printed as the whole second with a fraction of six zeros. -/
theorem format_justOffSecond {t : Int} (h : Representable t) (htrunc : Representable (truncate t))
    (hoff : JustOffSecond t) :
    ∃ text, formatIso8601Utc t = text ++ ".000000Z" ∧
      formatIso8601Utc (truncate t) = text ++ "Z" := by
  have hsecond : ¬ WholeSecond t := by
    unfold JustOffSecond at hoff
    unfold WholeSecond
    omega
  have hwhole : WholeSecond (truncate t) := by
    unfold JustOffSecond at hoff
    unfold WholeSecond truncate
    omega
  have hns : (Fields.ofTimePoint (truncate t)).nanosecond = 0 := by
    unfold WholeSecond at hwhole
    simp only [Fields.ofTimePoint]
    omega
  refine ⟨String.ofList ((Fields.ofTimePoint (truncate t)).print 0), ?_, ?_⟩
  · rw [formatIso8601Utc_fraction h hsecond, printZulu_eq, truncate_ticks, hns,
      String.ofList_append]
    rfl
  · rw [formatIso8601Utc_whole htrunc hwhole, printZulu_eq, second_ticks hwhole,
      String.ofList_append]
    rfl

/-- An append that is accepted adds the point with the normal form of its datetime. -/
theorem TimeSeriesMap.append_get {α : Type} (self : TimeSeriesMap α)
    (request : TimeSeriesAppendRequest α) {d : String} (h : normalize request.datetime = some d) :
    ∃ self' points, self.append (chronoIso formatIso8601Utc) request = (.ok (), self') ∧
      self.get (chronoIso formatIso8601Utc) ⟨request.key, none, none, none, none⟩ =
        some (.ok ⟨points⟩) ∧
      self'.get (chronoIso formatIso8601Utc) ⟨request.key, none, none, none, none⟩ =
        some (.ok ⟨points ++ [⟨request.value, d, request.step⟩]⟩) := by
  obtain ⟨tp, hparse, rfl⟩ := Option.map_eq_some_iff.1 h
  have hparse : (chronoIso formatIso8601Utc).parse request.datetime = some tp := hparse
  have hnone : Bound (chronoIso formatIso8601Utc) none none := .inl ⟨.inl rfl, rfl⟩
  rcases append_cases (chronoIso formatIso8601Utc) self request with
    ⟨e, hfail, -⟩ | ⟨tp', self', hok, hself', hpoints, -⟩
  · rw [hparse] at hfail
    cases hfail
  · rw [hparse] at hok
    cases hok
    refine ⟨self', _, hself', get_eq _ self _ hnone hnone, ?_⟩
    rw [get_eq _ self' _ hnone hnone, hpoints, List.filter_append, List.map_append]
    rfl

/-- **A returned datetime is a normal form, but for times just off a whole second.** An accepted
datetime is returned as its normal form. Returned once and appended again, it is returned as the
identical text exactly if its instant is not off a whole second by less than a microsecond. If it
is, the text ends in a fraction of six zeros, which is gone from the second time on. Two times that
agree to the microsecond are returned as the same text exactly if both or neither are on a whole
second. -/
theorem returned_datetime_is_normal {α : Type} :
    (∀ s t, readInstant s = some t → Representable t → Representable (truncate t) →
      ∃ d, normalize s = some d ∧ (normalize d = some d ↔ ¬ JustOffSecond t) ∧
        (JustOffSecond t → ∃ text, d = text ++ ".000000Z" ∧
          normalize d = some (text ++ "Z") ∧ normalize (text ++ "Z") = some (text ++ "Z"))) ∧
    (∀ t₁ t₂, Representable t₁ → Representable t₂ → truncate t₁ = truncate t₂ →
      (formatIso8601Utc t₁ = formatIso8601Utc t₂ ↔ (WholeSecond t₁ ↔ WholeSecond t₂))) ∧
    ∀ (m : TimeSeriesMap α) (request : TimeSeriesAppendRequest α) (d : String),
      normalize request.datetime = some d →
      ∃ m' points, m.append (chronoIso formatIso8601Utc) request = (.ok (), m') ∧
        m.get (chronoIso formatIso8601Utc) ⟨request.key, none, none, none, none⟩ =
          some (.ok ⟨points⟩) ∧
        m'.get (chronoIso formatIso8601Utc) ⟨request.key, none, none, none, none⟩ =
          some (.ok ⟨points ++ [⟨request.value, d, request.step⟩]⟩) := by
  refine ⟨fun s t hs h htrunc => ?_, fun t₁ t₂ h₁ h₂ heq => ?_,
    fun m request d => m.append_get request⟩
  · refine ⟨_, normalize_of_read hs h, normalize_eq_iff h htrunc, fun hoff => ?_⟩
    obtain ⟨text, htext, hsecond⟩ := format_justOffSecond h htrunc hoff
    have hagain := normalize_format htrunc (by rwa [truncate_truncate])
    rw [truncate_truncate, hsecond] at hagain
    exact ⟨text, htext, by rw [normalize_format h htrunc, hsecond], hagain⟩
  · rw [format_eq_iff h₁ h₂]
    exact and_iff_right heq

/-- A time with milliseconds is in normal form once it has been printed. -/
theorem returned_datetime_is_normal_millisecond :
    ∃ d, normalize "2024-01-02T03:04:05.678+00:00" = some d ∧
      (normalize d = some d ↔ ¬ JustOffSecond 1704164645678000000) := by
  have hread : readIso8601 "2024-01-02T03:04:05.678+00:00" =
      some ⟨2024, 1, 2, 3, 4, 5, 678000000, 0⟩ := by
    decide
  have hinstant : readInstant "2024-01-02T03:04:05.678+00:00" = some 1704164645678000000 := by
    rw [readInstant_of_read hread]
    decide
  obtain ⟨d, hd, hiff, -⟩ :=
    (@returned_datetime_is_normal Nat).1 _ _ hinstant (by decide) (by decide)
  exact ⟨d, hd, hiff⟩

/-- **A nanosecond after a second is not returned in a normal form**, nor are the first nanoseconds
of the range of a time point, whose microsecond begins before it. -/
theorem returned_nanosecond_is_not_normal :
    (readInstant "2024-01-02T03:04:05.000000001Z" = some 1704164645000000001 ∧
      Representable 1704164645000000001 ∧
      normalize "2024-01-02T03:04:05.000000001Z" = some "2024-01-02T03:04:05.000000Z" ∧
      normalize "2024-01-02T03:04:05.000000Z" = some "2024-01-02T03:04:05Z" ∧
      (normalize "2024-01-02T03:04:05.000000001Z").bind normalize ≠
        normalize "2024-01-02T03:04:05.000000001Z") ∧
    (truncate 1704164645000000001 = truncate 1704164645000000000 ∧
      formatIso8601Utc 1704164645000000001 ≠ formatIso8601Utc 1704164645000000000) ∧
    readInstant "1677-09-21T00:12:43.145224192Z" = some (-9223372036854775808) ∧
      Representable (-9223372036854775808) ∧
      normalize "1677-09-21T00:12:43.145224192Z" = some "1677-09-21T00:12:43.145224Z" ∧
      normalize "1677-09-21T00:12:43.145224Z" = some "2262-04-11T23:47:16.854775Z" ∧
      (normalize "1677-09-21T00:12:43.145224192Z").bind normalize ≠
        normalize "1677-09-21T00:12:43.145224192Z" := by
  have h2024 : readIso8601 "2024-01-02T03:04:05.000000001Z" = some ⟨2024, 1, 2, 3, 4, 5, 1, 0⟩ := by
    decide
  have h1677 : readIso8601 "1677-09-21T00:12:43.145224192Z" =
      some ⟨1677, 9, 21, 0, 12, 43, 145224192, 0⟩ := by
    decide
  refine ⟨⟨?_, by decide, by decide, by decide, by decide⟩, ⟨by decide, by decide⟩, ?_, by decide,
    by decide, by decide, by decide⟩
  · rw [readInstant_of_read h2024]
    decide
  · rw [readInstant_of_read h1677]
    decide

end DsService

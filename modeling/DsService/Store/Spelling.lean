import DsService.Core.Datetime
import Mathlib.Data.Rat.Cast.Order
import Mathlib.Tactic.Positivity
import Mathlib.Tactic.FieldSimp
import Mathlib.Tactic.Linarith
import Mathlib.Tactic.Ring

/-!
# How a datetime is spelled

The grammar of a datetime text, apart from the code that reads it: a fraction takes all its digits,
and an offset has its sign (`Spells`). It is unambiguous (`Spells.unique`). What `parse_iso8601_utc`
accepts it reads by the grammar (`readIso8601_sound`), unless the digits of the text run on: behind
two digits of the seconds, or nine of a fraction, the next digit is taken for an offset without a
sign (`RunsOn`). A text whose fraction is a whole number of nanoseconds is read right even so
(`eq_of_spells`), as only zeros run on in it.
-/

namespace DsService

namespace Chrono

/-! ## The grammar -/

/-- From one to `n` digits that spell a number. -/
structure SpellsNumber (n : Nat) (cs : List Char) (v : Nat) : Prop where
  ne_nil : cs ≠ []
  length : cs.length ≤ n
  digit : ∀ c ∈ cs, c.isDigit = true
  number : number cs = v

/-- The sign of a year, which may be missing. -/
inductive SpellsSign : List Char → Bool → Prop
  | none : SpellsSign [] false
  | plus : SpellsSign ['+'] false
  | minus : SpellsSign ['-'] true

/-- The date, the hour and the minute, each with what ends it, and the text behind them. -/
inductive SpellsUntil : List Char → Fields → List Char → Prop
  | mk {sign year month day hour minute rest : List Char} {negative : Bool} {y mo d h mi : Nat} :
      SpellsSign sign negative → SpellsNumber 4 year y → SpellsNumber 2 month mo →
      SpellsNumber 2 day d → SpellsNumber 2 hour h → SpellsNumber 2 minute mi →
      SpellsUntil (sign ++ (year ++ '-' :: (month ++ '-' :: (day ++ 'T' :: (hour ++ ':' ::
          (minute ++ ':' :: rest))))))
        ⟨signed negative y, mo, d, h, mi, 0, 0, 0⟩ rest

/-- The fraction of a second with all its digits, in nanoseconds. -/
inductive SpellsFraction : List Char → ℚ → Prop
  | none : SpellsFraction [] 0
  | point {ds : List Char} : (∀ c ∈ ds, c.isDigit = true) →
      SpellsFraction ('.' :: ds) (number ds * 10 ^ 9 / 10 ^ ds.length)

/-- The sign of an offset. -/
def signChar (negative : Bool) : Char := if negative then '-' else '+'

/-- A designator: nothing and `Z` are UTC, and an offset in minutes has its sign. -/
inductive SpellsZone : List Char → Int → Prop
  | none : SpellsZone [] 0
  | zulu : SpellsZone ['Z'] 0
  | hours {negative : Bool} {hours : List Char} {h : Nat} : SpellsNumber 2 hours h →
      SpellsZone (signChar negative :: hours) (signed negative (60 * h))
  | colon {negative : Bool} {hours minutes : List Char} {h m : Nat} : SpellsNumber 2 hours h →
      SpellsNumber 2 minutes m → minutes.length = 2 →
      SpellsZone (signChar negative :: (hours ++ ':' :: minutes)) (signed negative (60 * h + m))
  | joined {negative : Bool} {hours minutes : List Char} {h m : Nat} : SpellsNumber 2 hours h →
      hours.length = 2 → SpellsNumber 2 minutes m → minutes.length = 2 →
      SpellsZone (signChar negative :: (hours ++ minutes)) (signed negative (60 * h + m))

/-- The text spells the fields up to the second, and a fraction in nanoseconds. -/
inductive Spells : List Char → Fields → ℚ → Prop
  | mk {cs second fraction zone space : List Char} {f : Fields} {s : Nat} {q : ℚ} {offset : Int} :
      SpellsUntil cs f (second ++ (fraction ++ (zone ++ space))) → SpellsNumber 2 second s →
      SpellsFraction fraction q → SpellsZone zone offset → (∀ c ∈ space, isSpace c = true) →
      Spells cs { f with second := s, offset := offset } q

/-- How many digits the text begins with. -/
def digitRun (cs : List Char) : Nat := (cs.takeWhile Char.isDigit).length

/-- More digits stand behind a colon than a second has, or behind a point than a nanosecond has. -/
def RunsOn : List Char → Prop
  | [] => False
  | c :: cs => c = ':' ∧ 2 < digitRun cs ∨ c = '.' ∧ 9 < digitRun cs ∨ RunsOn cs

instance decidableRunsOn : ∀ cs, Decidable (RunsOn cs)
  | [] => .isFalse id
  | c :: cs =>
      have := decidableRunsOn cs
      inferInstanceAs (Decidable (c = ':' ∧ 2 < digitRun cs ∨ c = '.' ∧ 9 < digitRun cs ∨ _))

variable {n v : Nat} {cs ds rest : List Char}

/-- Digits run on whatever stands before them. -/
theorem RunsOn.cons (h : RunsOn cs) (c : Char) : RunsOn (c :: cs) := .inr (.inr h)

/-- Digits run on behind any text. -/
theorem RunsOn.append (h : RunsOn cs) (before : List Char) : RunsOn (before ++ cs) := by
  induction before with
  | nil => exact h
  | cons c before ih => exact ih.cons c

/-! ## Runs of digits -/

/-- No digit follows. -/
def Stops (rest : List Char) : Prop := ∀ c ∈ rest.head?, c.isDigit = false

/-- The end of the text stops a run of digits. -/
theorem stops_nil : Stops [] := nofun

/-- Any other character stops a run of digits. -/
theorem stops_cons {c : Char} (h : c.isDigit = false) : Stops (c :: rest) := by
  intro c' hc'
  cases hc'
  exact h

/-- The digits that are read are as many as there are, or as many as are wanted. -/
theorem digits_sound (h : digits n cs = (ds, rest)) : cs = ds ++ rest ∧ ds.length ≤ n ∧
    (∀ c ∈ ds, c.isDigit = true) ∧ (ds.length = n ∨ Stops rest) := by
  induction n generalizing cs ds with
  | zero => cases h; simp
  | succ n ih =>
    cases cs with
    | nil => cases h; simp [Stops]
    | cons c cs =>
      unfold digits at h
      split at h
      · next hc =>
        cases hd : digits n cs with
        | mk ds' rest' =>
          rw [hd] at h
          cases h
          obtain ⟨rfl, hlen, hall, hend⟩ := ih hd
          refine ⟨rfl, by simpa using hlen, by simpa [hc] using hall, ?_⟩
          exact hend.imp_left (congrArg (· + 1))
      · next hc =>
        cases h
        exact ⟨rfl, Nat.zero_le _, nofun, .inr (stops_cons (eq_false_of_ne_true hc))⟩

/-- A run of digits that ends, or is as long as is wanted, is read. -/
theorem digits_complete (hlen : ds.length ≤ n) (hdigit : ∀ c ∈ ds, c.isDigit = true)
    (hend : ds.length = n ∨ Stops rest) : digits n (ds ++ rest) = (ds, rest) := by
  induction n generalizing ds with
  | zero =>
    obtain rfl : ds = [] := List.length_eq_zero_iff.1 (Nat.le_zero.1 hlen)
    rfl
  | succ n ih =>
    cases ds with
    | nil =>
      have hstop := hend.resolve_left nofun
      cases rest with
      | nil => rfl
      | cons c rest =>
        have hc : c.isDigit = false := hstop c rfl
        simp [digits, hc]
    | cons c ds =>
      have hc : c.isDigit = true := hdigit c List.mem_cons_self
      have htail := ih (Nat.le_of_succ_le_succ hlen)
        (fun c h => hdigit c (List.mem_cons_of_mem _ h)) (hend.imp_left Nat.succ.inj)
      simp [digits, hc, htail]

/-- Where no digit stands none is read. -/
theorem digits_stops (h : Stops cs) : digits n cs = ([], cs) := by
  have hread : digits n ([] ++ cs) = ([], cs) := digits_complete (Nat.zero_le n) nofun (.inr h)
  exact hread

/-- A run of digits ends in one place. -/
theorem run_unique {ds' rest' : List Char} (hds : ∀ c ∈ ds, c.isDigit = true)
    (hds' : ∀ c ∈ ds', c.isDigit = true) (hstop : Stops rest) (hstop' : Stops rest')
    (h : ds ++ rest = ds' ++ rest') : ds = ds' ∧ rest = rest' := by
  have hread := digits_complete (Nat.le_add_right ds.length ds'.length) hds (.inr hstop)
  have hread' := digits_complete (Nat.le_add_left ds'.length ds.length) hds' (.inr hstop')
  rw [h, hread'] at hread
  exact ⟨(Prod.mk.inj hread).1.symm, (Prod.mk.inj hread).2.symm⟩

/-- The digits at the front count for the run. -/
theorem length_le_digitRun (hds : ∀ c ∈ ds, c.isDigit = true) :
    ds.length ≤ digitRun (ds ++ rest) := by
  unfold digitRun
  rw [List.takeWhile_append_of_pos hds, List.length_append]
  exact Nat.le_add_right ..

/-- A text that does not stop begins with a digit. -/
theorem not_stops (h : ¬ Stops rest) : ∃ c cs, rest = c :: cs ∧ c.isDigit = true := by
  cases rest with
  | nil => exact absurd stops_nil h
  | cons c cs =>
    refine ⟨c, cs, rfl, ?_⟩
    by_contra hc
    exact h (stops_cons (eq_false_of_ne_true hc))

/-- A digit more. -/
theorem lt_digitRun (hds : ∀ c ∈ ds, c.isDigit = true) (h : ¬ Stops rest) :
    ds.length < digitRun (ds ++ rest) := by
  obtain ⟨c, cs, rfl, hc⟩ := not_stops h
  have hrun := @length_le_digitRun (ds ++ [c]) cs (by simpa [or_imp, forall_and, hc] using hds)
  rw [List.append_assoc, List.length_append] at hrun
  exact hrun

/-! ## Numbers -/

/-- The value of digits is the one of the library. -/
theorem number_eq (ds : List Char) : number ds = Nat.ofDigitChars 10 ds 0 := by
  rw [Nat.ofDigitChars_eq_foldl]
  rfl

/-- The value of digits put together. -/
theorem number_append (ds ds' : List Char) :
    number (ds ++ ds') = number ds * 10 ^ ds'.length + number ds' := by
  rw [number_eq, number_eq, number_eq, Nat.ofDigitChars_append,
    Nat.ofDigitChars_eq_ofDigitChars_zero, Nat.mul_comm]

/-- So many digits, so many values. -/
theorem number_lt (hds : ∀ c ∈ ds, c.isDigit = true) : number ds < 10 ^ ds.length := by
  induction ds using List.reverseRecOn with
  | nil => exact Nat.one_pos
  | append_singleton ds c ih =>
    have hlt := ih fun c h => hds c (List.mem_append_left _ h)
    have hc : number [c] ≤ 9 := by
      have hdigit := hds c (by simp)
      simp only [Char.isDigit, Bool.and_eq_true, decide_eq_true_eq,
        UInt32.le_iff_toNat_le] at hdigit
      have hle : c.toNat ≤ 57 := hdigit.2
      have hzero : '0'.toNat = 48 := rfl
      simp only [number, List.foldl_cons, List.foldl_nil]
      omega
    rw [number_append, List.length_append, pow_add]
    simp only [List.length_singleton, pow_one]
    omega

/-- Of digits that spell zero every part does. -/
theorem number_append_eq_zero {ds' : List Char} (h : number (ds ++ ds') = 0) :
    number ds = 0 ∧ number ds' = 0 := by
  rw [number_append] at h
  obtain ⟨hds, hds'⟩ := Nat.add_eq_zero_iff.1 h
  exact ⟨(Nat.mul_eq_zero.1 hds).resolve_right (by positivity), hds'⟩

/-! ## What is read is spelled, and what is spelled is read -/

/-- A number that is read is spelled by digits, as many as there are or as are wanted. -/
theorem readUnsigned_sound (h : readUnsigned n cs = some (v, rest)) :
    ∃ ds, cs = ds ++ rest ∧ SpellsNumber n ds v ∧ (ds.length = n ∨ Stops rest) := by
  unfold readUnsigned at h
  split at h
  · cases h
  · next d ds rest' hd =>
    cases h
    obtain ⟨rfl, hlen, hall, hend⟩ := digits_sound hd
    exact ⟨d :: ds, rfl, ⟨nofun, hlen, hall, rfl⟩, hend⟩

/-- A number begins with a digit. -/
theorem SpellsNumber.not_stops (h : SpellsNumber n ds v) : ¬ Stops (ds ++ rest) := by
  intro hstop
  cases ds with
  | nil => exact h.ne_nil rfl
  | cons d ds =>
    have hd := h.digit d List.mem_cons_self
    rw [hstop d rfl] at hd
    cases hd

/-- A number is read as it is spelled, if its digits end where it does. -/
theorem readUnsigned_complete (h : SpellsNumber n ds v) (hend : ds.length = n ∨ Stops rest) :
    readUnsigned n (ds ++ rest) = some (v, rest) := by
  unfold readUnsigned
  rw [digits_complete h.length h.digit hend]
  cases ds with
  | nil => exact absurd rfl h.ne_nil
  | cons d ds => exact congrArg (fun v => some (v, rest)) h.number

/-- Without a digit there is no number. -/
theorem readUnsigned_stops (h : Stops cs) : readUnsigned n cs = none := by
  unfold readUnsigned
  rw [digits_stops h]

/-- A number of two digits that is read is spelled by them. -/
theorem readTwo_sound (h : readTwo cs = some (v, rest)) :
    ∃ ds, cs = ds ++ rest ∧ SpellsNumber 2 ds v ∧ ds.length = 2 := by
  unfold readTwo at h
  split at h
  · next d₁ d₂ rest' hd =>
    cases h
    obtain ⟨rfl, hlen, hall, -⟩ := digits_sound hd
    exact ⟨[d₁, d₂], rfl, ⟨nofun, hlen, hall, rfl⟩, rfl⟩
  · cases h

/-- A number of two digits is read as it is spelled. -/
theorem readTwo_complete (h : SpellsNumber 2 ds v) (hlen : ds.length = 2) :
    readTwo (ds ++ rest) = some (v, rest) := by
  unfold readTwo
  rw [digits_complete h.length h.digit (.inl hlen)]
  obtain ⟨d₁, d₂, rfl⟩ := List.length_eq_two.1 hlen
  exact congrArg (fun v => some (v, rest)) h.number

/-- A sign that is read is spelled, or there is none. -/
theorem readSign_sound (cs : List Char) :
    ∃ sign, cs = sign ++ (readSign cs).2 ∧ SpellsSign sign (readSign cs).1 := by
  unfold readSign
  split
  · exact ⟨_, rfl, .minus⟩
  · exact ⟨_, rfl, .plus⟩
  · exact ⟨[], rfl, .none⟩

/-- A number that is spelled has no sign. -/
theorem readSign_number (h : SpellsNumber n ds v) :
    readSign (ds ++ rest) = (false, ds ++ rest) := by
  cases ds with
  | nil => exact absurd rfl h.ne_nil
  | cons c ds =>
    have hc : c.isDigit = true := h.digit c List.mem_cons_self
    unfold readSign
    split
    · next heq => cases heq; cases hc
    · next heq => cases heq; cases hc
    · rfl

/-- The sign in front of a number is read as it is spelled. -/
theorem readSign_complete {sign : List Char} {negative : Bool} (hsign : SpellsSign sign negative)
    (h : SpellsNumber n ds v) : readSign (sign ++ (ds ++ rest)) = (negative, ds ++ rest) := by
  cases hsign with
  | none => exact (readSign_number h : readSign (ds ++ rest) = _)
  | plus => rfl
  | minus => rfl

/-- A year that is read is a sign, if there is one, and up to four digits. -/
theorem readYear_sound {year : Int} (h : readYear cs = some (year, rest)) :
    ∃ sign ds negative y, cs = sign ++ (ds ++ rest) ∧ SpellsSign sign negative ∧
      SpellsNumber 4 ds y ∧ year = signed negative y := by
  obtain ⟨sign, hcs, hsign⟩ := readSign_sound cs
  simp only [readYear, Option.bind_eq_bind, Option.bind_eq_some_iff] at h
  obtain ⟨⟨y, rest'⟩, hread, heq⟩ := h
  cases heq
  obtain ⟨ds, hds, hnumber, -⟩ := readUnsigned_sound hread
  exact ⟨sign, ds, _, y, by rw [← hds, ← hcs], hsign, hnumber, rfl⟩

/-- A year is read as it is spelled, if no digit follows. -/
theorem readYear_complete {sign : List Char} {negative : Bool} (hsign : SpellsSign sign negative)
    (h : SpellsNumber 4 ds v) (hstop : Stops rest) :
    readYear (sign ++ (ds ++ rest)) = some (signed negative v, rest) := by
  unfold readYear
  rw [readSign_complete hsign h]
  simp only [readUnsigned_complete h (.inr hstop), Option.bind_eq_bind, Option.bind_some]
  rfl

/-- The character that is read was there. -/
theorem readChar_sound {c : Char} (h : readChar c cs = some rest) : cs = c :: rest := by
  unfold readChar at h
  split at h
  · cases h
  · split at h
    · next hc => cases h; rw [hc]
    · cases h

/-- A character that is there is read. -/
theorem readChar_cons (c : Char) (cs : List Char) : readChar c (c :: cs) = some cs := if_pos rfl

/-! ## Up to the minute -/

/-- A reader that succeeds hands its value on. -/
theorem bind_of_eq {β γ : Type} {read : Option β} {next : β → Option γ} {b : β} {r : Option γ}
    (hread : read = some b) (hnext : next b = r) : (read >>= next) = r := by
  rw [hread]
  exact hnext

/-- Every format reads the text up to the minute as it is spelled. -/
theorem parse_until {f : Fields} (h : SpellsUntil cs f rest) (fmt : Format) : parse fmt cs = (do
    let ((second, nanosecond), cs) ← readSeconds rest
    let (offset, cs) ← readZone fmt cs
    let fields := { f with second, nanosecond, offset }
    if fields.ok then some (fields, cs) else Option.none) := by
  obtain ⟨hsign, hy, hmo, hd, hh, hmi⟩ := h
  unfold parse
  refine bind_of_eq (readYear_complete hsign hy (stops_cons rfl)) ?_
  refine bind_of_eq (readChar_cons _ _) ?_
  refine bind_of_eq (readUnsigned_complete hmo (.inr (stops_cons rfl))) ?_
  refine bind_of_eq (readChar_cons _ _) ?_
  refine bind_of_eq (readUnsigned_complete hd (.inr (stops_cons rfl))) ?_
  refine bind_of_eq (readChar_cons _ _) ?_
  refine bind_of_eq (readUnsigned_complete hh (.inr (stops_cons rfl))) ?_
  refine bind_of_eq (readChar_cons _ _) ?_
  refine bind_of_eq (readUnsigned_complete hmi (.inr (stops_cons rfl))) ?_
  exact bind_of_eq (readChar_cons _ _) rfl

/-- What is parsed at all is spelled up to the minute. -/
theorem spellsUntil_of_parse {fmt : Format} {f : Fields} (h : parse fmt cs = some (f, rest)) :
    ∃ f₀ after, SpellsUntil cs f₀ after := by
  obtain ⟨⟨year, cs₁⟩, hyear, h₁⟩ := Option.bind_eq_some_iff.1 h
  obtain ⟨sign, yearText, negative, y, rfl, hsign, hy, rfl⟩ := readYear_sound hyear
  obtain ⟨cs₂, hc, h₂⟩ := Option.bind_eq_some_iff.1 h₁
  obtain rfl := readChar_sound hc
  obtain ⟨⟨month, cs₃⟩, hmonth, h₃⟩ := Option.bind_eq_some_iff.1 h₂
  obtain ⟨monthText, rfl, hmo, -⟩ := readUnsigned_sound hmonth
  obtain ⟨cs₄, hc, h₄⟩ := Option.bind_eq_some_iff.1 h₃
  obtain rfl := readChar_sound hc
  obtain ⟨⟨day, cs₅⟩, hday, h₅⟩ := Option.bind_eq_some_iff.1 h₄
  obtain ⟨dayText, rfl, hd, -⟩ := readUnsigned_sound hday
  obtain ⟨cs₆, hc, h₆⟩ := Option.bind_eq_some_iff.1 h₅
  obtain rfl := readChar_sound hc
  obtain ⟨⟨hour, cs₇⟩, hhour, h₇⟩ := Option.bind_eq_some_iff.1 h₆
  obtain ⟨hourText, rfl, hh, -⟩ := readUnsigned_sound hhour
  obtain ⟨cs₈, hc, h₈⟩ := Option.bind_eq_some_iff.1 h₇
  obtain rfl := readChar_sound hc
  obtain ⟨⟨minute, cs₉⟩, hminute, h₉⟩ := Option.bind_eq_some_iff.1 h₈
  obtain ⟨minuteText, rfl, hmi, -⟩ := readUnsigned_sound hminute
  obtain ⟨cs₁₀, hc, -⟩ := Option.bind_eq_some_iff.1 h₉
  obtain rfl := readChar_sound hc
  exact ⟨_, _, .mk hsign hy hmo hd hh hmi⟩

/-- A number up to a character that is not a digit. -/
theorem SpellsNumber.unique {n' v' : Nat} {ds' rest' : List Char} {c c' : Char}
    (h : SpellsNumber n ds v) (h' : SpellsNumber n' ds' v') (hc : c.isDigit = false)
    (hc' : c'.isDigit = false) (heq : ds ++ c :: rest = ds' ++ c' :: rest') :
    v = v' ∧ rest = rest' := by
  obtain ⟨hds, hrest⟩ := run_unique h.digit h'.digit (stops_cons hc) (stops_cons hc') heq
  exact ⟨by rw [← h.number, ← h'.number, hds], (List.cons.inj hrest).2⟩

/-- The text is spelled in one way up to the minute. -/
theorem SpellsUntil.unique {f f' : Fields} {rest' : List Char} (h : SpellsUntil cs f rest)
    (h' : SpellsUntil cs f' rest') : f = f' ∧ rest = rest' := by
  generalize htext : cs = cs' at h'
  obtain ⟨hsign, hy, hmo, hd, hh, hmi⟩ := h
  obtain ⟨hsign', hy', hmo', hd', hh', hmi'⟩ := h'
  have hread := congrArg readSign htext
  rw [readSign_complete hsign hy, readSign_complete hsign' hy'] at hread
  obtain ⟨rfl, hrest⟩ := Prod.mk.inj hread
  obtain ⟨rfl, hrest⟩ := hy.unique hy' rfl rfl hrest
  obtain ⟨rfl, hrest⟩ := hmo.unique hmo' rfl rfl hrest
  obtain ⟨rfl, hrest⟩ := hd.unique hd' rfl rfl hrest
  obtain ⟨rfl, hrest⟩ := hh.unique hh' rfl rfl hrest
  obtain ⟨rfl, rfl⟩ := hmi.unique hmi' rfl rfl hrest
  exact ⟨rfl, rfl⟩

/-- The fields behind the minute are not spelled yet. -/
theorem SpellsUntil.fields {f : Fields} (h : SpellsUntil cs f rest) :
    f.second = 0 ∧ f.nanosecond = 0 ∧ f.offset = 0 := by
  cases h
  exact ⟨rfl, rfl, rfl⟩

/-- Digits that run on behind the minute run on in the text. -/
theorem SpellsUntil.runsOn {f : Fields} (h : SpellsUntil cs f rest) (hrun : RunsOn (':' :: rest)) :
    RunsOn cs := by
  obtain ⟨-, -, -, -, -, -⟩ := h
  refine .append (.append (.cons (.append (.cons ?_ _) _) _) _) _
  exact .append (.cons (.append (.cons (.append hrun _) _) _) _) _

/-! ## The seconds -/

/-- Seconds without a point have no fraction. -/
theorem readSeconds_whole {second : Nat} (h : SpellsNumber 2 ds second)
    (hend : ds.length = 2 ∨ Stops rest) (hpoint : rest.head? ≠ some '.') :
    readSeconds (ds ++ rest) = some ((second, 0), rest) := by
  unfold readSeconds
  simp only [readUnsigned_complete h hend, Option.bind_eq_bind, Option.bind_some]
  split
  · exact absurd rfl hpoint
  · rfl

/-- A fraction is read up to nine digits. -/
theorem readSeconds_point {second : Nat} {fraction : List Char} (h : SpellsNumber 2 ds second)
    (hlen : fraction.length ≤ 9) (hdigit : ∀ c ∈ fraction, c.isDigit = true)
    (hend : fraction.length = 9 ∨ Stops rest) :
    readSeconds (ds ++ '.' :: (fraction ++ rest)) =
      some ((second, number fraction * 10 ^ (9 - fraction.length)), rest) := by
  have hstop : Stops ('.' :: (fraction ++ rest)) := stops_cons rfl
  unfold readSeconds
  simp only [readUnsigned_complete h (.inr hstop), Option.bind_eq_bind, Option.bind_some,
    digits_complete hlen hdigit hend]
  rfl

/-- A fraction of up to nine digits is a whole number of nanoseconds. -/
theorem fraction_eq (h : ds.length ≤ 9) :
    (number ds * 10 ^ 9 / 10 ^ ds.length : ℚ) = (number ds * 10 ^ (9 - ds.length) : ℕ) := by
  have hpow : (10 : ℚ) ^ 9 = 10 ^ (9 - ds.length) * 10 ^ ds.length := by
    rw [← pow_add, Nat.sub_add_cancel h]
  rw [hpow]
  push_cast
  field_simp

/-- What is read of the seconds is spelled, and digits follow it only where they run on. -/
theorem readSeconds_sound {second ns : Nat} (h : readSeconds cs = some ((second, ns), rest)) :
    ∃ ds fraction, cs = ds ++ (fraction ++ rest) ∧ SpellsNumber 2 ds second ∧
      SpellsFraction fraction ns ∧ (Stops rest ∨ RunsOn (':' :: cs)) := by
  simp only [readSeconds, Option.bind_eq_bind, Option.bind_eq_some_iff] at h
  obtain ⟨⟨second', rest'⟩, hread, h⟩ := h
  obtain ⟨ds, rfl, hnumber, hend⟩ := readUnsigned_sound hread
  split at h
  · next tail heq =>
    cases heq
    cases h
    obtain ⟨htail, hlen, hall, hend⟩ := @digits_sound 9 tail _ _ rfl
    refine ⟨ds, '.' :: _, congrArg (ds ++ '.' :: ·) htail, hnumber, ?_, ?_⟩
    · rw [← fraction_eq hlen]
      exact .point hall
    · by_cases hstop : Stops (digits 9 tail).2
      · exact .inl hstop
      · have hrun := lt_digitRun hall hstop
        rw [hend.resolve_right hstop, ← htail] at hrun
        have hpoint : RunsOn ('.' :: tail) := .inr (.inl ⟨rfl, hrun⟩)
        exact .inr (hpoint.append (':' :: ds))
  · cases h
    refine ⟨ds, [], rfl, hnumber, ?_, ?_⟩
    · exact_mod_cast SpellsFraction.none
    · by_cases hstop : Stops rest'
      · exact .inl hstop
      · refine .inr (.inl ⟨rfl, ?_⟩)
        have hrun := lt_digitRun hnumber.digit hstop
        rwa [hend.resolve_right hstop] at hrun

/-! ## The designator -/

/-- Whitespace begins none of the parts of a text. -/
theorem isSpace_cases {c : Char} (h : isSpace c = true) :
    c.isDigit = false ∧ c ≠ '-' ∧ c ≠ '+' ∧ c ≠ 'Z' ∧ c ≠ ':' ∧ c ≠ '.' := by
  refine ⟨?_, ?_, ?_, ?_, ?_, ?_⟩
  · rw [← Bool.not_eq_true]
    intro hdigit
    simp only [Char.isDigit, Bool.and_eq_true, decide_eq_true_eq, UInt32.le_iff_toNat_le] at hdigit
    have hge : 48 ≤ c.toNat := hdigit.1
    simp only [isSpace, Bool.or_eq_true, beq_iff_eq, Bool.and_eq_true, decide_eq_true_eq] at h
    omega
  all_goals
    rintro rfl
    revert h
    decide

/-- A text that begins with neither a sign nor a digit has no offset. -/
theorem readOffset_stops (extended : Bool) (h : Stops cs) (hminus : cs.head? ≠ some '-')
    (hplus : cs.head? ≠ some '+') : readOffset extended cs = none := by
  have hsign : readSign cs = (false, cs) := by
    unfold readSign
    split
    · exact absurd rfl hminus
    · exact absurd rfl hplus
    · rfl
  have hhours : readOffsetHours extended cs = none := by
    cases extended with
    | true => exact readUnsigned_stops h
    | false =>
      simp only [readOffsetHours, Bool.false_eq_true, if_false, readTwo]
      rw [digits_stops h]
  unfold readOffset
  rw [hsign]
  simp only [hhours, Option.bind_eq_bind, Option.bind_none]

/-- The sign of an offset is read. -/
theorem readSign_signChar (negative : Bool) (cs : List Char) :
    readSign (signChar negative :: cs) = (negative, cs) := by
  cases negative <;> rfl

/-- A sign is there or not. -/
theorem readSign_cases (cs : List Char) :
    (∃ negative rest, cs = signChar negative :: rest) ∨ readSign cs = (false, cs) := by
  unfold readSign
  split
  · next rest => exact .inl ⟨true, rest, rfl⟩
  · next rest => exact .inl ⟨false, rest, rfl⟩
  · exact .inr rfl

/-- The hours of an offset are digits. -/
theorem readOffsetHours_sound {extended : Bool} {h : Nat}
    (hread : readOffsetHours extended cs = some (h, rest)) :
    ∃ ds, cs = ds ++ rest ∧ SpellsNumber 2 ds h ∧ (extended = false → ds.length = 2) := by
  unfold readOffsetHours at hread
  split at hread
  · next hextended =>
    obtain ⟨ds, hcs, hnumber, -⟩ := readUnsigned_sound hread
    exact ⟨ds, hcs, hnumber, fun hbasic => by rw [hbasic] at hextended; cases hextended⟩
  · obtain ⟨ds, hcs, hnumber, hlen⟩ := readTwo_sound hread
    exact ⟨ds, hcs, hnumber, fun _ => hlen⟩

/-- The minutes of an offset are missing, or are two digits, behind a colon or not. -/
theorem readOffsetMinutes_sound {extended : Bool} {m : Nat}
    (hread : readOffsetMinutes extended cs = some (m, rest)) :
    cs = rest ∧ m = 0 ∨ ∃ ds, SpellsNumber 2 ds m ∧ ds.length = 2 ∧
      (extended = true ∧ cs = ':' :: (ds ++ rest) ∨ extended = false ∧ cs = ds ++ rest) := by
  unfold readOffsetMinutes at hread
  split at hread
  · cases hread
    exact .inl ⟨rfl, rfl⟩
  · next c tail =>
    split at hread
    · next hextended =>
      split at hread
      · next hc =>
        obtain ⟨ds, rfl, hnumber, hlen⟩ := readTwo_sound hread
        exact .inr ⟨ds, hnumber, hlen, .inl ⟨hextended, by rw [hc]⟩⟩
      · cases hread
        exact .inl ⟨rfl, rfl⟩
    · next hbasic =>
      split at hread
      · obtain ⟨ds, hds, hnumber, hlen⟩ := readTwo_sound hread
        exact .inr ⟨ds, hnumber, hlen, .inr ⟨eq_false_of_ne_true hbasic, hds⟩⟩
      · cases hread
        exact .inl ⟨rfl, rfl⟩

/-- An offset that is read has its sign, or begins with a digit. -/
theorem readOffset_sound {extended : Bool} {offset : Int}
    (h : readOffset extended cs = some (offset, rest)) :
    (∃ zone, cs = zone ++ rest ∧ SpellsZone zone offset) ∨ ¬ Stops cs := by
  simp only [readOffset, Option.bind_eq_bind, Option.bind_eq_some_iff] at h
  obtain ⟨⟨hours, rest₁⟩, hread, ⟨minutes, rest₂⟩, hminutes, heq⟩ := h
  cases heq
  obtain ⟨hs, hrest, hnumber, hlen⟩ := readOffsetHours_sound hread
  rcases readSign_cases cs with ⟨negative, tail, rfl⟩ | hsign
  · left
    rw [readSign_signChar] at hrest ⊢
    dsimp only at hrest ⊢
    subst hrest
    rcases readOffsetMinutes_sound hminutes with ⟨rfl, rfl⟩ |
      ⟨ms, hm, hmlen, ⟨-, rfl⟩ | ⟨hbasic, rfl⟩⟩
    · exact ⟨_, rfl, .hours hnumber⟩
    · exact ⟨_, by simp, .colon hnumber hm hmlen⟩
    · exact ⟨_, by simp, .joined hnumber (hlen hbasic) hm hmlen⟩
  · right
    rw [hsign] at hrest
    dsimp only at hrest
    subst hrest
    exact hnumber.not_stops

/-- What a format reads at the end of a text is a designator, unless it begins with a digit. -/
theorem readZone_sound {fmt : Format} {offset : Int} (h : readZone fmt cs = some (offset, rest)) :
    (∃ zone, cs = zone ++ rest ∧ SpellsZone zone offset) ∨ ¬ Stops cs := by
  cases fmt with
  | extended => exact readOffset_sound h
  | basic => exact readOffset_sound h
  | zulu =>
    simp only [readZone, Option.bind_eq_bind, Option.bind_eq_some_iff] at h
    obtain ⟨rest', hchar, heq⟩ := h
    cases heq
    exact .inl ⟨['Z'], readChar_sound hchar, .zulu⟩
  | bare =>
    cases h
    exact .inl ⟨[], rfl, .none⟩

/-- An offset is read with its minutes, if there are any. -/
theorem readOffset_complete {extended negative : Bool} {h : Nat} (hnumber : SpellsNumber 2 ds h)
    (hend : ds.length = 2 ∨ extended = true ∧ Stops rest) :
    readOffset extended (signChar negative :: (ds ++ rest)) =
      (readOffsetMinutes extended rest).map fun (m, rest) =>
        (signed negative (60 * h + m), rest) := by
  have hhours : readOffsetHours extended (ds ++ rest) = some (h, rest) := by
    unfold readOffsetHours
    split
    · exact readUnsigned_complete hnumber (hend.imp_right And.right)
    · next hbasic => exact readTwo_complete hnumber (hend.resolve_right fun h => hbasic h.1)
  unfold readOffset
  rw [readSign_signChar]
  simp only [hhours, Option.bind_eq_bind, Option.bind_some]
  cases readOffsetMinutes extended rest <;> rfl

/-- Without a colon `%Ez` has no minutes. -/
theorem readOffsetMinutes_none (h : cs.head? ≠ some ':') :
    readOffsetMinutes true cs = some (0, cs) := by
  cases cs with
  | nil => rfl
  | cons c cs =>
    have hc : c ≠ ':' := fun hc => h (by rw [hc]; rfl)
    simp [readOffsetMinutes, hc]

/-- `%Ez` reads an offset without minutes. -/
theorem readOffset_hours {negative : Bool} {h : Nat} (hnumber : SpellsNumber 2 ds h)
    (hend : ds.length = 2 ∨ Stops rest) (hcolon : rest.head? ≠ some ':') :
    readOffset true (signChar negative :: (ds ++ rest)) =
      some (signed negative (60 * h), rest) := by
  rw [readOffset_complete hnumber (hend.imp_right fun hstop => ⟨rfl, hstop⟩),
    readOffsetMinutes_none hcolon]
  rfl

/-- `%Ez` reads the minutes behind a colon. -/
theorem readOffset_colon {negative : Bool} {minutes : List Char} {h m : Nat}
    (hnumber : SpellsNumber 2 ds h) (hm : SpellsNumber 2 minutes m) (hlen : minutes.length = 2) :
    readOffset true (signChar negative :: (ds ++ ':' :: (minutes ++ rest))) =
      some (signed negative (60 * h + m), rest) := by
  have hminutes : readOffsetMinutes true (':' :: (minutes ++ rest)) = some (m, rest) :=
    readTwo_complete hm hlen
  rw [readOffset_complete hnumber (.inr ⟨rfl, stops_cons rfl⟩), hminutes]
  rfl

/-- `%z` reads the minutes that follow two digits of the hours. -/
theorem readOffset_joined {negative : Bool} {minutes : List Char} {h m : Nat}
    (hnumber : SpellsNumber 2 ds h) (hlen : ds.length = 2) (hm : SpellsNumber 2 minutes m)
    (hmlen : minutes.length = 2) :
    readOffset false (signChar negative :: (ds ++ (minutes ++ rest))) =
      some (signed negative (60 * h + m), rest) := by
  have hminutes : readOffsetMinutes false (minutes ++ rest) = some (m, rest) := by
    have htwo : readTwo (minutes ++ rest) = some (m, rest) := readTwo_complete hm hmlen
    obtain ⟨c, tail, htail, hc⟩ := not_stops (@SpellsNumber.not_stops _ _ _ rest hm)
    rw [htail] at htwo ⊢
    simpa [readOffsetMinutes, hc] using htwo
  rw [readOffset_complete hnumber (.inl hlen), hminutes]
  rfl

/-- The offset of a format that comes to the end of the text. -/
def endOf (cs : List Char) (fmt : Format) : Option Int := do
  let (offset, rest) ← readZone fmt cs
  if rest.all isSpace then some offset else none

/-- The offset of the first format that does. -/
def endOffset (cs : List Char) : Option Int :=
  [Format.extended, .basic, .zulu, .bare].findSome? (endOf cs)

/-- A format that does not read the designator has no offset. -/
theorem endOf_none {fmt : Format} (h : readZone fmt cs = none) : endOf cs fmt = none := by
  unfold endOf
  rw [h]
  rfl

/-- A format that reads a designator has its offset if nothing but whitespace is left. -/
theorem endOf_some {fmt : Format} {offset : Int} (h : readZone fmt cs = some (offset, rest)) :
    endOf cs fmt = if rest.all isSpace then some offset else none := by
  unfold endOf
  rw [h]
  rfl

section
variable {zone space : List Char} {offset : Int}

/-- Whitespace does not begin with anything that is read. -/
theorem space_head (hspace : ∀ c ∈ space, isSpace c = true) :
    ∀ c ∈ space.head?, c.isDigit = false ∧ c ≠ '-' ∧ c ≠ '+' ∧ c ≠ 'Z' ∧ c ≠ ':' ∧ c ≠ '.' :=
  fun c hc => isSpace_cases (hspace c (List.mem_of_mem_head? hc))

/-- Behind the seconds comes neither a digit nor a point nor a colon. -/
theorem zone_head (hzone : SpellsZone zone offset) (hspace : ∀ c ∈ space, isSpace c = true) :
    ∀ c ∈ (zone ++ space).head?, c.isDigit = false ∧ c ≠ '.' ∧ c ≠ ':' := by
  have hsign : ∀ negative, (signChar negative).isDigit = false ∧ signChar negative ≠ '.' ∧
      signChar negative ≠ ':' := by
    decide
  intro c hc
  cases hzone with
  | none =>
    obtain ⟨hdigit, -, -, -, hcolon, hpoint⟩ := space_head hspace c hc
    exact ⟨hdigit, hpoint, hcolon⟩
  | zulu => cases hc; decide
  | hours | colon | joined =>
    cases hc
    exact hsign _

/-- No digit follows the seconds. -/
theorem stops_zone (hzone : SpellsZone zone offset) (hspace : ∀ c ∈ space, isSpace c = true) :
    Stops (zone ++ space) :=
  fun c hc => (zone_head hzone hspace c hc).1

/-- `%Ez` is tried first. -/
theorem endOffset_extended (h : readOffset true cs = some (offset, space))
    (hspace : ∀ c ∈ space, isSpace c = true) : endOffset cs = some offset := by
  have hzone : readZone .extended cs = some (offset, space) := h
  have hend : endOf cs .extended = some offset := by
    rw [endOf_some hzone, if_pos (List.all_eq_true.2 hspace)]
  unfold endOffset
  rw [List.findSome?_cons, hend]

/-- `%z` is tried where `%Ez` does not come to the end. -/
theorem endOffset_basic {offset' : Int} (h : readOffset true cs = some (offset', rest))
    (hrest : ¬ Stops rest) (h' : readOffset false cs = some (offset, space))
    (hspace : ∀ c ∈ space, isSpace c = true) : endOffset cs = some offset := by
  have hzone : readZone .extended cs = some (offset', rest) := h
  have hzone' : readZone .basic cs = some (offset, space) := h'
  have hleft : ¬ rest.all isSpace = true := fun hall =>
    hrest fun c hc => (space_head (List.all_eq_true.1 hall) c hc).1
  have hnone : endOf cs .extended = none := by rw [endOf_some hzone, if_neg hleft]
  have hend : endOf cs .basic = some offset := by
    rw [endOf_some hzone', if_pos (List.all_eq_true.2 hspace)]
  unfold endOffset
  rw [List.findSome?_cons, hnone, List.findSome?_cons, hend]

/-- Without an offset `Z` is tried, and then nothing. -/
theorem endOffset_stops (hstop : Stops cs) (hminus : cs.head? ≠ some '-')
    (hplus : cs.head? ≠ some '+') :
    endOffset cs = [Format.zulu, .bare].findSome? (endOf cs) := by
  have hextended : endOf cs .extended = none :=
    endOf_none (readOffset_stops true hstop hminus hplus)
  have hbasic : endOf cs .basic = none := endOf_none (readOffset_stops false hstop hminus hplus)
  unfold endOffset
  rw [List.findSome?_cons, hextended, List.findSome?_cons, hbasic]

/-- **A designator is read as it is spelled**, by the first format that comes to the end. -/
theorem endOffset_complete (hzone : SpellsZone zone offset)
    (hspace : ∀ c ∈ space, isSpace c = true) : endOffset (zone ++ space) = some offset := by
  have hall : space.all isSpace = true := List.all_eq_true.2 hspace
  have hstop : Stops space := fun c hc => (space_head hspace c hc).1
  cases hzone with
  | none =>
    have hminus : space.head? ≠ some '-' := fun hc => (space_head hspace _ hc).2.1 rfl
    have hplus : space.head? ≠ some '+' := fun hc => (space_head hspace _ hc).2.2.1 rfl
    have hzulu : readZone .zulu space = none := by
      cases space with
      | nil => rfl
      | cons c space =>
        have hc : readChar 'Z' (c :: space) = none := if_neg (space_head hspace c rfl).2.2.2.1
        simp only [readZone, hc, Option.bind_eq_bind, Option.bind_none]
    have hbare : readZone .bare space = some (0, space) := rfl
    rw [List.nil_append, endOffset_stops hstop hminus hplus]
    simp only [List.findSome?_cons, endOf_none hzulu, endOf_some hbare, hall, if_true]
  | zulu =>
    have hminus : ('Z' :: space).head? ≠ some '-' := nofun
    have hplus : ('Z' :: space).head? ≠ some '+' := nofun
    have hzulu : readZone .zulu ('Z' :: space) = some (0, space) := rfl
    rw [List.cons_append, List.nil_append, endOffset_stops (stops_cons rfl) hminus hplus]
    simp only [List.findSome?_cons, endOf_some hzulu, hall, if_true]
  | hours hnumber =>
    have hcolon : space.head? ≠ some ':' := fun hc => (space_head hspace _ hc).2.2.2.2.1 rfl
    exact endOffset_extended (readOffset_hours hnumber (.inr hstop) hcolon) hspace
  | colon hnumber hm hmlen =>
    rw [List.cons_append, List.append_assoc]
    exact endOffset_extended (readOffset_colon hnumber hm hmlen) hspace
  | joined hnumber hlen hm hmlen =>
    rw [List.cons_append, List.append_assoc]
    have hrest := @SpellsNumber.not_stops _ _ _ space hm
    -- `%Ez` stops at the minutes, as there is no colon
    have hcolon : ∀ tail, ¬ Stops tail → tail.head? ≠ some ':' := by
      intro tail htail
      obtain ⟨c, cs, rfl, hc⟩ := not_stops htail
      rintro ⟨⟩
      cases hc
    exact endOffset_basic (readOffset_hours hnumber (.inl hlen) (hcolon _ hrest)) hrest
      (readOffset_joined hnumber hlen hm hmlen) hspace

/-- A designator in front of nothing but whitespace that is whitespace itself is UTC. -/
theorem SpellsZone.eq_zero (hzone : SpellsZone zone offset)
    (hspace : ∀ c ∈ zone ++ space, isSpace c = true) : offset = 0 := by
  have hsign : ∀ negative, isSpace (signChar negative) = false := by decide
  cases hzone with
  | none => rfl
  | zulu => rfl
  | hours | colon | joined =>
    have hhead := hspace _ List.mem_cons_self
    rw [hsign] at hhead
    cases hhead

/-- Zeros that an offset is read from are one of no time, and no designator follows them. -/
theorem readOffset_zeros {extended : Bool} {taken : Int} (hds : ∀ c ∈ ds, c.isDigit = true)
    (hne : ds ≠ []) (hzero : number ds = 0) (hzone : SpellsZone zone offset)
    (hspace : ∀ c ∈ space, isSpace c = true) (hall : ∀ c ∈ rest, isSpace c = true)
    (h : readOffset extended (ds ++ (zone ++ space)) = some (taken, rest)) :
    taken = 0 ∧ offset = 0 := by
  have hstop := stops_zone hzone hspace
  have hrest : Stops rest := fun c hc => (space_head hall c hc).1
  have hsign : readSign (ds ++ (zone ++ space)) = (false, ds ++ (zone ++ space)) :=
    readSign_number ⟨hne, le_rfl, hds, rfl⟩
  unfold readOffset at h
  rw [hsign] at h
  simp only [Option.bind_eq_bind, Option.bind_eq_some_iff] at h
  obtain ⟨⟨hours, rest₁⟩, hread, ⟨minutes, rest₂⟩, hminutes, heq⟩ := h
  obtain ⟨rfl, rfl⟩ : signed false (60 * hours + minutes) = taken ∧ rest₂ = rest := by
    simpa using heq
  dsimp only at hminutes
  obtain ⟨hs, htext, hnumber, -⟩ := readOffsetHours_sound hread
  rcases readOffsetMinutes_sound hminutes with ⟨rfl, rfl⟩ | ⟨ms, hm, -, ⟨-, rfl⟩ | ⟨-, rfl⟩⟩
  · obtain ⟨rfl, rfl⟩ := run_unique hds hnumber.digit hstop hrest htext
    rw [hnumber.number] at hzero
    exact ⟨by rw [hzero]; rfl, hzone.eq_zero hall⟩
  · obtain ⟨-, hcolon⟩ := run_unique hds hnumber.digit hstop (stops_cons rfl) htext
    exact absurd rfl (zone_head hzone hspace ':' (by rw [hcolon]; rfl)).2.2
  · have hboth : ∀ c ∈ hs ++ ms, c.isDigit = true := fun c hc =>
      (List.mem_append.1 hc).elim (hnumber.digit c) (hm.digit c)
    rw [← List.append_assoc hs] at htext
    obtain ⟨rfl, rfl⟩ := run_unique hds hboth hstop hrest htext
    obtain ⟨hzero, hzero'⟩ := number_append_eq_zero hzero
    rw [hnumber.number] at hzero
    rw [hm.number] at hzero'
    exact ⟨by rw [hzero, hzero']; rfl, hzone.eq_zero hall⟩

/-- So are they as the end of a text. -/
theorem endOffset_zeros {taken : Int} (hds : ∀ c ∈ ds, c.isDigit = true) (hne : ds ≠ [])
    (hzero : number ds = 0) (hzone : SpellsZone zone offset)
    (hspace : ∀ c ∈ space, isSpace c = true)
    (h : endOffset (ds ++ (zone ++ space)) = some taken) : taken = 0 ∧ offset = 0 := by
  have hstop := stops_zone hzone hspace
  have hdigit : ¬ Stops (ds ++ (zone ++ space)) :=
    (⟨hne, le_rfl, hds, rfl⟩ : SpellsNumber ds.length ds _).not_stops
  obtain ⟨fmt, -, h⟩ := List.exists_of_findSome?_eq_some h
  obtain ⟨⟨offset', rest⟩, hread, h⟩ := Option.bind_eq_some_iff.1 h
  dsimp only at h
  split at h
  · next hall =>
    cases h
    have hall := List.all_eq_true.1 hall
    have hrest : Stops rest := fun c hc => (space_head hall c hc).1
    cases fmt with
    | extended => exact readOffset_zeros hds hne hzero hzone hspace hall hread
    | basic => exact readOffset_zeros hds hne hzero hzone hspace hall hread
    | zulu =>
      simp only [readZone, Option.bind_eq_bind, Option.bind_eq_some_iff] at hread
      obtain ⟨rest', hchar, heq⟩ := hread
      rw [readChar_sound hchar] at hdigit
      exact absurd (stops_cons rfl) hdigit
    | bare =>
      cases hread
      exact absurd hrest hdigit
  · cases h

end

/-! ## The whole text -/

/-- The whole text is read as far as the seconds, and from there by the first format that comes to
its end. -/
theorem readIso8601_until {s : String} {f : Fields} {after tail : List Char} {second ns : Nat}
    (h : SpellsUntil s.toList f after) (hseconds : readSeconds after = some ((second, ns), tail))
    (hok : Fields.ok { f with second } = true) : readIso8601 s =
      (endOffset tail).map fun offset => { f with second, nanosecond := ns, offset } := by
  unfold readIso8601 endOffset
  rw [List.map_findSome?]
  congr 1
  funext fmt
  have hok' : ∀ offset, Fields.ok { f with second, nanosecond := ns, offset } = true := fun _ => hok
  unfold endOf
  rw [parse_until h]
  simp only [hseconds, Option.bind_eq_bind, Option.bind_some, Function.comp_apply]
  cases readZone fmt tail with
  | none => rfl
  | some zone =>
    simp only [Option.bind_some, hok', if_true]
    split <;> rfl

/-- **What is accepted is well formed**: it is a date that exists and a time of the day, spelled by
the grammar or with digits that run on. -/
theorem readIso8601_sound {s : String} {f : Fields} (h : readIso8601 s = some f) :
    f.ok = true ∧ (Spells s.toList { f with nanosecond := 0 } f.nanosecond ∨ RunsOn s.toList) := by
  obtain ⟨fmt, -, h⟩ := List.exists_of_findSome?_eq_some h
  obtain ⟨⟨f', rest⟩, hparse, h⟩ := Option.bind_eq_some_iff.1 h
  obtain ⟨f₀, after, huntil⟩ := spellsUntil_of_parse hparse
  rw [parse_until huntil] at hparse
  simp only [Option.bind_eq_bind, Option.bind_eq_some_iff] at hparse
  obtain ⟨⟨⟨second, ns⟩, tail⟩, hseconds, ⟨offset, rest'⟩, hzone, hparse⟩ := hparse
  dsimp only at h hparse
  split at hparse
  · next hok =>
    cases hparse
    split at h
    · next hspace =>
      cases h
      refine ⟨hok, ?_⟩
      obtain ⟨secondText, fraction, rfl, hsecond, hfraction, hrun⟩ := readSeconds_sound hseconds
      rcases hrun with hstop | hrun
      · obtain ⟨zone, rfl, hoffset⟩ := (readZone_sound hzone).resolve_right (not_not.2 hstop)
        have hspells := Spells.mk huntil hsecond hfraction hoffset (List.all_eq_true.1 hspace)
        obtain ⟨-, hns, -⟩ := huntil.fields
        rw [← hns]
        exact .inl hspells
      · exact .inr (huntil.runsOn hrun)
    · cases h
  · cases hparse

/-- What is spelled is read, up to nine digits of a fraction. -/
theorem readIso8601_spelled {s : String} {f : Fields} {after zone space : List Char}
    {second ns : Nat} {offset : Int} (h : SpellsUntil s.toList f after)
    (hseconds : readSeconds after = some ((second, ns), zone ++ space))
    (hok : Fields.ok { f with second } = true) (hzone : SpellsZone zone offset)
    (hspace : ∀ c ∈ space, isSpace c = true) :
    readIso8601 s = some { f with second, nanosecond := ns, offset } := by
  rw [readIso8601_until h hseconds hok, endOffset_complete hzone hspace]
  rfl

/-- The digits beyond the ninth are zeros if the fraction is a whole number of nanoseconds. -/
theorem fraction_long {ds' : List Char} (hlen : ds.length = 9)
    (hds' : ∀ c ∈ ds', c.isDigit = true)
    (h : ∃ n : ℤ, (number (ds ++ ds') * 10 ^ 9 / 10 ^ (ds ++ ds').length : ℚ) = n) :
    number ds' = 0 ∧ (number (ds ++ ds') * 10 ^ 9 / 10 ^ (ds ++ ds').length : ℚ) = number ds := by
  have hvalue : (number (ds ++ ds') * 10 ^ 9 / 10 ^ (ds ++ ds').length : ℚ) =
      number ds + number ds' / 10 ^ ds'.length := by
    rw [number_append, List.length_append, hlen, pow_add]
    push_cast
    field_simp
  obtain ⟨n, hn⟩ := h
  have hscaled : (number ds' : ℤ) = 10 ^ ds'.length * (n - number ds) := by
    rw [hvalue] at hn
    have hq : (number ds' : ℚ) = 10 ^ ds'.length * (n - number ds) := by
      rw [← hn]
      field_simp
      ring
    exact_mod_cast hq
  have hdvd : 10 ^ ds'.length ∣ number ds' := by
    have : ((10 ^ ds'.length : ℕ) : ℤ) ∣ number ds' := ⟨_, by push_cast; exact hscaled⟩
    exact_mod_cast this
  have hzero := Nat.eq_zero_of_dvd_of_lt hdvd (number_lt hds')
  refine ⟨hzero, ?_⟩
  rw [hvalue, hzero, Nat.cast_zero, zero_div, add_zero]

/-- A text with more than nine digits of a fraction is read by the first nine, and rightly if the
fraction is a whole number of nanoseconds. -/
theorem read_of_long_fraction {s : String} {f g : Fields} {second zone space : List Char}
    {v : Nat} {offset : Int}
    (huntil : SpellsUntil s.toList f (second ++ '.' :: (ds ++ (zone ++ space))))
    (hsecond : SpellsNumber 2 second v) (hdigit : ∀ c ∈ ds, c.isDigit = true)
    (hlong : 9 < ds.length) (hq : ∃ n : ℤ, (number ds * 10 ^ 9 / 10 ^ ds.length : ℚ) = n)
    (hzone : SpellsZone zone offset) (hspace : ∀ c ∈ space, isSpace c = true)
    (hok : Fields.ok { f with second := v } = true) (hread : readIso8601 s = some g) :
    g = { f with second := v, nanosecond := number (ds.take 9), offset := offset } ∧
      (number ds * 10 ^ 9 / 10 ^ ds.length : ℚ) = number (ds.take 9) := by
  have hlen : (ds.take 9).length = 9 := by
    rw [List.length_take]
    omega
  have htake : ∀ c ∈ ds.take 9, c.isDigit = true := fun c hc => hdigit c (List.mem_of_mem_take hc)
  have hdrop : ∀ c ∈ ds.drop 9, c.isDigit = true := fun c hc => hdigit c (List.mem_of_mem_drop hc)
  have hne : ds.drop 9 ≠ [] := fun hnil => absurd (List.drop_eq_nil_iff.1 hnil) (by omega)
  rw [← List.take_append_drop 9 ds] at hq
  obtain ⟨hzero, hvalue⟩ := fraction_long hlen hdrop hq
  rw [List.take_append_drop] at hvalue
  have hseconds : readSeconds
      (second ++ '.' :: (ds.take 9 ++ (ds.drop 9 ++ (zone ++ space)))) = _ :=
    readSeconds_point hsecond hlen.le htake (.inl hlen)
  rw [← List.append_assoc, List.take_append_drop] at hseconds
  rw [readIso8601_until huntil hseconds hok] at hread
  obtain ⟨taken, htaken, rfl⟩ := Option.map_eq_some_iff.1 hread
  obtain ⟨rfl, rfl⟩ := endOffset_zeros hdrop hne hzero hzone hspace htaken
  rw [hlen]
  exact ⟨by simp, hvalue⟩

/-- **A text that is spelled with a whole number of nanoseconds is read right**, if it is accepted:
digits that run on in it are zeros. -/
theorem eq_of_spells {s : String} {f g : Fields} {q : ℚ} (h : Spells s.toList f q)
    (hok : f.ok = true) (hread : readIso8601 s = some g) (hq : ∃ n : ℤ, q = n) :
    { g with nanosecond := 0 } = f ∧ q = g.nanosecond := by
  obtain @⟨second, _, zone, space, f₀, _, _, _, huntil, hsecond, hfraction, hzone, hspace⟩ := h
  have hstop := stops_zone hzone hspace
  have hns := huntil.fields.2.1
  cases hfraction with
  | none =>
    have hpoint : (zone ++ space).head? ≠ some '.' := fun hc =>
      (zone_head hzone hspace _ hc).2.1 rfl
    have hseconds := readSeconds_whole hsecond (.inr hstop) hpoint
    rw [readIso8601_spelled huntil hseconds hok hzone hspace] at hread
    cases hread
    exact ⟨by rw [← hns], by simp⟩
  | @point ds hdigit =>
    rcases Nat.lt_or_ge 9 ds.length with hlong | hshort
    · obtain ⟨rfl, hvalue⟩ :=
        read_of_long_fraction huntil hsecond hdigit hlong hq hzone hspace hok hread
      exact ⟨by rw [← hns], hvalue⟩
    · have hseconds := readSeconds_point hsecond hshort hdigit (.inr hstop)
      rw [readIso8601_spelled huntil hseconds hok hzone hspace] at hread
      cases hread
      exact ⟨by rw [← hns], fraction_eq hshort⟩

/-- What follows the seconds has no digit in front. -/
theorem stops_fraction {fraction zone space : List Char} {q : ℚ} {offset : Int}
    (hfraction : SpellsFraction fraction q) (hzone : SpellsZone zone offset)
    (hspace : ∀ c ∈ space, isSpace c = true) : Stops (fraction ++ (zone ++ space)) := by
  cases hfraction with
  | none =>
    rw [List.nil_append]
    exact stops_zone hzone hspace
  | point hdigit => exact stops_cons rfl

/-- A fraction ends where its digits do. -/
theorem SpellsFraction.unique {fraction fraction' zone zone' space space' : List Char} {q q' : ℚ}
    {offset offset' : Int} (hfraction : SpellsFraction fraction q)
    (hfraction' : SpellsFraction fraction' q') (hzone : SpellsZone zone offset)
    (hzone' : SpellsZone zone' offset') (hspace : ∀ c ∈ space, isSpace c = true)
    (hspace' : ∀ c ∈ space', isSpace c = true)
    (h : fraction ++ (zone ++ space) = fraction' ++ (zone' ++ space')) :
    q = q' ∧ zone ++ space = zone' ++ space' := by
  cases hfraction with
  | none =>
    cases hfraction' with
    | none => exact ⟨rfl, h⟩
    | point hdigit' =>
      exact absurd rfl (zone_head hzone hspace '.' (by rw [List.nil_append] at h; rw [h]; rfl)).2.1
  | point hdigit =>
    cases hfraction' with
    | none =>
      exact absurd rfl
        (zone_head hzone' hspace' '.' (by rw [List.nil_append] at h; rw [← h]; rfl)).2.1
    | point hdigit' =>
      obtain ⟨rfl, hrest⟩ := run_unique hdigit hdigit' (stops_zone hzone hspace)
        (stops_zone hzone' hspace') (List.cons.inj h).2
      exact ⟨rfl, hrest⟩

/-- **The grammar is unambiguous.** -/
theorem Spells.unique {f f' : Fields} {q q' : ℚ} (h : Spells cs f q) (h' : Spells cs f' q') :
    f = f' ∧ q = q' := by
  obtain ⟨huntil, hsecond, hfraction, hzone, hspace⟩ := h
  obtain ⟨huntil', hsecond', hfraction', hzone', hspace'⟩ := h'
  obtain ⟨rfl, hafter⟩ := huntil.unique huntil'
  obtain ⟨rfl, hrest⟩ := run_unique hsecond.digit hsecond'.digit
    (stops_fraction hfraction hzone hspace) (stops_fraction hfraction' hzone' hspace') hafter
  obtain ⟨rfl, hend⟩ := hfraction.unique hfraction' hzone hzone' hspace hspace' hrest
  have hoffset := endOffset_complete hzone hspace
  rw [hend, endOffset_complete hzone' hspace', Option.some_inj] at hoffset
  rw [← hsecond.number, ← hsecond'.number, hoffset]
  exact ⟨rfl, rfl⟩

end Chrono

end DsService

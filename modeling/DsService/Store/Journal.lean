import DsService.Core.Stores
import DsService.Lib.History

/-!
# Reading and tailing a journal

A journal holds the values appended to its key, in order (`JournalMap.entriesOf_eq`), and
`journal_read` returns a slice of them (`JournalMap.read_eq`): clamping both ends to the size and
looping between them is the same as taking `end` entries and dropping `start` of them, whatever the
two numbers are.

A reader that tails a journal asks for the size, reads from where it stands up to there, and moves
on. Between the two calls any number of calls of other clients may come (`Tail`). It has always seen
the first `n` values appended, `n` being its position (`tailing_reads_every_entry_once`).
-/

namespace DsService

/-- The value that a call appends to the journal `k`. -/
def JournalOp.appends (k : String) : JournalOp → Option String
  | .append request => if request.key = k then some request.value else none
  | _ => none

/-! ## Slices -/

/-- A loop over indices of a list returns a slice of it. -/
theorem mapM_range'_getElem? {β : Type} (l : List β) :
    ∀ (n start : Nat), start + n ≤ l.length →
      (List.range' start n).mapM (l[·]?) = some ((l.drop start).take n)
  | 0, start, _ => by simp
  | n + 1, start, h => by
      have hlt : start < l.length := by omega
      have ih := mapM_range'_getElem? l n (start + 1) (by omega)
      rw [List.range'_succ, List.mapM_cons, ih, List.getElem?_eq_getElem hlt,
        List.drop_eq_getElem_cons hlt]
      rfl

/-- Clamping both ends of a slice to the length changes nothing. -/
theorem slice_clamp {β : Type} (l : List β) (start stop : Nat) :
    (l.drop (min start l.length)).take (min stop l.length - min start l.length) =
      (l.take stop).drop start := by
  rw [List.drop_take]
  rcases Nat.le_total l.length start with h | h
  · rw [Nat.min_eq_right h, List.drop_eq_nil_of_le h, List.drop_length]
    simp
  · rw [Nat.min_eq_left h]
    rcases Nat.le_total stop l.length with hs | hs
    · rw [Nat.min_eq_left hs]
    · have hlen : (l.drop start).length = l.length - start := List.length_drop
      rw [Nat.min_eq_right hs, List.take_of_length_le (by omega), List.take_of_length_le (by omega)]

/-- The entries of a slice by index. -/
theorem slice_getElem? {β : Type} (l : List β) (start stop j : Nat) (v : β) :
    ((l.take stop).drop start)[j]? = some v ↔
      start + j < min stop l.length ∧ l[start + j]? = some v := by
  rw [List.getElem?_drop, List.getElem?_take]
  constructor
  · intro h
    split at h
    · obtain ⟨hlt, -⟩ := List.getElem?_eq_some_iff.1 h
      exact ⟨by omega, h⟩
    · cases h
  · rintro ⟨hlt, h⟩
    rw [if_pos (by omega), h]

/-- Slices that meet make one. -/
theorem slice_append {β : Type} (l : List β) {a b c : Nat} (hab : a ≤ b) (hbc : b ≤ c) :
    (l.take b).drop a ++ (l.take c).drop b = (l.take c).drop a := by
  have hb : l.take b = (l.take c).take b := by rw [List.take_take, Nat.min_eq_left hbc]
  rw [hb, List.drop_take]
  have hdrop : (l.take c).drop b = ((l.take c).drop a).drop (b - a) := by
    rw [List.drop_drop]
    congr 1
    omega
  rw [hdrop]
  exact List.take_append_drop _ _

namespace JournalMap

/-! ## The entries of a journal -/

/-- The journals as a machine, started empty. -/
def machine (re2 : RE2) : Machine JournalMap JournalOp JournalReply where
  init := {}
  step := step re2

/-- An event of the journals. -/
abbrev JournalEvent := Machine.Event JournalMap JournalOp JournalReply

/-- The values that a history appends to `k`, in order. -/
def appended (k : String) (es : List JournalEvent) : List String :=
  es.filterMap fun e => e.op.appends k

/-- The entries of the journal `k`, none if it does not exist. -/
def entriesOf (self : JournalMap) (k : String) : List String := (self.data.lookup k).getD []

variable {re2 : RE2} {self self' m m' : JournalMap} {op : JournalOp} {r : JournalReply} {k : String}
  {es : List JournalEvent}

/-- The size is the number of entries. -/
theorem size_eq (self : JournalMap) (k : String) :
    self.size ⟨k⟩ = .ok ⟨(self.entriesOf k).length⟩ := by
  unfold size entriesOf
  cases self.data.lookup k <;> rfl

/-- **`journal_read` returns a slice**, for every start and end. -/
theorem read_eq (self : JournalMap) (k : String) (start stop : Nat) :
    self.read ⟨k, start, stop⟩ = some (.ok ⟨((self.entriesOf k).take stop).drop start⟩) := by
  unfold read entriesOf
  cases self.data.lookup k with
  | none => simp
  | some journal =>
      have hbound :
          min start journal.length + (min stop journal.length - min start journal.length) ≤
          journal.length := by omega
      dsimp only
      rw [mapM_range'_getElem? journal _ _ hbound, slice_clamp]
      rfl

/-- **What a call does to the journal `k`**: it appends the value it names, if it is an append to
`k`, and nothing else. -/
theorem step_entriesOf (h : self.step re2 op = some (r, self')) (k : String) :
    self'.entriesOf k = self.entriesOf k ++ (op.appends k).toList := by
  cases op with
  | append request =>
      cases h
      by_cases hk : request.key = k
      · subst hk
        simp [entriesOf, JournalOp.appends]
      · simp [entriesOf, JournalOp.appends, hk, AList.lookup_insert_ne (Ne.symm hk)]
  | read request =>
      obtain ⟨_, -, heq⟩ := Option.bind_eq_some_iff.1 h
      cases heq
      simp [JournalOp.appends]
  | size | searchKey =>
      cases h
      simp [JournalOp.appends]

/-- **A journal holds what was appended to its key.** -/
theorem entriesOf_eq (h : (machine re2).Run es m) (k : String) :
    m.entriesOf k = appended k es := by
  induction h with
  | nil => rfl
  | snoc _ hs ih =>
      rw [step_entriesOf hs k, ih, appended, appended, List.filterMap_append]
      congr 1

/-- The entries of a run come in its order. -/
theorem appended_append (es es' : List JournalEvent) :
    appended k (es ++ es') = appended k es ++ appended k es' :=
  List.filterMap_append

/-- An entry that is written stays as it is: a read below the size then is the same read now. -/
theorem read_stable {es' : List JournalEvent} (h : (machine re2).Run es m)
    (h' : (machine re2).Run (es ++ es') m') {stop : Nat} (hstop : stop ≤ (appended k es).length)
    (start : Nat) : m'.read ⟨k, start, stop⟩ = m.read ⟨k, start, stop⟩ := by
  rw [read_eq, read_eq, entriesOf_eq h, entriesOf_eq h', appended_append,
    List.take_append_of_le_length hstop]

/-- What a read event returns, from the history before it. -/
theorem read_reply {es₁ es₂ : List JournalEvent} {e : JournalEvent}
    (h : (machine re2).Run (es₁ ++ e :: es₂) m) {start stop : Nat} {entry : List String}
    (hop : e.op = .read ⟨k, start, stop⟩) (hr : e.reply = .read (.ok ⟨entry⟩)) :
    entry = ((appended k es₁).take stop).drop start := by
  obtain ⟨pre, op, reply, post⟩ := e
  cases hop
  cases hr
  obtain ⟨hrun, hs⟩ := h.split
  obtain ⟨result, hread, heq⟩ := Option.bind_eq_some_iff.1 hs
  rw [read_eq, entriesOf_eq hrun] at hread
  cases hread
  cases heq
  rfl

/-- Among events without an append to `k` every read is from the same journal. -/
theorem read_among {base mid : List JournalEvent} (h : (machine re2).Run (base ++ mid) m)
    (hquiet : ∀ e ∈ mid, e.op.appends k = none) {e : JournalEvent} (he : e ∈ mid) {start stop : Nat}
    {entry : List String} (hop : e.op = .read ⟨k, start, stop⟩)
    (hr : e.reply = .read (.ok ⟨entry⟩)) :
    entry = ((appended k base).take stop).drop start := by
  obtain ⟨mid₁, mid₂, rfl⟩ := List.append_of_mem he
  rw [← List.append_assoc] at h
  have hmid : appended k mid₁ = [] :=
    List.filterMap_eq_nil_iff.2 fun e' he' => hquiet e' (List.mem_append_left _ he')
  rw [read_reply h hop hr, appended_append, hmid, List.append_nil]

end JournalMap

/-! ## Tailing -/

/-- The journals with one reader that tails a journal: its position, all it has read, and the size
it has asked for until it reads up to there. -/
structure Tail where
  journals : JournalMap := {}
  position : Nat := 0
  seen : List String := []
  asked : Option Nat := none

/-- A call of another client, or the next call of the reader. -/
inductive TailOp where
  | other (op : JournalOp)
  | askSize
  | readOn

/-- The value that a call appends to the journal `k`. The reader appends nothing. -/
def TailOp.appends (k : String) : TailOp → Option String
  | .other op => op.appends k
  | .askSize => none
  | .readOn => none

namespace Tail

/-- One call on the journals by anyone. The reader of `k` alternates `journal_size` and
`journal_read`; `none` is a call out of turn. -/
def step (re2 : RE2) (k : String) (st : Tail) : TailOp → Option (JournalReply × Tail)
  | .other op => do
      let (r, journals) ← st.journals.step re2 op
      return (r, { st with journals := journals })
  | .askSize =>
      match st.asked, st.journals.size ⟨k⟩ with
      | none, .ok response =>
          some (.size (.ok response), { st with asked := some response.size })
      | _, _ => none
  | .readOn => do
      let n ← st.asked
      let r ← st.journals.read ⟨k, st.position, n⟩
      match r with
      | .ok response =>
          return (.read (.ok response),
            { st with position := n, seen := st.seen ++ response.entry, asked := none })
      | .error _ => none

def machine (re2 : RE2) (k : String) : Machine Tail TailOp JournalReply where
  init := {}
  step := step re2 k

/-- The values that a history appends to `k`, in order. -/
def appended (k : String) (es : List (Machine.Event Tail TailOp JournalReply)) : List String :=
  es.filterMap fun e => e.op.appends k

variable {re2 : RE2} {k : String} {st st' : Tail} {op : TailOp} {r : JournalReply}
  {es : List (Machine.Event Tail TailOp JournalReply)}

/-- The reader's next call is always served. -/
theorem step_reader (re2 : RE2) (k : String) (st : Tail) :
    (st.asked = none → (st.step re2 k .askSize).isSome = true) ∧
      ∀ n, st.asked = some n → (st.step re2 k .readOn).isSome = true := by
  constructor
  · intro hasked
    simp [step, hasked, JournalMap.size_eq]
  · intro n hasked
    simp [step, hasked, JournalMap.read_eq]

/-- What a call does to the journals and to the reader. -/
theorem step_cases (h : st.step re2 k op = some (r, st')) :
    (∃ o journals, op = .other o ∧ st.journals.step re2 o = some (r, journals) ∧
      st' = { st with journals := journals }) ∨
    (op = .askSize ∧ st' = { st with asked := some (st.journals.entriesOf k).length }) ∨
    (∃ n, op = .readOn ∧ st.asked = some n ∧
      st' = { st with
        position := n, asked := none
        seen := st.seen ++ ((st.journals.entriesOf k).take n).drop st.position }) := by
  cases op with
  | other o =>
      obtain ⟨⟨r₁, journals⟩, hs, heq⟩ := Option.bind_eq_some_iff.1 h
      cases heq
      exact .inl ⟨o, journals, rfl, hs, rfl⟩
  | askSize =>
      refine .inr (.inl ⟨rfl, ?_⟩)
      cases hasked : st.asked with
      | some n => simp [step, hasked] at h
      | none =>
          simp only [step, hasked, JournalMap.size_eq] at h
          cases h
          rfl
  | readOn =>
      refine .inr (.inr ?_)
      cases hasked : st.asked with
      | none => simp [step, hasked] at h
      | some n =>
          simp only [step, hasked, JournalMap.read_eq, Option.bind_eq_bind, Option.bind_some] at h
          cases h
          exact ⟨n, rfl, rfl, rfl⟩

/-- What holds of the reader: it has seen the entries before its position, and the size it has asked
for lies between its position and the end. -/
structure Reading (k : String) (entries : List String) (st : Tail) : Prop where
  journal : st.journals.entriesOf k = entries
  seen : st.seen = entries.take st.position
  position_le : st.position ≤ entries.length
  asked_le : ∀ n, st.asked = some n → st.position ≤ n ∧ n ≤ entries.length

/-- **Every call keeps the reader in step.** -/
theorem Reading.step {entries : List String} (hinv : Reading k entries st)
    (h : st.step re2 k op = some (r, st')) : Reading k (entries ++ (op.appends k).toList) st' := by
  rcases step_cases h with ⟨o, journals, rfl, hs, rfl⟩ | ⟨rfl, rfl⟩ | ⟨n, rfl, hasked, rfl⟩
  · have hjournal := JournalMap.step_entriesOf hs k
    rw [hinv.journal] at hjournal
    constructor
    case journal => exact hjournal
    case seen => rw [List.take_append_of_le_length hinv.position_le]; exact hinv.seen
    case position_le =>
      have := hinv.position_le
      simp only [List.length_append]
      omega
    case asked_le =>
      intro n hasked
      have := hinv.asked_le n hasked
      simp only [List.length_append]
      omega
  · simp only [TailOp.appends, Option.toList_none, List.append_nil]
    constructor
    case journal => exact hinv.journal
    case seen => exact hinv.seen
    case position_le => exact hinv.position_le
    case asked_le =>
      intro n hasked
      cases hasked
      rw [hinv.journal]
      exact ⟨hinv.position_le, le_rfl⟩
  · obtain ⟨hle, hlen⟩ := hinv.asked_le n hasked
    simp only [TailOp.appends, Option.toList_none, List.append_nil]
    constructor
    case journal => exact hinv.journal
    case seen =>
      -- the slice that was read continues what had been seen
      have happend := slice_append entries (Nat.zero_le st.position) hle
      rw [List.drop_zero, List.drop_zero] at happend
      rw [hinv.seen, hinv.journal, happend]
    case position_le => exact hlen
    case asked_le => nofun

/-- What the tail has read is a prefix of what was appended. -/
theorem reading (h : (machine re2 k).Run es st) : Reading k (appended k es) st := by
  induction h with
  | nil => exact ⟨rfl, rfl, le_rfl, nofun⟩
  | snoc _ hs ih =>
      have hstep := ih.step hs
      rwa [appended, List.filterMap_append]

end Tail

/-- **Tailing a journal loses and repeats nothing.** However the calls of other clients come between
those of a reader that tails `k`, what it has read is the first `n` values appended to `k`, where
`n` is its position, and its next call is served. In every run of the journals, `journal_read`
returns the values appended with the indices from `start` on that are below `end` and the size; a
read below the size returns the same later; and reads that meet return what one read over both
returns, when they are made with no append to `k` in between. -/
theorem tailing_reads_every_entry_once (re2 : RE2) (k : String) :
    (∀ es st, (Tail.machine re2 k).Run es st →
      st.seen = (Tail.appended k es).take st.position ∧
        st.position ≤ (Tail.appended k es).length ∧
        (st.asked = none → (st.step re2 k .askSize).isSome = true) ∧
        ∀ n, st.asked = some n → (st.step re2 k .readOn).isSome = true) ∧
    ∀ es m, (JournalMap.machine re2).Run es m →
      (∀ start stop, ∃ entry, m.read ⟨k, start, stop⟩ = some (.ok ⟨entry⟩) ∧
        ∀ j v, entry[j]? = some v ↔ start + j < min stop (JournalMap.appended k es).length ∧
          (JournalMap.appended k es)[start + j]? = some v) ∧
      (∀ es' m', (JournalMap.machine re2).Run (es ++ es') m' → ∀ start stop,
        stop ≤ (JournalMap.appended k es).length →
          m'.read ⟨k, start, stop⟩ = m.read ⟨k, start, stop⟩) ∧
      ∀ base mid, es = base ++ mid → (∀ e ∈ mid, e.op.appends k = none) →
        ∀ e₁ ∈ mid, ∀ e₂ ∈ mid, ∀ e₃ ∈ mid, ∀ a b c x y z, a ≤ b → b ≤ c →
          e₁.call = (.read ⟨k, a, b⟩, .read (.ok ⟨x⟩)) →
          e₂.call = (.read ⟨k, b, c⟩, .read (.ok ⟨y⟩)) →
          e₃.call = (.read ⟨k, a, c⟩, .read (.ok ⟨z⟩)) → x ++ y = z := by
  refine ⟨fun es st h => ?_, fun es m h => ⟨fun start stop => ?_,
    fun es' m' h' start stop hstop => ?_, ?_⟩⟩
  · have hinv := Tail.reading h
    exact ⟨hinv.seen, hinv.position_le, st.step_reader re2 k⟩
  · refine ⟨_, JournalMap.read_eq m k start stop, fun j v => ?_⟩
    rw [JournalMap.entriesOf_eq h]
    exact slice_getElem? _ _ _ _ _
  · exact JournalMap.read_stable h h' hstop start
  · rintro base mid rfl hquiet e₁ he₁ e₂ he₂ e₃ he₃ a b c x y z hab hbc h₁ h₂ h₃
    have hread : ∀ {e start stop entry}, e ∈ mid →
        e.call = (.read ⟨k, start, stop⟩, .read (.ok ⟨entry⟩)) →
        entry = ((JournalMap.appended k base).take stop).drop start := fun he hcall =>
      JournalMap.read_among h hquiet he (congrArg Prod.fst hcall) (congrArg Prod.snd hcall)
    rw [hread he₁ h₁, hread he₂ h₂, hread he₃ h₃]
    exact slice_append _ hab hbc

end DsService

import DsService.Lib.Log
import DsService.Store.Journal
import DsService.System.Sections

/-!
# Journals as logs

Workers report their progress in a journal that others tail. Callers that overlap cannot tell a
journal from one log, to which each `journal_append` adds its value at an instant and of which each
`journal_size` and `journal_read` sees a prefix: `concurrent_journal_is_a_log`.
-/

namespace DsService

variable {Q α : Type}

/-- What a call appends to the journal `k`. -/
def SystemOp.journals (k : String) : SystemOp α → Option String
  | .journalMap op => op.appends k
  | _ => none

/-- Only an append writes a journal. -/
theorem SystemOp.journals_eq_some {k v : String} {op : SystemOp α} :
    op.journals k = some v ↔ op = .journalMap (.append ⟨k, v⟩) := by
  constructor
  · intro h
    unfold journals JournalOp.appends at h
    split at h
    · split at h
      · next request =>
        obtain ⟨key, value⟩ := request
        split at h
        · next hk =>
          cases h
          cases hk
          rfl
        · cases h
      · cases h
    · cases h
  · rintro rfl
    exact if_pos rfl

section
variable [LinearOrder α] [PriorityQueue Q (TaskQueueEntry α) taskQueueEntryOrder]

/-- A journal is a log. -/
theorem SystemState.journalLog (re2 : RE2) (iso : Iso8601) (k : String) :
    Locking.Log (machine Q re2 iso) (fun m : SystemState Q α => m.journalMap.entriesOf k)
      (SystemOp.journals k) := by
  constructor
  · rfl
  · intro m op r m' hs
    cases step_served hs with
    | journalMap hjournal => exact JournalMap.step_entriesOf hjournal k
    | _ => exact (List.append_nil _).symm

end

variable {κ : Type}

/-- The call `j` was told the size of the journal `k`, or read a part of it. -/
inductive Looked (k : String) (H : List (SystemVisible κ α)) (j : κ) : Prop
  | sized {n : Nat} (h : Replied H j (.journalMap (.size ⟨k⟩)) (.journalMap (.size (.ok ⟨n⟩))))
  | read {start stop : Nat} {entry : List String}
      (h : Replied H j (.journalMap (.read ⟨k, start, stop⟩))
        (.journalMap (.read (.ok ⟨entry⟩))))

variable [LinearOrder α] [PriorityQueue Q (TaskQueueEntry α) taskQueueEntryOrder]
  {re2 : RE2} {iso : Iso8601} {cuts : Cuts Q re2 iso} [DecidableEq κ] {H : List (SystemVisible κ α)}
  {c : Locking.Config (SystemState Q α) Store κ (Store.Part Q α) (SystemOp α) (SystemReply α)}

/-- **A journal is one log.** Whatever calls on the server run at the same time: the calls that
append to the journal `k` stand in one log, every answered one among them, in an order that keeps
those apart that do not overlap. Each call that asks for the size or reads sees a prefix of the log,
with every append that was answered before it was made and none that was made after it was answered;
the size is the length of the prefix, and what is read is the slice of it. A call made after another
was answered sees no shorter prefix. -/
theorem concurrent_journal_is_a_log (h : SystemExec cuts H c) (k : String) :
    ∃ (log : List (κ × String)) (seen : κ → Nat),
      (log.map Prod.fst).Nodup ∧
      (∀ i v, (i, v) ∈ log → .call i (.journalMap (.append ⟨k, v⟩)) ∈ H) ∧
      (∀ i v r, Replied H i (.journalMap (.append ⟨k, v⟩)) r → (i, v) ∈ log) ∧
      (∀ i j, i ∈ log.map Prod.fst → j ∈ log.map Prod.fst → Before H i j →
        [i, j].Sublist (log.map Prod.fst)) ∧
      (∀ j n, Replied H j (.journalMap (.size ⟨k⟩)) (.journalMap (.size (.ok ⟨n⟩))) →
        n = seen j) ∧
      (∀ j start stop entry, Replied H j (.journalMap (.read ⟨k, start, stop⟩))
          (.journalMap (.read (.ok ⟨entry⟩))) →
        entry = (((log.take (seen j)).map Prod.snd).take stop).drop start) ∧
      (∀ j, Looked k H j → seen j ≤ log.length ∧ ∀ i v, (i, v) ∈ log →
        (Before H i j → (i, v) ∈ log.take (seen j)) ∧
        ((i, v) ∈ log.take (seen j) → ¬ Before H j i)) ∧
      ∀ i j, Looked k H i → Looked k H j → Before H i j → seen i ≤ seen j := by
  obtain ⟨l, m, hl, -⟩ := Locking.Exec.linearizes h
  rw [SystemState.machine_eq] at hl
  have hlog : Locking.Log (SystemState.machine Q re2 iso) _ _ :=
    SystemState.journalLog re2 iso k
  have hids : ∀ {i : κ} {e : SystemEvent Q α}, (i, e) ∈ l → i ∈ l.map Prod.fst := fun he =>
    List.mem_map_of_mem he
  have hsub := Locking.appenders_sublist (SystemOp.journals k) l
  have hlooked : ∀ {j}, Looked k H j → ∃ e, (j, e) ∈ l := by
    rintro j (hr | hr) <;>
    · obtain ⟨e, he, -⟩ := hr.event h hl
      exact ⟨e, he⟩
  refine ⟨Locking.appenders (SystemOp.journals k) l, Locking.seen (SystemOp.journals k) l,
    hl.once.sublist hsub, fun i v hi => ?_, fun i v r hr => ?_, fun i j hi hj hij => ?_,
    fun j n hr => ?_, fun j start stop entry hr => ?_,
    fun j hj => ⟨?_, fun i v hi => ⟨fun hij => ?_, fun hi' hji => ?_⟩⟩, fun i j hi hj hij => ?_⟩
  · obtain ⟨e, he, hv⟩ := Locking.mem_appenders.1 hi
    have hcall := hl.called he
    rwa [SystemOp.journals_eq_some.1 hv] at hcall
  · obtain ⟨e, he, hop, -⟩ := hr.event h hl
    exact Locking.mem_appenders.2 ⟨e, he, by rw [hop, SystemOp.journals_eq_some]⟩
  · have hij := hij.sublist hl (hsub.subset hj)
    have hne : i ≠ j := by
      rintro rfl
      exact hl.asymm hij hij
    refine (Locking.pair_sublist_or hi hj hne).resolve_right fun hji => ?_
    exact hl.asymm hij (hji.trans hsub)
  · obtain ⟨pre, post, he, hs⟩ := hr.step h hl
    have hsize : SystemReply.journalMap (.size (pre.journalMap.size ⟨k⟩)) =
        (SystemReply.journalMap (.size (.ok ⟨n⟩)) : SystemReply α) :=
      congrArg Prod.fst (Option.some.inj hs)
    have hpre := hl.log_pre hlog he
    rw [JournalMap.size_eq, hpre, List.length_map, List.length_take,
      Nat.min_eq_left (Locking.seen_le_length _ _ _)] at hsize
    cases hsize
    rfl
  · obtain ⟨pre, post, he, hs⟩ := hr.step h hl
    have hread : pre.journalMap.read ⟨k, start, stop⟩ = some (.ok ⟨entry⟩) := by
      cases SystemState.step_served hs with
      | journalMap hjournal =>
        obtain ⟨result, hread, heq⟩ := Option.bind_eq_some_iff.1 hjournal
        cases heq
        exact hread
    have hpre := hl.log_pre hlog he
    rw [JournalMap.read_eq, hpre] at hread
    cases hread
    rfl
  · exact Locking.seen_le_length _ _ _
  · obtain ⟨e, he⟩ := hlooked hj
    exact (hl.mem_seen he).2 ⟨hi, hij.sublist hl (hids he)⟩
  · obtain ⟨e, he⟩ := hlooked hj
    obtain ⟨f, hf, -⟩ := Locking.mem_appenders.1 hi
    exact hl.asymm ((hl.mem_seen he).1 hi').2 (hji.sublist hl (hids hf))
  · obtain ⟨e, he⟩ := hlooked hi
    obtain ⟨f, hf⟩ := hlooked hj
    exact hl.seen_le he hf (hij.sublist hl (hids hf))

/-- A worker appends an entry while another asks for the size and reads up to there, and the entry
comes between. -/
def reportCalls : List (SystemVisible Nat Nat) :=
  [.call 0 (.journalMap (.append ⟨"k", "started"⟩)), .call 1 (.journalMap (.size ⟨"k"⟩)),
    .answer 1 (.journalMap (.size (.ok ⟨0⟩))), .call 2 (.journalMap (.read ⟨"k", 0, 9⟩)),
    .answer 2 (.journalMap (.read (.ok ⟨["started"]⟩)))]

/-- The calls of the report can be made and answered as listed. -/
theorem sampleExec_report : ∃ c, SampleExec reportCalls c := by
  have h₀ : SampleExec [] _ := .start
  have h₁ := h₀.turn (.arrive (k := 0) (.journalMap (.append ⟨"k", "started"⟩)) rfl)
  have h₂ := h₁.turn (.prepare (k := 0) rfl rfl)
  have h₃ := h₂.turn (.arrive (k := 1) (.journalMap (.size ⟨"k"⟩)) rfl)
  have h₄ := h₃.turn (.prepare (k := 1) rfl rfl)
  have h₅ := h₄.turn (.lock (k := 1) rfl rfl)
  have h₆ := h₅.turn (.stmt (k := 1) rfl)
  have h₇ := h₆.turn (.unlock (k := 1) rfl)
  have h₈ := h₇.turn (.answer (k := 1) rfl)
  have h₉ := h₈.turn (.lock (k := 0) rfl rfl)
  have h₁₀ := h₉.turn (.stmt (k := 0) rfl)
  have h₁₁ := h₁₀.turn (.stmt (k := 0) rfl)
  have h₁₂ := h₁₁.turn (.unlock (k := 0) rfl)
  have h₁₃ := h₁₂.turn (.arrive (k := 2) (.journalMap (.read ⟨"k", 0, 9⟩)) rfl)
  have h₁₄ := h₁₃.turn (.prepare (k := 2) rfl rfl)
  have h₁₅ := h₁₄.turn (.lock (k := 2) rfl rfl)
  have h₁₆ := h₁₅.turn (.stmt (k := 2) rfl)
  have h₁₇ := h₁₆.turn (.unlock (k := 2) rfl)
  exact ⟨_, h₁₇.turn (.answer (k := 2) rfl)⟩

/-- The size taken while an append is under way is 0, and a read past it has the entry. -/
theorem concurrent_journal_is_a_log_report : ∃ (log : List (Nat × String)) (seen : Nat → Nat),
    seen 1 = 0 ∧ (((log.take (seen 2)).map Prod.snd).take 9).drop 0 = ["started"] := by
  obtain ⟨c, h⟩ := sampleExec_report
  obtain ⟨log, seen, -, -, -, -, hsize, hread, -⟩ := concurrent_journal_is_a_log h "k"
  have hzero := hsize 1 0 ⟨.tail _ (.head _), .tail _ (.tail _ (.head _))⟩
  have hentry := hread 2 0 9 ["started"] ⟨.tail _ (.tail _ (.tail _ (.head _))),
    .tail _ (.tail _ (.tail _ (.tail _ (.head _))))⟩
  exact ⟨log, seen, hzero.symm, hentry.symm⟩

end DsService

import DsService.Task.LifeCycle
import DsService.Task.Schedule
import Mathlib.Data.Multiset.Filter

/-!
# The entries of the queues

Entries get into the queues in three places, with a row that is added ready, is released, or gets a
new priority, and they die in three others without being removed. So whether an entry counts is not
written in the entry: it counts while its row is ready and still has its seq (`LiveEntry`).
`queue_representation` says in every reachable state which entries count and at which priority, what
the seq column tells about the past, and that a dead entry never counts again.
-/

namespace DsService

variable {Q α : Type}

/-- The entry counts: its row is ready and still has its seq. -/
def TaskManager.LiveEntry (m : TaskManager Q α) (e : TaskQueueEntry α) : Prop :=
  m.tasks.state[e.index]? = some .ready ∧ m.tasks.seq[e.index]? = some e.seq

instance (m : TaskManager Q α) (e : TaskQueueEntry α) : Decidable (m.LiveEntry e) :=
  inferInstanceAs (Decidable (_ ∧ _))

/-! ## Dead entries in the graph -/

namespace TaskGraph

variable {s s' : TaskGraph α} {op : TaskOp α} {r : TaskReply α} {i : Nat}

/-- The log only grows. -/
theorem Change.log_append (h : s.Change op r s') : ∃ records, s'.log = s.log ++ records := by
  have hnone : s'.log = s.log → ∃ records, s'.log = s.log ++ records := fun hlog =>
    ⟨[], by rw [hlog, List.append_nil]⟩
  cases h with
  | same _ => exact hnone rfl
  | @add request parents _ _ =>
      by_cases hready : (s.birth parents).1 = .ready
      · exact ⟨_, by rw [add_log, if_pos hready]⟩
      · exact hnone (by rw [add_log, if_neg hready])
  | cancel _ _ => exact hnone rfl
  | @setPriority request x _ =>
      by_cases hready : (s.task x).state = .ready
      · exact ⟨_, by rw [reprioritize_log, if_pos hready]⟩
      · exact hnone (by rw [reprioritize_log, if_neg hready])
  | claim _ _ => exact hnone rfl
  | fail _ _ _ _ => exact hnone rfl
  | finish _ _ _ _ => exact ⟨_, finish_log _⟩

/-- **A number of the log that counts after a step counted before it.** A task that enters the log
gets a number beyond it. One that does not enter keeps its number, and cannot have been waiting,
since a waiting task has none. -/
theorem Change.counted (h : s.Change op r s') (hwf : s.WF) (hi : i < s.size) {seq : Nat}
    (hpos : 0 < seq) (hle : seq ≤ s.log.length) (hst : (s'.task i).state = .ready)
    (hseq : s'.seq i = seq) : (s.task i).state = .ready ∧ s.seq i = seq := by
  obtain ⟨records, hlog⟩ := h.log_append
  have hkeep : s.seq i = seq := by
    unfold TaskGraph.seq at hseq ⊢
    rw [hlog, List.map_append, lastSeq.append, List.length_map] at hseq
    split at hseq
    · next hmem =>
        have hnew := lastSeq.pos_iff.2 hmem
        omega
    · exact hseq
  have hmem : i ∈ s.log.map Prod.fst := by
    refine lastSeq.pos_iff.1 (lt_of_lt_of_eq hpos ?_)
    exact hkeep.symm
  refine ⟨?_, hkeep⟩
  rcases h.edge hwf hi with hsame | hedge
  · rw [← hsame]
    exact hst
  · rw [hst] at hedge
    generalize hw : (s.task i).state = state at hedge
    cases hedge with
    | release _ _ _ => exact absurd hmem (hwf.unlogged hi hw)

end TaskGraph

/-! ## The entries of the table -/

variable [LinearOrder α] [PriorityQueue Q (TaskQueueEntry α) taskQueueEntryOrder]

/-- The entries of a row in a queue that count. -/
def TaskManager.liveEntries (m : TaskManager Q α) (qname : String) (r : Nat) :
    Multiset (TaskQueueEntry α) :=
  (entries m.queue qname).filter fun e => e.index = r ∧ m.LiveEntry e

variable {re2 : RE2} {es : List (TaskEvent Q α)} {m : TaskManager Q α} {s : TaskGraph α}
variable {v : Rows Q α}

omit [LinearOrder α] [PriorityQueue Q (TaskQueueEntry α) taskQueueEntryOrder] in

/-- An entry is live by the columns exactly if it is by the rows. -/
theorem Rows.liveEntry_manager {e : TaskQueueEntry α} (he : e.index < v.size) :
    v.manager.LiveEntry e ↔ v.LiveEntry e := by
  unfold TaskManager.LiveEntry LiveEntry
  rw [state_manager he, seq_manager he, Option.some.injEq, Option.some.injEq, eq_comm (a := e.seq)]

/-- The entries of a ready row that count are copies of its entry in the graph, and a row that is
not ready has none. -/
theorem Refines.liveEntries_eq (h : Refines v s) (hwf : s.WF) (qname : String) (r : Nat) :
    v.manager.liveEntries qname r = (entries v.queue qname).filter fun e =>
      (s.task r).state = .ready ∧ s.entryOf r = e := by
  unfold TaskManager.liveEntries
  refine Multiset.filter_congr fun e he => ?_
  rw [Rows.liveEntry_manager (h.size ▸ h.entry_lt hwf he), h.live_iff hwf he]
  constructor
  · rintro ⟨rfl, hst, heq⟩
    exact ⟨hst, heq.symm⟩
  · rintro ⟨hst, rfl⟩
    exact ⟨rfl, hst, rfl⟩

/-- A `Ready` task has a live entry for each time it lists the queue, and another task none. -/
theorem Refines.card_liveEntries (h : Refines v s) (hwf : s.WF) (qname : String) {r : Nat}
    (hr : r < s.size) : (v.manager.liveEntries qname r).card =
      if (s.task r).state = .ready then (s.task r).queues.count qname else 0 := by
  rw [h.liveEntries_eq hwf]
  split
  · next hst =>
      rw [← h.queued.live hr hst qname, Multiset.count_eq_card_filter_eq]
      simp only [hst, true_and]
  · next hst => simp [hst]

/-- The seq of a row is zero as long as its task has entered no queue. -/
theorem TaskRun.seq_eq_zero (h : TaskRun re2 es m s) {r : Nat} (hr : r < s.size) :
    s.seq r = 0 ↔ (s.task r).taskId ∉ entryLog es := by
  rw [h.entryLog_eq, ← Nat.le_zero, ← Nat.not_lt, not_iff_not]
  unfold TaskGraph.seq TaskGraph.ids
  rw [lastSeq.pos_iff]
  constructor
  · intro hmem
    obtain ⟨e, he, rfl⟩ := List.mem_map.1 hmem
    exact List.mem_map.2 ⟨e, he, rfl⟩
  · intro hmem
    obtain ⟨e, he, heq⟩ := List.mem_map.1 hmem
    exact List.mem_map.2 ⟨e, he, h.wf.ids (h.wf.log_lt e he) hr heq⟩

/-- The seq column holds the numbers of the graph. -/
theorem TaskRun.seq_column (h : TaskRun re2 es m s) {r seq : Nat}
    (hr : m.tasks.seq[r]? = some seq) : r < s.size ∧ s.seq r = seq := by
  obtain ⟨-, v, rfl, href⟩ := h.related
  have hlt := (List.getElem?_eq_some_iff.1 hr).1
  rw [show v.manager.tasks.seq.length = v.size from tab.length] at hlt
  have hrs : r < s.size := href.size ▸ hlt
  rw [Rows.seq_manager hlt, href.row hrs, Option.some.injEq] at hr
  exact ⟨hrs, hr⟩

/-- The entry was made before, and does not count. -/
def TaskManager.DeadEntry (m : TaskManager Q α) (e : TaskQueueEntry α) : Prop :=
  0 < e.seq ∧ e.seq ≤ m.nextSeq ∧ (∃ state, m.tasks.state[e.index]? = some state) ∧ ¬ m.LiveEntry e

/-- A dead entry was made for a task that is no longer `Ready`, or that was queued again. -/
theorem TaskRun.deadEntry_iff (h : TaskRun re2 es m s) {e : TaskQueueEntry α} :
    m.DeadEntry e ↔ 0 < e.seq ∧ e.seq ≤ s.log.length ∧ e.index < s.size ∧
      ¬ ((s.task e.index).state = .ready ∧ s.seq e.index = e.seq) := by
  obtain ⟨-, v, rfl, href⟩ := h.related
  unfold TaskManager.DeadEntry
  rw [show v.manager.nextSeq = s.log.length from href.nextSeq]
  have hrow : (∃ state, v.manager.tasks.state[e.index]? = some state) ↔ e.index < s.size := by
    refine ⟨fun ⟨state, hst⟩ => h.related.row_lt hst, fun hi => ?_⟩
    exact ⟨_, (h.related.columns hi).2.1⟩
  rw [hrow]
  refine and_congr_right fun _ => and_congr_right fun _ => and_congr_right fun hi => ?_
  rw [Rows.liveEntry_manager (href.size ▸ hi), Rows.LiveEntry, href.row hi, eq_comm (a := e.seq)]
  rfl

/-- An entry of a queue that does not count is dead. -/
theorem TaskRun.deadEntry (h : TaskRun re2 es m s) {qname : String} {e : TaskQueueEntry α}
    (he : e ∈ entries m.queue qname) (hd : ¬ m.LiveEntry e) : m.DeadEntry e := by
  obtain ⟨hwf, v, rfl, href⟩ := h.related
  obtain ⟨hpos, hle⟩ := href.queued.seq_le he
  have hi := href.entry_lt hwf he
  exact ⟨hpos, hle.trans_eq href.nextSeq.symm, ⟨_, (h.related.columns hi).2.1⟩, hd⟩

/-- A dead entry stays dead over a step. -/
theorem TaskRun.deadEntry_step (h : TaskRun re2 es m s) {op : TaskOp α} {r : TaskReply α}
    {m' : TaskManager Q α} {e : TaskQueueEntry α}
    (hs : (TaskManager.machine Q re2).step m op = some (r, m')) (hd : m.DeadEntry e) :
    m'.DeadEntry e := by
  obtain ⟨s', hserve, hrep'⟩ := (TaskManager.simulation re2).serves h.related hs
  obtain ⟨hpos, hle, hi, hdead⟩ := h.deadEntry_iff.1 hd
  obtain ⟨records, hlog⟩ := hserve.change.log_append
  refine (TaskRun.deadEntry_iff (.snoc h hs hserve hrep')).2
    ⟨hpos, ?_, (hserve.change.keeps hi).1, fun ⟨hst, hseq⟩ => ?_⟩
  · rw [hlog, List.length_append]
    exact Nat.le_add_right_of_le hle
  · exact hdead (hserve.change.counted h.wf hi hpos hle hst hseq)

/-- A row has its entries while it is ready. -/
theorem TaskRun.live_entries (h : TaskRun re2 es m s) {r : Nat} {state : TaskState}
    (hst : m.tasks.state[r]? = some state) :
    ∃ queues priority, m.tasks.queues[r]? = some queues ∧ m.tasks.priority[r]? = some priority ∧
      ∀ qname, (m.liveEntries qname r).card = (if state = .ready then queues.count qname else 0) ∧
        ∀ e ∈ m.liveEntries qname r, e.priority = priority := by
  have hrs := h.related.row_lt hst
  obtain ⟨-, hst', -, -, hprio, hqueues, -⟩ := h.related.columns hrs
  rw [hst, Option.some.injEq] at hst'
  subst hst'
  refine ⟨_, _, hqueues, hprio, fun qname => ?_⟩
  obtain ⟨hwf, v, rfl, href⟩ := h.related
  refine ⟨href.card_liveEntries hwf qname hrs, fun e he => ?_⟩
  rw [href.liveEntries_eq hwf] at he
  obtain ⟨-, -, rfl⟩ := Multiset.mem_filter.1 he
  rfl

/-- An entry has a seq that was given out, and its row names the queue. -/
theorem TaskRun.entry_placed (h : TaskRun re2 es m s) {qname : String} {e : TaskQueueEntry α}
    (he : e ∈ entries m.queue qname) : 1 ≤ e.seq ∧ e.seq ≤ m.nextSeq ∧
      ∃ queues, m.tasks.queues[e.index]? = some queues ∧ qname ∈ queues := by
  obtain ⟨hwf, v, rfl, href⟩ := h.related
  obtain ⟨hpos, hle⟩ := href.queued.seq_le he
  have hi := href.entry_lt hwf he
  exact ⟨hpos, hle.trans_eq href.nextSeq.symm, _, (h.related.columns hi).2.2.2.2.2.1,
    (href.queued.entry he).1⟩

/-- No two rows have the same seq, but for zero. -/
theorem TaskRun.seq_inj (h : TaskRun re2 es m s) {r r' seq : Nat}
    (hr : m.tasks.seq[r]? = some seq) (hr' : m.tasks.seq[r']? = some seq) (hne : seq ≠ 0) :
    r = r' := by
  have hmem : ∀ {k : Nat}, m.tasks.seq[k]? = some seq → k ∈ s.log.map Prod.fst ∧
      s.seq k = seq := by
    intro k hk
    have hseq := (h.seq_column hk).2
    exact ⟨lastSeq.pos_iff.1 (Nat.pos_of_ne_zero fun hz => hne (hseq.symm.trans hz)), hseq⟩
  obtain ⟨hl, hseq⟩ := hmem hr
  obtain ⟨hl', hseq'⟩ := hmem hr'
  exact lastSeq.inj hl hl' (hseq.trans hseq'.symm)

/-- The seq of zero, by the request of the row. -/
theorem TaskRun.seq_zero_iff (h : TaskRun re2 es m s) {r seq : Nat}
    (hr : m.tasks.seq[r]? = some seq) : ∃ request, (adds es)[r]? = some request ∧
      (seq = 0 ↔ request.taskId ∉ entryLog es) := by
  obtain ⟨hlen, hall⟩ := h.recorded
  obtain ⟨hrs, rfl⟩ := h.seq_column hr
  have hget := List.getElem?_eq_getElem (hlen.symm ▸ hrs)
  refine ⟨_, hget, ?_⟩
  rw [← (hall r _ hget).taskId]
  exact h.seq_eq_zero hrs

/-- An entry that does not count in a state of the run counts in none after it. -/
theorem dead_stays {es₁ es₂ : List (TaskEvent Q α)} {e₀ : TaskEvent Q α}
    (h : (TaskManager.machine Q re2).Run (es₁ ++ e₀ :: es₂) m) {qname : String}
    {e : TaskQueueEntry α} (he : e ∈ entries e₀.pre.queue qname) (hdead : ¬ e₀.pre.LiveEntry e) :
    ¬ e₀.post.LiveEntry e ∧ (∀ e' ∈ es₂, ¬ e'.post.LiveEntry e) ∧ ¬ m.LiveEntry e := by
  obtain ⟨hpre, hs⟩ := h.split
  obtain ⟨s₀, hc₀⟩ := TaskManager.exists_taskRun hpre
  have hstep : ∀ {es : List (TaskEvent Q α)} {m : TaskManager Q α} {op r m'},
      (TaskManager.machine Q re2).Run es m →
      (TaskManager.machine Q re2).step m op = some (r, m') → m.DeadEntry e → m'.DeadEntry e := by
    intro es m op r m' hrun hs hd
    obtain ⟨s, hc⟩ := TaskManager.exists_taskRun hrun
    exact hc.deadEntry_step hs hd
  have hpost := hstep hpre hs (hc₀.deadEntry he hdead)
  obtain ⟨hm, hlater⟩ := h.stable hstep hpost
  exact ⟨hpost.2.2.2, fun e' he' => (hlater e' he').2.2.2.2, hm.2.2.2⟩

/-- **The queues represent the ready rows.** In every reachable state: a row has as many entries
that count in a queue as it names the queue, all with its priority, while it is ready, and none
otherwise; every entry has a seq that was given out and sits in a queue that its row names; seqs
other than zero are distinct, and zero is the seq of a row that never entered its queues. No call of
the run made an entry count that did not. -/
theorem queue_representation (h : (TaskManager.machine Q re2).Run es m) :
    (∀ (r : Nat) state, m.tasks.state[r]? = some state →
      ∃ queues priority, m.tasks.queues[r]? = some queues ∧ m.tasks.priority[r]? = some priority ∧
        ∀ qname, (m.liveEntries qname r).card =
            (if state = .ready then queues.count qname else 0) ∧
          ∀ e ∈ m.liveEntries qname r, e.priority = priority) ∧
    (∀ qname, ∀ e ∈ entries m.queue qname, 1 ≤ e.seq ∧ e.seq ≤ m.nextSeq ∧
      ∃ queues, m.tasks.queues[e.index]? = some queues ∧ qname ∈ queues) ∧
    (∀ (r r' seq : Nat), m.tasks.seq[r]? = some seq → m.tasks.seq[r']? = some seq → seq ≠ 0 →
      r = r') ∧
    (∀ (r seq : Nat), m.tasks.seq[r]? = some seq → ∃ request, (adds es)[r]? = some request ∧
      (seq = 0 ↔ request.taskId ∉ entryLog es)) ∧
    ∀ es₁ e₀ es₂, es = es₁ ++ e₀ :: es₂ → ∀ qname, ∀ e ∈ entries e₀.pre.queue qname,
      ¬ e₀.pre.LiveEntry e →
        ¬ e₀.post.LiveEntry e ∧ (∀ e' ∈ es₂, ¬ e'.post.LiveEntry e) ∧ ¬ m.LiveEntry e := by
  obtain ⟨s, hc⟩ := TaskManager.exists_taskRun h
  refine ⟨fun r state => hc.live_entries, fun qname e => hc.entry_placed,
    fun r r' seq => hc.seq_inj, fun r seq => hc.seq_zero_iff, ?_⟩
  rintro es₁ e₀ es₂ rfl qname e he hdead
  exact dead_stays h he hdead

/-- A task that lists a queue twice has two live entries there. -/
theorem queue_representation_requeued :
    ((sampleRun requeued).2.liveEntries "q" 1).card = 2 ∧
      ∀ e ∈ (sampleRun requeued).2.liveEntries "q" 1, e.priority = .num 1 := by
  obtain ⟨queues, priority, hqueues, hprio, hlive⟩ :=
    (queue_representation (run_sampleRun requeued rfl)).1 1 .ready rfl
  cases hqueues
  cases hprio
  exact hlive "q"

end DsService

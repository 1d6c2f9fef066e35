import DsService.Task.Invariant
import DsService.Task.Rows
import Mathlib.Data.Multiset.Replicate

/-!
# The queues represent the log

A queue keeps an entry for every time one of its tasks entered, until `task_get` pops it. `Queued`
is the representation invariant: an entry in a queue is a record of the log under its number, and a
ready task has its latest entry in each of its queues, once per mention. Entries that no longer
count are not forbidden. `Queued.keep` and `Queued.enter` are the two ways it is kept.
-/

namespace DsService

open TaskManager

variable {Q α : Type} [LinearOrder α] [PriorityQueue Q (TaskQueueEntry α) taskQueueEntryOrder]

/-- The entries of a queue, none if it does not exist. -/
def entries (queue : HashMap String Q) (qname : String) : Multiset (TaskQueueEntry α) :=
  ((queue.lookup qname).map PriorityQueue.elems).getD 0

/-- Without queues there are no entries. -/
theorem entries_empty (qname : String) : entries (∅ : HashMap String Q) qname = 0 := rfl

/-- A queue that is replaced has the entries of the new one. -/
theorem entries_insert (queue : HashMap String Q) (qname : String) (q : Q) (name : String) :
    entries (queue.insert qname q) name =
      if name = qname then PriorityQueue.elems q else entries queue name := by
  unfold entries
  by_cases h : name = qname
  · subst h; simp
  · rw [AList.lookup_insert_ne h, if_neg h]

/-- The entries of a queue that is there are its elements. -/
theorem entries_lookup {queue : HashMap String Q} {qname : String} {q : Q}
    (h : queue.lookup qname = some q) : entries queue qname = PriorityQueue.elems q := by
  simp [entries, h]

/-- A push adds one entry to one queue. -/
theorem entries_push (queue : HashMap String Q) (qname : String) (entry : TaskQueueEntry α)
    (name : String) : entries (push queue qname entry) name =
      if name = qname then entry ::ₘ entries queue name else entries queue name := by
  unfold push
  rw [entries_insert]
  split
  · next h =>
      subst h
      rw [PriorityQueue.elems_push]
      unfold entries
      cases queue.lookup name with
      | none => simp
      | some q => simp
  · rfl

/-- Pushing into a list of queues puts one entry per mention into each. -/
theorem entries_pushAll (qnames : List String) (entry : TaskQueueEntry α) (name : String) :
    ∀ queue : HashMap String Q, entries (Rows.pushAll queue qnames entry) name =
      Multiset.replicate (qnames.count name) entry + entries queue name := by
  induction qnames with
  | nil => intro queue; simp [Rows.pushAll]
  | cons qname rest ih =>
      intro queue
      refine (ih (push queue qname entry)).trans ?_
      rw [entries_push]
      by_cases h : name = qname
      · subst h
        rw [if_pos rfl, List.count_cons_self, Multiset.replicate_succ, Multiset.cons_add,
          Multiset.add_cons]
      · rw [if_neg h, List.count_cons_of_ne (Ne.symm h)]

namespace TaskGraph

/-- The entry under which a task counts in its queues. -/
def entryOf (s : TaskGraph α) (i : Nat) : TaskQueueEntry α :=
  ⟨(s.task i).priority, s.seq i, i⟩

/-- The queues represent the log of the graph. -/
structure Queued (queue : HashMap String Q) (s : TaskGraph α) : Prop where
  entry : ∀ {qname e}, e ∈ entries queue qname → qname ∈ (s.task e.index).queues ∧ 0 < e.seq ∧
    s.log[e.seq - 1]? = some (e.index, e.priority)
  live : ∀ {i}, i < s.size → (s.task i).state = .ready → ∀ qname,
    (entries queue qname).count (s.entryOf i) = (s.task i).queues.count qname

variable {s s' : TaskGraph α} {queue : HashMap String Q} {i : Nat}

/-- Empty queues represent an empty log. -/
theorem Queued.empty : Queued (∅ : HashMap String Q) (empty : TaskGraph α) where
  entry h := by simp [entries_empty] at h
  live hi := absurd hi (Nat.not_lt_zero _)

/-- An entry's number is a place of the log. -/
theorem Queued.seq_le (h : Queued queue s) {qname : String} {e : TaskQueueEntry α}
    (he : e ∈ entries queue qname) : 0 < e.seq ∧ e.seq ≤ s.log.length := by
  obtain ⟨-, hpos, hget⟩ := h.entry he
  obtain ⟨hlt, -⟩ := List.getElem?_eq_some_iff.1 hget
  exact ⟨hpos, by omega⟩

/-- An entry is about a task that the log knows. -/
theorem Queued.index_mem (h : Queued queue s) {qname : String} {e : TaskQueueEntry α}
    (he : e ∈ entries queue qname) : e.index ∈ s.log.map Prod.fst := by
  obtain ⟨-, -, hget⟩ := h.entry he
  exact List.mem_map.2 ⟨_, List.mem_of_getElem? hget, rfl⟩

/-- Entries may be dropped, and tasks may stop being ready, as long as no task becomes ready and
those that stay ready keep their entries. -/
theorem Queued.shrink {queue' : HashMap String Q} (h : Queued queue s) (hlog : s'.log = s.log)
    (hsub : ∀ {qname e}, e ∈ entries queue' qname → e ∈ entries queue qname)
    (hqueues : ∀ i ∈ s.log.map Prod.fst, (s'.task i).queues = (s.task i).queues)
    (hready : ∀ {i}, i < s'.size → (s'.task i).state = .ready → i < s.size ∧
      (s.task i).state = .ready ∧ (s'.task i).priority = (s.task i).priority ∧
      (s'.task i).queues = (s.task i).queues)
    (hcount : ∀ {i}, i < s'.size → (s'.task i).state = .ready → ∀ qname,
      (entries queue' qname).count (s.entryOf i) = (entries queue qname).count (s.entryOf i)) :
    Queued queue' s' where
  entry he := by
    obtain ⟨hq, hpos, hget⟩ := h.entry (hsub he)
    rw [hqueues _ (h.index_mem (hsub he)), hlog]
    exact ⟨hq, hpos, hget⟩
  live {i} hi hst qname := by
    obtain ⟨hi', hst', hprio, hq⟩ := hready hi hst
    have hentry : s'.entryOf i = s.entryOf i := by
      simp only [entryOf, seq, hlog, hprio]
    rw [hentry, hq, hcount hi hst]
    exact h.live hi' hst' qname

/-- The queues stay as they are when nothing enters and no task becomes ready. -/
theorem Queued.keep (h : Queued queue s) (hlog : s'.log = s.log)
    (hqueues : ∀ i ∈ s.log.map Prod.fst, (s'.task i).queues = (s.task i).queues)
    (hready : ∀ {i}, i < s'.size → (s'.task i).state = .ready → i < s.size ∧
      (s.task i).state = .ready ∧ (s'.task i).priority = (s.task i).priority ∧
      (s'.task i).queues = (s.task i).queues) : Queued queue s' :=
  h.shrink hlog id hqueues hready fun _ _ _ => rfl

/-- A task enters its queues: its entry under the next number is pushed into each of them. -/
theorem Queued.enter (h : Queued queue s) (hlog : s'.log = s.log ++ [(i, (s'.task i).priority)])
    (hqueues : ∀ j ∈ s.log.map Prod.fst, (s'.task j).queues = (s.task j).queues)
    (hready : ∀ {j}, j ≠ i → j < s'.size → (s'.task j).state = .ready → j < s.size ∧
      (s.task j).state = .ready ∧ (s'.task j).priority = (s.task j).priority ∧
      (s'.task j).queues = (s.task j).queues) :
    Queued (Rows.pushAll queue (s'.task i).queues
      ⟨(s'.task i).priority, s.log.length + 1, i⟩) s' where
  entry {qname e} he := by
    rw [entries_pushAll, Multiset.mem_add] at he
    rcases he with he | he
    · obtain ⟨hcount, rfl⟩ := Multiset.mem_replicate.1 he
      refine ⟨List.count_pos_iff.1 (Nat.pos_of_ne_zero hcount), Nat.succ_pos _, ?_⟩
      rw [hlog]
      simp
    · obtain ⟨hq, hpos, hget⟩ := h.entry he
      have hlt := (h.seq_le he).2
      rw [hqueues _ (h.index_mem he), hlog, List.getElem?_append_left (by omega)]
      exact ⟨hq, hpos, hget⟩
  live {j} hj hst qname := by
    rw [entries_pushAll, Multiset.count_add, Multiset.count_replicate]
    have hseq : s'.seq j = if j = i then s.log.length + 1 else s.seq j := by
      simp only [seq, hlog, List.map_append, List.map_cons, List.map_nil,
        lastSeq.append_singleton, List.length_map]
    by_cases hji : j = i
    · subst hji
      have hentry : s'.entryOf j = ⟨(s'.task j).priority, s.log.length + 1, j⟩ := by
        simp [entryOf, hseq]
      have hzero : (entries queue qname).count (s'.entryOf j) = 0 := by
        rw [Multiset.count_eq_zero]
        intro hmem
        have := (h.seq_le hmem).2
        rw [hentry] at this
        exact absurd this (Nat.not_succ_le_self _)
      rw [hentry] at hzero ⊢
      rw [if_pos rfl, hzero, Nat.add_zero]
    · obtain ⟨hj', hst', hprio, hq⟩ := hready hji hj hst
      have hentry : s'.entryOf j = s.entryOf j := by
        simp only [entryOf, hseq, if_neg hji, hprio]
      have hne : (⟨(s'.task i).priority, s.log.length + 1, i⟩ : TaskQueueEntry α) ≠
          s'.entryOf j := fun heq => hji (congrArg TaskQueueEntry.index heq).symm
      rw [if_neg hne, Nat.zero_add, hentry, hq]
      exact h.live hj' hst' qname

end TaskGraph

end DsService

import DsService.Task.Refines
import Mathlib.Order.Nat

/-!
# Dispatch

`task_get` never scans the table: it pops entries off the heaps of the queues it is given and drops
those that no longer count. `Refines.getFrom` says that it answers as a scan would. Two facts carry
it. An entry counts exactly when it is the latest entry of a ready task (`RefinesWith.live_iff`),
and the loop over one queue returns a greatest entry among those that count and drops no other of
them (`Rows.popLive_manager`).
-/

namespace DsService

variable {Q α : Type} [LinearOrder α]

/-! ## The order of the entries -/

/-- The comparator between entries whose priorities are numbers. -/
theorem taskQueueEntryOrder_num {a b : TaskQueueEntry α} {x y : α} (ha : a.priority = .num x)
    (hb : b.priority = .num y) :
    taskQueueEntryOrder a b = true ↔ x < y ∨ x = y ∧ b.seq < a.seq := by
  unfold taskQueueEntryOrder
  rw [ha, hb]
  by_cases hxy : x = y
  · simp [Double.ne, hxy]
  · simp [Double.ne, Double.lt, hxy]

omit [LinearOrder α] in

/-- A priority that is not NaN is a number. -/
theorem Double.eq_num {p : Double α} (h : p ≠ .nan) : ∃ x, p = .num x := by
  cases p with
  | num x => exact ⟨x, rfl⟩
  | nan => exact absurd rfl h

/-- **The comparator is a strict weak order where no priority is NaN.** -/
theorem taskQueueEntryOrder_strictWeak :
    StrictWeakOn (taskQueueEntryOrder (α := α)) fun e => e.priority ≠ .nan where
  irrefl a ha := by
    obtain ⟨x, hx⟩ := Double.eq_num ha
    rw [Bool.eq_false_iff, ne_eq, taskQueueEntryOrder_num hx hx]
    grind
  asymm a b ha hb hab := by
    obtain ⟨x, hx⟩ := Double.eq_num ha
    obtain ⟨y, hy⟩ := Double.eq_num hb
    rw [taskQueueEntryOrder_num hx hy] at hab
    rw [Bool.eq_false_iff, ne_eq, taskQueueEntryOrder_num hy hx]
    grind
  trans a b c ha hb hc hab hbc := by
    obtain ⟨x, hx⟩ := Double.eq_num ha
    obtain ⟨y, hy⟩ := Double.eq_num hb
    obtain ⟨z, hz⟩ := Double.eq_num hc
    rw [taskQueueEntryOrder_num hx hy] at hab
    rw [taskQueueEntryOrder_num hy hz] at hbc
    rw [taskQueueEntryOrder_num hx hz]
    grind
  incomp a b c ha hb hc hab hba hbc hcb := by
    obtain ⟨x, hx⟩ := Double.eq_num ha
    obtain ⟨y, hy⟩ := Double.eq_num hb
    obtain ⟨z, hz⟩ := Double.eq_num hc
    simp only [Bool.eq_false_iff, ne_eq, taskQueueEntryOrder_num hx hy,
      taskQueueEntryOrder_num hy hz, taskQueueEntryOrder_num hx hz, taskQueueEntryOrder_num hy hx,
      taskQueueEntryOrder_num hz hy, taskQueueEntryOrder_num hz hx] at *
    grind

/-! ## One queue -/

variable [PriorityQueue Q (TaskQueueEntry α) taskQueueEntryOrder]

namespace Rows

variable {v : Rows Q α}

/-- The entry counts: its row is ready and still holds its seq. -/
def LiveEntry (v : Rows Q α) (e : TaskQueueEntry α) : Prop :=
  (v.row e.index).state = .ready ∧ e.seq = (v.row e.index).seq

/-- An empty queue hands nothing out. -/
theorem popLive_empty {n : Nat} {q : Q} (tasks : TaskTable α) (hpop : PriorityQueue.pop q = none) :
    TaskManager.popLive tasks n q = some (none, q) := by
  unfold TaskManager.popLive
  rw [hpop]

/-- One turn of the loop over a queue. -/
theorem popLive_turn {n : Nat} {q q' : Q} {e : TaskQueueEntry α} (he : e.index < v.size)
    (hpop : PriorityQueue.pop q = some (e, q')) :
    TaskManager.popLive v.manager.tasks (n + 1) q =
      if (v.row e.index).state ≠ .ready ∨ e.seq ≠ (v.row e.index).seq then
        TaskManager.popLive v.manager.tasks n q'
      else some (some e.index, q') := by
  conv_lhs => unfold TaskManager.popLive
  rw [hpop]
  dsimp only
  rw [state_manager he, seq_manager he]
  rfl

/-- Popping `q` down to `q'` picks `e`: an entry that counts, a greatest of these where the
comparator orders the queue, and no other entry that counts is dropped. -/
structure Picks (v : Rows Q α) (q : Q) (e : TaskQueueEntry α) (q' : Q) : Prop where
  mem : e ∈ PriorityQueue.elems q
  live : v.LiveEntry e
  le : PriorityQueue.elems q' ≤ PriorityQueue.elems q
  count : ∀ f, v.LiveEntry f → f ≠ e →
    (PriorityQueue.elems q').count f = (PriorityQueue.elems q).count f
  greatest : StrictWeakOn taskQueueEntryOrder (· ∈ PriorityQueue.elems q) →
    ∀ f ∈ PriorityQueue.elems q, v.LiveEntry f → taskQueueEntryOrder e f = false

/-- The entry on top is picked if it counts. -/
theorem Picks.top {q q' : Q} {e : TaskQueueEntry α} (hpop : PriorityQueue.pop q = some (e, q'))
    (hlive : v.LiveEntry e) : v.Picks q e q' := by
  have helems := PriorityQueue.pop_some hpop
  have hmem : e ∈ PriorityQueue.elems q := by rw [helems]; exact Multiset.mem_cons_self _ _
  refine ⟨hmem, hlive, ?_, ?_, ?_⟩
  · rw [helems]; exact Multiset.le_cons_self _ _
  · intro f _ hne
    rw [helems, Multiset.count_cons_of_ne hne]
  · intro hord f hf _
    rw [helems, Multiset.mem_cons] at hf
    rcases hf with rfl | hf
    · exact hord.irrefl f hmem
    · exact PriorityQueue.pop_max hord hpop f hf

/-- If the entry on top does not count, the rest of the queue decides. -/
theorem Picks.drop {q q' q'' : Q} {e f : TaskQueueEntry α}
    (hpop : PriorityQueue.pop q = some (e, q')) (hdead : ¬ v.LiveEntry e) (h : v.Picks q' f q'') :
    v.Picks q f q'' := by
  have helems := PriorityQueue.pop_some hpop
  have hmem : ∀ {g}, g ∈ PriorityQueue.elems q' → g ∈ PriorityQueue.elems q := fun hg => by
    rw [helems]; exact Multiset.mem_cons_of_mem hg
  refine ⟨hmem h.mem, h.live, ?_, ?_, ?_⟩
  · rw [helems]; exact h.le.trans (Multiset.le_cons_self _ _)
  · intro g hg hne
    rw [helems, h.count g hg hne, Multiset.count_cons_of_ne]
    rintro rfl
    exact hdead hg
  · intro hord g hg hlive
    rw [helems, Multiset.mem_cons] at hg
    rcases hg with rfl | hg
    · exact absurd hlive hdead
    · exact h.greatest (hord.mono fun a ha => hmem ha) g hg hlive

/-- The loop over one queue: it runs the queue empty if nothing in it counts, and else picks an
entry. -/
theorem popLive_manager : ∀ (n : Nat) (q : Q), PriorityQueue.size q ≤ n →
    (∀ e ∈ PriorityQueue.elems q, e.index < v.size) →
    (∃ q', TaskManager.popLive v.manager.tasks n q = some (none, q') ∧
      PriorityQueue.elems q' = 0 ∧ ∀ e ∈ PriorityQueue.elems q, ¬ v.LiveEntry e) ∨
    ∃ e q', TaskManager.popLive v.manager.tasks n q = some (some e.index, q') ∧
      v.Picks q e q' := by
  intro n
  induction n with
  | zero =>
      intro q hsize _
      have hempty : PriorityQueue.elems q = 0 := by
        rw [← Multiset.card_eq_zero, ← PriorityQueue.size_eq]
        exact Nat.le_zero.1 hsize
      refine .inl ⟨q, popLive_empty _ (PriorityQueue.pop_of_empty hempty), hempty, ?_⟩
      rw [hempty]
      exact fun e he => absurd he (Multiset.notMem_zero _)
  | succ n ih =>
      intro q hsize hlt
      cases hpop : PriorityQueue.pop q with
      | none =>
          have hempty := PriorityQueue.pop_none hpop
          refine .inl ⟨q, popLive_empty _ hpop, hempty, ?_⟩
          rw [hempty]
          exact fun e he => absurd he (Multiset.notMem_zero _)
      | some eq =>
          obtain ⟨e, q'⟩ := eq
          have helems := PriorityQueue.pop_some hpop
          have he : e.index < v.size := hlt e (by rw [helems]; exact Multiset.mem_cons_self _ _)
          have hturn := popLive_turn (n := n) he hpop
          by_cases hlive : v.LiveEntry e
          · rw [if_neg (by rintro (h | h); exacts [h hlive.1, h hlive.2])] at hturn
            exact .inr ⟨e, q', hturn, .top hpop hlive⟩
          · have hdead : (v.row e.index).state ≠ .ready ∨ e.seq ≠ (v.row e.index).seq := by
              by_contra hcon
              push Not at hcon
              exact hlive hcon
            rw [if_pos hdead] at hturn
            have hsize' : PriorityQueue.size q' ≤ n := by
              have := PriorityQueue.size_pop hpop
              omega
            have hlt' : ∀ f ∈ PriorityQueue.elems q', f.index < v.size := fun f hf =>
              hlt f (by rw [helems]; exact Multiset.mem_cons_of_mem hf)
            rcases ih q' hsize' hlt' with ⟨q'', hq'', hzero, hnone⟩ | ⟨f, q'', hq'', hpick⟩
            · refine .inl ⟨q'', hturn.trans hq'', hzero, fun f hf => ?_⟩
              rw [helems, Multiset.mem_cons] at hf
              rcases hf with rfl | hf
              · exact hlive
              · exact hnone f hf
            · exact .inr ⟨f, q'', hturn.trans hq'', hpick.drop hpop hlive⟩

omit [LinearOrder α] [PriorityQueue Q (TaskQueueEntry α) taskQueueEntryOrder] in
/-- The writes to a claimed row, and what the reply reads from it. -/
theorem claimRow_manager {i : Nat} (hi : i < v.size) (workerId : String) :
    (do let m ← v.manager.setState i .running
        let m ← m.setWorkerId i workerId
        let taskId ← m.tasks.taskId[i]?
        let function ← m.tasks.function[i]?
        let input ← m.tasks.input[i]?
        return (.ok ⟨taskId, function, input⟩, m) : Option (Result TaskGetResponse × _)) =
      some (.ok ⟨(v.row i).taskId, (v.row i).function, (v.row i).input⟩,
        (v.set i { v.row i with state := .running, workerId := workerId }).manager) := by
  let w := v.set i { v.row i with state := .running }
  let w' := v.set i { v.row i with state := .running, workerId := workerId }
  have hworker : w.manager.setWorkerId i workerId = some w'.manager := by
    rw [setWorkerId_manager (v := w) hi, set_row_self, set_set]
  have hrow : w'.row i = { v.row i with state := .running, workerId := workerId } :=
    set_row_self _
  have htaskId : w'.manager.tasks.taskId[i]? = some (w'.row i).taskId := taskId_manager hi
  have hfunction : w'.manager.tasks.function[i]? = some (w'.row i).function := function_manager hi
  have hinput : w'.manager.tasks.input[i]? = some (w'.row i).input := input_manager hi
  rw [hrow] at htaskId hfunction hinput
  rw [setState_manager hi]
  simp only [Option.bind_eq_bind, Option.bind_some]
  rw [hworker, Option.bind_some, htaskId, Option.bind_some, hfunction, Option.bind_some, hinput,
    Option.bind_some]
  rfl

end Rows

/-! ## The queues of a request -/

variable {pend : Nat → Nat} {v : Rows Q α} {s : TaskGraph α}

namespace RefinesWith

variable (h : RefinesWith pend v s) (hwf : s.WF)
include h hwf

/-- Entries name tasks of the graph. -/
theorem entry_lt {qname : String} {e : TaskQueueEntry α} (he : e ∈ entries v.queue qname) :
    e.index < s.size := by
  obtain ⟨r, hr, heq⟩ := List.mem_map.1 (h.queued.index_mem he)
  exact heq ▸ hwf.log_lt r hr

/-- **An entry counts exactly when it is the latest entry of a ready task.** -/
theorem live_iff {qname : String} {e : TaskQueueEntry α} (he : e ∈ entries v.queue qname) :
    v.LiveEntry e ↔ (s.task e.index).state = .ready ∧ e = s.entryOf e.index := by
  have hlt := h.entry_lt hwf he
  unfold Rows.LiveEntry
  rw [h.row hlt]
  constructor
  · rintro ⟨hready, hseq⟩
    refine ⟨hready, ?_⟩
    -- the record under the seq of a ready task has the priority of the task
    have hrecord := (hwf.logged hlt hready).2
    have hentry := (h.queued.entry he).2.2
    rw [show e.seq = s.seq e.index from hseq] at hentry
    have hprio := hentry.symm.trans hrecord
    simp only [Option.some.injEq, Prod.mk.injEq, true_and] at hprio
    obtain ⟨priority, seq, index⟩ := e
    simp only at hprio hseq
    rw [hprio, hseq]
    rfl
  · rintro ⟨hready, heq⟩
    exact ⟨hready, congrArg TaskQueueEntry.seq heq⟩

/-- The entry of a task that a queue offers is in the queue and counts. -/
theorem offers_entry {qname : String} {i : Nat} (hi : s.Offers qname i) :
    s.entryOf i ∈ entries v.queue qname ∧ v.LiveEntry (s.entryOf i) := by
  have hmem : s.entryOf i ∈ entries v.queue qname := by
    rw [← Multiset.count_pos, h.queued.live hi.1 hi.2.1]
    exact List.count_pos_iff.2 hi.2.2
  exact ⟨hmem, (h.live_iff hwf hmem).2 ⟨hi.2.1, rfl⟩⟩

/-- An entry that counts is of a task that the queue offers. -/
theorem entry_offers {qname : String} {e : TaskQueueEntry α} (he : e ∈ entries v.queue qname)
    (hl : v.LiveEntry e) : s.Offers qname e.index :=
  ⟨h.entry_lt hwf he, ((h.live_iff hwf he).1 hl).1, (h.queued.entry he).1⟩

omit hwf in
/-- Where all priorities are numbers the comparator orders every queue. -/
theorem ordered (hnum : s.Numeric) (qname : String) :
    StrictWeakOn taskQueueEntryOrder (· ∈ entries v.queue qname) := by
  refine taskQueueEntryOrder_strictWeak.mono fun e he => ?_
  exact hnum _ (List.mem_of_getElem? (h.queued.entry he).2.2)

/-- A greatest entry that counts is of a task that outranks the others. -/
theorem outranks (hnum : s.Numeric) {qname : String} {i j : Nat} (hi : s.Offers qname i)
    (hj : s.Offers qname j) (hne : j ≠ i)
    (hord : taskQueueEntryOrder (s.entryOf i) (s.entryOf j) = false) : s.Outranks i j := by
  have hnan : ∀ {k}, s.Offers qname k → (s.task k).priority ≠ .nan := fun hk =>
    hnum _ (List.mem_of_getElem? (h.queued.entry (h.offers_entry hwf hk).1).2.2)
  obtain ⟨x, hx⟩ := Double.eq_num (hnan hi)
  obtain ⟨y, hy⟩ := Double.eq_num (hnan hj)
  have hseq : s.seq i ≠ s.seq j := fun heq => hne
    (lastSeq.inj (hwf.logged hi.1 hi.2.1).1 (hwf.logged hj.1 hj.2.1).1 heq).symm
  rw [Bool.eq_false_iff, ne_eq, taskQueueEntryOrder_num (show (s.entryOf i).priority = _ from hx)
    (show (s.entryOf j).priority = _ from hy)] at hord
  change ¬ (x < y ∨ x = y ∧ s.seq j < s.seq i) at hord
  unfold TaskGraph.Outranks
  rw [hx, hy]
  rcases lt_trichotomy x y with hxy | hxy | hxy
  · exact absurd (.inl hxy) hord
  · refine .inr ⟨by rw [hxy], ?_⟩
    have : ¬ s.seq j < s.seq i := fun hlt => hord (.inr ⟨hxy, hlt⟩)
    omega
  · exact .inl (by simpa [Double.lt] using hxy)

end RefinesWith

/-- The queues of a request that offers nothing are passed over. -/
theorem TaskGraph.ServesGet.skip {s' : TaskGraph α} {workerId qname : String}
    {qnames : List String} {r : TaskReply α} (hskip : ∀ j, ¬ s.Offers qname j)
    (h : s.ServesGet ⟨workerId, qnames⟩ r s') : s.ServesGet ⟨workerId, qname :: qnames⟩ r s' := by
  cases h with
  | @claim pre rest q i hq hpre hi hbest =>
      have hq' : (TaskGetRequest.mk workerId (qname :: qnames)).queue =
          (qname :: pre) ++ q :: rest := congrArg (List.cons qname) hq
      refine TaskGraph.ServesGet.claim hq' ?_ hi hbest
      intro q' hq'
      rcases List.mem_cons.1 hq' with rfl | hq'
      · exact hskip
      · exact hpre q' hq'
  | none hnone =>
      refine .none fun q' hq' => ?_
      rcases List.mem_cons.1 hq' with rfl | hq'
      · exact hskip
      · exact hnone q' hq'

/-- The row of a claimed task is written, and the queues have lost entries that do not count any
more. -/
theorem Refines.claim (h : Refines v s) {i : Nat} (hready : (s.task i).state = .ready)
    {workerId : String} {queue : HashMap String Q} (hqueued : (s.claim i workerId).Queued queue) :
    Refines (({ v with queue := queue } : Rows Q α).set i
      { v.row i with state := .running, workerId := workerId }) (s.claim i workerId) := by
  have hself : (s.claim i workerId).task i =
      { s.task i with state := .running, workerId := workerId } := by
    rw [TaskGraph.claim_task, if_pos rfl]
  have hother : ∀ j, j ≠ i → (s.claim i workerId).task j = s.task j := fun j hj => by
    rw [TaskGraph.claim_task, if_neg hj]
  have hfin : ∀ j, ((s.claim i workerId).task j).state = .finished ↔
      (s.task j).state = .finished := by
    intro j
    by_cases hj : j = i
    · subst hj; rw [hself, hready]; simp
    · rw [hother j hj]
  have hpend : ∀ j, (s.claim i workerId).pending j = s.pending j := fun j =>
    TaskGraph.pending_congr (TaskGraph.claim_sameRequest _).parents fun p _ => hfin p
  refine h.write ⟨rfl, rfl, rfl⟩ rfl hother (TaskGraph.claim_sameRequest _) (hfin i).2
    (fun hi => ?_) rfl (fun j _ _ => hpend j) (fun _ _ => rfl) h.nextSeq hqueued
  simp only [TaskGraph.rowOf]
  rw [hself, hpend, h.row hi]
  rfl

/-- A queue that offers nothing can be popped empty. -/
theorem Refines.drain (h : Refines v s) {qname : String} {q' : Q}
    (hzero : PriorityQueue.elems (α := TaskQueueEntry α) q' = 0)
    (hskip : ∀ j, ¬ s.Offers qname j) :
    Refines ({ v with queue := v.queue.insert qname q' } : Rows Q α) s := by
  refine h.of_sameEdges ⟨rfl, rfl, fun _ => rfl⟩ rfl (fun _ => .refl _) (fun _ => id)
    (fun i hi => h.row hi) h.nextSeq ?_
  refine h.queued.shrink rfl ?_ (fun _ _ => rfl) (fun hi hr => ⟨hi, hr, rfl, rfl⟩) ?_
  · intro name f hf
    rw [entries_insert] at hf
    split at hf
    · rw [hzero] at hf; exact absurd hf (Multiset.notMem_zero _)
    · exact hf
  · intro i hi hr name
    rw [entries_insert]
    split
    · next hname =>
        subst hname
        rw [hzero, Multiset.count_zero, h.queued.live hi hr, eq_comm, List.count_eq_zero]
        exact fun hq => hskip i ⟨hi, hr, hq⟩
    · rfl

/-- A queue whose entries were popped up to the one of a claimed task still has those of the
others. -/
theorem RefinesWith.claim_queued (h : RefinesWith pend v s) (hwf : s.WF) {workerId qname : String}
    {q q' : Q} {e : TaskQueueEntry α} (hlookup : v.queue.lookup qname = some q)
    (hpick : v.Picks q e q') :
    (s.claim e.index workerId).Queued (v.queue.insert qname q') := by
  have helems := entries_lookup (α := α) hlookup
  have hother : ∀ {j}, ((s.claim e.index workerId).task j).state = .ready →
      j ≠ e.index ∧ (s.claim e.index workerId).task j = s.task j := by
    intro j hst
    rw [TaskGraph.claim_task] at hst ⊢
    split at hst
    · cases hst
    · next hj => exact ⟨hj, if_neg hj⟩
  refine h.queued.shrink rfl ?_ (fun j _ => (TaskGraph.claim_sameRequest _).queues) ?_ ?_
  · intro name f hf
    rw [entries_insert] at hf
    split at hf
    · next hname => subst hname; rw [helems]; exact Multiset.mem_of_le hpick.le hf
    · exact hf
  · intro j hj hst
    have htask := (hother hst).2
    rw [htask] at hst ⊢
    exact ⟨hj, hst, rfl, rfl⟩
  · intro j hj hst name
    obtain ⟨hne, htask⟩ := hother hst
    rw [htask] at hst
    rw [entries_insert]
    split
    · next hname =>
        subst hname
        rw [helems]
        by_cases hjq : name ∈ (s.task j).queues
        · refine hpick.count _ (h.offers_entry hwf ⟨hj, hst, hjq⟩).2 fun heq => ?_
          exact hne (congrArg TaskQueueEntry.index heq)
        · have hzero : (PriorityQueue.elems q).count (s.entryOf j) = 0 := by
            rw [← helems, h.queued.live hj hst]
            exact List.count_eq_zero.2 hjq
          rw [hzero]
          exact Nat.le_zero.1 (hzero ▸ Multiset.count_le_of_le _ hpick.le)
    · rfl

/-- **`task_get` answers as a scan of the table would.** -/
theorem Refines.getFrom (hwf : s.WF) (workerId : String) : ∀ (qnames : List String)
    {v : Rows Q α}, Refines v s →
    ∃ r v' s', v.manager.getFrom workerId qnames = some (r, v'.manager) ∧
      s.ServesGet ⟨workerId, qnames⟩ (.get r) s' ∧ Refines v' s' := by
  intro qnames
  induction qnames with
  | nil =>
      intro v h
      exact ⟨_, v, s, rfl, .none (fun q hq => by cases hq), h⟩
  | cons qname rest ih =>
      intro v h
      cases hlookup : v.queue.lookup qname with
      | none =>
          have hskip : ∀ j, ¬ s.Offers qname j := by
            intro j hj
            have hmem := (h.offers_entry hwf hj).1
            simp [entries, hlookup] at hmem
          obtain ⟨r, v', s', hget, hserve, href⟩ := ih h
          refine ⟨r, v', s', ?_, hserve.skip hskip, href⟩
          unfold TaskManager.getFrom
          rw [show v.manager.queue.lookup qname = none from hlookup]
          exact hget
      | some q =>
          have helems := entries_lookup (α := α) hlookup
          have hlt : ∀ e ∈ PriorityQueue.elems q, e.index < v.size := by
            intro e he
            rw [← helems] at he
            exact h.size ▸ h.entry_lt hwf he
          rcases Rows.popLive_manager (PriorityQueue.size q) q (Nat.le_refl _) hlt with
            ⟨q', hpop, hzero, hdead⟩ | ⟨e, q', hpop, hpick⟩
          · have hskip : ∀ j, ¬ s.Offers qname j := by
              intro j hj
              obtain ⟨hmem, hl⟩ := h.offers_entry hwf hj
              exact hdead _ (helems ▸ hmem) hl
            obtain ⟨r, v', s', hget, hserve, href⟩ := ih (h.drain hzero hskip)
            refine ⟨r, v', s', ?_, hserve.skip hskip, href⟩
            unfold TaskManager.getFrom
            rw [show v.manager.queue.lookup qname = some q from hlookup]
            dsimp only
            rw [hpop]
            exact hget
          · have hmem : e ∈ entries v.queue qname := helems ▸ hpick.mem
            have hoffers := h.entry_offers hwf hmem hpick.live
            obtain ⟨hready, hentry⟩ := (h.live_iff hwf hmem).1 hpick.live
            let w : Rows Q α := { v with queue := v.queue.insert qname q' }
            have hiw : e.index < w.size := h.size ▸ hoffers.1
            have hfirst : (TaskGetRequest.mk workerId (qname :: rest)).queue =
                [] ++ qname :: rest := rfl
            refine ⟨_, _, _, ?_, .claim hfirst (fun _ hq => by cases hq) hoffers ?_,
              h.claim hready (h.claim_queued hwf hlookup hpick)⟩
            · unfold TaskManager.getFrom
              rw [show v.manager.queue.lookup qname = some q from hlookup]
              dsimp only
              rw [hpop]
              refine (Rows.claimRow_manager (v := w) hiw workerId).trans ?_
              rw [show w.row e.index = v.row e.index from rfl, h.row hoffers.1]
              rfl
            · intro hnum j hj hne
              have hjmem := h.offers_entry hwf hj
              refine h.outranks hwf hnum hoffers hj hne ?_
              rw [← hentry]
              refine hpick.greatest ?_ _ (helems ▸ hjmem.1) hjmem.2
              rw [← helems]
              exact h.ordered hnum qname

end DsService

import DsService.Task.Refines

/-!
# Finishing a task

`task_done` of a task that did not fail walks the child list and decrements a counter at each
mention. `Refines.finish` says that this is `finish` of the graph: the last decrement of a row comes
at the last mention of its last unfinished parent (`releaseLoop_replicate`), and over the child list
the rows are released in the order they were added (`RefinesWith.releaseLoop`).
-/

namespace DsService

variable {Q α : Type}

/-! ## One row -/

namespace Rows

variable [LinearOrder α] [PriorityQueue Q (TaskQueueEntry α) taskQueueEntryOrder]
variable {v : Rows Q α} {c : Nat}

/-- The count of a row is brought to `pending`, and a row that waits for nothing more is
released. -/
def releaseTo (v : Rows Q α) (c pending : Nat) : Rows Q α :=
  if pending = 0 ∧ (v.row c).state = .waiting then
    (v.set c { v.row c with pendingParents := pending, state := .ready }).enqueue c
  else v.set c { v.row c with pendingParents := pending }

/-- The step of the release loop is `releaseTo` on the rows. -/
theorem releaseChild_manager (hc : c < v.size) : v.manager.releaseChild c =
    some (v.releaseTo c (sizeDec (v.row c).pendingParents)).manager := by
  let w := v.set c { v.row c with pendingParents := sizeDec (v.row c).pendingParents }
  have hcw : c < w.size := hc
  unfold TaskManager.releaseChild
  rw [pendingParents_manager hc]
  simp only [Option.bind_eq_bind, Option.bind_some]
  rw [setPendingParents_manager hc, Option.bind_some, pendingParents_manager hcw, Option.bind_some,
    state_manager hcw, Option.bind_some, set_row_self]
  unfold releaseTo
  by_cases hzero : sizeDec (v.row c).pendingParents = 0
  · by_cases hw : (v.row c).state = .waiting
    · rw [if_pos hzero, if_pos hw, if_pos ⟨hzero, hw⟩, setState_manager hcw, Option.bind_some,
        set_row_self, set_set]
      exact enqueue_manager hc
    · rw [if_pos hzero, if_neg hw, if_neg fun h => hw h.2]
      rfl
  · rw [if_neg hzero, if_neg fun h => hzero h.1]
    rfl

/-- The mentions of one row in a child list count it down, and only the last can release it. -/
theorem releaseLoop_replicate {pending : Nat} : ∀ (n : Nat) {v : Rows Q α}, c < v.size →
    (v.row c).pendingParents = pending + (n + 1) →
    (List.replicate (n + 1) c).foldlM TaskManager.releaseChild v.manager =
      some (v.releaseTo c pending).manager := by
  intro n
  induction n with
  | zero =>
      intro v hc hpend
      have hdec : sizeDec (v.row c).pendingParents = pending := by simp [hpend, sizeDec]
      rw [List.replicate_one, List.foldlM_cons, releaseChild_manager hc, hdec]
      rfl
  | succ n ih =>
      intro v hc hpend
      have hdec : sizeDec (v.row c).pendingParents = pending + (n + 1) := by
        simp only [hpend, sizeDec]
        split <;> omega
      let w := v.set c { v.row c with pendingParents := pending + (n + 1) }
      have hone : v.releaseTo c (pending + (n + 1)) = w := if_neg fun h => absurd h.1 (by omega)
      have hrow : w.row c = { v.row c with pendingParents := pending + (n + 1) } := set_row_self _
      have hagain : w.releaseTo c pending = v.releaseTo c pending := by
        simp only [releaseTo, hrow, w, set_set]
      rw [List.replicate_succ, List.foldlM_cons, releaseChild_manager hc, hdec, hone]
      simp only [Option.bind_eq_bind, Option.bind_some]
      rw [ih (v := w) hc (by rw [hrow]), hagain]

/-- The entries of a list of records, pushed under the numbers after `n`. -/
def enterAll (queuesOf : Nat → List String) : Nat → HashMap String Q → List (Nat × Double α) →
    HashMap String Q
  | _, queue, [] => queue
  | n, queue, (i, priority) :: records =>
      enterAll queuesOf (n + 1) (pushAll queue (queuesOf i) ⟨priority, n + 1, i⟩) records

/-- Records enter the queues in their order. -/
theorem enterAll_append (queuesOf : Nat → List String) (records' : List (Nat × Double α)) :
    ∀ (records : List (Nat × Double α)) (n : Nat) (queue : HashMap String Q),
      enterAll queuesOf n queue (records ++ records') =
        enterAll queuesOf (n + records.length) (enterAll queuesOf n queue records) records' := by
  intro records
  induction records with
  | nil => intro n queue; rfl
  | cons e records ih =>
      intro n queue
      obtain ⟨i, priority⟩ := e
      have hlen : n + ((i, priority) :: records).length = n + 1 + records.length := by
        rw [List.length_cons]; omega
      rw [hlen]
      exact ih (n + 1) _

end Rows

/-! ## Releasing in the graph -/

namespace TaskGraph

variable {s : TaskGraph α} {c i x : Nat} {output : String}

/-- Nothing is released by an empty list. -/
theorem release_nil : s.release [] = s := by
  simp [release]

/-- Releases can be joined. -/
theorem release_release (cs cs' : List Nat) :
    (s.release cs).release cs' = s.release (cs ++ cs') := by
  unfold release
  dsimp only
  congr 1
  · funext i
    by_cases h : i ∈ cs <;> by_cases h' : i ∈ cs' <;> simp [h, h']
  · rw [List.map_append, List.append_assoc]
    congr 2
    refine List.map_congr_left fun c _ => ?_
    by_cases h : c ∈ cs <;> simp [h]

/-- A release changes no request. -/
theorem release_sameRequest (cs : List Nat) :
    (s.task i).SameRequest ((s.release cs).task i) := by
  rw [release_task]
  split
  · exact ⟨rfl, rfl, rfl, rfl, rfl⟩
  · exact .refl _

/-- Counting what is not finished, with one more task finished. -/
theorem countP_settle (hx : (s.task x).state ≠ .finished) (l : List Nat) :
    (l.countP fun p => (s.task p).state ≠ .finished) =
      (l.countP fun p => ((s.settle x output).task p).state ≠ .finished) + l.count x := by
  induction l with
  | nil => rfl
  | cons p l ih =>
      rw [List.countP_cons, List.countP_cons, List.count_cons, ih, settle_task]
      by_cases hp : p = x
      · subst hp; simp [hx]; omega
      · simp [hp]; omega

/-- A parent that finishes was counted once for each time it is named. -/
theorem pending_settle (hx : (s.task x).state ≠ .finished) :
    s.pending c = (s.settle x output).pending c + (s.task c).parents.count x := by
  have hparents : ((s.settle x output).task c).parents = (s.task c).parents :=
    (settle_sameRequest output).parents
  unfold pending
  rw [hparents]
  exact countP_settle hx _

/-- A task waits for nothing when all its parents are finished. -/
theorem pending_eq_zero :
    s.pending c = 0 ↔ ∀ p ∈ (s.task c).parents, (s.task p).state = .finished := by
  simp [pending]

/-- The counts when the release loop has come to row `n`: the rows before it have the count of
`t`. -/
def pendingUpto (s t : TaskGraph α) (n c : Nat) : Nat :=
  if c < n then t.pending c else s.pending c

/-- Nothing is counted down yet. -/
theorem pendingUpto_self (t : TaskGraph α) (n : Nat) :
    s.pendingUpto t n n = s.pending n := if_neg (Nat.lt_irrefl n)

/-- One child more is counted down. -/
theorem pendingUpto_succ (t : TaskGraph α) (n : Nat) :
    s.pendingUpto t (n + 1) = Function.update (s.pendingUpto t n) n (t.pending n) := by
  funext c
  by_cases hcn : c = n
  · subst hcn; simp [pendingUpto]
  · have hlt : c < n + 1 ↔ c < n := by omega
    simp only [Function.update_of_ne hcn, pendingUpto, hlt]

end TaskGraph

/-! ## The refinement -/

variable [LinearOrder α] [PriorityQueue Q (TaskQueueEntry α) taskQueueEntryOrder]
variable {pend : Nat → Nat} {v : Rows Q α} {s : TaskGraph α} {c x : Nat}

/-- A pending count that is written is the one the relation has for the row. -/
theorem RefinesWith.setPending (h : RefinesWith pend v s) (pending : Nat) :
    RefinesWith (Function.update pend c pending)
      (v.set c { v.row c with pendingParents := pending }) s := by
  refine h.write ⟨rfl, rfl, rfl⟩ rfl (fun _ _ => rfl) (.refl _) id (fun hc => ?_) rfl
    (fun j _ hj => Function.update_of_ne hj _ _) (fun _ _ => rfl) h.nextSeq h.queued
  rw [Function.update_self, h.row hc]
  rfl

/-- A waiting row becomes ready and enters its queues. -/
theorem RefinesWith.releaseOne (h : RefinesWith pend v s) (hc : c < s.size)
    (hw : (s.task c).state = .waiting) :
    RefinesWith pend ((v.set c { v.row c with state := .ready }).enqueue c) (s.release [c]) := by
  have hrow : ((v.set c { v.row c with state := .ready }).enqueue c).row =
      Function.update v.row c { v.row c with state := .ready, seq := v.nextSeq + 1 } := by
    simp [Rows.enqueue, Rows.set]
  have hseq : ∀ i, (s.release [c]).seq i = if i = c then s.log.length + 1 else s.seq i := by
    intro i
    simp only [TaskGraph.seq, TaskGraph.release, List.map_append, List.map_cons, List.map_nil,
      lastSeq.append_singleton, List.length_map]
  have hself : (s.release [c]).task c = { s.task c with state := .ready } := by
    rw [TaskGraph.release_task, if_pos (List.mem_singleton_self c)]
  have hother : ∀ i, i ≠ c → (s.release [c]).task i = s.task i := fun i hi => by
    rw [TaskGraph.release_task, if_neg (by simpa using hi)]
  refine h.write ⟨rfl, rfl, hrow⟩ rfl hother (TaskGraph.release_sameRequest _) ?_ (fun _ => ?_) rfl
    (fun _ _ _ => rfl) (fun j hj => by rw [hseq, if_neg hj]) ?_ ?_
  · intro hf
    rw [hw] at hf
    cases hf
  · simp only [TaskGraph.rowOf]
    rw [hself, hseq, if_pos rfl, h.nextSeq, h.row hc]
    rfl
  · simp [Rows.enqueue, TaskGraph.release, h.nextSeq]
  · have hlog : (s.release [c]).log = s.log ++ [(c, ((s.release [c]).task c).priority)] := by
      rw [hself]; rfl
    have henter := h.queued.enter hlog
      (fun j _ => (TaskGraph.release_sameRequest _).queues) (fun {j} hne hj hst => by
        rw [hother j hne] at hst ⊢
        exact ⟨hj, hst, rfl, rfl⟩)
    rw [hself] at henter
    simp only [Rows.enqueue, Rows.set_row_self, Rows.set_queue, Rows.set_nextSeq, h.nextSeq]
    rw [h.row hc]
    exact henter

/-- The row of a task that is about to finish is written, nothing is released yet: the counts are
still those of before. -/
theorem Refines.settle (h : Refines v s) (output : String) (hr : (s.task x).state = .running) :
    RefinesWith s.pending (v.set x { v.row x with output := output, state := .finished })
      (s.settle x output) := by
  have hself : (s.settle x output).task x =
      { s.task x with state := .finished, output := output } := by
    rw [TaskGraph.settle_task, if_pos rfl]
  have hother : ∀ i, i ≠ x → (s.settle x output).task i = s.task i := fun i hi => by
    rw [TaskGraph.settle_task, if_neg hi]
  refine h.write ⟨rfl, rfl, rfl⟩ rfl hother (TaskGraph.settle_sameRequest _) ?_ (fun hx => ?_) rfl
    (fun _ _ _ => rfl) (fun _ _ => rfl) h.nextSeq ?_
  · intro _
    rw [hself]
  · simp only [TaskGraph.rowOf]
    rw [hself, h.row hx]
    rfl
  · refine h.queued.keep rfl (fun j _ => (TaskGraph.settle_sameRequest _).queues) ?_
    intro j hj hst
    by_cases hjx : j = x
    · subst hjx
      rw [hself] at hst
      cases hst
    · rw [hother j hjx] at hst ⊢
      exact ⟨hj, hst, rfl, rfl⟩

/-- All mentions of one row in the child list: the row is counted down and, if it waits for nothing
more, released. -/
theorem RefinesWith.releaseRow (h : RefinesWith pend v s) (hc : c < s.size) {pending n : Nat}
    (hpend : pend c = pending + (n + 1)) {cs : List Nat}
    (hcs : cs = if pending = 0 ∧ (s.task c).state = .waiting then [c] else []) :
    ∃ v', (List.replicate (n + 1) c).foldlM TaskManager.releaseChild v.manager =
        some v'.manager ∧
      RefinesWith (Function.update pend c pending) v' (s.release cs) ∧ v.SameEdges v' ∧
      v'.queue = Rows.enterAll (fun i => (s.task i).queues) v.nextSeq v.queue
        (cs.map fun c => (c, (s.task c).priority)) := by
  have hvc := h.row hc
  have hcount : (v.row c).pendingParents = pending + (n + 1) := by rw [hvc]; exact hpend
  refine ⟨_, Rows.releaseLoop_replicate n (h.size ▸ hc) hcount, ?_⟩
  have hset := h.setPending (c := c) pending
  have hrow : (v.set c { v.row c with pendingParents := pending }).row c =
      { v.row c with pendingParents := pending } := Rows.set_row_self _
  unfold Rows.releaseTo
  rw [h.state_eq hc]
  by_cases hrel : pending = 0 ∧ (s.task c).state = .waiting
  · rw [if_pos hrel] at hcs
    have hone := hset.releaseOne hc hrel.2
    rw [hrow, Rows.set_set] at hone
    rw [if_pos hrel, hcs]
    refine ⟨hone, ⟨rfl, rfl, fun i => ?_⟩, ?_⟩
    · simp only [Rows.enqueue, Rows.set_row]
      by_cases hi : i = c
      · subst hi; simp
      · simp [hi]
    · simp only [Rows.enqueue, Rows.set_row_self, Rows.set_queue, Rows.set_nextSeq]
      rw [hvc]
      rfl
  · rw [if_neg hrel] at hcs
    rw [if_neg hrel, hcs, TaskGraph.release_nil]
    refine ⟨hset, ⟨rfl, rfl, fun i => ?_⟩, rfl⟩
    rw [Rows.set_row]
    split
    · next hi => subst hi; rfl
    · rfl

/-- The release loop at row `n`, which the child list of `x` names as often as the row names `x` as
a parent. -/
theorem RefinesWith.releaseTurn {output : String} {cs : List Nat} {n : Nat}
    (h : RefinesWith (s.pendingUpto (s.settle x output) n) v ((s.settle x output).release cs))
    (hx : (s.task x).state ≠ .finished) {P : Nat → Bool}
    (hP : P n = true ↔ ((s.settle x output).task n).state = .waiting ∧
      x ∈ (s.task n).parents ∧ (s.settle x output).pending n = 0)
    (hn : n < s.size) (hcs : n ∉ cs) :
    ∃ v', (List.replicate ((s.task n).parents.count x) n).foldlM TaskManager.releaseChild
        v.manager = some v'.manager ∧
      RefinesWith (s.pendingUpto (s.settle x output) (n + 1)) v'
        ((s.settle x output).release (cs ++ [n].filter P)) ∧
      v.SameEdges v' ∧
      v'.queue = Rows.enterAll (fun i => (s.task i).queues) v.nextSeq v.queue
        (([n].filter P).map fun c => (c, ((s.settle x output).task c).priority)) := by
  have hsum : s.pending n = (s.settle x output).pending n + (s.task n).parents.count x :=
    TaskGraph.pending_settle hx
  have hself := TaskGraph.pendingUpto_self (s := s) (s.settle x output) n
  rw [TaskGraph.pendingUpto_succ]
  cases hcount : (s.task n).parents.count x with
  | zero =>
      -- the row does not name `x`, so the loop does not come to it
      have hnot : [n].filter P = [] := by
        rw [List.filter_eq_nil_iff]
        intro c hc hp
        rw [List.mem_singleton.1 hc] at hp
        exact List.count_eq_zero.1 hcount (hP.1 hp).2.1
      have hsame : (s.settle x output).pending n = s.pendingUpto (s.settle x output) n n := by
        omega
      rw [hnot, List.append_nil, hsame, Function.update_eq_self]
      exact ⟨v, rfl, h, ⟨rfl, rfl, fun _ => rfl⟩, rfl⟩
  | succ m =>
      have htask : ((s.settle x output).release cs).task n = (s.settle x output).task n := by
        rw [TaskGraph.release_task, if_neg hcs]
      have hxn : x ∈ (s.task n).parents := List.count_pos_iff.1 (by omega)
      have hreleased : [n].filter P = if (s.settle x output).pending n = 0 ∧
          (((s.settle x output).release cs).task n).state = .waiting then [n] else [] := by
        rw [htask]
        by_cases hp : P n = true
        · rw [if_pos ⟨(hP.1 hp).2.2, (hP.1 hp).1⟩]
          simp [hp]
        · rw [if_neg fun hc => hp (hP.2 ⟨hc.2, hxn, hc.1⟩)]
          simp [hp]
      obtain ⟨w, hrow, href, hedges, hqueue⟩ :=
        h.releaseRow hn (n := m) (by omega) hreleased
      rw [TaskGraph.release_release] at href
      refine ⟨w, hrow, href, hedges, ?_⟩
      have hqueues : (fun i => (((s.settle x output).release cs).task i).queues) =
          fun i => (s.task i).queues :=
        funext fun i => (TaskGraph.release_sameRequest _).queues.trans
          (TaskGraph.settle_sameRequest _).queues
      have hrecord : (([n].filter P).map fun c =>
          (c, (((s.settle x output).release cs).task c).priority)) =
          ([n].filter P).map fun c => (c, ((s.settle x output).task c).priority) := by
        refine List.map_congr_left fun c hc => ?_
        rw [List.mem_singleton.1 (List.mem_filter.1 hc).1, htask]
      rw [hqueue, hqueues, hrecord]

/-- The release loop over the first rows of the table. The child list names them in the order they
were added; what the loop has not come to has its old count. -/
theorem RefinesWith.releaseLoop {output : String}
    (h : RefinesWith s.pending v (s.settle x output)) (hx : (s.task x).state ≠ .finished)
    {P : Nat → Bool} (hP : ∀ c, P c = true ↔ ((s.settle x output).task c).state = .waiting ∧
      x ∈ (s.task c).parents ∧ (s.settle x output).pending c = 0) :
    ∀ n, n ≤ s.size → ∃ v', ((List.range n).flatMap fun c =>
        List.replicate ((s.task c).parents.count x) c).foldlM TaskManager.releaseChild v.manager =
          some v'.manager ∧
      RefinesWith (s.pendingUpto (s.settle x output) n) v'
        ((s.settle x output).release ((List.range n).filter P)) ∧
      v.SameEdges v' ∧
      v'.queue = Rows.enterAll (fun i => (s.task i).queues) v.nextSeq v.queue
        (((List.range n).filter P).map fun c => (c, ((s.settle x output).task c).priority)) := by
  intro n
  induction n with
  | zero =>
      intro _
      refine ⟨v, rfl, ?_, ⟨rfl, rfl, fun _ => rfl⟩, rfl⟩
      rw [List.range_zero, List.filter_nil, TaskGraph.release_nil]
      exact h
  | succ n ih =>
      intro hn
      obtain ⟨w, hloop, href, hedges, hqueue⟩ := ih (Nat.le_of_succ_le hn)
      have hnot : n ∉ (List.range n).filter P := fun hm =>
        Nat.lt_irrefl _ (List.mem_range.1 (List.mem_filter.1 hm).1)
      obtain ⟨w', hturn, href', hedges', hqueue'⟩ := href.releaseTurn hx (hP n) hn hnot
      have hnext : w.nextSeq = v.nextSeq + ((List.range n).filter P).length := by
        rw [href.nextSeq, h.nextSeq]
        simp [TaskGraph.release]
      rw [List.range_succ, List.filter_append]
      refine ⟨w', ?_, href', hedges.trans hedges', ?_⟩
      · rw [List.flatMap_append, List.flatMap_singleton, List.foldlM_append, hloop]
        exact hturn
      · rw [hqueue', hnext, hqueue, List.map_append, Rows.enterAll_append, List.length_map]

/-- **Finishing a task keeps the refinement.** The child lists stay, and the queues get the entries
of the released tasks. -/
theorem Refines.finish (h : Refines v s) (output : String) (hx : x < s.size)
    (hr : (s.task x).state = .running) :
    ∃ v', (v.row x).children.foldlM TaskManager.releaseChild
        (v.set x { v.row x with output := output, state := .finished }).manager =
          some v'.manager ∧
      Refines v' (s.finish x output) ∧ v.SameEdges v' ∧
      v'.queue = Rows.enterAll (fun i => (s.task i).queues) v.nextSeq v.queue
        (((s.settle x output).releasedBy x).map fun c => (c, (s.task c).priority)) := by
  have hnf : (s.task x).state ≠ .finished := by rw [hr]; exact fun h => by cases h
  obtain ⟨v', hloop, href, hedges, hqueue⟩ := (h.settle output hr).releaseLoop hnf
    (P := fun c => ((s.settle x output).task c).state = .waiting ∧
      x ∈ ((s.settle x output).task c).parents ∧
      ∀ p ∈ ((s.settle x output).task c).parents, ((s.settle x output).task p).state = .finished)
    (fun c => by
      rw [decide_eq_true_eq, TaskGraph.pending_eq_zero, (TaskGraph.settle_sameRequest _).parents])
    s.size (Nat.le_refl _)
  have hpend : ∀ c, c < s.size → (s.finish x output).pending c = (s.settle x output).pending c := by
    intro c _
    refine TaskGraph.pending_congr (TaskGraph.release_sameRequest _).parents fun p _ => ?_
    rw [TaskGraph.finish, TaskGraph.release_task]
    split
    · next hp =>
        rw [(TaskGraph.mem_releasedBy.1 hp).2.1]
        simp
    · rfl
  refine ⟨v', ?_, ?_, ?_, ?_⟩
  · rw [h.children_eq hx hnf]
    exact hloop
  · refine href.of_sameEdges ⟨rfl, rfl, fun _ => rfl⟩ rfl (fun _ => .refl _) (fun _ => id) ?_
      href.nextSeq href.queued
    intro i hi
    have hrow := href.row hi
    rw [hpend i hi, hrow]
    simp only [TaskGraph.pendingUpto, if_pos (show i < s.size from hi)]
    rfl
  · refine ⟨hedges.size, hedges.taskIndex, fun i => (hedges.children i).trans ?_⟩
    rw [Rows.set_row]
    split
    · next hi => subst hi; rfl
    · rfl
  · rw [hqueue]
    refine congrArg _ (List.map_congr_left fun c _ => ?_)
    rw [TaskGraph.settle_task]
    split
    · next hc => subst hc; rfl
    · rfl

end DsService

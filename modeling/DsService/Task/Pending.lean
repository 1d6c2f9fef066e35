import DsService.Task.Origin

/-!
# The pending counts

`task_add` counts the unfinished parents of a row in one loop and registers the row with them in
another, and `task_done` counts down along the registrations. `pending_count_is_exact`: in every
reachable state the count, the declared parents and the registrations agree, so that no decrement of
the release loop meets a zero (`Rows.releaseLoop_turns`) and a row is released once.
-/

namespace DsService

variable {Q α : Type}

/-! ## The release loop, turn by turn -/

/-- How often the rows that have not finished list `c` among their children. -/
def TaskTable.mentions (t : TaskTable α) (c : Nat) : Nat :=
  ((t.state.zip t.children).map fun (state, children) =>
    if state ≠ .finished then children.count c else 0).sum

namespace TaskManager

/-- The writes of a report of success to the row of the task. -/
def finishOwn (m : TaskManager Q α) (index : Nat) (output : String) : Option (TaskManager Q α) := do
  let m ← m.setOutput index output
  m.setState index .finished

variable [LinearOrder α] [PriorityQueue Q (TaskQueueEntry α) taskQueueEntryOrder]

/-- One turn of the release loop, on a positive count. `enqueued` says that it released the child,
which it does exactly when it brings a waiting child to zero. -/
structure ReleaseTurn (m : TaskManager Q α) (child : Nat) (enqueued : Bool)
    (m' : TaskManager Q α) : Prop where
  code : m.releaseChild child = some m'
  count : ∃ pending, m.tasks.pendingParents[child]? = some (pending + 1) ∧
    m'.tasks.pendingParents[child]? = some pending ∧
    (enqueued = true ↔ pending = 0 ∧ m.tasks.state[child]? = some .waiting)
  enqueue : enqueued = true → ∃ m₁ m₂, m.setPendingParents child 0 = some m₁ ∧
    m₁.setState child .ready = some m₂ ∧ m₂.enqueue child = some m'
  keep : enqueued = false → m'.nextSeq = m.nextSeq ∧ m'.queue = m.queue

/-- The turns of the release loop, each with its child. -/
inductive ReleaseLoop : TaskManager Q α → List (Nat × Bool) → TaskManager Q α → Prop
  | nil {m : TaskManager Q α} : ReleaseLoop m [] m
  | cons {m m₁ m' : TaskManager Q α} {child : Nat} {enqueued : Bool} {turns : List (Nat × Bool)}
      (h : m.ReleaseTurn child enqueued m₁) (hrest : ReleaseLoop m₁ turns m') :
      ReleaseLoop m ((child, enqueued) :: turns) m'

end TaskManager

namespace Rows

variable [LinearOrder α] [PriorityQueue Q (TaskQueueEntry α) taskQueueEntryOrder]
variable {v : Rows Q α} {c : Nat}

/-- A release adds no row. -/
theorem releaseTo_size (pending : Nat) : (v.releaseTo c pending).size = v.size := by
  unfold releaseTo
  split <;> rfl

/-- A release writes the count of one row, and makes it `Ready` at zero. -/
theorem releaseTo_row (pending j : Nat) : (v.releaseTo c pending).row j =
    if j = c then
      if pending = 0 ∧ (v.row c).state = .waiting then
        { v.row c with pendingParents := pending, state := .ready, seq := v.nextSeq + 1 }
      else { v.row c with pendingParents := pending }
    else v.row j := by
  unfold releaseTo
  split
  · rcases eq_or_ne j c with rfl | hj
    · simp [enqueue]
    · simp [enqueue, set_row, hj]
  · rw [set_row]

/-- A turn on a positive count. -/
theorem releaseTurn {pending : Nat} (hc : c < v.size)
    (hp : (v.row c).pendingParents = pending + 1) :
    v.manager.ReleaseTurn c (decide (pending = 0 ∧ (v.row c).state = .waiting))
      (v.releaseTo c pending).manager where
  code := by
    rw [releaseChild_manager hc, hp]
    rfl
  count := by
    refine ⟨pending, ?_, ?_, ?_⟩
    · rw [pendingParents_manager hc, hp]
    · rw [pendingParents_manager (by rw [releaseTo_size]; exact hc), releaseTo_row, if_pos rfl]
      split <;> rfl
    · rw [state_manager hc, decide_eq_true_eq, Option.some.injEq]
  enqueue h := by
    rw [decide_eq_true_eq] at h
    obtain ⟨rfl, hw⟩ := h
    let w := v.set c { v.row c with pendingParents := 0 }
    let w₁ := v.set c { v.row c with pendingParents := 0, state := .ready }
    have hw₁ : w.manager.setState c .ready = some w₁.manager := by
      rw [setState_manager (v := w) hc]
      simp [w, w₁]
    refine ⟨w.manager, w₁.manager, setPendingParents_manager hc 0, hw₁, ?_⟩
    rw [releaseTo, if_pos ⟨rfl, hw⟩]
    exact enqueue_manager (v := w₁) hc
  keep h := by
    rw [decide_eq_false_iff_not] at h
    rw [releaseTo, if_neg h]
    exact ⟨rfl, rfl⟩

/-- **The release loop over counts that the list does not exceed.** Every decrement meets a positive
count, and a row is enqueued once at most, and only if it waits. -/
theorem releaseLoop_turns : ∀ {l : List Nat} {v : Rows Q α},
    (∀ c ∈ l, c < v.size ∧ l.count c ≤ (v.row c).pendingParents) →
    ∃ (turns : List (Nat × Bool)) (v' : Rows Q α), turns.map Prod.fst = l ∧
      v.manager.ReleaseLoop turns v'.manager ∧
      l.foldlM TaskManager.releaseChild v.manager = some v'.manager ∧
      ∀ c, turns.count (c, true) ≤ if (v.row c).state = .waiting then 1 else 0
  | [], v, _ => ⟨[], v, rfl, .nil, rfl, fun _ => Nat.zero_le _⟩
  | c :: l, v, h => by
      obtain ⟨hc, hcount⟩ := h c (List.mem_cons_self ..)
      rw [List.count_cons_self] at hcount
      obtain ⟨pending, hp⟩ : ∃ pending, (v.row c).pendingParents = pending + 1 :=
        ⟨_, (Nat.succ_pred_eq_of_pos (by omega)).symm⟩
      have hturn := releaseTurn hc hp
      have hrest : ∀ d ∈ l, d < (v.releaseTo c pending).size ∧
          l.count d ≤ ((v.releaseTo c pending).row d).pendingParents := by
        intro d hd
        obtain ⟨hdv, hdcount⟩ := h d (List.mem_cons_of_mem _ hd)
        rw [releaseTo_size, releaseTo_row]
        refine ⟨hdv, ?_⟩
        split
        · next hdc =>
            subst hdc
            split <;> simp only <;> omega
        · next hdc =>
            rw [List.count_cons_of_ne (Ne.symm hdc)] at hdcount
            exact hdcount
      obtain ⟨turns, v', hturns, hloop, hcode, honce⟩ := releaseLoop_turns hrest
      refine ⟨_, v', by rw [List.map_cons, hturns], .cons hturn hloop, ?_, fun d => ?_⟩
      · rw [List.foldlM_cons, hturn.code]
        exact hcode
      · have hd := honce d
        rw [releaseTo_row] at hd
        rw [List.count_cons]
        rcases eq_or_ne d c with rfl | hdc
        · -- the turn that enqueues the row leaves it ready, and no later turn finds it waiting
          rw [if_pos rfl] at hd
          by_cases hrel : pending = 0 ∧ (v.row d).state = .waiting
          · simp only [hrel, and_self, if_true, reduceCtorEq, if_false] at hd
            simp [hrel, hd]
          · rw [if_neg hrel] at hd
            simpa [hrel] using hd
        · rw [if_neg hdc] at hd
          simpa [Ne.symm hdc] using hd

end Rows

/-! ## The counts of the graph -/

namespace TaskGraph

variable {s : TaskGraph α} {c p : Nat}

/-- An index is listed as often as its own turn lists it. -/
theorem count_flatMap_replicate (f : Nat → Nat) (n c : Nat) :
    ((List.range n).flatMap fun i => List.replicate (f i) i).count c =
      if c < n then f c else 0 := by
  induction n with
  | zero => rfl
  | succ n ih =>
      rw [List.range_succ, List.flatMap_append, List.flatMap_singleton, List.count_append, ih,
        List.count_replicate]
      rcases Nat.lt_trichotomy c n with hlt | rfl | hgt
      · have hne : (n == c) = false := by simp; omega
        rw [if_pos hlt, if_pos (Nat.lt_succ_of_lt hlt), hne]
        simp
      · simp
      · have hne : (n == c) = false := by simp; omega
        have hle : ¬ c < n + 1 := by omega
        simp [hne, hle, Nat.lt_asymm hgt]

/-- A task is a dependent of `p` as often as it names `p`. -/
theorem count_dependents (hc : c < s.size) :
    (s.dependents p).count c = (s.task c).parents.count p := by
  unfold dependents
  rw [count_flatMap_replicate, if_pos hc]

/-- A parent that has not finished is counted. -/
theorem pending_pos (h : ∃ p ∈ (s.task c).parents, (s.task p).state ≠ .finished) :
    1 ≤ s.pending c := by
  obtain ⟨p, hp, hne⟩ := h
  refine Nat.pos_of_ne_zero fun hzero => hne ?_
  exact pending_eq_zero.1 hzero p hp

/-- A task that ended badly with another has a parent that has not finished: through a finished one
no bad ending comes. -/
theorem SourcedAt.unfinished (h : s.SourcedAt c) (hwf : s.WF) (hb : (s.task c).state.IsBad)
    (ho : (s.task c).origin ≠ c) :
    ∃ p ∈ (s.task c).parents, (s.task p).state ≠ .finished := by
  have horigin : (s.task (s.task c).origin).state ≠ .finished := by
    rw [h.state]
    exact hb.ne_finished
  cases h.path.resolve_left ho with
  | single hp => exact ⟨_, hp.2, horigin⟩
  | @tail p _ ha hp =>
      exact ⟨p, hp.2, fun hf => horigin (hwf.ancestor_finished ha hf)⟩

end TaskGraph

/-! ## The counts of the table -/

variable [LinearOrder α] [PriorityQueue Q (TaskQueueEntry α) taskQueueEntryOrder]
variable {re2 : RE2} {es : List (TaskEvent Q α)} {m : TaskManager Q α} {s : TaskGraph α}
variable {v : Rows Q α} {c : Nat}

/-- The registrations of a row with unfinished parents are its unfinished parents. -/
theorem Refines.mentions (h : Refines v s) (hwf : s.WF) (hc : c < s.size) :
    v.manager.tasks.mentions c = s.pending c := by
  have hcol : (v.manager.tasks.state.zip v.manager.tasks.children).map (fun (state, children) =>
      if state ≠ .finished then children.count c else 0) =
      tab s.size fun p => if decide ((s.task p).state ≠ .finished) = true
        then (s.task c).parents.count p else 0 := by
    have hzip : v.manager.tasks.state.zip v.manager.tasks.children =
        tab v.size fun p => ((v.row p).state, (v.row p).children) := List.zip_map'
    rw [hzip, h.size]
    simp only [tab, List.map_map]
    refine List.map_congr_left fun p hp => ?_
    have hps := List.mem_range.1 hp
    simp only [Function.comp_apply, h.state_eq hps, decide_eq_true_eq]
    split
    · next hnf => rw [h.children_eq hps hnf, TaskGraph.count_dependents hc]
    · rfl
  unfold TaskTable.mentions
  rw [hcol, tab.sum_count fun p hp => hwf.parent_size ⟨hc, hp⟩]
  rfl

/-- The unfinished parents of a task, by the ids that its request names. -/
theorem TaskRun.pending_eq (h : TaskRun re2 es m s) {request : TaskAddRequest α} (hc : c < s.size)
    (hrec : s.Records c request) :
    s.pending c = request.parentTaskIds.countP fun p => m.statusOf p ≠ some .finished := by
  rw [← hrec.parents, List.countP_map]
  refine List.countP_congr fun p hp => ?_
  have hps := h.wf.parent_size ⟨hc, hp⟩
  simp [h.statusOf_eq hps]

/-- A report of success on a running task counts down along the child list of its row. -/
theorem Refines.done_turns (href : Refines v s)
    {request : TaskDoneRequest} {m' : TaskManager Q α}
    (hd : v.manager.done request = some (.ok (), m')) (hfail : request.failed = false) :
    v.manager.statusOf request.taskId = some .canceled ∧ m' = v.manager ∨
      ∃ index m₀ children turns, v.manager.taskIndex.lookup request.taskId = some index ∧
        v.manager.finishOwn index request.output = some m₀ ∧
        m₀.tasks.children[index]? = some children ∧ turns.map Prod.fst = children ∧
        m₀.ReleaseLoop turns m' ∧ ∀ c, turns.count (c, true) ≤ 1 := by
  unfold TaskManager.done at hd
  rw [href.lookup_eq] at hd ⊢
  rw [href.statusOf, TaskGraph.status]
  cases hf : s.find? request.taskId with
  | none => rw [hf] at hd; cases hd
  | some x =>
      obtain ⟨hx, hid⟩ := TaskGraph.find?_some hf
      have hxv := href.find_lt hf
      rw [hf] at hd
      dsimp only at hd ⊢
      rw [Rows.state_manager hxv, href.state_eq hx, Rows.workerId_manager hxv] at hd
      simp only [Option.bind_eq_bind, Option.bind_some] at hd
      split at hd
      · next hcanceled =>
          cases hd
          exact .inl ⟨congrArg some hcanceled, rfl⟩
      split at hd
      · cases hd
      · next hrunning =>
          have hr : (s.task x).state = .running := not_not.1 hrunning
          have hnf : (s.task x).state ≠ .finished := by simp [hr]
          split at hd
          · cases hd
          rw [hfail] at hd
          simp only [Bool.false_eq_true, if_false] at hd
          let w := v.set x { v.row x with output := request.output, state := .finished }
          have hown : v.manager.finishOwn x request.output = some w.manager := by
            unfold TaskManager.finishOwn
            rw [Rows.setOutput_manager hxv]
            simp only [Option.bind_eq_bind, Option.bind_some]
            rw [Rows.setState_manager (v := v.set x _) hxv]
            simp [w]
          have hchildren : w.manager.tasks.children[x]? = some (v.row x).children := by
            rw [Rows.children_manager (v := w) hxv, Rows.set_row_self]
          have hpending : ∀ j, (w.row j).pendingParents = (v.row j).pendingParents := by
            intro j
            rw [Rows.set_row]
            split
            · next hj => subst hj; rfl
            · rfl
          -- a row has as many registrations left as it names the task among its parents
          have hcounts : ∀ c ∈ (v.row x).children, c < w.size ∧
              (v.row x).children.count c ≤ (w.row c).pendingParents := by
            intro c hc
            have hcs := (href.children_lt hx hc).2
            refine ⟨href.size ▸ hcs, ?_⟩
            rw [hpending, href.children_eq hx hnf, TaskGraph.count_dependents hcs, href.row hcs]
            show _ ≤ s.pending c
            have hsettle : s.pending c = (s.settle x "").pending c + (s.task c).parents.count x :=
              TaskGraph.pending_settle hnf
            rw [hsettle]
            exact Nat.le_add_left _ _
          obtain ⟨turns, v', hturns, hloop, hcode, honce⟩ := Rows.releaseLoop_turns hcounts
          have hdone := hd.symm.trans (Rows.finishRow_manager hxv request.output)
          rw [hcode, Option.map_some] at hdone
          cases hdone
          refine .inr ⟨x, w.manager, _, turns, rfl, hown, hchildren, hturns, hloop, fun c => ?_⟩
          refine (honce c).trans ?_
          split <;> decide

/-- **Pending counts are exact and never underflow.** In every reachable state the count of a row is
the number of entries of its parent list that have not finished, and the number of its registrations
with rows that have not finished. It is positive for a waiting row and for one that ended badly
through a parent, and zero for a row that is ready, running or finished. The release loop of an
accepted `task_done` decrements positive counts only, and enqueues a row once at most, at the
decrement that brings it to zero while it waits. -/
theorem pending_count_is_exact (h : (TaskManager.machine Q re2).Run es m) :
    (∀ (c : Nat) pending, m.tasks.pendingParents[c]? = some pending →
      ∃ request state origin, (adds es)[c]? = some request ∧ m.tasks.state[c]? = some state ∧
        m.tasks.terminalOrigin[c]? = some origin ∧
        pending = request.parentTaskIds.countP (fun p => m.statusOf p ≠ some .finished) ∧
        pending = m.tasks.mentions c ∧
        (state = .waiting ∨ (state = .failed ∨ state = .canceled) ∧ origin ≠ c → 1 ≤ pending) ∧
        (state = .ready ∨ state = .running ∨ state = .finished → pending = 0)) ∧
    ∀ request m', m.done request = some (.ok (), m') → request.failed = false →
      m.statusOf request.taskId = some .canceled ∧ m' = m ∨
      ∃ index m₀ children turns, m.taskIndex.lookup request.taskId = some index ∧
        m.finishOwn index request.output = some m₀ ∧
        m₀.tasks.children[index]? = some children ∧ turns.map Prod.fst = children ∧
        m₀.ReleaseLoop turns m' ∧ ∀ c, turns.count (c, true) ≤ 1 := by
  obtain ⟨s, hc⟩ := TaskManager.exists_taskRun h
  obtain ⟨hlen, hall⟩ := hc.recorded
  have hsourced := hc.sourced
  obtain ⟨hwf, v, rfl, href⟩ := hc.related
  refine ⟨fun c pending hp => ?_, fun request m' hd hfail => href.done_turns hd hfail⟩
  have hcv : c < v.size := by
    have hlt := (List.getElem?_eq_some_iff.1 hp).1
    rwa [show v.manager.tasks.pendingParents.length = v.size from tab.length] at hlt
  have hcs : c < s.size := href.size ▸ hcv
  have hget := List.getElem?_eq_getElem (hlen.symm ▸ hcs)
  have hrow := href.row hcs
  rw [Rows.pendingParents_manager hcv, hrow, Option.some.injEq] at hp
  replace hp : s.pending c = pending := hp
  subst hp
  refine ⟨_, _, _, hget, (hc.related.columns hcs).2.1, (hc.related.columns hcs).2.2.2.2.2.2,
    hc.pending_eq hcs (hall c _ hget), (href.mentions hwf hcs).symm, ?_, ?_⟩
  · rintro (hw | ⟨hb, ho⟩)
    · exact TaskGraph.pending_pos (hwf.held hcs hw)
    · exact TaskGraph.pending_pos ((hsourced c hcs hb).unfinished hwf hb ho)
  · intro hst
    exact TaskGraph.pending_eq_zero.2 (hwf.gate hcs hst)

/-- The last task of the diamond waits for one parent, which it names once. -/
theorem pending_count_is_exact_diamond :
    (sampleRun diamond).2.tasks.pendingParents[3]? = some 1 ∧
      1 = diamondLast.parentTaskIds.countP
        fun p => (sampleRun diamond).2.statusOf p ≠ some .finished := by
  have hpending : (sampleRun diamond).2.tasks.pendingParents[3]? = some 1 := rfl
  obtain ⟨request, state, origin, hrequest, -, -, hcount, -⟩ :=
    (pending_count_is_exact (run_sampleRun diamond rfl)).1 3 1 hpending
  have hlast : (adds (sampleRun diamond).1)[3]? = some diamondLast := rfl
  rw [hlast] at hrequest
  cases hrequest
  exact ⟨hpending, hcount⟩

end DsService

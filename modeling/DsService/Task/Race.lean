import DsService.Task.Commute

/-!
# Submitting a child races harmlessly with its parent's ending

The two orders of a `task_add` and an ending run different code: counting, registration and then the
walk or the release loop on one side, inheritance on the other. They lead to one graph (`Commute`),
and this module compares the columns. A graph does not determine the queues and the child lists of
finished rows: the queues agree because they got the entries of one log in one order
(`Entered.unique`), and a child list can differ in the mentions of the new task at a parent that
finished.
-/

namespace DsService

variable {Q α : Type} [LinearOrder α] [PriorityQueue Q (TaskQueueEntry α) taskQueueEntryOrder]

/-! ## Queues that follow the log -/

/-- The queues that a task enters are those it lists. -/
theorem Rows.enterAll_congr {f g : Nat → List String} :
    ∀ {records : List (Nat × Double α)} (n : Nat) (queue : HashMap String Q),
      (∀ e ∈ records, f e.1 = g e.1) →
      Rows.enterAll f n queue records = Rows.enterAll g n queue records := by
  intro records
  induction records with
  | nil => intro n queue _; rfl
  | cons e records ih =>
      intro n queue hfg
      obtain ⟨i, priority⟩ := e
      simp only [Rows.enterAll]
      rw [hfg (i, priority) (.head _)]
      exact ih _ _ fun e he => hfg e (.tail _ he)

/-- From one table to the other the queues got the entries that the log got, and nothing else. -/
def Entered (v v' : Rows Q α) (s s' : TaskGraph α) : Prop :=
  ∃ records, s'.log = s.log ++ records ∧
    v'.queue = Rows.enterAll (fun i => (s'.task i).queues) v.nextSeq v.queue records

variable {v v' v'' : Rows Q α} {s s' s'' : TaskGraph α}

/-- Two calls enter the queues one after the other. -/
theorem Entered.trans (h : Entered v v' s s') (h' : Entered v' v'' s' s'')
    (href : Refines v s) (href' : Refines v' s')
    (hqueues : ∀ e ∈ s'.log, (s''.task e.1).queues = (s'.task e.1).queues) :
    Entered v v'' s s'' := by
  obtain ⟨records, hlog, hqueue⟩ := h
  obtain ⟨records', hlog', hqueue'⟩ := h'
  refine ⟨records ++ records', by rw [hlog', hlog, List.append_assoc], ?_⟩
  have hnext : v'.nextSeq = v.nextSeq + records.length := by
    rw [href'.nextSeq, href.nextSeq, hlog, List.length_append]
  rw [Rows.enterAll_append, ← hnext, hqueue', hqueue]
  congr 1
  refine (Rows.enterAll_congr _ _ fun e he => ?_).symm
  exact hqueues e (by rw [hlog]; exact List.mem_append_right _ he)

/-- The log decides the queues. -/
theorem Entered.unique (h : Entered v v' s s') (h' : Entered v v'' s s') :
    v'.queue = v''.queue := by
  obtain ⟨records, hlog, hqueue⟩ := h
  obtain ⟨records', hlog', hqueue'⟩ := h'
  have heq : records = records' := List.append_cancel_left (hlog.symm.trans hlog')
  rw [hqueue, hqueue', heq]

/-! ## One graph, two tables -/

/-- Tables that represent one graph, with the same index and the same queues, differ in child lists
only. -/
theorem Refines.manager_eq (h : Refines v s) (h' : Refines v' s)
    (hindex : v.taskIndex = v'.taskIndex) (hqueue : v.queue = v'.queue) :
    v.manager = { v'.manager with
      tasks := { v'.manager.tasks with children := v.manager.tasks.children } } := by
  have hcol : ∀ {β : Type} (f : Row α → β), (∀ r : Row α, f r = f { r with children := [] }) →
      tab v.size (fun i => f (v.row i)) = tab v'.size fun i => f (v'.row i) := by
    intro β f hf
    rw [h.size, h'.size]
    refine tab.congr fun i hi => ?_
    rw [hf (v.row i), hf (v'.row i), h.row hi, h'.row hi]
    rfl
  have hseq : v.nextSeq = v'.nextSeq := by rw [h.nextSeq, h'.nextSeq]
  unfold Rows.manager TaskTable.ofRows
  rw [hindex, hqueue, hseq, hcol Row.taskId fun _ => rfl, hcol Row.function fun _ => rfl,
    hcol Row.input fun _ => rfl, hcol Row.output fun _ => rfl, hcol Row.state fun _ => rfl,
    hcol Row.workerId fun _ => rfl, hcol Row.priority fun _ => rfl, hcol Row.queues fun _ => rfl,
    hcol Row.seq fun _ => rfl, hcol Row.pendingParents fun _ => rfl,
    hcol Row.terminalOrigin fun _ => rfl]

/-- A call that ended a task, or did nothing: the edges stay, and the queues follow the log. -/
structure Ending (v v' : Rows Q α) (s s' : TaskGraph α) : Prop where
  refines : Refines v' s'
  wf : s'.WF
  edges : v.SameEdges v'
  entered : Entered v v' s s'
  size : s'.size = s.size
  requests : ∀ i, (s.task i).SameRequest (s'.task i)

/-- A change that adds no task is an `Ending` once the edges and the queues are known. -/
theorem Refines.ending (h : Refines v' s') (hwf : s.WF) {op : TaskOp α} {r : TaskReply α}
    (hchange : s.Change op r s') (hop : op.added r = none) (hedges : v.SameEdges v')
    {records : List (Nat × Double α)} (hlog : s'.log = s.log ++ records)
    (hqueue : v'.queue = Rows.enterAll (fun i => (s.task i).queues) v.nextSeq v.queue records) :
    Ending v v' s s' := by
  rcases hchange.requests with ⟨_, _, rfl, rfl, -⟩ | ⟨-, hsize, hreq⟩
  · cases hop
  · refine ⟨h, hchange.wf hwf, hedges, ⟨records, hlog, ?_⟩, hsize, hreq⟩
    rw [hqueue, funext fun i => (hreq i).queues]

/-- A cancel is one. -/
theorem Refines.ending_cancel (re2 : RE2) (h : Refines v s) (hwf : s.WF)
    (request : TaskCancelRequest) :
    ∃ v', v.manager.step re2 (.cancel request) =
        some (.cancel (s.serveCancel request).1, v'.manager) ∧
      Ending v v' s (s.serveCancel request).2 := by
  have hserve : s.Serves re2 (.cancel request) _ _ := .cancel request
  obtain ⟨v', hcancel, href, hframe⟩ := h.cancel hwf request
  refine ⟨v', by simp [TaskManager.step, hcancel], ?_⟩
  have hlog : (s.serveCancel request).2.log = s.log ++ [] := by
    rw [List.append_nil]
    unfold TaskGraph.serveCancel
    split
    · rfl
    · split <;> rfl
  exact href.ending hwf hserve.change rfl hframe.toSameEdges hlog hframe.queue

/-- A report is one. -/
theorem Refines.ending_done (re2 : RE2) (h : Refines v s) (hwf : s.WF)
    (request : TaskDoneRequest) :
    ∃ v', v.manager.step re2 (.done request) =
        some (.done (s.serveDone request).1, v'.manager) ∧
      Ending v v' s (s.serveDone request).2 := by
  have hserve : s.Serves re2 (.done request) _ _ := .done request
  obtain ⟨v', records, hdone, href, hedges, hlog, hqueue⟩ := h.done hwf request
  exact ⟨v', by simp [TaskManager.step, hdone],
    href.ending hwf hserve.change rfl hedges hlog hqueue⟩

/-! ## The two orders -/

section orders
variable {request : TaskAddRequest α} {parents : List Nat}

/-- `task_add` on the rows: the queues follow the log. -/
theorem Refines.add_entered (h : Refines v s) :
    Entered v (v.add (s.newRow request parents) parents) s (s.add request parents) := by
  by_cases hr : (s.birth parents).1 = .ready
  · have hstate : (s.newRow request parents).state = .ready := hr
    refine ⟨[(s.size, request.priority)], by rw [TaskGraph.add_log, if_pos hr], ?_⟩
    rw [Rows.add_queue, if_pos hstate, h.size]
    simp only [Rows.enterAll]
    rw [TaskGraph.add_task_new]
    rfl
  · have hstate : (s.newRow request parents).state ≠ .ready := hr
    refine ⟨[], by rw [TaskGraph.add_log, if_neg hr, List.append_nil], ?_⟩
    rw [Rows.add_queue, if_neg hstate]
    rfl

/-- What the two orders of a `task_add` and an ending have in common: `va` is the table when the
task is added first, `vb` when it is added last. -/
theorem Ending.orders {va v₂ : Rows Q α} {g : TaskGraph α} (h : Refines v s) (hwf : s.WF)
    (hnew : s.find? request.taskId = none)
    (hp : s.resolve request.parentTaskIds = .ok parents) (hend : Ending v v₂ s g)
    (hend' : Ending (v.add (s.newRow request parents) parents) va (s.add request parents)
      (g.add request parents)) :
    ∃ vb : Rows Q α, v₂.manager.add request = some (.ok (), vb.manager) ∧
      va.manager = { vb.manager with
        tasks := { vb.manager.tasks with children := va.manager.tasks.children } } ∧
      va.size = s.size + 1 ∧ vb.size = s.size + 1 ∧
      vb.taskIndex.lookup request.taskId = some s.size ∧
      (va.row s.size).children = (vb.row s.size).children ∧
      ∀ j, j < s.size →
        (va.row j).children = (v.row j).children ++
          (if (s.task j).state = .finished then [] else List.replicate (parents.count j) s.size) ∧
        (vb.row j).children = (v.row j).children ++
          if (g.task j).state = .finished then []
          else List.replicate (parents.count j) s.size := by
  have hfind : ∀ t, g.find? t = s.find? t :=
    TaskGraph.find?_congr hend.size fun i _ => (hend.requests i).taskId
  have hp₂ : g.resolve request.parentTaskIds = .ok parents := by
    rw [TaskGraph.resolve_congr hfind, hp]
  have hlt : ∀ p ∈ parents, p < s.size := TaskGraph.resolve_lt hp
  have hlt₂ : ∀ p ∈ parents, p < g.size := hend.size.symm ▸ hlt
  have hnew₂ : g.find? request.taskId = none := by rw [hfind, hnew]
  have hadd := h.add hwf hnew hlt
  have hadd₂ := hend.refines.add hend.wf hnew₂ hlt₂
  let vb := v₂.add (g.newRow request parents) parents
  have hindex : va.taskIndex = vb.taskIndex := by
    rw [hend'.edges.taskIndex, Rows.add_taskIndex, Rows.add_taskIndex, hend.edges.taskIndex,
      hend.edges.size]
    rfl
  have hqueue : va.queue = vb.queue := by
    have hfirst : Entered v va s (g.add request parents) :=
      h.add_entered.trans hend'.entered h hadd fun e _ => (hend'.requests e.1).queues
    have hlast : Entered v vb s (g.add request parents) := by
      refine hend.entered.trans hend.refines.add_entered h hend.refines fun e he => ?_
      rw [TaskGraph.add_task_old _ _ (hend.wf.log_lt e he)]
    exact hfirst.unique hlast
  refine ⟨vb, hend.refines.add_manager hend.wf hnew₂ hp₂,
    hend'.refines.manager_eq hadd₂ hindex hqueue, ?_, ?_, ?_, ?_, fun j hj => ⟨?_, ?_⟩⟩
  · rw [hend'.edges.size, Rows.add_size, h.size]
  · rw [Rows.add_size, hend.refines.size, hend.size]
  · rw [Rows.add_taskIndex, hend.refines.size, hend.size]
    exact AList.lookup_insert _
  · rw [hend'.edges.children, h.add_newRow hlt, ← hend.size, hend.refines.add_newRow hlt₂]
    rfl
  · rw [hend'.edges.children, h.add_children hj]
  · rw [hend.refines.add_children (hend.size.symm ▸ hj), hend.edges.children, hend.size]

end orders

/-- A new task and another call, in either order: the calls answer the same, and `R` relates the
state when the task is added first to the state when it is added last. -/
def TaskManager.EitherOrder (re2 : RE2) (m : TaskManager Q α) (request : TaskAddRequest α)
    (op : TaskOp α) (R : TaskManager Q α → TaskManager Q α → Prop) : Prop :=
  ∃ r m₁ m₂ mA mB,
    m.step re2 (.add request) = some (.add (.ok ()), m₁) ∧ m₁.step re2 op = some (r, mA) ∧
      m.step re2 op = some (r, m₂) ∧ m₂.step re2 (.add request) = some (.add (.ok ()), mB) ∧
      R mA mB

section race
variable {re2 : RE2} {request : TaskAddRequest α} {parents : List Nat} {x : Nat}

/-- An add as a step of the task manager. -/
theorem TaskManager.step_add {m m' : TaskManager Q α} {r : Result Unit}
    (h : m.add request = some (r, m')) : m.step re2 (.add request) = some (.add r, m') := by
  simp [TaskManager.step, h]

variable (h : Refines v s) (hwf : s.WF) (hnew : s.find? request.taskId = none)
  (hp : s.resolve request.parentTaskIds = .ok parents)
include h hwf hnew hp

section one
variable {op : TaskOp α} {r : TaskReply α} {v₂ va : Rows Q α} {g : TaskGraph α}
variable (hop : v.manager.step re2 op = some (r, v₂.manager)) (hend : Ending v v₂ s g)
  (hop' : (v.add (s.newRow request parents) parents).manager.step re2 op = some (r, va.manager))
  (hend' : Ending (v.add (s.newRow request parents) parents) va (s.add request parents)
    (g.add request parents))
include hop hend hop' hend'

/-- A call that commutes with the `task_add` in the graph and finishes nothing commutes in the
code. -/
theorem Refines.either_order
    (hfin : ∀ j, (g.task j).state = .finished ↔ (s.task j).state = .finished) :
    v.manager.EitherOrder re2 request op Eq := by
  obtain ⟨vb, haddb, hcols, hsize, hsizeb, hlookup, hlast, hold⟩ :=
    Ending.orders h hwf hnew hp hend hend'
  refine ⟨r, _, _, va.manager, vb.manager, TaskManager.step_add (h.add_manager hwf hnew hp), hop',
    hop, TaskManager.step_add haddb, ?_⟩
  have hchildren : va.manager.tasks.children = vb.manager.tasks.children := by
    change tab va.size _ = tab vb.size _
    rw [hsize, hsizeb]
    refine tab.congr fun j hj => ?_
    rcases Nat.lt_succ_iff_lt_or_eq.1 hj with hj | rfl
    · rw [(hold j hj).1, (hold j hj).2]
      simp only [hfin j]
    · exact hlast
  rw [hcols, hchildren]

/-- A call that commutes with the `task_add` in the graph and finishes at most `x` commutes in the
code up to the child list of `x`. -/
theorem Refines.either_order_upto (hx : x < s.size)
    (hfin : ∀ j, j ≠ x → ((g.task j).state = .finished ↔ (s.task j).state = .finished))
    (hkeep : (s.task x).state = .finished → (g.task x).state = .finished) :
    v.manager.EitherOrder re2 request op fun mA mB => ∃ c children k,
      mB.taskIndex.lookup request.taskId = some c ∧ mB.tasks.children[x]? = some children ∧
      mA = { mB with tasks := { mB.tasks with
        children := mB.tasks.children.set x (children ++ List.replicate k c) } } := by
  obtain ⟨vb, haddb, hcols, hsize, hsizeb, hlookup, hlast, hold⟩ :=
    Ending.orders h hwf hnew hp hend hend'
  refine ⟨r, _, _, va.manager, vb.manager, TaskManager.step_add (h.add_manager hwf hnew hp), hop',
    hop, TaskManager.step_add haddb, s.size, (vb.row x).children, ?_⟩
  have hread : vb.manager.tasks.children[x]? = some (vb.row x).children :=
    Rows.children_manager (by omega)
  have hk : ∃ k, (va.row x).children = (vb.row x).children ++ List.replicate k s.size := by
    rw [(hold x hx).1, (hold x hx).2]
    by_cases hs : (s.task x).state = .finished
    · exact ⟨0, by simp [hs, hkeep hs]⟩
    · by_cases hg : (g.task x).state = .finished
      · exact ⟨parents.count x, by simp [hs, hg]⟩
      · exact ⟨0, by simp [hs, hg]⟩
  obtain ⟨k, hk⟩ := hk
  refine ⟨k, hlookup, hread, ?_⟩
  have hchildren : va.manager.tasks.children =
      vb.manager.tasks.children.set x ((vb.row x).children ++ List.replicate k s.size) := by
    change tab va.size _ = (tab vb.size _).set x _
    rw [tab.set, hsize, hsizeb]
    refine tab.congr fun j hj => ?_
    by_cases hjx : j = x
    · subst hjx
      rw [Function.update_self, hk]
    · rw [Function.update_of_ne hjx]
      rcases Nat.lt_succ_iff_lt_or_eq.1 hj with hj | rfl
      · rw [(hold j hj).1, (hold j hj).2]
        simp only [hfin j hjx]
      · exact hlast
  rw [hcols, hchildren]

end one

/-- The two orders of a `task_add` and a `task_cancel`. -/
theorem Refines.race_cancel {cancel : TaskCancelRequest} (hx : s.find? cancel.taskId = some x)
    (hgood : ∀ p ∈ parents, ¬ (s.task p).state.IsBad) :
    v.manager.EitherOrder re2 request (.cancel cancel) Eq := by
  have hlt := TaskGraph.resolve_lt hp
  have hcomm := TaskGraph.add_serveCancel hwf hnew hlt hx hgood
  obtain ⟨v₂, hop, hend⟩ := h.ending_cancel re2 hwf cancel
  obtain ⟨va, hop', hend'⟩ := (h.add hwf hnew hlt).ending_cancel re2 (hwf.add hnew hlt) cancel
  rw [hcomm] at hop' hend'
  exact h.either_order hwf hnew hp hop hend hop' hend' fun _ => TaskGraph.serveCancel_finished

/-- The two orders of a `task_add` and a report of failure. -/
theorem Refines.race_fail {done : TaskDoneRequest} (hx : s.find? done.taskId = some x)
    (hf : done.failed = true) (hgood : ∀ p ∈ parents, ¬ (s.task p).state.IsBad) :
    v.manager.EitherOrder re2 request (.done done) Eq := by
  have hlt := TaskGraph.resolve_lt hp
  have hcomm := TaskGraph.add_serveDone hwf hnew hlt hx (.inl ⟨hf, hgood⟩)
  obtain ⟨v₂, hop, hend⟩ := h.ending_done re2 hwf done
  obtain ⟨va, hop', hend'⟩ := (h.add hwf hnew hlt).ending_done re2 (hwf.add hnew hlt) done
  rw [hcomm] at hop' hend'
  exact h.either_order hwf hnew hp hop hend hop' hend' fun _ =>
    TaskGraph.serveDone_finished (.inl hf)

/-- The two orders of a `task_add` and a report of success of one of the parents. -/
theorem Refines.race_finish {done : TaskDoneRequest} (hx : s.find? done.taskId = some x)
    (hf : done.failed = false) (hxp : x ∈ parents) :
    v.manager.EitherOrder re2 request (.done done) fun mA mB => ∃ c children k,
      mB.taskIndex.lookup request.taskId = some c ∧ mB.tasks.children[x]? = some children ∧
      mA = { mB with tasks := { mB.tasks with
        children := mB.tasks.children.set x (children ++ List.replicate k c) } } := by
  have hlt := TaskGraph.resolve_lt hp
  have hcomm := TaskGraph.add_serveDone hwf hnew hlt hx (.inr ⟨hf, hxp⟩)
  obtain ⟨v₂, hop, hend⟩ := h.ending_done re2 hwf done
  obtain ⟨va, hop', hend'⟩ := (h.add hwf hnew hlt).ending_done re2 (hwf.add hnew hlt) done
  rw [hcomm] at hop' hend'
  refine h.either_order_upto hwf hnew hp hop hend hop' hend' (TaskGraph.find?_some hx).1
    (fun j hj => TaskGraph.serveDone_finished (.inr fun hfind => hj ?_)) TaskGraph.serveDone_keeps
  rw [hx] at hfind
  exact (Option.some.inj hfind).symm

end race

/-- **Submitting a child races harmlessly with its parent's ending.** In every reachable state, for
every new task whose parents exist and every task `x`: a `task_cancel` of `x` or a report of its
failure gives the same answers and the same state before and after the `task_add`, unless a parent
of the new task had failed or been canceled already; a report of the success of a parent does too,
except that the child list of `x` may also mention the new task when this was added first. -/
theorem add_races_harmlessly {re2 : RE2} {es : List (TaskEvent Q α)} {m : TaskManager Q α}
    (h : (TaskManager.machine Q re2).Run es m) (request : TaskAddRequest α)
    (taskId : String) {x : Nat}
    (hnew : m.taskIndex.lookup request.taskId = none)
    (hparents : ∀ p ∈ request.parentTaskIds, (m.taskIndex.lookup p).isSome = true)
    (hx : m.taskIndex.lookup taskId = some x) :
    ((∀ p ∈ request.parentTaskIds, m.statusOf p ≠ some .failed ∧ m.statusOf p ≠ some .canceled) →
      m.EitherOrder re2 request (.cancel ⟨taskId⟩) Eq ∧
      ∀ workerId output,
        m.EitherOrder re2 request (.done ⟨taskId, output, workerId, true⟩) Eq) ∧
    (taskId ∈ request.parentTaskIds → ∀ workerId output,
      m.EitherOrder re2 request (.done ⟨taskId, output, workerId, false⟩) fun mA mB =>
        ∃ c children k, mB.taskIndex.lookup request.taskId = some c ∧
          mB.tasks.children[x]? = some children ∧
          mA = { mB with tasks := { mB.tasks with
            children := mB.tasks.children.set x (children ++ List.replicate k c) } }) := by
  obtain ⟨s, hrun⟩ := TaskManager.exists_taskRun h
  have hstatus := fun {i} (hi : i < s.size) => hrun.statusOf_eq hi
  obtain ⟨hwf, v, rfl, href⟩ := hrun.related
  rw [href.lookup_eq] at hnew hx
  obtain ⟨parents, hp⟩ := TaskGraph.exists_resolve fun t ht => by
    rw [← href.lookup_eq]
    exact hparents t ht
  have hids := TaskGraph.resolve_ids hp
  constructor
  · intro hgood
    have hgood' : ∀ p ∈ parents, ¬ (s.task p).state.IsBad := by
      intro p hpp hbad
      have hmem : (s.task p).taskId ∈ request.parentTaskIds := hids ▸ List.mem_map_of_mem hpp
      have hst := hstatus (TaskGraph.resolve_lt hp p hpp)
      rcases hbad with hb | hb
      · exact (hgood _ hmem).1 (by rw [hst, hb])
      · exact (hgood _ hmem).2 (by rw [hst, hb])
    exact ⟨href.race_cancel hwf hnew hp hx hgood', fun workerId output =>
      href.race_fail hwf hnew hp hx rfl hgood'⟩
  · intro hmem workerId output
    have hxp : x ∈ parents := by
      rw [← hids] at hmem
      obtain ⟨p, hpp, hpt⟩ := List.mem_map.1 hmem
      have hfind := hwf.find?_eq.2 ⟨TaskGraph.resolve_lt hp p hpp, hpt⟩
      rw [hx] at hfind
      cases hfind
      exact hpp
    exact href.race_finish hwf hnew hp hx rfl hxp

/-- The diamond with its third task running. -/
def diamondRunning : List (TaskOp Nat) := diamond ++ [.get ⟨"w", ["q"]⟩]

/-- A task below the running one and below the waiting one. -/
def diamondChild : TaskAddRequest Nat := ⟨"e", ["c", "d", "c"], ["q"], .num 0, "f", "5"⟩

/-- A child of a running task, added before or after the ending of its parent. -/
theorem add_races_harmlessly_diamond :
    ((sampleRun diamondRunning).2.EitherOrder sampleRe2 diamondChild (.cancel ⟨"c"⟩) Eq ∧
      ∀ workerId output, (sampleRun diamondRunning).2.EitherOrder sampleRe2 diamondChild
        (.done ⟨"c", output, workerId, true⟩) Eq) ∧
    ∀ workerId output, (sampleRun diamondRunning).2.EitherOrder sampleRe2 diamondChild
      (.done ⟨"c", output, workerId, false⟩) fun mA mB =>
        ∃ c children k, mB.taskIndex.lookup "e" = some c ∧
          mB.tasks.children[2]? = some children ∧
          mA = { mB with tasks := { mB.tasks with
            children := mB.tasks.children.set 2 (children ++ List.replicate k c) } } := by
  have h := add_races_harmlessly (run_sampleRun diamondRunning rfl) diamondChild "c" (x := 2) rfl
    (by decide) rfl
  exact ⟨h.1 (by decide), h.2 (by decide)⟩

end DsService

import DsService.Task.Claim

/-!
# The origin of a bad ending

`terminal_origin` is written in four places: by `task_cancel`, by a failing `task_done`, by the
walk, and by `task_add` under a parent that has ended badly, which copies what may itself be a copy.
`Sourced` is the invariant behind it: an origin ended the same way and is its own origin. With the
history it gives `blame_is_the_origin`: the origin of a failed task is the task whose run failed,
and the origin of a canceled one is a task that was canceled.
-/

namespace DsService

variable {Q α : Type}

namespace TaskGraph

variable {s s' : TaskGraph α} {op : TaskOp α} {r : TaskReply α} {i : Nat}

/-! ## How a task comes to a bad ending -/

/-- The ways in which a task can have ended badly after a step: before it, with a task that is
canceled or reported as failed, or by being added under such a task. -/
inductive BadEnding (s : TaskGraph α) (op : TaskOp α) (r : TaskReply α)
    (s' : TaskGraph α) (i : Nat) :
    Prop
  | before (hi : i < s.size) (hd : (s.task i).state.isLive = false)
  | cancel {request : TaskCancelRequest} {x : Nat} (hx : s.find? request.taskId = some x)
      (hl : (s.task x).state.isLive = true) (hop : op = .cancel request)
      (hr : r = .cancel (.ok ⟨true⟩)) (hs : s' = s.cancel x) (hi : i = x ∨ s.Falls x i)
  | fail {request : TaskDoneRequest} {x : Nat} (hx : s.find? request.taskId = some x)
      (hrun : (s.task x).state = .running) (hw : (s.task x).workerId = request.workerId)
      (hf : request.failed = true) (hop : op = .done request) (hr : r = .done (.ok ()))
      (hs : s' = s.fail x request.output) (hi : i = x ∨ s.Falls x i)
  | born {request : TaskAddRequest α} {parents : List Nat} {p : Nat}
      (hnew : s.find? request.taskId = none) (hres : s.resolve request.parentTaskIds = .ok parents)
      (hp : p ∈ parents) (hb : (s.task p).state.IsBad)
      (hbirth : s.birth parents = ((s.task p).state, (s.task p).origin))
      (hs : s' = s.add request parents) (hi : i = s.size)

/-- A task that has ended badly after a step came to it in one of these ways. -/
theorem Change.badEnding (h : s.Change op r s') (hi : i < s'.size)
    (hb : (s'.task i).state.IsBad) : BadEnding s op r s' i := by
  have hkeep : i < s.size → (s'.task i).state = (s.task i).state → BadEnding s op r s' i :=
    fun hi hst => .before hi (hst ▸ hb).isLive
  cases h with
  | same _ => exact hkeep hi rfl
  | @add request parents hnew hp =>
      rcases add_lt hi with hi | rfl
      · exact hkeep hi (by rw [add_task_old _ _ hi])
      · rw [add_task_new] at hb
        change (s.birth parents).1.IsBad at hb
        rcases s.birth_cases parents with ⟨p, hpp, hst, hbirth⟩ | ⟨-, p, hpp, hst, hbirth⟩ |
          ⟨-, -, hbirth⟩ | ⟨-, -, hbirth⟩
        · exact .born hnew hp hpp (.inl hst) (by rw [hst]; exact hbirth) rfl rfl
        · exact .born hnew hp hpp (.inr hst) (by rw [hst]; exact hbirth) rfl rfl
        · rw [hbirth] at hb; rcases hb with hb | hb <;> cases hb
        · rw [hbirth] at hb; rcases hb with hb | hb <;> cases hb
  | @cancel request x hx hl =>
      rcases endBadly_state (s := s) (i := i) (x := x) .canceled "" canceledOutput with
        ⟨hix, -⟩ | ⟨-, -, hst⟩
      · exact .cancel hx hl rfl rfl rfl hix
      · exact hkeep hi (congrArg Task.state hst)
  | setPriority _ =>
      rw [reprioritize_size] at hi
      exact hkeep hi (reprioritize_state _)
  | @claim request qname x _ hx =>
      rw [claim_task] at hb
      split at hb
      · rcases hb with hb | hb <;> cases hb
      · next hix => exact hkeep hi (by rw [claim_task, if_neg hix])
  | @fail request x hx hr hw hf =>
      rcases endBadly_state (s := s) (i := i) (x := x) .failed (s.task x).workerId
        request.output with ⟨hix, -⟩ | ⟨-, -, hst⟩
      · exact .fail hx hr hw hf rfl rfl rfl hix
      · exact hkeep hi (congrArg Task.state hst)
  | @finish request x _ _ _ _ =>
      rcases finish_task_cases s x request.output i with ⟨-, hst⟩ | ⟨-, -, -, hst⟩ | ⟨-, -, hst⟩
      · rw [hst] at hb; rcases hb with hb | hb <;> cases hb
      · rw [hst] at hb; rcases hb with hb | hb <;> cases hb
      · exact hkeep hi (congrArg Task.state hst)

/-! ## The origins of the graph -/

/-- What the origin of a task that ended badly is. -/
structure SourcedAt (s : TaskGraph α) (i : Nat) : Prop where
  path : (s.task i).origin = i ∨ s.Ancestor (s.task i).origin i
  state : (s.task (s.task i).origin).state = (s.task i).state
  own : (s.task (s.task i).origin).origin = (s.task i).origin
  output : (s.task i).origin ≠ i ∨ (s.task i).state = .canceled →
    (s.task i).output = s.terminalOutput (s.task i).state (s.task i).origin

/-- The origin of every bad ending ended the same way and is its own origin. -/
def Sourced (s : TaskGraph α) : Prop := ∀ i, i < s.size → (s.task i).state.IsBad → s.SourcedAt i

/-- An ending that spreads is its own origin and that of all it takes with it. -/
theorem endBadly_sourced (hwf : s.WF) {x : Nat} {state : TaskState} {workerId output : String}
    (hx : x < s.size) (hout : state = .canceled → output = canceledOutput)
    (hi : i = x ∨ s.Falls x i) : (s.endBadly x state workerId output).SourcedAt i := by
  have hself := endBadly_self (s := s) (x := x) state workerId output
  have hreq : ∀ j, (s.task j).SameRequest ((s.endBadly x state workerId output).task j) := fun j =>
    endBadly_sameRequest _ _ _
  rcases hi with rfl | hf
  · refine ⟨.inl ?_, ?_, ?_, ?_⟩
    · rw [hself]
    · rw [hself]; dsimp only; rw [hself]
    · rw [hself]; dsimp only; rw [hself]
    · rw [hself]
      rintro (hne | hcan)
      · exact absurd rfl hne
      · simp only at hcan
        subst hcan
        exact hout rfl
  · have hne : i ≠ x := hwf.ancestor_ne hf.2.2
    have hfall := endBadly_falls (s := s) state workerId output hne hf
    refine ⟨.inr ?_, ?_, ?_, ?_⟩
    · rw [hfall]
      exact Relation.TransGen.mono (fun p c hp => ⟨hp.1, (hreq c).parents ▸ hp.2⟩) _ _ hf.2.2
    · rw [hfall]; dsimp only; rw [hself]
    · rw [hfall]; dsimp only; rw [hself]
    · intro _
      rw [hfall]
      dsimp only
      unfold terminalOutput
      rw [(hreq x).taskId]

/-- **A step keeps the origins.** -/
theorem Change.sourced (h : s.Change op r s') (hwf : s.WF) (hs : s.Sourced) : s'.Sourced := by
  intro i hi hb
  cases h.badEnding hi hb with
  | before hi hd =>
      -- the task and its origin had ended, so neither changes
      have hsame := h.final hi hd
      have hsrc := hs i hi (hsame.state ▸ hb)
      have ho : (s.task i).origin < s.size := Nat.lt_of_le_of_lt (hwf.origin_le hi) hi
      have hsameo := h.final ho (by rw [hsrc.state]; exact hd)
      have hout : ∀ state, s'.terminalOutput state (s.task i).origin =
          s.terminalOutput state (s.task i).origin := by
        intro state
        unfold terminalOutput
        rw [(h.keeps ho).2.taskId]
      refine ⟨?_, ?_, ?_, ?_⟩
      · rw [hsame.origin]
        exact hsrc.path.imp id h.ancestor
      · rw [hsame.origin, hsameo.state, hsame.state, hsrc.state]
      · rw [hsame.origin, hsameo.origin, hsrc.own]
      · rw [hsame.origin, hsame.state, hsame.output, hout]
        exact hsrc.output
  | cancel hx _ _ _ hs' hix =>
      rw [hs']
      exact endBadly_sourced hwf (find?_some hx).1 (fun _ => rfl) hix
  | fail hx _ _ _ _ _ hs' hix =>
      rw [hs']
      exact endBadly_sourced hwf (find?_some hx).1 (fun h => by cases h) hix
  | @born request parents p hnew hres hp hbp hbirth hs' hi' =>
      have hps : p < s.size := resolve_lt hres p hp
      have hsrc := hs p hps hbp
      have ho : (s.task p).origin < s.size := Nat.lt_of_le_of_lt (hwf.origin_le hps) hps
      have hnewTask : s'.task i = s.newTask request parents := by
        rw [hi', hs', add_task_new]
      have horigin : (s'.task i).origin = (s.task p).origin := by
        rw [hnewTask]; exact congrArg Prod.snd hbirth
      have hstate : (s'.task i).state = (s.task p).state := by
        rw [hnewTask]; exact congrArg Prod.fst hbirth
      have hold : s'.task (s.task p).origin = s.task (s.task p).origin := by
        rw [hs', add_task_old _ _ ho]
      have hparent : s'.Parent p i := ⟨hi, by rw [hnewTask]; exact hp⟩
      refine ⟨.inr ?_, ?_, ?_, fun _ => ?_⟩
      · rw [horigin]
        rcases hsrc.path with heq | ha
        · rw [heq]; exact .single hparent
        · exact .tail (h.ancestor ha) hparent
      · rw [horigin, hold, hstate, hsrc.state]
      · rw [horigin, hold, hsrc.own]
      · have hout : (s.newTask request parents).output =
            s.terminalOutput (s.birth parents).1 (s.birth parents).2 :=
          if_pos (by rw [hbirth]; exact hbp)
        rw [hstate, horigin, hnewTask, hout, hbirth]
        unfold terminalOutput
        rw [hold]

/-- A task that is added with the ending of a parent is not its own origin. -/
theorem WF.born_origin (hwf : s.WF) {request : TaskAddRequest α} {parents : List Nat} {p : Nat}
    (hres : s.resolve request.parentTaskIds = .ok parents) (hp : p ∈ parents)
    (hbirth : s.birth parents = ((s.task p).state, (s.task p).origin)) :
    ((s.add request parents).task s.size).origin ≠ s.size := by
  have hps := resolve_lt hres p hp
  have hle := hwf.origin_le hps
  have horigin : ((s.add request parents).task s.size).origin = (s.task p).origin := by
    rw [add_task_new]; exact congrArg Prod.snd hbirth
  omega

end TaskGraph

/-! ## The history of an ending -/

/-- The task was claimed, and then a report of failure with this output moved it from running to
failed. -/
def FailedBy (es : List (TaskEvent Q α)) (t output : String) : Prop :=
  ∃ es₁ e es₂ workerId, es = es₁ ++ e :: es₂ ∧ (t, workerId) ∈ claims es₁ ∧
    e.op = .done ⟨t, output, workerId, true⟩ ∧ e.reply = .done (.ok ()) ∧
    e.pre.statusOf t = some .running ∧ e.post.statusOf t = some .failed

/-- A `task_cancel` of the task succeeded. -/
def CanceledBy (es : List (TaskEvent Q α)) (t : String) : Prop :=
  ∃ e ∈ es, e.op = .cancel ⟨t⟩ ∧ e.reply = .cancel (.ok ⟨true⟩)

/-- A failure that was reported stays so. -/
theorem FailedBy.append {es es' : List (TaskEvent Q α)} {t output : String}
    (h : FailedBy es t output) : FailedBy (es ++ es') t output := by
  obtain ⟨es₁, e, es₂, workerId, rfl, hrest⟩ := h
  exact ⟨es₁, e, es₂ ++ es', workerId, by rw [List.append_assoc, List.cons_append], hrest⟩

/-- A cancel that was made stays so. -/
theorem CanceledBy.append {es es' : List (TaskEvent Q α)} {t : String}
    (h : CanceledBy es t) : CanceledBy (es ++ es') t := by
  obtain ⟨e, he, hrest⟩ := h
  exact ⟨e, List.mem_append_left _ he, hrest⟩

/-- The history explains the endings of the graph: a task that is its own origin was reported or
canceled itself, and a task that failed with another was never claimed. -/
structure Explained (es : List (TaskEvent Q α)) (s : TaskGraph α) : Prop where
  failed : ∀ i, i < s.size → (s.task i).state = .failed → (s.task i).origin = i →
    FailedBy es (s.task i).taskId (s.task i).output
  canceled : ∀ i, i < s.size → (s.task i).state = .canceled → (s.task i).origin = i →
    CanceledBy es (s.task i).taskId
  unclaimed : ∀ i, i < s.size → (s.task i).state = .failed → (s.task i).origin ≠ i →
    ∀ workerId, ((s.task i).taskId, workerId) ∉ claims es

variable [LinearOrder α] [PriorityQueue Q (TaskQueueEntry α) taskQueueEntryOrder]
variable {re2 : RE2} {es : List (TaskEvent Q α)} {m : TaskManager Q α} {s : TaskGraph α}

/-- After every run the origins of the endings are as `Sourced` says. -/
theorem TaskRun.sourced (h : TaskRun re2 es m s) : s.Sourced := by
  refine Machine.Coupled.invariant (I := fun _ _ s => s.Sourced) ?_ ?_ h
  · exact fun i hi => absurd hi (Nat.not_lt_zero _)
  · intro es m s op r m' s' hc ih _ hserve _
    exact hserve.change.sourced (TaskRun.wf hc) ih

/-- A task that was not yet claimed is not claimed by a step that finds it ended or waiting. -/
theorem TaskRun.unclaimed_step (h : TaskRun re2 es m s) {op : TaskOp α} {r : TaskReply α}
    {s' : TaskGraph α} {m' : TaskManager Q α} (hc : s.Change op r s') {i : Nat} (hi : i < s.size)
    (hne : (s.task i).state ≠ .ready) (hold : ∀ workerId, ((s.task i).taskId, workerId) ∉ claims es)
    (workerId : String) : ((s.task i).taskId, workerId) ∉ claims (es ++ [⟨m, op, r, m'⟩]) := by
  rw [claims_append]
  intro hmem
  rcases List.mem_append.1 hmem with hmem | hmem
  · exact hold workerId hmem
  · rcases hc.claimed with ⟨x, w, heq, hx, hready, -⟩ | hnone
    · simp only [claims, List.filterMap_cons, List.filterMap_nil, heq, List.mem_singleton,
        Prod.mk.injEq] at hmem
      have hix : i = x := h.wf.ids hi hx hmem.1
      subst hix
      exact hne hready
    · simp [claims, hnone] at hmem

section step
variable {op : TaskOp α} {r : TaskReply α} {s' : TaskGraph α} {m' : TaskManager Q α}
variable (h : TaskRun re2 es m s) (hchange : s.Change op r s') (ih : Explained es s)
include h hchange ih

/-- After a step, a task that failed by itself has its report in the history. -/
theorem TaskRun.failed_step (hrep' : m'.Represents s') {i : Nat} (hi : i < s'.size)
    (hst : (s'.task i).state = .failed) (ho : (s'.task i).origin = i) :
    FailedBy (es ++ [⟨m, op, r, m'⟩]) (s'.task i).taskId (s'.task i).output := by
  cases hchange.badEnding hi (.inl hst) with
  | before hi hd =>
      have hsame := hchange.final hi hd
      rw [hsame.state] at hst
      rw [hsame.origin] at ho
      rw [hsame.output, (hchange.keeps hi).2.taskId]
      exact (ih.failed i hi hst ho).append
  | cancel _ _ _ _ hs' hix =>
      rw [hs', TaskGraph.cancel, (TaskGraph.endBadly_taken hix).1] at hst
      cases hst
  | @fail request x hx hrun hw hf hop hr hs' hix =>
      obtain ⟨hxs, hid⟩ := TaskGraph.find?_some hx
      have hxi : x = i := by
        rw [hs', TaskGraph.fail, (TaskGraph.endBadly_taken hix).2] at ho; exact ho
      subst hxi
      obtain ⟨t, output, workerId, failed⟩ := request
      simp only at hid hw hf hs'
      subst hf
      have hpost := hrep'.1.status_eq hi
      rw [hst] at hpost
      have hself : s'.task x = { s.task x with
          state := .failed, workerId := (s.task x).workerId, output := output,
          origin := x } := by
        rw [hs', TaskGraph.fail, TaskGraph.endBadly_self]
      rw [hself] at hpost ⊢
      simp only at hpost ⊢
      rw [hid] at hpost ⊢
      refine ⟨es, ⟨m, op, r, m'⟩, [], workerId, rfl, ?_, hop, hr, ?_, ?_⟩
      · rw [← hid, ← hw]; exact h.claimed.running hxs hrun
      · rw [← hid, ← hrun]; exact h.statusOf_eq hxs
      · rw [hrep'.statusOf, hpost]
  | born _ hres hp _ hbirth hs' hi' =>
      subst hi' hs'
      exact absurd ho (h.wf.born_origin hres hp hbirth)

/-- After a step, a task that was canceled by itself has its cancellation in the history. -/
theorem TaskRun.canceled_step {i : Nat} (hi : i < s'.size)
    (hst : (s'.task i).state = .canceled) (ho : (s'.task i).origin = i) :
    CanceledBy (es ++ [⟨m, op, r, m'⟩]) (s'.task i).taskId := by
  cases hchange.badEnding hi (.inr hst) with
  | before hi hd =>
      have hsame := hchange.final hi hd
      rw [hsame.state] at hst
      rw [hsame.origin] at ho
      rw [(hchange.keeps hi).2.taskId]
      exact (ih.canceled i hi hst ho).append
  | @cancel request x hx hl hop hr hs' hix =>
      obtain ⟨hxs, hid⟩ := TaskGraph.find?_some hx
      have hxi : x = i := by
        rw [hs', TaskGraph.cancel, (TaskGraph.endBadly_taken hix).2] at ho; exact ho
      subst hxi
      rw [(hchange.keeps hxs).2.taskId, hid]
      exact ⟨_, List.mem_append_right _ (.head _), hop, hr⟩
  | fail _ _ _ _ _ _ hs' hix =>
      rw [hs', TaskGraph.fail, (TaskGraph.endBadly_taken hix).1] at hst
      cases hst
  | born _ hres hp _ hbirth hs' hi' =>
      subst hi' hs'
      exact absurd ho (h.wf.born_origin hres hp hbirth)

/-- After a step, a task that failed with another has no claim in the history. -/
theorem TaskRun.fallen_step {i : Nat} (hi : i < s'.size)
    (hst : (s'.task i).state = .failed) (ho : (s'.task i).origin ≠ i) (workerId : String) :
    ((s'.task i).taskId, workerId) ∉ claims (es ++ [⟨m, op, r, m'⟩]) := by
  have hclaims := h.claimed
  cases hchange.badEnding hi (.inl hst) with
  | before hi hd =>
      have hsame := hchange.final hi hd
      rw [hsame.state] at hst
      rw [hsame.origin] at ho
      rw [(hchange.keeps hi).2.taskId]
      exact h.unclaimed_step hchange hi (by rw [hst]; simp) (ih.unclaimed i hi hst ho) workerId
  | cancel _ _ _ _ hs' hix =>
      rw [hs', TaskGraph.cancel, (TaskGraph.endBadly_taken hix).1] at hst
      cases hst
  | @fail request x hx hrun hw hf hop hr hs' hix =>
      have hxi : i ≠ x := by
        rintro rfl
        rw [hs', TaskGraph.fail, (TaskGraph.endBadly_taken hix).2] at ho
        exact ho rfl
      -- what falls was waiting, so it had not been claimed
      have hfall := hix.resolve_left hxi
      have hwait := h.wf.falls_waiting hfall (by rw [hrun]; rfl)
      rw [(hchange.keeps hfall.1).2.taskId]
      refine h.unclaimed_step hchange hfall.1 (by rw [hwait]; simp) ?_ workerId
      intro w hmem
      obtain ⟨j, hj, hid, hnw, -⟩ := hclaims.past hmem
      rw [h.wf.ids hj hfall.1 hid] at hnw
      exact hnw hwait
  | @born request parents p hnew hres hp _ hbirth hs' hi' =>
      subst hi' hs'
      rw [TaskGraph.add_task_new, claims_append]
      intro hmem
      rcases List.mem_append.1 hmem with hmem | hmem
      · obtain ⟨j, hj, hid, -⟩ := hclaims.past hmem
        exact TaskGraph.find?_none.1 hnew j hj hid
      · rcases hchange.claimed with ⟨x, w, -, -, -, heq⟩ | hnone
        · have hsize := congrArg TaskGraph.size heq
          rw [TaskGraph.add_size, TaskGraph.claim_size] at hsize
          omega
        · simp [claims, hnone] at hmem

end step

/-- After every run the history explains the endings. -/
theorem TaskRun.explained (h : TaskRun re2 es m s) : Explained es s := by
  refine Machine.Coupled.invariant (I := fun es _ s => Explained es s) ?_ ?_ h
  · exact ⟨fun i hi => absurd hi (Nat.not_lt_zero _), fun i hi => absurd hi (Nat.not_lt_zero _),
      fun i hi => absurd hi (Nat.not_lt_zero _)⟩
  · intro es m s op r m' s' hc ih _ hserve hrep'
    exact ⟨fun i hi => TaskRun.failed_step hc hserve.change ih hrep' hi,
      fun i hi => TaskRun.canceled_step hc hserve.change ih hi,
      fun i hi => TaskRun.fallen_step hc hserve.change ih hi⟩

/-- **Blame is always the true origin.** In every reachable state, for a row that failed: its origin
is the row itself or an ancestor by declared parents, failed too and is its own origin, and was
claimed and then reported as failed. The row has the output of that report if it is the origin;
otherwise it was never claimed and its output names the origin. For a canceled row the origin is the
row itself or an ancestor, and a `task_cancel` of it succeeded. -/
theorem blame_is_the_origin (h : (TaskManager.machine Q re2).Run es m) :
    (∀ (i o : Nat) t, m.tasks.taskId[i]? = some t → m.tasks.state[i]? = some .failed →
      m.tasks.terminalOrigin[i]? = some o →
      ∃ t', m.tasks.taskId[o]? = some t' ∧ (o = i ∨ AncestorOf es t' t) ∧
        m.tasks.state[o]? = some .failed ∧ m.tasks.terminalOrigin[o]? = some o ∧
        ∃ output, FailedBy es t' output ∧ (o = i → m.tasks.output[i]? = some output) ∧
          (o ≠ i → (∀ workerId, (t, workerId) ∉ claims es) ∧
            m.tasks.output[i]? = some (dependencyFailedOutput t'))) ∧
    ∀ (i o : Nat) t, m.tasks.taskId[i]? = some t → m.tasks.state[i]? = some .canceled →
      m.tasks.terminalOrigin[i]? = some o →
      ∃ t', m.tasks.taskId[o]? = some t' ∧ (o = i ∨ AncestorOf es t' t) ∧ CanceledBy es t' ∧
        m.tasks.output[i]? = some canceledOutput := by
  obtain ⟨s, hc⟩ := TaskManager.exists_taskRun h
  have hex := hc.explained
  -- the row, its origin and the way between them
  have hrow : ∀ {i o : Nat} {t : String} {state : TaskState}, state.IsBad →
      m.tasks.taskId[i]? = some t → m.tasks.state[i]? = some state →
      m.tasks.terminalOrigin[i]? = some o →
      i < s.size ∧ o < s.size ∧ (s.task i).taskId = t ∧ (s.task i).state = state ∧
        (s.task i).origin = o ∧ s.SourcedAt i ∧
        (o = i ∨ AncestorOf es (s.task o).taskId t) := by
    intro i o t state hb ht hst ho
    have hi := hc.related.row_lt hst
    obtain ⟨ht', hst', -, -, -, -, ho'⟩ := hc.related.columns hi
    rw [ht, Option.some.injEq] at ht'
    rw [hst, Option.some.injEq] at hst'
    rw [ho, Option.some.injEq] at ho'
    subst ht' hst' ho'
    have hsrc := hc.sourced i hi hb
    have hos : (s.task i).origin < s.size := Nat.lt_of_le_of_lt (hc.wf.origin_le hi) hi
    exact ⟨hi, hos, rfl, rfl, rfl, hsrc,
      hsrc.path.imp id fun ha => hc.ancestorOf_iff.2 ⟨_, _, ha, rfl, rfl⟩⟩
  constructor
  · intro i o t ht hst ho
    obtain ⟨hi, hos, rfl, hst', rfl, hsrc, hpath⟩ := hrow (.inl rfl) ht hst ho
    obtain ⟨hto, hsto, -, -, -, -, hoo⟩ := hc.related.columns hos
    have houti := (hc.related.columns hi).2.2.1
    refine ⟨_, hto, hpath, ?_, ?_, (s.task (s.task i).origin).output, ?_, ?_, ?_⟩
    · rw [hsto, hsrc.state, hst']
    · rw [hoo, hsrc.own]
    · exact hex.failed _ hos (hsrc.state.trans hst') hsrc.own
    · intro heq
      rw [heq]
      exact houti
    · intro hne
      refine ⟨hex.unclaimed i hi hst' hne, ?_⟩
      rw [houti, hsrc.output (.inl hne), hst']
      rfl
  · intro i o t ht hst ho
    obtain ⟨hi, hos, rfl, hst', rfl, hsrc, hpath⟩ := hrow (.inr rfl) ht hst ho
    refine ⟨_, (hc.related.columns hos).1, hpath, ?_, ?_⟩
    · exact hex.canceled _ hos (hsrc.state.trans hst') hsrc.own
    · rw [(hc.related.columns hi).2.2.1, hsrc.output (.inr hst'), hst']
      rfl

/-- The last task of the chain failed for the one in the middle. -/
theorem blame_is_the_origin_chain : ∃ t', (sampleRun chainEarly).2.tasks.taskId[1]? = some t' ∧
    AncestorOf (sampleRun chainEarly).1 t' "c" := by
  obtain ⟨t', ht, hpath, -⟩ :=
    (blame_is_the_origin (run_sampleRun chainEarly rfl)).1 2 1 "c" rfl rfl rfl
  exact ⟨t', ht, hpath.resolve_left (by decide)⟩

end DsService

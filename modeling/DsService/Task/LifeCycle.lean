import DsService.Task.History

/-!
# The life cycle of a task

`Edge` has the edges of the life cycle, each with the calls that may take a task along it. A step
takes a task along at most one of them (`Change.edge`), and a task that has ended stays as it ended
(`Change.final`); `task_life_cycle` says so of the columns of the table, over whole runs. The walk
of the code would take ready and running rows too. That it never meets one is `WF.falls_waiting`.
-/

namespace DsService

variable {Q α : Type}

/-- The edges of the life cycle of task `t` that a call with this reply may take it along. -/
inductive Edge (t : String) (op : TaskOp α) (r : TaskReply α) : TaskState → TaskState → Prop
  | release {request : TaskDoneRequest} (hop : op = .done request) (hr : r = .done (.ok ()))
      (hf : request.failed = false) : Edge t op r .waiting .ready
  | claim {workerId : String} (hc : op.claimed r = some (t, workerId)) :
      Edge t op r .ready .running
  | finish {request : TaskDoneRequest} (hop : op = .done request) (hr : r = .done (.ok ()))
      (ht : request.taskId = t) (hf : request.failed = false) : Edge t op r .running .finished
  | fail {request : TaskDoneRequest} (hop : op = .done request) (hr : r = .done (.ok ()))
      (ht : request.taskId = t) (hf : request.failed = true) : Edge t op r .running .failed
  | fall {request : TaskDoneRequest} (hop : op = .done request) (hr : r = .done (.ok ()))
      (hf : request.failed = true) : Edge t op r .waiting .failed
  | drop {request : TaskCancelRequest} (hop : op = .cancel request)
      (hr : r = .cancel (.ok ⟨true⟩)) : Edge t op r .waiting .canceled
  | cancel {state : TaskState} (hl : state = .ready ∨ state = .running)
      (hop : op = .cancel ⟨t⟩) (hr : r = .cancel (.ok ⟨true⟩)) : Edge t op r state .canceled

/-! ## In the graph -/

namespace TaskGraph

variable {s s' : TaskGraph α} {op : TaskOp α} {r : TaskReply α} {i : Nat}

/-- A step takes a task along at most one edge. -/
theorem Change.edge (h : s.Change op r s') (hwf : s.WF) (hi : i < s.size) :
    (s'.task i).state = (s.task i).state ∨
      Edge (s.task i).taskId op r (s.task i).state (s'.task i).state := by
  cases h with
  | same _ => exact .inl rfl
  | add hnew hp => rw [add_task_old _ _ hi]; exact .inl rfl
  | @cancel request x hx hl =>
      obtain ⟨-, hid⟩ := find?_some hx
      unfold TaskGraph.cancel
      rcases endBadly_state (s := s) (i := i) (x := x) .canceled "" canceledOutput with
        ⟨rfl | hf, hst⟩ | ⟨-, -, hst⟩
      · rw [hst]
        obtain ⟨t⟩ := request
        simp only at hid
        subst hid
        rcases TaskState.isLive_iff.1 hl with hw | hrr
        · rw [hw]; exact .inr (.drop rfl rfl)
        · exact .inr (.cancel hrr rfl rfl)
      · rw [hst, hwf.falls_waiting hf hl]
        exact .inr (.drop rfl rfl)
      · rw [hst]; exact .inl rfl
  | setPriority _ => rw [reprioritize_state]; exact .inl rfl
  | @claim request qname x _ hx =>
      rw [claim_task]
      split
      · next hix =>
          subst hix
          rw [hx.2.1]
          exact .inr (.claim rfl)
      · exact .inl rfl
  | @fail request x hx hr hw hf =>
      have hl : (s.task x).state.isLive = true := by rw [hr]; rfl
      unfold TaskGraph.fail
      rcases endBadly_state (s := s) (i := i) (x := x) .failed (s.task x).workerId
        request.output with
        ⟨rfl | hfall, hst⟩ | ⟨-, -, hst⟩
      · rw [hst, hr]
        exact .inr (.fail rfl rfl (find?_some hx).2.symm hf)
      · rw [hst, hwf.falls_waiting hfall hl]
        exact .inr (.fall rfl rfl hf)
      · rw [hst]; exact .inl rfl
  | @finish request x hx hr hw hf =>
      rcases finish_task_cases s x request.output i with ⟨rfl, hst⟩ | ⟨-, -, hwait, hst⟩ |
        ⟨-, -, hst⟩
      · rw [hst, hr]
        exact .inr (.finish rfl rfl (find?_some hx).2.symm hf)
      · rw [hst, hwait]
        exact .inr (.release rfl rfl hf)
      · rw [hst]; exact .inl rfl

/-- What a task has ended with: its state, its output, its worker and its origin. -/
structure SameEnding (t t' : Task α) : Prop where
  state : t'.state = t.state
  output : t'.output = t.output
  workerId : t'.workerId = t.workerId
  origin : t'.origin = t.origin

/-- A task that is left alone ends as it did. -/
theorem SameEnding.of_eq {t t' : Task α} (h : t' = t) : SameEnding t t' := by
  subst h; exact ⟨rfl, rfl, rfl, rfl⟩

/-- A task that has ended stays as it ended. -/
theorem Change.final (h : s.Change op r s') (hi : i < s.size)
    (hd : (s.task i).state.isLive = false) : SameEnding (s.task i) (s'.task i) := by
  have hne : ∀ {x}, (s.task x).state.isLive = true → i ≠ x := by
    rintro x hx rfl; rw [hx] at hd; cases hd
  have hspared : ∀ {x state workerId output}, (s.task x).state.isLive = true →
      (s.endBadly x state workerId output).task i = s.task i := fun hx =>
    endBadly_other _ _ _ (hne hx) fun hf => by rw [hf.2.1] at hd; cases hd
  cases h with
  | same _ => exact .of_eq rfl
  | add hnew hp => exact .of_eq (add_task_old _ _ hi)
  | cancel _ hl => exact .of_eq (hspared hl)
  | setPriority _ =>
      rw [reprioritize_task]
      split
      · next hix => subst hix; exact ⟨rfl, rfl, rfl, rfl⟩
      · exact .of_eq rfl
  | claim _ hx =>
      rw [claim_task, if_neg (hne (by rw [hx.2.1]; rfl))]
      exact .of_eq rfl
  | fail _ hr _ _ => exact .of_eq (hspared (by rw [hr]; rfl))
  | @finish request x _ hr _ _ =>
      rcases finish_task_cases s x request.output i with ⟨rfl, -⟩ | ⟨-, -, hw, -⟩ | ⟨-, -, hst⟩
      · exact absurd rfl (hne (by rw [hr]; rfl))
      · rw [hw] at hd; cases hd
      · exact .of_eq hst

end TaskGraph

/-! ## In the runs of the task manager -/

variable [LinearOrder α] [PriorityQueue Q (TaskQueueEntry α) taskQueueEntryOrder]
variable {re2 : RE2} {es : List (TaskEvent Q α)} {m m' : TaskManager Q α}

/-- Row `i` of the table has ended, in this way. -/
structure TaskManager.Ended (m : TaskManager Q α) (i : Nat) (state : TaskState)
    (output workerId : String) (origin : Nat) : Prop where
  final : state = .finished ∨ state = .failed ∨ state = .canceled
  state : m.tasks.state[i]? = some state
  output : m.tasks.output[i]? = some output
  workerId : m.tasks.workerId[i]? = some workerId
  origin : m.tasks.terminalOrigin[i]? = some origin

/-- A row that has ended stays as it ended, in every step from a reachable state. -/
theorem TaskManager.Ended.step {i origin : Nat} {state : TaskState} {output workerId : String}
    {op : TaskOp α} {r : TaskReply α} (h : m.Ended i state output workerId origin)
    (hrun : (TaskManager.machine Q re2).Run es m)
    (hs : (TaskManager.machine Q re2).step m op = some (r, m')) :
    m'.Ended i state output workerId origin := by
  obtain ⟨s, hc⟩ := TaskManager.exists_taskRun hrun
  obtain ⟨s', hserve, hrep'⟩ := (TaskManager.simulation re2).serves hc.related hs
  have hi := hc.related.row_lt h.state
  obtain ⟨-, hst, hout, hworker, -, -, horigin⟩ := hc.related.columns hi
  rw [h.state, Option.some.injEq] at hst
  rw [h.output, Option.some.injEq] at hout
  rw [h.workerId, Option.some.injEq] at hworker
  rw [h.origin, Option.some.injEq] at horigin
  have hdead : (s.task i).state.isLive = false := by
    rw [← hst]
    rcases h.final with rfl | rfl | rfl <;> rfl
  have hsame := hserve.change.final hi hdead
  have hsize : i < s'.size := (hserve.change.keeps hi).1
  obtain ⟨-, hst', hout', hworker', -, -, horigin'⟩ := hrep'.columns hsize
  refine ⟨h.final, ?_, ?_, ?_, ?_⟩
  · rw [hst', hsame.state, ← hst]
  · rw [hout', hsame.output, ← hout]
  · rw [hworker', hsame.workerId, ← hworker]
  · rw [horigin', hsame.origin, ← horigin]

/-- **The life cycle of a task.** In every reachable state a step takes a task along at most one
edge of the life cycle, and along an edge out of running, or to canceled from ready or running, only
by a call that names the task. A row that has ended keeps its state, output, worker and origin for
the rest of the run, and a row that has not ended has an empty output. -/
theorem task_life_cycle (h : (TaskManager.machine Q re2).Run es m) :
    (∀ op r m', m.step re2 op = some (r, m') → ∀ t a, m.statusOf t = some a → a ≠ .undefined →
      ∃ b, m'.statusOf t = some b ∧ (b = a ∨ Edge t op r a b)) ∧
    (∀ es₁ e es₂, es = es₁ ++ e :: es₂ → ∀ i state output workerId origin,
      e.post.Ended i state output workerId origin → m.Ended i state output workerId origin) ∧
    ∀ (i : Nat) state, m.tasks.state[i]? = some state →
      state = .waiting ∨ state = .ready ∨ state = .running → m.tasks.output[i]? = some "" := by
  refine ⟨?_, ?_, ?_⟩
  · intro op r m' hs t a ha hne
    obtain ⟨s, hc⟩ := TaskManager.exists_taskRun h
    obtain ⟨s', hserve, hrep'⟩ := (TaskManager.simulation re2).serves hc.related hs
    obtain ⟨i, hi, rfl, rfl⟩ := hc.exists_of_statusOf ha hne
    obtain ⟨hsize, hreq⟩ := hserve.change.keeps hi
    refine ⟨(s'.task i).state, ?_, hserve.change.edge hc.wf hi⟩
    rw [hrep'.statusOf, ← hreq.taskId, hrep'.1.status_eq hsize]
  · rintro es₁ e es₂ rfl i state output workerId origin hend
    exact (h.stable (P := fun m => m.Ended i state output workerId origin)
      (fun hrun hs hp => hp.step hrun hs) hend).1
  · intro i state hst hl
    obtain ⟨s, hc⟩ := TaskManager.exists_taskRun h
    have hi := hc.related.row_lt hst
    obtain ⟨-, hst', hout, -⟩ := hc.related.columns hi
    rw [hst, Option.some.injEq] at hst'
    rw [hout, hc.wf.blank hi (by rw [← hst']; exact TaskState.isLive_iff.2 hl)]

/-- The third task of the diamond is canceled, and has no output before that. -/
theorem task_life_cycle_diamond :
    (∃ b, (sampleRun (diamond ++ [.cancel ⟨"c"⟩])).2.statusOf "c" = some b ∧
      (b = .ready ∨ Edge "c" (.cancel ⟨"c"⟩ : TaskOp Nat) (.cancel (.ok ⟨true⟩)) .ready b)) ∧
    (sampleRun diamond).2.tasks.output[2]? = some "" :=
  ⟨(task_life_cycle (run_sampleRun diamond rfl)).1 _ _ _ rfl "c" .ready rfl (by decide),
    (task_life_cycle (run_sampleRun diamond rfl)).2.2 2 .ready rfl (.inr (.inl rfl))⟩

end DsService

import DsService.Task.LifeCycle
import DsService.Task.Refusal

/-!
# Claims and reports

A task has one heap entry per queue and per seq it ever held, and many of them outlive its claim.
Still a task is handed out at most once, since a claim takes it out of waiting and ready for good
(`Claimed`). While it runs its worker is the one that claimed it, and the only report with an effect
is the first that this worker makes while it runs (`one_claim_one_report`).
-/

namespace DsService

variable {Q α : Type}

/-! ## In the graph -/

namespace TaskGraph

variable {s s' : TaskGraph α} {op : TaskOp α} {r : TaskReply α} {i : Nat}

/-- Only a claim returns a task. -/
theorem Change.claimed (h : s.Change op r s') :
    (∃ x workerId, op.claimed r = some ((s.task x).taskId, workerId) ∧ x < s.size ∧
      (s.task x).state = .ready ∧ s' = s.claim x workerId) ∨ op.claimed r = none := by
  cases h with
  | @same op r hq =>
      refine .inr ?_
      cases op with
      | get request =>
          obtain ⟨e, rfl⟩ := hq
          rfl
      | _ => rfl
  | claim _ hi => exact .inl ⟨_, _, rfl, hi.1, hi.2.1, rfl⟩
  | _ => exact .inr rfl

/-- A task that runs after a step ran before it under the same worker, or was claimed. -/
theorem Change.running (h : s.Change op r s') (hi : i < s'.size)
    (hr : (s'.task i).state = .running) :
    i < s.size ∧ ((s.task i).state = .running ∧ (s'.task i).workerId = (s.task i).workerId ∨
      op.claimed r = some ((s.task i).taskId, (s'.task i).workerId)) := by
  cases h with
  | same _ => exact ⟨hi, .inl ⟨hr, rfl⟩⟩
  | @add request parents hnew hp =>
      rcases add_lt hi with hi | rfl
      · rw [add_task_old _ _ hi] at hr ⊢
        exact ⟨hi, .inl ⟨hr, rfl⟩⟩
      · rw [add_task_new] at hr
        rcases s.birth_cases parents with ⟨_, _, -, hb⟩ | ⟨-, _, _, -, hb⟩ | ⟨-, -, hb⟩ |
          ⟨-, -, hb⟩ <;> simp [newTask, hb] at hr
  | @cancel request x _ _ =>
      refine ⟨hi, ?_⟩
      rcases endBadly_state (s := s) (i := i) (x := x) .canceled "" canceledOutput with
        ⟨-, hst⟩ | ⟨-, -, hst⟩
      · rw [TaskGraph.cancel, hst] at hr; cases hr
      · rw [TaskGraph.cancel, hst] at hr ⊢; exact .inl ⟨hr, rfl⟩
  | setPriority _ =>
      rw [reprioritize_size] at hi
      refine ⟨hi, .inl ⟨by rwa [reprioritize_state] at hr, ?_⟩⟩
      rw [reprioritize_task]
      split
      · next hix => subst hix; rfl
      · rfl
  | @claim request qname x _ hx =>
      refine ⟨hi, ?_⟩
      rw [claim_task] at hr ⊢
      split
      · next hix => subst hix; exact .inr rfl
      · next hix => rw [if_neg hix] at hr; exact .inl ⟨hr, rfl⟩
  | @fail request x _ _ _ _ =>
      refine ⟨hi, ?_⟩
      rcases endBadly_state (s := s) (i := i) (x := x) .failed (s.task x).workerId
        request.output with ⟨-, hst⟩ | ⟨-, -, hst⟩
      · rw [TaskGraph.fail, hst] at hr; cases hr
      · rw [TaskGraph.fail, hst] at hr ⊢; exact .inl ⟨hr, rfl⟩
  | @finish request x _ _ _ _ =>
      refine ⟨hi, ?_⟩
      rcases finish_task_cases s x request.output i with ⟨-, hst⟩ | ⟨-, -, -, hst⟩ | ⟨-, -, hst⟩
      · rw [hst] at hr; cases hr
      · rw [hst] at hr; cases hr
      · rw [hst] at hr ⊢; exact .inl ⟨hr, rfl⟩

/-- The claims of a history, as the graph shows them: none is repeated, a claimed task is past
ready, and a running task was claimed by its worker. -/
structure Claimed (claims : List (String × String)) (s : TaskGraph α) : Prop where
  nodup : (claims.map Prod.fst).Nodup
  past : ∀ {t workerId}, (t, workerId) ∈ claims →
    ∃ i, i < s.size ∧ (s.task i).taskId = t ∧ (s.task i).state ≠ .waiting ∧
      (s.task i).state ≠ .ready
  running : ∀ {i}, i < s.size → (s.task i).state = .running →
    ((s.task i).taskId, (s.task i).workerId) ∈ claims

/-- Nobody has claimed anything yet. -/
theorem Claimed.empty : Claimed [] (empty : TaskGraph α) where
  nodup := List.nodup_nil
  past h := by cases h
  running hi := absurd hi (Nat.not_lt_zero _)

/-- A task past ready stays past ready. -/
theorem Change.past (h : s.Change op r s') (hwf : s.WF) (hi : i < s.size)
    (hw : (s.task i).state ≠ .waiting) (hr : (s.task i).state ≠ .ready) :
    (s'.task i).state ≠ .waiting ∧ (s'.task i).state ≠ .ready := by
  rcases h.edge hwf hi with heq | hedge
  · rw [heq]; exact ⟨hw, hr⟩
  · generalize (s.task i).state = a at hedge hw hr
    generalize (s'.task i).state = b at hedge
    cases hedge <;> first | exact absurd rfl hw | exact ⟨by simp, by simp⟩

/-- **A step keeps the claims in order.** -/
theorem Change.claims (h : s.Change op r s') (hwf : s.WF) {claims : List (String × String)}
    (hc : Claimed claims s) : Claimed (claims ++ (op.claimed r).toList) s' where
  nodup := by
    rcases h.claimed with ⟨x, workerId, heq, hx, hready, -⟩ | hnone
    · rw [heq, Option.toList_some, List.map_append, List.map_singleton]
      refine List.nodup_append.2 ⟨hc.nodup, by simp, ?_⟩
      intro t ht t' ht' htt
      rw [List.mem_singleton.1 ht'] at htt
      obtain ⟨⟨t₀, w⟩, hmem, rfl⟩ := List.mem_map.1 ht
      obtain ⟨i, hi, hid, -, hne⟩ := hc.past hmem
      have hix : i = x := hwf.ids hi hx (hid.trans htt)
      subst hix
      exact hne hready
    · rw [hnone, Option.toList_none, List.append_nil]
      exact hc.nodup
  past {t workerId} hmem := by
    rcases List.mem_append.1 hmem with hmem | hmem
    · obtain ⟨i, hi, rfl, hw, hr⟩ := hc.past hmem
      obtain ⟨hsize, hreq⟩ := h.keeps hi
      exact ⟨i, hsize, hreq.taskId, h.past hwf hi hw hr⟩
    · rcases h.claimed with ⟨x, workerId', heq, hx, -, rfl⟩ | hnone
      · rw [heq, Option.toList_some, List.mem_singleton, Prod.mk.injEq] at hmem
        obtain ⟨rfl, rfl⟩ := hmem
        refine ⟨x, hx, (claim_sameRequest _).taskId, ?_⟩
        rw [claim_task, if_pos rfl]
        exact ⟨by simp, by simp⟩
      · rw [hnone] at hmem
        cases hmem
  running {i} hi hr := by
    obtain ⟨his, hcases⟩ := h.running hi hr
    rw [(h.keeps his).2.taskId]
    rcases hcases with ⟨hrun, hw⟩ | heq
    · rw [hw]
      exact List.mem_append_left _ (hc.running his hrun)
    · rw [heq]
      exact List.mem_append_right _ (.head _)

end TaskGraph

/-! ## In the runs of the task manager -/

variable [LinearOrder α] [PriorityQueue Q (TaskQueueEntry α) taskQueueEntryOrder]
variable {re2 : RE2} {es : List (TaskEvent Q α)} {m m' : TaskManager Q α} {s : TaskGraph α}

/-- After every run the graph shows the claims of its history. -/
theorem TaskRun.claimed (h : TaskRun re2 es m s) : s.Claimed (claims es) := by
  refine Machine.Coupled.invariant (I := fun es _ s => s.Claimed (claims es)) .empty ?_ h
  intro es m s op r m' s' hc ih _ hserve _
  have hlast : claims [(⟨m, op, r, m'⟩ : TaskEvent Q α)] = (op.claimed r).toList := by
    cases heq : op.claimed r <;> simp [claims, heq]
  rw [claims_append, hlast]
  exact hserve.change.claims (TaskRun.wf hc) ih

/-- The output of a task that has ended by its own run. -/
structure TaskManager.Reported (m : TaskManager Q α) (t output : String) : Prop where
  ended : m.statusOf t = some .finished ∨ m.statusOf t = some .failed
  output : m.getOutput ⟨t⟩ = some (.ok ⟨output⟩)

/-- What `task_get_output` says of a task. -/
theorem TaskManager.Represents.getOutput (h : m.Represents s) {i : Nat} (hi : i < s.size) :
    m.getOutput ⟨(s.task i).taskId⟩ = some (.ok ⟨(s.task i).output⟩) := by
  obtain ⟨hwf, v, rfl, href⟩ := h
  rw [href.getOutput]
  dsimp only
  rw [hwf.find?_eq.2 ⟨hi, rfl⟩]

/-- What `task_get_worker_id` says of a running task. -/
theorem TaskManager.Represents.getWorkerId (h : m.Represents s) {i : Nat} (hi : i < s.size)
    (hr : (s.task i).state = .running) :
    m.getWorkerId ⟨(s.task i).taskId⟩ = some (.ok ⟨(s.task i).workerId⟩) := by
  obtain ⟨hwf, v, rfl, href⟩ := h
  rw [href.getWorkerId]
  dsimp only
  rw [hwf.find?_eq.2 ⟨hi, rfl⟩]
  dsimp only
  rw [if_neg (not_not.2 hr)]

/-- A reported output is reported ever after. -/
theorem TaskManager.Reported.step {t output : String} {op : TaskOp α} {r : TaskReply α}
    (h : m.Reported t output) (hrun : (TaskManager.machine Q re2).Run es m)
    (hs : (TaskManager.machine Q re2).step m op = some (r, m')) : m'.Reported t output := by
  obtain ⟨s, hc⟩ := TaskManager.exists_taskRun hrun
  obtain ⟨s', hserve, hrep'⟩ := (TaskManager.simulation re2).serves hc.related hs
  obtain ⟨i, hi, rfl, hst⟩ : ∃ i, i < s.size ∧ (s.task i).taskId = t ∧
      ((s.task i).state = .finished ∨ (s.task i).state = .failed) := by
    rcases h.ended with hst | hst
    · obtain ⟨i, hi, hid, hst⟩ := hc.exists_of_statusOf hst (by simp)
      exact ⟨i, hi, hid, .inl hst⟩
    · obtain ⟨i, hi, hid, hst⟩ := hc.exists_of_statusOf hst (by simp)
      exact ⟨i, hi, hid, .inr hst⟩
  have hsame := hserve.change.final hi (by rcases hst with hst | hst <;> rw [hst] <;> rfl)
  obtain ⟨hsize, hreq⟩ := hserve.change.keeps hi
  have hout := h.output
  rw [hc.related.getOutput hi] at hout
  rw [← hreq.taskId]
  refine ⟨?_, ?_⟩
  · rw [hrep'.statusOf, hrep'.1.status_eq hsize, hsame.state]
    simpa using hst
  · rw [hrep'.getOutput hsize, hsame.output]
    exact hout

/-- A report either changes nothing, or ends the task that its worker holds. -/
theorem TaskRun.report (h : TaskRun re2 es m s) {request : TaskDoneRequest} {r : TaskReply α}
    (hs : (TaskManager.machine Q re2).step m (.done request) = some (r, m')) :
    m' = m ∧ ((∃ e, r = .done (.error e)) ∨
        r = .done (.ok ()) ∧ m.statusOf request.taskId = some .canceled) ∨
      r = .done (.ok ()) ∧ m.statusOf request.taskId = some .running ∧
        (request.taskId, request.workerId) ∈ claims es ∧
        m'.Reported request.taskId request.output := by
  obtain ⟨s', hserve, hrep'⟩ := (TaskManager.simulation re2).serves h.related hs
  obtain ⟨⟨result, m₁⟩, hdone, heq⟩ := Option.bind_eq_some_iff.1 hs
  cases heq
  rcases TaskManager.done_cases hdone with ⟨rfl, hquiet⟩ | ⟨rfl, hrunning⟩
  · refine .inl ⟨rfl, ?_⟩
    rcases hquiet with ⟨rfl, hcan⟩ | ⟨e, rfl⟩
    · exact .inr ⟨rfl, hcan⟩
    · exact .inl ⟨e, rfl⟩
  · refine .inr ⟨rfl, hrunning, ?_⟩
    have hclaims := h.claimed
    have hreported : ∀ {i : Nat}, i < s'.size → (s'.task i).taskId = request.taskId →
        (s'.task i).output = request.output →
        (s'.task i).state = .finished ∨ (s'.task i).state = .failed →
        m'.Reported request.taskId request.output := by
      intro i hi hid hout hst
      rw [← hid, ← hout]
      refine ⟨?_, hrep'.getOutput hi⟩
      rw [hrep'.statusOf, hrep'.1.status_eq hi]
      simpa using hst
    cases hserve.change with
    | same hq =>
        rcases hq with ⟨e, he⟩ | ⟨-, hcan⟩
        · cases he
        · rw [h.related.statusOf, hcan] at hrunning
          cases hrunning
    | @fail request i hi hr hw hf =>
        obtain ⟨his, hid⟩ := TaskGraph.find?_some hi
        refine ⟨?_, hreported (i := i) his ?_ ?_ (.inr ?_)⟩
        · rw [← hid, ← hw]; exact hclaims.running his hr
        · rw [TaskGraph.fail, TaskGraph.endBadly_self]; exact hid
        · rw [TaskGraph.fail, TaskGraph.endBadly_self]
        · rw [TaskGraph.fail, TaskGraph.endBadly_self]
    | @finish request i hi hr hw hf =>
        obtain ⟨his, hid⟩ := TaskGraph.find?_some hi
        refine ⟨?_, hreported (i := i) his ?_ ?_ (.inl ?_)⟩
        · rw [← hid, ← hw]; exact hclaims.running his hr
        · rw [TaskGraph.finish_self]; exact hid
        · rw [TaskGraph.finish_self]
        · rw [TaskGraph.finish_self]

/-- **One claim and one effective report.** Over every run: no task is returned by two `task_get`
calls; a running task is held by the worker whose `task_get` returned it; and a `task_done` either
changes nothing, being refused or made on a canceled task, or is the report of the worker that
claimed the task. Then its output is what `task_get_output` says for the rest of the run, and every
later `task_done` on the task is refused and changes nothing. -/
theorem one_claim_one_report (h : (TaskManager.machine Q re2).Run es m) :
    ((claims es).map Prod.fst).Nodup ∧
    (∀ t, m.statusOf t = some .running →
      ∃ workerId, (t, workerId) ∈ claims es ∧ m.getWorkerId ⟨t⟩ = some (.ok ⟨workerId⟩)) ∧
    ∀ es₁ e es₂ request, es = es₁ ++ e :: es₂ → e.op = .done request →
      e.post = e.pre ∧ ((∃ error, e.reply = .done (.error error)) ∨
          e.reply = .done (.ok ()) ∧ e.pre.statusOf request.taskId = some .canceled) ∨
        e.reply = .done (.ok ()) ∧ e.pre.statusOf request.taskId = some .running ∧
          (request.taskId, request.workerId) ∈ claims es₁ ∧
          e.post.getOutput ⟨request.taskId⟩ = some (.ok ⟨request.output⟩) ∧
          m.getOutput ⟨request.taskId⟩ = some (.ok ⟨request.output⟩) ∧
          ∀ e' ∈ es₂, e'.post.getOutput ⟨request.taskId⟩ = some (.ok ⟨request.output⟩) ∧
            ∀ request', e'.op = .done request' → request'.taskId = request.taskId →
              e'.post = e'.pre ∧ ∃ error, e'.reply = .done (.error error) := by
  obtain ⟨s, hc⟩ := TaskManager.exists_taskRun h
  refine ⟨hc.claimed.nodup, ?_, ?_⟩
  · intro t ht
    obtain ⟨i, hi, rfl, hr⟩ := hc.exists_of_statusOf ht (by simp)
    exact ⟨_, hc.claimed.running hi hr, hc.related.getWorkerId hi hr⟩
  · rintro es₁ e es₂ request rfl hop
    obtain ⟨hrun, hs⟩ := h.split
    obtain ⟨s₁, hc₁⟩ := TaskManager.exists_taskRun hrun
    rw [hop] at hs
    rcases hc₁.report hs with hquiet | ⟨hr, hrunning, hclaim, hreported⟩
    · exact .inl hquiet
    · obtain ⟨hend, hlater⟩ := h.stable (P := fun m => m.Reported request.taskId request.output)
        (fun hrun hs hp => hp.step hrun hs) hreported
      refine .inr ⟨hr, hrunning, hclaim, hreported.output, hend.output, fun e' he' => ?_⟩
      refine ⟨(hlater e' he').2.output, fun request' hop' hid => ?_⟩
      -- a later report finds the task neither running nor canceled, so it is refused
      obtain ⟨es₃, es₄, rfl⟩ := List.append_of_mem he'
      rw [← List.cons_append, ← List.append_assoc] at h
      obtain ⟨hrun', hs'⟩ := h.split
      obtain ⟨s₂, hc₂⟩ := TaskManager.exists_taskRun hrun'
      rw [hop'] at hs'
      have hended := (hlater e' he').1.ended
      rcases hc₂.report hs' with ⟨hsame, hrefused | ⟨-, hcanceled⟩⟩ | ⟨-, hrunning', -⟩
      · exact ⟨hsame, hrefused⟩
      · rw [hid] at hcanceled
        rcases hended with hst | hst <;> rw [hst] at hcanceled <;> cases hcanceled
      · rw [hid] at hrunning'
        rcases hended with hst | hst <;> rw [hst] at hrunning' <;> cases hrunning'

/-- The claims of the diamond, which are two so far. -/
theorem one_claim_one_report_diamond :
    ((claims (sampleRun diamond).1).map Prod.fst).Nodup ∧
      claims (sampleRun diamond).1 = [("a", "w"), ("b", "w")] :=
  ⟨(one_claim_one_report (run_sampleRun diamond rfl)).1, rfl⟩

end DsService

import DsService.Task.History

/-!
# Outcomes do not depend on the schedule

Fix which tasks would succeed if they were run. In a run whose reports follow that and that cancels
nothing, a task finishes only if it and all its ancestors would succeed, and fails only if one of
them would not. So two such runs that add the same tasks and run out of work agree on every task,
whatever the order of submissions, claims and reports (`schedule_independent_outcome`).
-/

namespace DsService

variable {Q α : Type}

/-- The call cancels nothing, and a report on a task says what `ok` says about it. -/
def TaskOp.follows (ok : String → Bool) : TaskOp α → Bool
  | .cancel _ => false
  | .done request => request.failed == !ok request.taskId
  | _ => true

/-- All calls of the history follow `ok`. -/
def Governed (ok : String → Bool) (es : List (TaskEvent Q α)) : Prop :=
  ∀ e ∈ es, e.op.follows ok = true

/-- Every task that the first history adds the second adds too, with the same parents. -/
def AddsWithin (es₁ es₂ : List (TaskEvent Q α)) : Prop :=
  ∀ r₁ ∈ adds es₁, ∃ r₂ ∈ adds es₂, r₂.taskId = r₁.taskId ∧
    ∀ p, p ∈ r₂.parentTaskIds ↔ p ∈ r₁.parentTaskIds

/-- No task is waiting, ready or running. -/
def TaskManager.Settled (m : TaskManager Q α) : Prop :=
  ∀ state ∈ m.tasks.state, state.isLive = false

/-- What is declared in one history is declared in a longer one. -/
theorem AddsWithin.ancestorOf {es₁ es₂ : List (TaskEvent Q α)} (h : AddsWithin es₁ es₂)
    {a t : String} (ha : AncestorOf es₁ a t) : AncestorOf es₂ a t := by
  refine Relation.TransGen.mono (fun p c hp => ?_) _ _ ha
  obtain ⟨r₁, h₁, rfl, hmem⟩ := hp
  obtain ⟨r₂, h₂, hid, hparents⟩ := h r₁ h₁
  exact ⟨r₂, h₂, hid, (hparents p).2 hmem⟩

/-! ## In the graph -/

namespace TaskGraph

variable {s s' : TaskGraph α} {op : TaskOp α} {r : TaskReply α} {i : Nat} {ok : String → Bool}

/-- The task or one of its ancestors would not succeed. -/
def Blamed (ok : String → Bool) (s : TaskGraph α) (i : Nat) : Prop :=
  ok (s.task i).taskId = false ∨ ∃ a, s.Ancestor a i ∧ ok (s.task a).taskId = false

/-- Blame is inherited. -/
theorem Blamed.parent {p : Nat} (hp : s.Parent p i) (h : Blamed ok s p) : Blamed ok s i := by
  rcases h with h | ⟨a, ha, h⟩
  · exact .inr ⟨p, .single hp, h⟩
  · exact .inr ⟨a, .tail ha hp, h⟩

/-- Blame stays. -/
theorem Blamed.change (h : Blamed ok s i) (hwf : s.WF) (hi : i < s.size)
    (hc : s.Change op r s') : Blamed ok s' i := by
  rcases h with h | ⟨a, ha, h⟩
  · exact .inl (by rw [(hc.keeps hi).2.taskId]; exact h)
  · have has := Nat.lt_trans (hwf.ancestor_lt ha) hi
    exact .inr ⟨a, hc.ancestor ha, by rw [(hc.keeps has).2.taskId]; exact h⟩

/-- What the reports say of the tasks that have ended. -/
structure Judged (ok : String → Bool) (s : TaskGraph α) : Prop where
  canceled : ∀ {i}, i < s.size → (s.task i).state ≠ .canceled
  finished : ∀ {i}, i < s.size → (s.task i).state = .finished → ok (s.task i).taskId = true
  failed : ∀ {i}, i < s.size → (s.task i).state = .failed → Blamed ok s i

/-- A task that a step leaves in its state is judged as before. -/
theorem Judged.keep (h : Judged ok s) (hwf : s.WF) (hc : s.Change op r s') (hi : i < s.size)
    (hst : (s'.task i).state = (s.task i).state) :
    (s'.task i).state ≠ .canceled ∧
      ((s'.task i).state = .finished → ok (s'.task i).taskId = true) ∧
      ((s'.task i).state = .failed → Blamed ok s' i) := by
  rw [hst, (hc.keeps hi).2.taskId]
  exact ⟨h.canceled hi, h.finished hi, fun hf => (h.failed hi hf).change hwf hi hc⟩

/-- The new task of `task_add` fails only under a failed parent. -/
theorem Judged.newborn (h : Judged ok s) (hc : s.Change op r s') (hwf : s.WF)
    {request : TaskAddRequest α} {parents : List Nat} (hs' : s' = s.add request parents)
    (hp : ∀ p ∈ parents, p < s.size) :
    (s'.task s.size).state ≠ .canceled ∧
      ((s'.task s.size).state = .finished → ok (s'.task s.size).taskId = true) ∧
      ((s'.task s.size).state = .failed → Blamed ok s' s.size) := by
  have hnew : s'.task s.size = s.newTask request parents := by rw [hs', add_task_new]
  have hst : (s'.task s.size).state = (s.birth parents).1 := by rw [hnew]; rfl
  rw [hst]
  rcases s.birth_cases parents with ⟨p, hpp, hf, hb⟩ | ⟨-, p, hpp, hcan, -⟩ | ⟨-, -, hb⟩ |
    ⟨-, -, hb⟩
  · rw [hb]
    refine ⟨by simp, by simp, fun _ => ?_⟩
    have hparent : s'.Parent p s.size := by
      refine ⟨by rw [hs', add_size]; exact Nat.lt_succ_self _, ?_⟩
      rw [hnew]
      exact hpp
    exact ((h.failed (hp p hpp) hf).change hwf (hp p hpp) hc).parent hparent
  · exact absurd hcan (h.canceled (hp p hpp))
  · rw [hb]; exact ⟨by simp, by simp, by simp⟩
  · rw [hb]; exact ⟨by simp, by simp, by simp⟩

/-- **A step of a governed run keeps the judgement.** -/
theorem Change.judged (hc : s.Change op r s') (hwf : s.WF) (h : Judged ok s)
    (hop : op.follows ok = true) : Judged ok s' := by
  have hall : ∀ i, i < s'.size → (s'.task i).state ≠ .canceled ∧
      ((s'.task i).state = .finished → ok (s'.task i).taskId = true) ∧
      ((s'.task i).state = .failed → Blamed ok s' i) := by
    intro i hi
    have hkeep := fun hi' hst => h.keep hwf hc (i := i) hi' hst
    cases hc with
    | same _ => exact hkeep hi rfl
    | @add request parents hnew hp =>
        have hc' : s.Change (.add request) (.add (.ok ())) (s.add request parents) := .add hnew hp
        rcases add_lt hi with hi | rfl
        · exact hkeep hi (by rw [add_task_old _ _ hi])
        · exact h.newborn hc' hwf rfl (resolve_lt hp)
    | cancel _ _ => cases hop
    | setPriority _ =>
        rw [reprioritize_size] at hi
        exact hkeep hi (reprioritize_state _)
    | @claim request qname x _ hx =>
        by_cases hix : i = x
        · have hst : ((s.claim x request.workerId).task i).state = .running := by
            rw [claim_task, if_pos hix]
          rw [hst]
          exact ⟨by simp, by simp, by simp⟩
        · exact hkeep hi (by rw [claim_task, if_neg hix])
    | @fail request x hx hr hw hf =>
        have hbad : ok (s.task x).taskId = false := by
          simp only [TaskOp.follows, hf, beq_iff_eq] at hop
          rw [(find?_some hx).2]
          simpa using hop.symm
        have hblamed : i = x ∨ s.Falls x i → Blamed ok s i := by
          rintro (rfl | hfall)
          · exact .inl hbad
          · exact .inr ⟨x, hfall.2.2, hbad⟩
        rcases endBadly_state (s := s) (i := i) (x := x) .failed (s.task x).workerId
          request.output with ⟨hix, hst⟩ | ⟨-, -, hst⟩
        · unfold TaskGraph.fail
          rw [hst]
          exact ⟨by simp, by simp, fun _ => (hblamed hix).change hwf hi (.fail hx hr hw hf)⟩
        · exact hkeep hi (congrArg Task.state hst)
    | @finish request x hx hr hw hf =>
        rcases finish_task_cases s x request.output i with ⟨rfl, hst⟩ | ⟨-, -, -, hst⟩ |
          ⟨-, -, hst⟩
        · have hgood : ok (s.task i).taskId = true := by
            simp only [TaskOp.follows, hf, beq_iff_eq] at hop
            rw [(find?_some hx).2]
            simpa using hop.symm
          rw [hst, (finish_sameRequest _).taskId]
          exact ⟨by simp, fun _ => hgood, by simp⟩
        · rw [hst]
          exact ⟨by simp, by simp, by simp⟩
        · exact hkeep hi (congrArg Task.state hst)
  exact ⟨fun hi => (hall _ hi).1, fun hi => (hall _ hi).2.1, fun hi => (hall _ hi).2.2⟩

end TaskGraph

/-! ## In the runs of the task manager -/

variable [LinearOrder α] [PriorityQueue Q (TaskQueueEntry α) taskQueueEntryOrder]
variable {re2 : RE2} {es : List (TaskEvent Q α)} {m : TaskManager Q α} {s : TaskGraph α}
  {ok : String → Bool}

/-- A governed run judges its tasks. -/
theorem TaskRun.judged (h : TaskRun re2 es m s) (hg : Governed ok es) : s.Judged ok := by
  refine Machine.Coupled.invariant (I := fun es _ s => Governed ok es → s.Judged ok) ?_ ?_ h hg
  · exact fun _ => ⟨fun hi => absurd hi (Nat.not_lt_zero _),
      fun hi => absurd hi (Nat.not_lt_zero _),
      fun hi => absurd hi (Nat.not_lt_zero _)⟩
  · intro es m s op r m' s' hc ih _ hserve _ hg
    exact hserve.change.judged (TaskRun.wf hc)
      (ih fun e he => hg e (List.mem_append_left _ he))
      (hg ⟨m, op, r, m'⟩ (List.mem_append_right _ (.head _)))

/-- What a governed run says of its finished and its failed tasks, by declared parents. -/
theorem TaskRun.outcome (h : TaskRun re2 es m s) (hg : Governed ok es) (t : String) :
    (m.statusOf t = some .finished → ok t = true ∧ ∀ a, AncestorOf es a t → ok a = true) ∧
      (m.statusOf t = some .failed → ok t = false ∨ ∃ a, AncestorOf es a t ∧ ok a = false) := by
  have hj := h.judged hg
  have hwf := h.wf
  constructor
  · intro ht
    obtain ⟨i, hi, rfl, hst⟩ := h.exists_of_statusOf ht (by simp)
    refine ⟨hj.finished hi hst, fun a ha => ?_⟩
    obtain ⟨j, k, hjk, rfl, hk⟩ := h.ancestorOf_iff.1 ha
    have heq : k = i := hwf.ids hjk.size hi hk
    subst heq
    exact hj.finished (Nat.lt_trans (hwf.ancestor_lt hjk) hi) (hwf.ancestor_finished hjk hst)
  · intro ht
    obtain ⟨i, hi, rfl, hst⟩ := h.exists_of_statusOf ht (by simp)
    rcases hj.failed hi hst with hbad | ⟨a, ha, hbad⟩
    · exact .inl hbad
    · exact .inr ⟨_, h.ancestorOf_iff.2 ⟨a, i, ha, rfl, rfl⟩, hbad⟩

/-- In a settled governed run every added task has finished or failed. -/
theorem TaskRun.settled (h : TaskRun re2 es m s) (hg : Governed ok es) (hm : m.Settled)
    {request : TaskAddRequest α} (hr : request ∈ adds es) :
    m.statusOf request.taskId = some .finished ∨ m.statusOf request.taskId = some .failed := by
  obtain ⟨i, hi, hrec⟩ := h.exists_task hr
  have hdead := hm _ (List.mem_of_getElem? (h.related.columns hi).2.1)
  have hnc := (h.judged hg).canceled hi
  have hdef := h.wf.defined hi
  rw [← hrec.taskId, h.statusOf_eq hi]
  cases hst : (s.task i).state with
  | finished => exact .inl rfl
  | failed => exact .inr rfl
  | canceled => exact absurd hst hnc
  | undefined => exact absurd hst hdef
  | waiting => rw [hst] at hdead; cases hdead
  | ready => rw [hst] at hdead; cases hdead
  | running => rw [hst] at hdead; cases hdead

/-- An id that was not added has no state. -/
theorem TaskRun.statusOf_none (h : TaskRun re2 es m s) {t : String}
    (ht : ¬ ∃ request ∈ adds es, request.taskId = t) : m.statusOf t = some .undefined := by
  rw [h.related.statusOf]
  by_contra hne
  obtain ⟨i, hi, hid, -⟩ := TaskGraph.exists_of_status fun heq => hne (congrArg some heq)
  obtain ⟨request, hr, hrec⟩ := h.exists_request hi
  exact ht ⟨request, hr, hrec.taskId.symm.trans hid⟩

/-- **The outcome does not depend on the schedule.** In a run that follows `ok`, a finished task and
all its ancestors are ok, and a failed task is not or has an ancestor that is not. So two such runs
that add the same tasks with the same parents and leave none waiting, ready or running leave every
task in the same state. -/
theorem schedule_independent_outcome (ok : String → Bool) :
    (∀ (es : List (TaskEvent Q α)) m, (TaskManager.machine Q re2).Run es m → Governed ok es → ∀ t,
      (m.statusOf t = some .finished → ok t = true ∧ ∀ a, AncestorOf es a t → ok a = true) ∧
      (m.statusOf t = some .failed → ok t = false ∨ ∃ a, AncestorOf es a t ∧ ok a = false)) ∧
    ∀ (es₁ es₂ : List (TaskEvent Q α)) m₁ m₂, (TaskManager.machine Q re2).Run es₁ m₁ →
      (TaskManager.machine Q re2).Run es₂ m₂ → Governed ok es₁ → Governed ok es₂ →
      AddsWithin es₁ es₂ → AddsWithin es₂ es₁ → m₁.Settled → m₂.Settled →
      ∀ t, m₁.statusOf t = m₂.statusOf t := by
  constructor
  · intro es m h hg t
    obtain ⟨s, hc⟩ := TaskManager.exists_taskRun h
    exact hc.outcome hg t
  · intro es₁ es₂ m₁ m₂ h₁ h₂ hg₁ hg₂ h12 h21 hm₁ hm₂ t
    obtain ⟨s₁, hc₁⟩ := TaskManager.exists_taskRun h₁
    obtain ⟨s₂, hc₂⟩ := TaskManager.exists_taskRun h₂
    -- a task that is fine in one run and not in the other would have an ancestor that is both
    have hclash : ∀ {es es' : List (TaskEvent Q α)}, AddsWithin es es' →
        (ok t = true ∧ ∀ a, AncestorOf es' a t → ok a = true) →
        ¬ (ok t = false ∨ ∃ a, AncestorOf es a t ∧ ok a = false) := by
      rintro es es' hsub ⟨hok, hall⟩ (hbad | ⟨a, ha, hbad⟩)
      · rw [hok] at hbad; cases hbad
      · rw [hall a (hsub.ancestorOf ha)] at hbad; cases hbad
    by_cases ht : ∃ request ∈ adds es₁, request.taskId = t
    · obtain ⟨r₁, hr₁, rfl⟩ := ht
      obtain ⟨r₂, hr₂, hid, -⟩ := h12 r₁ hr₁
      have hst₁ := hc₁.settled hg₁ hm₁ hr₁
      have hst₂ := hc₂.settled hg₂ hm₂ hr₂
      rw [hid] at hst₂
      rcases hst₁ with hst₁ | hst₁ <;> rcases hst₂ with hst₂ | hst₂
      · rw [hst₁, hst₂]
      · exact absurd ((hc₂.outcome hg₂ _).2 hst₂) (hclash h21 ((hc₁.outcome hg₁ _).1 hst₁))
      · exact absurd ((hc₁.outcome hg₁ _).2 hst₁) (hclash h12 ((hc₂.outcome hg₂ _).1 hst₂))
      · rw [hst₁, hst₂]
    · have ht₂ : ¬ ∃ request ∈ adds es₂, request.taskId = t := by
        rintro ⟨r₂, hr₂, hid₂⟩
        obtain ⟨r₁, hr₁, hid, -⟩ := h21 r₂ hr₂
        exact ht ⟨r₁, hr₁, hid.trans hid₂⟩
      rw [hc₁.statusOf_none ht, hc₂.statusOf_none ht₂]

/-- The chain ends alike, submitted whole or piece by piece. -/
theorem schedule_independent_outcome_chain :
    ∀ t, (sampleRun chainEarly).2.statusOf t = (sampleRun chainLate).2.statusOf t :=
  have hadds : adds (sampleRun chainEarly).1 = adds (sampleRun chainLate).1 := rfl
  (schedule_independent_outcome (fun t => t ≠ "b")).2 _ _ _ _ (run_sampleRun chainEarly rfl)
    (run_sampleRun chainLate rfl) (by unfold Governed; decide) (by unfold Governed; decide)
    (fun r hr => ⟨r, hadds ▸ hr, rfl, fun _ => Iff.rfl⟩)
    (fun r hr => ⟨r, hadds ▸ hr, rfl, fun _ => Iff.rfl⟩)
    (by unfold TaskManager.Settled; decide) (by unfold TaskManager.Settled; decide)

end DsService

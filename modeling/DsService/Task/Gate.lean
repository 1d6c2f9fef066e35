import DsService.Task.History

/-!
# The dependency gate

A task is handed out only after all its parents have finished, waits only while one of them can
still finish, and ends badly as soon as one of them does (`dependency_gate`). So a waiting task
always has something ready or running behind it (`no_waiting_deadlock`).
-/

namespace DsService

variable {Q α : Type}

/-! ## In the graph -/

namespace TaskGraph.WF

variable {s : TaskGraph α} {i p : Nat} (h : s.WF)
include h

/-- A task with a parent that ended badly has ended badly. -/
theorem bad_of_parent (hi : i < s.size) (hp : p ∈ (s.task i).parents)
    (hb : (s.task p).state.IsBad) : (s.task i).state.IsBad := by
  have hgate := h.gate hi
  have hspared := h.spared hi
  have hdefined := h.defined hi
  cases hs : (s.task i).state with
  | waiting => exact absurd hb (hspared hs p hp)
  | ready => exact absurd (hgate (.inl hs) p hp) hb.ne_finished
  | running => exact absurd (hgate (.inr (.inl hs)) p hp) hb.ne_finished
  | finished => exact absurd (hgate (.inr (.inr hs)) p hp) hb.ne_finished
  | failed => exact .inl rfl
  | canceled => exact .inr rfl
  | undefined => exact absurd hs hdefined

/-- **A waiting task has an ancestor that is ready or running.** The descent goes from parent to
parent: one that has not finished exists, has not ended badly, and came earlier. -/
theorem waiting_ancestor : ∀ {i}, i < s.size → (s.task i).state = .waiting →
    ∃ a, s.Ancestor a i ∧ ((s.task a).state = .ready ∨ (s.task a).state = .running) := by
  intro i
  induction i using Nat.strongRecOn with
  | ind i ih =>
      intro hi hw
      obtain ⟨p, hp, hnf⟩ := h.held hi hw
      have hparent : s.Parent p i := ⟨hi, hp⟩
      have hps := h.parent_size hparent
      have hnb := h.spared hi hw p hp
      cases hs : (s.task p).state with
      | waiting =>
          obtain ⟨a, ha, hst⟩ := ih p (h.parent_lt hparent) hps hs
          exact ⟨a, .tail ha hparent, hst⟩
      | ready => exact ⟨p, .single hparent, .inl hs⟩
      | running => exact ⟨p, .single hparent, .inr hs⟩
      | finished => exact absurd hs hnf
      | failed => exact absurd (.inl hs) hnb
      | canceled => exact absurd (.inr hs) hnb
      | undefined => exact absurd hs (h.defined hps)

end TaskGraph.WF

/-! ## In the runs of the task manager -/

variable [LinearOrder α] [PriorityQueue Q (TaskQueueEntry α) taskQueueEntryOrder]
variable {re2 : RE2} {es : List (TaskEvent Q α)} {m : TaskManager Q α} {s : TaskGraph α}

/-- The reported state of the declared parents, one by one. -/
theorem TaskRun.parent_statusOf (h : TaskRun re2 es m s) {request : TaskAddRequest α} {i : Nat}
    (hi : i < s.size) (hrec : s.Records i request) {p : String}
    (hp : p ∈ request.parentTaskIds) :
    ∃ q ∈ (s.task i).parents, m.statusOf p = some (s.task q).state := by
  rw [← hrec.parents] at hp
  obtain ⟨q, hq, rfl⟩ := List.mem_map.1 hp
  exact ⟨q, hq, h.statusOf_eq (h.wf.parent_size ⟨hi, hq⟩)⟩

/-- The status of a parent can be asked for by an id of the request. -/
theorem TaskRun.statusOf_parent (h : TaskRun re2 es m s) {request : TaskAddRequest α} {i q : Nat}
    (hi : i < s.size) (hrec : s.Records i request) (hq : q ∈ (s.task i).parents) :
    ∃ p ∈ request.parentTaskIds, m.statusOf p = some (s.task q).state := by
  refine ⟨(s.task q).taskId, ?_, h.statusOf_eq (h.wf.parent_size ⟨hi, hq⟩)⟩
  rw [← hrec.parents]
  exact List.mem_map.2 ⟨q, hq, rfl⟩

/-- A task that is ready or beyond has only finished parents, by its request. -/
theorem TaskRun.parents_finished (h : TaskRun re2 es m s) {request : TaskAddRequest α} {i : Nat}
    (hi : i < s.size) (hrec : s.Records i request)
    (hst : (s.task i).state = .ready ∨ (s.task i).state = .running ∨
      (s.task i).state = .finished) :
    ∀ p ∈ request.parentTaskIds, m.statusOf p = some .finished := by
  intro p hp
  obtain ⟨q, hq, heq⟩ := h.parent_statusOf hi hrec hp
  rw [heq, h.wf.gate hi hst q hq]

/-- **The dependency gate.** In every reachable state and for every task by the request that added
it: past the gate all parents are finished, before it at least one is not and none ended badly. So
`task_get` handed it out only with all parents finished, it does not wait once they are, and it ends
badly with any of them. -/
theorem dependency_gate (h : (TaskManager.machine Q re2).Run es m)
    {request : TaskAddRequest α} (hr : request ∈ adds es) :
    (m.statusOf request.taskId = some .ready ∨ m.statusOf request.taskId = some .running ∨
        m.statusOf request.taskId = some .finished →
      ∀ p ∈ request.parentTaskIds, m.statusOf p = some .finished) ∧
    (m.statusOf request.taskId = some .waiting →
      (∃ p ∈ request.parentTaskIds, m.statusOf p ≠ some .finished) ∧
        ∀ p ∈ request.parentTaskIds, m.statusOf p ≠ some .failed ∧ m.statusOf p ≠ some .canceled) ∧
    (∀ e ∈ es, ∀ workerId, e.op.claimed e.reply = some (request.taskId, workerId) →
      ∀ p ∈ request.parentTaskIds, e.pre.statusOf p = some .finished) ∧
    ((∀ p ∈ request.parentTaskIds, m.statusOf p = some .finished) →
      m.statusOf request.taskId ≠ some .waiting) ∧
    ((∃ p ∈ request.parentTaskIds, m.statusOf p = some .failed ∨ m.statusOf p = some .canceled) →
      m.statusOf request.taskId = some .failed ∨ m.statusOf request.taskId = some .canceled) := by
  obtain ⟨s, hc⟩ := TaskManager.exists_taskRun h
  obtain ⟨i, hi, hrec⟩ := hc.exists_task hr
  have hstatus : m.statusOf request.taskId = some (s.task i).state := by
    rw [← hrec.taskId]
    exact hc.statusOf_eq hi
  rw [hstatus]
  simp only [Option.some.injEq]
  refine ⟨hc.parents_finished hi hrec, fun hw => ⟨?_, ?_⟩, ?_, ?_, ?_⟩
  · obtain ⟨q, hq, hnf⟩ := hc.wf.held hi hw
    obtain ⟨p, hp, heq⟩ := hc.statusOf_parent hi hrec hq
    exact ⟨p, hp, by rw [heq]; simpa using hnf⟩
  · intro p hp
    obtain ⟨q, hq, heq⟩ := hc.parent_statusOf hi hrec hp
    have hnb := hc.wf.spared hi hw q hq
    rw [heq]
    simp only [ne_eq, Option.some.injEq]
    exact ⟨fun hf => hnb (.inl hf), fun hf => hnb (.inr hf)⟩
  · intro e he workerId hclaim
    -- the run up to this `task_get` has its own graph, where the task was ready
    obtain ⟨es₁, es₂, rfl⟩ := List.append_of_mem he
    obtain ⟨hrun, hs⟩ := h.split
    obtain ⟨s₁, hc₁⟩ := TaskManager.exists_taskRun hrun
    obtain ⟨j, hj, htask, hready⟩ := hc₁.exists_of_claim hs hclaim
    obtain ⟨request', hr', hrec'⟩ := hc₁.exists_request hj
    have heq : request' = request := hc.adds_unique
      (by rw [adds_append]; exact List.mem_append_left _ hr') hr
      (by rw [← hrec'.taskId, htask])
    subst heq
    exact hc₁.parents_finished hj hrec' (.inl hready)
  · intro hall hw
    obtain ⟨q, hq, hnf⟩ := hc.wf.held hi (Option.some.inj hw)
    obtain ⟨p, hp, heq⟩ := hc.statusOf_parent hi hrec hq
    rw [hall p hp] at heq
    exact hnf (Option.some.inj heq).symm
  · rintro ⟨p, hp, hbad⟩
    obtain ⟨q, hq, heq⟩ := hc.parent_statusOf hi hrec hp
    rw [heq] at hbad
    simp only [Option.some.injEq] at hbad
    exact hc.wf.bad_of_parent hi hq hbad

/-- The last task of the diamond waits, as one of its parents has not finished. -/
theorem dependency_gate_diamond : (sampleRun diamond).2.statusOf "d" = some .waiting ∧
    ∃ p ∈ ["b", "c", "b"], (sampleRun diamond).2.statusOf p ≠ some .finished :=
  ⟨rfl, ((dependency_gate (run_sampleRun diamond rfl)
    (show diamondLast ∈ adds (sampleRun diamond).1 from
      .tail _ (.tail _ (.tail _ (.head _))))).2.1 rfl).1⟩

/-- **No deadlock in the graph.** In every reachable state a waiting task has an ancestor by
declared parents that is ready or running, so nothing waits when nothing is ready or running. -/
theorem no_waiting_deadlock (h : (TaskManager.machine Q re2).Run es m) :
    (∀ t, m.statusOf t = some .waiting → ∃ a, AncestorOf es a t ∧
      (m.statusOf a = some .ready ∨ m.statusOf a = some .running)) ∧
    ∀ counts, m.getCountByState = .ok counts → counts.ready = 0 → counts.running = 0 →
      counts.waiting = 0 := by
  obtain ⟨s, hc⟩ := TaskManager.exists_taskRun h
  have hwf := hc.wf
  constructor
  · intro t ht
    obtain ⟨i, hi, rfl, hw⟩ := hc.exists_of_statusOf ht (by simp)
    obtain ⟨a, ha, hst⟩ := hwf.waiting_ancestor hi hw
    refine ⟨(s.task a).taskId, hc.ancestorOf_iff.2 ⟨a, i, ha, rfl, rfl⟩, ?_⟩
    rw [hc.statusOf_eq (Nat.lt_trans (hwf.ancestor_lt ha) hi)]
    simpa using hst
  · intro counts hcounts hready hrunning
    obtain ⟨-, v, rfl, href⟩ := hc.related
    rw [href.getCountByState] at hcounts
    cases hcounts
    simp only [TaskGraph.countIn, List.countP_eq_zero, List.mem_range, decide_eq_true_eq] at *
    intro i hi hw
    obtain ⟨a, ha, hst⟩ := hwf.waiting_ancestor hi hw
    have has := Nat.lt_trans (hwf.ancestor_lt ha) hi
    rcases hst with hst | hst
    · exact hready a has hst
    · exact hrunning a has hst

/-- The last task of the diamond waits for one that can go on. -/
theorem no_waiting_deadlock_diamond : ∃ a, AncestorOf (sampleRun diamond).1 a "d" ∧
    ((sampleRun diamond).2.statusOf a = some .ready ∨
      (sampleRun diamond).2.statusOf a = some .running) :=
  (no_waiting_deadlock (run_sampleRun diamond rfl)).1 "d" rfl

end DsService

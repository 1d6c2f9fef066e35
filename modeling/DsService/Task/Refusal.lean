import DsService.Core.TaskManager

/-!
# Refused calls return early

Every refusal of `task_add`, `task_cancel`, `task_set_priority` and `task_done` comes before the
first write, so the state it returns is the one it was given. `task_get` is the exception, since it
has popped the queues it tried by the time it finds nothing; see `Refines.getFrom`.
-/

namespace DsService

namespace TaskManager

variable {Q α : Type} [LinearOrder α] [PriorityQueue Q (TaskQueueEntry α) taskQueueEntryOrder]
variable {m m' : TaskManager Q α}

/-- What `add` does after its checks has no refusal in it. -/
theorem add_tail {m : TaskManager Q α} {parents : List Nat} {state : TaskState} {index : Nat}
    {e : Error}
    (h : ((parents.foldlM (registerChild index) m).bind fun m =>
      if state = .ready then (m.enqueue index).bind fun m => pure (.ok (), m)
      else pure ((.ok (), m) : Result Unit × TaskManager Q α)) = some (.error e, m')) : False := by
  obtain ⟨m₁, -, h⟩ := Option.bind_eq_some_iff.1 h
  split at h
  · obtain ⟨m₂, -, h⟩ := Option.bind_eq_some_iff.1 h
    cases h
  · cases h

/-- An add that is refused writes nothing. -/
theorem add_refused {request : TaskAddRequest α} {e : Error}
    (h : m.add request = some (.error e, m')) : m' = m := by
  unfold add at h
  split at h
  · cases h; rfl
  · split at h
    · cases h; rfl
    · simp only [Option.bind_eq_bind] at h
      obtain ⟨scan, -, h⟩ := Option.bind_eq_some_iff.1 h
      obtain ⟨⟨state, origin⟩, -, h⟩ := Option.bind_eq_some_iff.1 h
      dsimp only at h
      split at h
      · obtain ⟨output, -, h⟩ := Option.bind_eq_some_iff.1 h
        exact (add_tail h).elim
      · exact (add_tail h).elim

omit [LinearOrder α] [PriorityQueue Q (TaskQueueEntry α) taskQueueEntryOrder] in

/-- A cancel that cancels nothing writes nothing. -/
theorem cancel_refused {request : TaskCancelRequest} {r : Result TaskCancelResponse}
    (h : m.cancel request = some (r, m')) (hr : r ≠ .ok ⟨true⟩) : m' = m := by
  unfold cancel at h
  split at h
  · cases h; rfl
  · simp only [Option.bind_eq_bind, Option.bind_eq_some_iff] at h
    obtain ⟨state, -, h⟩ := h
    split at h
    · cases h; rfl
    · simp only [Option.bind_eq_some_iff] at h
      obtain ⟨_, -, _, -, _, -, _, -, _, -, _, -, h⟩ := h
      cases h
      exact absurd rfl hr

/-- A priority that is refused is not written. -/
theorem setPriority_refused {request : TaskSetPriorityRequest α} {e : Error}
    (h : m.setPriority request = some (.error e, m')) : m' = m := by
  unfold setPriority at h
  split at h
  · cases h; rfl
  · simp only [Option.bind_eq_bind, Option.bind_eq_some_iff] at h
    obtain ⟨_, -, state, -, h⟩ := h
    split at h
    · cases h
    · simp only [Option.bind_eq_some_iff] at h
      obtain ⟨_, -, h⟩ := h
      cases h

/-- A report is accepted without effect on a canceled task, refused, or made on a running one. -/
theorem done_cases {request : TaskDoneRequest} {r : Result Unit}
    (h : m.done request = some (r, m')) :
    m' = m ∧ (r = .ok () ∧ m.statusOf request.taskId = some .canceled ∨ ∃ e, r = .error e) ∨
      r = .ok () ∧ m.statusOf request.taskId = some .running := by
  unfold done at h
  unfold statusOf
  split at h
  · cases h; exact .inl ⟨rfl, .inr ⟨_, rfl⟩⟩
  · next index _ =>
      simp only [Option.bind_eq_bind, Option.bind_eq_some_iff] at h
      obtain ⟨state, hstate, h⟩ := h
      rw [hstate]
      split at h
      · next hc => subst hc; cases h; exact .inl ⟨rfl, .inl ⟨rfl, rfl⟩⟩
      · split at h
        · cases h; exact .inl ⟨rfl, .inr ⟨_, rfl⟩⟩
        · next hrun =>
            simp only [Option.bind_eq_some_iff] at h
            obtain ⟨workerId, -, h⟩ := h
            split at h
            · cases h; exact .inl ⟨rfl, .inr ⟨_, rfl⟩⟩
            · refine .inr ⟨?_, by rw [not_not.1 hrun]⟩
              simp only [Option.bind_eq_some_iff] at h
              obtain ⟨_, -, h⟩ := h
              split at h
              · simp only [Option.bind_eq_some_iff] at h
                obtain ⟨_, -, _, -, _, -, h⟩ := h
                cases h; rfl
              · simp only [Option.bind_eq_some_iff] at h
                obtain ⟨_, -, _, -, _, -, h⟩ := h
                cases h; rfl

/-- The replies that report no effect: an error, a `task_cancel` of a task that had ended, and a
`task_done` on a canceled task. -/
def Refuses (m : TaskManager Q α) (op : TaskOp α) (r : TaskReply α) : Prop :=
  r.error.isSome = true ∨ r = .cancel (.ok ⟨false⟩) ∨
    r = .done (.ok ()) ∧ ∃ request, op = .done request ∧
      m.statusOf request.taskId = some .canceled

/-- **A refused call other than `task_get` returns the state it was given.** -/
theorem step_refused {re2 : RE2} {op : TaskOp α} {r : TaskReply α}
    (h : m.step re2 op = some (r, m')) (hr : m.Refuses op r) (hget : ∀ request, op ≠ .get request) :
    m' = m := by
  cases op with
  | get request => exact absurd rfl (hget request)
  | add request =>
      simp only [step, Option.bind_eq_bind, Option.bind_eq_some_iff] at h
      obtain ⟨⟨result, m₁⟩, hadd, heq⟩ := h
      cases heq
      rcases hr with hr | hr | ⟨hr, -⟩
      · cases result with
        | ok _ => cases hr
        | error e => exact add_refused hadd
      · cases hr
      · cases hr
  | cancel request =>
      simp only [step, Option.bind_eq_bind, Option.bind_eq_some_iff] at h
      obtain ⟨⟨result, m₁⟩, hcancel, heq⟩ := h
      cases heq
      refine cancel_refused hcancel ?_
      rintro rfl
      rcases hr with hr | hr | ⟨hr, -⟩ <;> cases hr
  | setPriority request =>
      simp only [step, Option.bind_eq_bind, Option.bind_eq_some_iff] at h
      obtain ⟨⟨result, m₁⟩, hset, heq⟩ := h
      cases heq
      rcases hr with hr | hr | ⟨hr, -⟩
      · cases result with
        | ok _ => cases hr
        | error e => exact setPriority_refused hset
      · cases hr
      · cases hr
  | done request =>
      simp only [step, Option.bind_eq_bind, Option.bind_eq_some_iff] at h
      obtain ⟨⟨result, m₁⟩, hdone, heq⟩ := h
      cases heq
      rcases done_cases hdone with ⟨rfl, -⟩ | ⟨rfl, hrunning⟩
      · rfl
      · rcases hr with hr | hr | ⟨-, _, hop, hcanceled⟩
        · cases hr
        · cases hr
        · cases hop
          rw [hrunning] at hcanceled
          cases hcanceled
  | getStatus | getOutput | getPriority | getWorkerId =>
      simp only [step, Option.bind_eq_bind, Option.bind_eq_some_iff] at h
      obtain ⟨_, -, heq⟩ := h
      cases heq
      rfl
  | getCountByState | searchId => cases h; rfl

end TaskManager

end DsService

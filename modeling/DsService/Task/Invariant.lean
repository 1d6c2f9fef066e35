import DsService.Task.Change

/-!
# The invariant of the task graph

`WF` is the invariant: ids are distinct, parents come before their children, and the states of a
task and of its parents agree (`gate`, `held`, `spared`). `Change.wf` says that every change keeps
it. Its consequences for the graph as a whole are `WF.falls_waiting`, that an ending takes only
waiting tasks with it, and `WF.ancestor_finished`.
-/

namespace DsService

/-- The two tasks were added by the same request: what `task_add` fixed for good. -/
structure Task.SameRequest {α : Type} (t t' : Task α) : Prop where
  taskId : t'.taskId = t.taskId
  function : t'.function = t.function
  input : t'.input = t.input
  queues : t'.queues = t.queues
  parents : t'.parents = t.parents

/-- A task has its own request. -/
theorem Task.SameRequest.refl {α : Type} (t : Task α) : t.SameRequest t := ⟨rfl, rfl, rfl, rfl, rfl⟩

namespace TaskGraph

variable {α : Type} {s s' : TaskGraph α} {i j p c x : Nat}

/-- The invariant of the task graph. -/
structure WF (s : TaskGraph α) : Prop where
  /-- Ids are distinct. -/
  ids : ∀ {i j}, i < s.size → j < s.size → (s.task i).taskId = (s.task j).taskId → i = j
  /-- Parents were added before their children. -/
  parent_lt : ∀ {p c}, s.Parent p c → p < c
  /-- A task that is ready or beyond has only finished parents. -/
  gate : ∀ {i}, i < s.size →
    (s.task i).state = .ready ∨ (s.task i).state = .running ∨ (s.task i).state = .finished →
    ∀ p ∈ (s.task i).parents, (s.task p).state = .finished
  /-- A waiting task has a parent that has not finished. -/
  held : ∀ {i}, i < s.size → (s.task i).state = .waiting →
    ∃ p ∈ (s.task i).parents, (s.task p).state ≠ .finished
  /-- A waiting task has no parent that failed or was canceled. -/
  spared : ∀ {i}, i < s.size → (s.task i).state = .waiting →
    ∀ p ∈ (s.task i).parents, ¬ (s.task p).state.IsBad
  /-- Every task is in one of the six states. -/
  defined : ∀ {i}, i < s.size → (s.task i).state ≠ .undefined
  /-- A task that has not ended has no output. -/
  blank : ∀ {i}, i < s.size → (s.task i).state.isLive = true → (s.task i).output = ""
  /-- An origin is a task, no later than the task it decides. -/
  origin_le : ∀ {i}, i < s.size → (s.task i).origin ≤ i
  /-- The log is about tasks. -/
  log_lt : ∀ e ∈ s.log, e.1 < s.size
  /-- A waiting task has not entered its queues. -/
  unlogged : ∀ {i}, i < s.size → (s.task i).state = .waiting → i ∉ s.log.map Prod.fst
  /-- A ready task last entered its queues at its priority. -/
  logged : ∀ {i}, i < s.size → (s.task i).state = .ready →
    LastAt s.log i (s.task i).priority

/-- The empty graph is well formed. -/
theorem WF.empty : (empty : TaskGraph α).WF where
  ids hi := absurd hi (Nat.not_lt_zero _)
  parent_lt h := absurd h.1 (Nat.not_lt_zero _)
  gate hi := absurd hi (Nat.not_lt_zero _)
  held hi := absurd hi (Nat.not_lt_zero _)
  spared hi := absurd hi (Nat.not_lt_zero _)
  defined hi := absurd hi (Nat.not_lt_zero _)
  blank hi := absurd hi (Nat.not_lt_zero _)
  origin_le hi := absurd hi (Nat.not_lt_zero _)
  log_lt e he := by cases he
  unlogged hi := absurd hi (Nat.not_lt_zero _)
  logged hi := absurd hi (Nat.not_lt_zero _)

/-! ## Consequences -/

/-- A descendant is a task. -/
theorem Ancestor.size (ha : s.Ancestor p c) : c < s.size := by
  cases ha with
  | single hp => exact hp.1
  | tail _ hp => exact hp.1

namespace WF

variable (h : s.WF)
include h

/-- A parent of a task is a task. -/
theorem parent_size (hp : s.Parent p c) : p < s.size := Nat.lt_trans (h.parent_lt hp) hp.1

/-- Ancestors come before their descendants. -/
theorem ancestor_lt (ha : s.Ancestor p c) : p < c := by
  induction ha with
  | single hp => exact h.parent_lt hp
  | tail _ hp ih => exact Nat.lt_trans ih (h.parent_lt hp)

/-- No task is its own ancestor. -/
theorem ancestor_ne (ha : s.Ancestor p c) : c ≠ p := (h.ancestor_lt ha).ne'

/-- `find?` is the inverse of the id column. -/
theorem find?_eq {t : String} : s.find? t = some i ↔ i < s.size ∧ (s.task i).taskId = t := by
  refine ⟨find?_some, fun ⟨hi, ht⟩ => ?_⟩
  cases hf : s.find? t with
  | none => exact absurd ht (find?_none.1 hf i hi)
  | some j =>
      obtain ⟨hj, hjt⟩ := find?_some hf
      rw [h.ids hj hi (hjt.trans ht.symm)]

/-- Every ancestor of a finished task is finished. -/
theorem ancestor_finished (ha : s.Ancestor p c) (hc : (s.task c).state = .finished) :
    (s.task p).state = .finished := by
  induction ha with
  | single hp => exact h.gate hp.1 (.inr (.inr hc)) _ hp.2
  | tail _ hp ih => exact ih (h.gate hp.1 (.inr (.inr hc)) _ hp.2)

/-- Between a live ancestor and a live task every parent is live. -/
theorem parent_live (ha : s.Ancestor x p) (hp : s.Parent p i)
    (hx : (s.task x).state.isLive = true) (hi : (s.task i).state.isLive = true) :
    (s.task p).state.isLive = true := by
  have hnf : (s.task p).state ≠ .finished := by
    intro hf
    have := h.ancestor_finished ha hf
    rw [this] at hx
    cases hx
  rcases TaskState.isLive_iff.1 hi with hw | hr
  · have hnb := h.spared hp.1 hw p hp.2
    have hnu := h.defined (h.parent_size hp)
    rw [TaskState.isLive_iff]
    unfold TaskState.IsBad at hnb
    cases hs : (s.task p).state <;> simp_all
  · exact absurd (h.gate hp.1 (by simpa [or_assoc] using Or.inl hr) p hp.2) hnf

/-- An ending takes every descendant with it that has not ended badly before. -/
theorem falls_of_good (hi : i < s.size) (ha : s.Ancestor x i) (hx : (s.task x).state.isLive = true)
    (hnb : ¬ (s.task i).state.IsBad) : s.Falls x i := by
  refine ⟨hi, ?_, ha⟩
  have hdef := h.defined hi
  cases hs : (s.task i).state with
  | finished => rw [h.ancestor_finished ha hs] at hx; cases hx
  | failed => exact absurd (.inl hs) hnb
  | canceled => exact absurd (.inr hs) hnb
  | undefined => exact absurd hs hdef
  | waiting | ready | running => rfl

/-- **An ending takes only waiting tasks with it**: a live descendant of a live task is waiting. -/
theorem falls_waiting (hf : s.Falls x i) (hx : (s.task x).state.isLive = true) :
    (s.task i).state = .waiting := by
  obtain ⟨hi, hl, ha⟩ := hf
  rcases TaskState.isLive_iff.1 hl with hw | hr
  · exact hw
  · -- a ready or running task has a finished parent on the path, and so a finished ancestor
    have hgate := h.gate hi (by simpa [or_assoc] using Or.inl hr)
    have hfin : (s.task x).state = .finished := by
      cases ha with
      | single hp => exact hgate _ hp.2
      | tail ha hp => exact h.ancestor_finished ha (hgate _ hp.2)
    rw [hfin] at hx
    cases hx

end WF

/-! ## Every change keeps the invariant -/

/-- The ending that spreads leaves what `task_add` fixed. -/
theorem endBadly_sameRequest (state : TaskState) (workerId output : String) :
    (s.task i).SameRequest ((s.endBadly x state workerId output).task i) := by
  obtain ⟨-, heq⟩ | ⟨-, heq⟩ | ⟨-, -, heq⟩ := s.endBadly_task_cases x state workerId output i
  · rw [heq]; exact ⟨rfl, rfl, rfl, rfl, rfl⟩
  · rw [heq]; exact ⟨rfl, rfl, rfl, rfl, rfl⟩
  · rw [heq]; exact .refl _

/-- A report of success changes no request. -/
theorem settle_sameRequest (output : String) :
    (s.task i).SameRequest ((s.settle x output).task i) := by
  rw [settle_task]
  split
  · next hix => subst hix; exact ⟨rfl, rfl, rfl, rfl, rfl⟩
  · exact .refl _

/-- A task that finishes changes no request, nor do those it releases. -/
theorem finish_sameRequest (output : String) :
    (s.task i).SameRequest ((s.finish x output).task i) := by
  have h := settle_sameRequest (s := s) (i := i) (x := x) output
  unfold finish
  rw [release_task]
  split
  · exact ⟨h.taskId, h.function, h.input, h.queues, h.parents⟩
  · exact h

/-- A claim changes no request. -/
theorem claim_sameRequest (workerId : String) :
    (s.task i).SameRequest ((s.claim x workerId).task i) := by
  rw [claim_task]
  split
  · next hix => subst hix; exact ⟨rfl, rfl, rfl, rfl, rfl⟩
  · exact .refl _

/-- A new priority changes no other part of a request. -/
theorem reprioritize_sameRequest (priority : Double α) :
    (s.task i).SameRequest ((s.reprioritize x priority).task i) := by
  rw [reprioritize_task]
  split
  · next hix => subst hix; exact ⟨rfl, rfl, rfl, rfl, rfl⟩
  · exact .refl _

/-- The part of the invariant that rests on the requests alone. -/
theorem WF.static (h : s.WF) (hsize : s'.size = s.size)
    (hreq : ∀ i, (s.task i).SameRequest (s'.task i)) :
    (∀ {i j}, i < s'.size → j < s'.size → (s'.task i).taskId = (s'.task j).taskId → i = j) ∧
      ∀ {p c}, s'.Parent p c → p < c := by
  constructor
  · intro i j hi hj hij
    rw [(hreq i).taskId, (hreq j).taskId] at hij
    exact h.ids (hsize ▸ hi) (hsize ▸ hj) hij
  · intro p c hp
    refine h.parent_lt ⟨hsize ▸ hp.1, ?_⟩
    rw [← (hreq c).parents]
    exact hp.2

/-- What the ending of a live `x` does to the state of a task. -/
theorem endBadly_state (state : TaskState) (workerId output : String) :
    (i = x ∨ s.Falls x i) ∧ ((s.endBadly x state workerId output).task i).state = state ∨
      i ≠ x ∧ ¬ s.Falls x i ∧
        (s.endBadly x state workerId output).task i = s.task i := by
  obtain ⟨hix, heq⟩ | ⟨hf, heq⟩ | hkeep := s.endBadly_task_cases x state workerId output i
  · rw [heq]; exact .inl ⟨.inl hix, rfl⟩
  · rw [heq]; exact .inl ⟨.inr hf, rfl⟩
  · exact .inr hkeep

/-- What an ending makes of the task itself and of what falls with it. -/
theorem endBadly_taken {state : TaskState} {workerId output : String}
    (hi : i = x ∨ s.Falls x i) : ((s.endBadly x state workerId output).task i).state = state ∧
      ((s.endBadly x state workerId output).task i).origin = x := by
  obtain ⟨-, heq⟩ | ⟨-, heq⟩ | ⟨hne, hnf, -⟩ := s.endBadly_task_cases x state workerId output i
  · rw [heq]; exact ⟨rfl, rfl⟩
  · rw [heq]; exact ⟨rfl, rfl⟩
  · exact absurd hi (not_or.2 ⟨hne, hnf⟩)

/-- A bad ending keeps the graph well formed. -/
theorem WF.endBadly (h : s.WF) {state : TaskState} {workerId output : String}
    (hb : state.IsBad) (hl : (s.task x).state.isLive = true) :
    (s.endBadly x state workerId output).WF := by
  let s' := s.endBadly x state workerId output
  have hreq : ∀ i, (s.task i).SameRequest (s'.task i) := fun i => endBadly_sameRequest _ _ _
  have hsize : s'.size = s.size := rfl
  obtain ⟨hids, hpar⟩ := h.static hsize hreq
  have hcases : ∀ i, (i = x ∨ s.Falls x i) ∧ (s'.task i).state = state ∨
      i ≠ x ∧ ¬ s.Falls x i ∧ s'.task i = s.task i := fun i => endBadly_state _ _ _
  -- a task that has not ended badly is as it was
  have hkeep : ∀ {i}, ¬ (s'.task i).state.IsBad →
      i ≠ x ∧ ¬ s.Falls x i ∧ s'.task i = s.task i :=
    fun {i} hi => (hcases i).resolve_left fun he => hi (he.2 ▸ hb)
  have hfin : ∀ {p}, (s.task p).state = .finished → (s'.task p).state = .finished := by
    intro p hp
    rcases hcases p with ⟨rfl | hf, -⟩ | ⟨-, -, heq⟩
    · rw [hp] at hl; cases hl
    · have := hf.2.1; rw [hp] at this; cases this
    · rw [heq, hp]
  constructor
  case ids => exact hids
  case parent_lt => exact hpar
  case log_lt => exact h.log_lt
  case gate =>
    intro i hi hst p hp
    have hnb : ¬ (s'.task i).state.IsBad := by
      rcases hst with hst | hst | hst <;> rw [hst] <;> decide
    obtain ⟨-, -, heq⟩ := hkeep hnb
    rw [heq] at hst hp
    exact hfin (h.gate hi hst p hp)
  case held =>
    intro i hi hst
    obtain ⟨-, -, heq⟩ := hkeep (by rw [hst]; decide)
    rw [heq] at hst ⊢
    obtain ⟨p, hp, hpf⟩ := h.held hi hst
    refine ⟨p, hp, ?_⟩
    rcases hcases p with ⟨-, hps⟩ | ⟨-, -, hps⟩
    · rw [hps]; exact hb.ne_finished
    · rw [hps]; exact hpf
  case spared =>
    intro i hi hst p hp
    obtain ⟨hix, hnf, heq⟩ := hkeep (by rw [hst]; decide)
    rw [heq] at hst hp
    rcases hcases p with ⟨hpx, -⟩ | ⟨-, -, hps⟩
    · -- a parent that ended would have taken the task with it
      have hpi : s.Parent p i := ⟨hi, hp⟩
      have hanc : s.Ancestor x i := by
        rcases hpx with rfl | hf
        · exact .single hpi
        · exact .tail hf.2.2 hpi
      exact absurd ⟨hi, TaskState.isLive_iff.2 (.inl hst), hanc⟩ hnf
    · rw [hps]; exact h.spared hi hst p hp
  case defined =>
    intro i hi
    rcases hcases i with ⟨-, hs⟩ | ⟨-, -, hs⟩
    · rw [hs]; rcases hb with rfl | rfl <;> decide
    · rw [hs]; exact h.defined hi
  case blank =>
    intro i hi hlive
    obtain ⟨-, -, heq⟩ := hkeep fun hbad => hbad.not_live hlive
    rw [heq] at hlive ⊢
    exact h.blank hi hlive
  case origin_le =>
    intro i hi
    obtain ⟨rfl, heq⟩ | ⟨hf, heq⟩ | ⟨-, -, heq⟩ := s.endBadly_task_cases x state workerId output i
    · rw [heq]
    · rw [heq]; exact Nat.le_of_lt (h.ancestor_lt hf.2.2)
    · rw [heq]; exact h.origin_le hi
  case unlogged =>
    intro i hi hst
    obtain ⟨-, -, heq⟩ := hkeep (by rw [hst]; decide)
    rw [heq] at hst
    exact h.unlogged hi hst
  case logged =>
    intro i hi hst
    obtain ⟨-, -, heq⟩ := hkeep (by rw [hst]; decide)
    rw [heq] at hst ⊢
    exact h.logged hi hst

/-- The finished task itself. -/
theorem finish_self (output : String) : (s.finish x output).task x =
    { s.task x with state := .finished, output := output } := by
  have hself : (s.settle x output).task x =
      { s.task x with state := .finished, output := output } := by rw [settle_task, if_pos rfl]
  have hnot : x ∉ (s.settle x output).releasedBy x := by
    intro hx
    have hw := (mem_releasedBy.1 hx).2.1
    rw [hself] at hw
    cases hw
  rw [finish, release_task, if_neg hnot, hself]

/-- What finishing `x` does to a task. -/
theorem finish_task_cases (s : TaskGraph α) (x : Nat) (output : String) (i : Nat) :
    i = x ∧ ((s.finish x output).task i).state = .finished ∨
    i ≠ x ∧ i ∈ (s.settle x output).releasedBy x ∧ (s.task i).state = .waiting ∧
      (s.finish x output).task i = { s.task i with state := .ready } ∨
    i ≠ x ∧ i ∉ (s.settle x output).releasedBy x ∧ (s.finish x output).task i = s.task i := by
  by_cases hix : i = x
  · subst hix
    rw [finish_self]
    exact .inl ⟨rfl, rfl⟩
  · have hsame : (s.settle x output).task i = s.task i := by rw [settle_task, if_neg hix]
    unfold finish
    rw [release_task]
    by_cases hmem : i ∈ (s.settle x output).releasedBy x
    · have hw := (mem_releasedBy.1 hmem).2.1
      rw [hsame] at hw
      rw [if_pos hmem, hsame]
      exact .inr (.inl ⟨hix, hmem, hw, rfl⟩)
    · rw [if_neg hmem, hsame]
      exact .inr (.inr ⟨hix, hmem, rfl⟩)

/-- A good ending has no origin to pass on. -/
theorem finish_origin (output : String) :
    ((s.finish x output).task i).origin = (s.task i).origin := by
  rcases finish_task_cases s x output i with ⟨rfl, -⟩ | ⟨-, -, -, hst⟩ | ⟨-, -, hst⟩
  · rw [finish_self]
  · rw [hst]
  · rw [hst]

/-- The settled graph decides which tasks are finished afterwards. -/
theorem finish_finished {output : String} : ((s.finish x output).task i).state = .finished ↔
    ((s.settle x output).task i).state = .finished := by
  rcases finish_task_cases s x output i with ⟨rfl, hst⟩ | ⟨hix, -, hw, hst⟩ | ⟨hix, -, hst⟩
  · rw [hst, settle_task, if_pos rfl]
  · rw [hst, settle_task, if_neg hix, hw]; simp
  · rw [hst, settle_task, if_neg hix]

/-- What a task that finishes releases enters the queues. -/
theorem finish_log (output : String) : (s.finish x output).log =
    s.log ++ ((s.settle x output).releasedBy x).map fun c => (c, (s.task c).priority) := by
  change s.log ++ _ = s.log ++ _
  congr 1
  apply List.map_congr_left
  intro c _
  rw [settle_task]
  split
  · next hc => subst hc; rfl
  · rfl

/-- A task that still waits after `x` has finished has another parent that has not: if all of them
had, `x` would be the last and the task released. -/
theorem WF.finish_held (h : s.WF) {output : String} (hi : i < s.size)
    (hst : ((s.finish x output).task i).state = .waiting) :
    ∃ p ∈ (s.task i).parents, ((s.finish x output).task p).state ≠ .finished := by
  rcases finish_task_cases s x output i with ⟨-, hs⟩ | ⟨-, -, -, hs⟩ | ⟨hix, hmem, hs⟩
  · rw [hs] at hst; cases hst
  · rw [hs] at hst; cases hst
  · rw [hs] at hst
    obtain ⟨q, hq, hqf⟩ := h.held hi hst
    by_contra hno
    push Not at hno
    have hall : ∀ p ∈ (s.task i).parents, ((s.settle x output).task p).state = .finished :=
      fun p hp => finish_finished.1 (hno p hp)
    have hqx : q = x := by
      by_contra hqx
      have := hall q hq
      rw [settle_task, if_neg hqx] at this
      exact hqf this
    subst hqx
    apply hmem
    rw [mem_releasedBy, (settle_sameRequest _).parents, settle_task, if_neg hix]
    exact ⟨hi, hst, hq, hall⟩

/-- A task that finishes keeps the graph well formed. -/
theorem WF.finish (h : s.WF) {output : String} (hx : x < s.size)
    (hr : (s.task x).state = .running) : (s.finish x output).WF := by
  let s' := s.finish x output
  let cs := (s.settle x output).releasedBy x
  have hreq : ∀ i, (s.task i).SameRequest (s'.task i) := fun i => finish_sameRequest _
  have hsize : s'.size = s.size := rfl
  obtain ⟨hids, hpar⟩ := h.static hsize hreq
  have hcases := finish_task_cases s x output
  have hfin : ∀ {p}, (s'.task p).state = .finished ↔
      ((s.settle x output).task p).state = .finished := finish_finished
  have hsettle : ∀ {p}, (s.task p).state = .finished →
      ((s.settle x output).task p).state = .finished := by
    intro p hp; rw [settle_task]; split
    · rfl
    · exact hp
  constructor
  case ids => exact hids
  case parent_lt => exact hpar
  case gate =>
    intro i hi hst p hp
    rw [(hreq i).parents] at hp
    rcases hcases i with ⟨rfl, -⟩ | ⟨hix, hmem, -, -⟩ | ⟨-, -, hs⟩
    · exact hfin.2 (hsettle (h.gate hi (.inr (.inl hr)) p hp))
    · have := (mem_releasedBy.1 hmem).2.2.2
      rw [(settle_sameRequest _).parents] at this
      exact hfin.2 (this p hp)
    · rw [hs] at hst
      exact hfin.2 (hsettle (h.gate hi hst p hp))
  case held =>
    intro i hi hst
    rw [(hreq i).parents]
    exact h.finish_held hi hst
  case spared =>
    intro i hi hst p hp
    rw [(hreq i).parents] at hp
    rcases hcases i with ⟨-, hs⟩ | ⟨-, -, -, hs⟩ | ⟨-, -, hs⟩
    · rw [hs] at hst; cases hst
    · rw [hs] at hst; cases hst
    · rw [hs] at hst
      rcases hcases p with ⟨-, hps⟩ | ⟨-, -, -, hps⟩ | ⟨-, -, hps⟩
      · rw [hps]; decide
      · rw [hps]; exact (by decide : ¬ TaskState.ready.IsBad)
      · rw [hps]; exact h.spared hi hst p hp
  case defined =>
    intro i hi
    rcases hcases i with ⟨-, hs⟩ | ⟨-, -, -, hs⟩ | ⟨-, -, hs⟩
    · rw [hs]; decide
    · rw [hs]; exact TaskState.noConfusion
    · rw [hs]; exact h.defined hi
  case blank =>
    intro i hi hlive
    rcases hcases i with ⟨-, hs⟩ | ⟨-, -, hw, hs⟩ | ⟨-, -, hs⟩
    · rw [hs] at hlive; cases hlive
    · rw [hs]; exact h.blank hi (TaskState.isLive_iff.2 (.inl hw))
    · rw [hs] at hlive ⊢; exact h.blank hi hlive
  case origin_le =>
    intro i hi
    rw [finish_origin]
    exact h.origin_le hi
  case log_lt =>
    intro e he
    rw [finish_log, List.mem_append, List.mem_map] at he
    rcases he with he | ⟨c, hc, rfl⟩
    · exact h.log_lt e he
    · exact (mem_releasedBy.1 hc).1
  case unlogged =>
    intro i hi hst
    rw [finish_log, LastAt.map_fst, List.mem_append, not_or]
    rcases hcases i with ⟨-, hs⟩ | ⟨-, -, -, hs⟩ | ⟨-, hmem, hs⟩
    · rw [hs] at hst; cases hst
    · rw [hs] at hst; cases hst
    · rw [hs] at hst; exact ⟨h.unlogged hi hst, hmem⟩
  case logged =>
    intro i hi hst
    rw [finish_log]
    rcases hcases i with ⟨-, hs⟩ | ⟨-, hmem, -, hs⟩ | ⟨-, hmem, hs⟩
    · rw [hs] at hst; cases hst
    · rw [hs]; exact LastAt.append_new (f := fun c => (s.task c).priority) hmem
    · rw [hs] at hst ⊢; exact (h.logged hi hst).append_other hmem

/-- A claim changes the state and the worker of one ready task. -/
theorem WF.claim (h : s.WF) {workerId : String} (hr : (s.task x).state = .ready) :
    (s.claim x workerId).WF := by
  let s' := s.claim x workerId
  have hreq : ∀ i, (s.task i).SameRequest (s'.task i) := fun i => claim_sameRequest _
  have hsize : s'.size = s.size := rfl
  obtain ⟨hids, hpar⟩ := h.static hsize hreq
  have hcases : ∀ i, i = x ∧ s'.task i = { s.task x with state := .running, workerId := workerId } ∨
      i ≠ x ∧ s'.task i = s.task i := by
    intro i
    by_cases hix : i = x
    · exact .inl ⟨hix, by rw [claim_task, if_pos hix]⟩
    · exact .inr ⟨hix, by rw [claim_task, if_neg hix]⟩
  have hfin : ∀ {p}, (s.task p).state = .finished → (s'.task p).state = .finished := by
    intro p hp
    rcases hcases p with ⟨rfl, -⟩ | ⟨-, hs⟩
    · rw [hp] at hr; cases hr
    · rw [hs]; exact hp
  constructor
  case ids => exact hids
  case parent_lt => exact hpar
  case log_lt => exact h.log_lt
  case gate =>
    intro i hi hst p hp
    rw [(hreq i).parents] at hp
    rcases hcases i with ⟨rfl, -⟩ | ⟨-, hs⟩
    · exact hfin (h.gate hi (.inl hr) p hp)
    · rw [hs] at hst; exact hfin (h.gate hi hst p hp)
  case held =>
    intro i hi hst
    rcases hcases i with ⟨-, hs⟩ | ⟨-, hs⟩
    · rw [hs] at hst; cases hst
    · rw [hs] at hst ⊢
      obtain ⟨p, hp, hpf⟩ := h.held hi hst
      refine ⟨p, hp, ?_⟩
      rcases hcases p with ⟨-, hps⟩ | ⟨-, hps⟩
      · rw [hps]; exact TaskState.noConfusion
      · rw [hps]; exact hpf
  case spared =>
    intro i hi hst p hp
    rcases hcases i with ⟨-, hs⟩ | ⟨-, hs⟩
    · rw [hs] at hst; cases hst
    · rw [hs] at hst hp
      rcases hcases p with ⟨-, hps⟩ | ⟨-, hps⟩
      · rw [hps]; exact (by decide : ¬ TaskState.running.IsBad)
      · rw [hps]; exact h.spared hi hst p hp
  case defined =>
    intro i hi
    rcases hcases i with ⟨-, hs⟩ | ⟨-, hs⟩
    · rw [hs]; exact TaskState.noConfusion
    · rw [hs]; exact h.defined hi
  case blank =>
    intro i hi hlive
    rcases hcases i with ⟨rfl, hs⟩ | ⟨-, hs⟩
    · rw [hs]; exact h.blank hi (by rw [hr]; rfl)
    · rw [hs] at hlive ⊢; exact h.blank hi hlive
  case origin_le =>
    intro i hi
    rcases hcases i with ⟨rfl, hs⟩ | ⟨-, hs⟩
    · rw [hs]; exact h.origin_le hi
    · rw [hs]; exact h.origin_le hi
  case unlogged =>
    intro i hi hst
    rcases hcases i with ⟨-, hs⟩ | ⟨-, hs⟩
    · rw [hs] at hst; cases hst
    · rw [hs] at hst; exact h.unlogged hi hst
  case logged =>
    intro i hi hst
    rcases hcases i with ⟨-, hs⟩ | ⟨-, hs⟩
    · rw [hs] at hst; cases hst
    · rw [hs] at hst ⊢; exact h.logged hi hst

/-- A new priority changes no state. -/
theorem reprioritize_state (priority : Double α) :
    ((s.reprioritize x priority).task i).state = (s.task i).state := by
  rw [reprioritize_task]
  split
  · next hix => subst hix; rfl
  · rfl

/-- A new priority keeps the graph well formed. -/
theorem WF.reprioritize (h : s.WF) {priority : Double α} (hx : x < s.size) :
    (s.reprioritize x priority).WF := by
  let s' := s.reprioritize x priority
  have hsize : s'.size = s.size := reprioritize_size _
  have hreq : ∀ i, (s.task i).SameRequest (s'.task i) := fun i => reprioritize_sameRequest _
  obtain ⟨hids, hpar⟩ := h.static hsize hreq
  have hstate : ∀ i, (s'.task i).state = (s.task i).state := fun i => reprioritize_state _
  have hout : ∀ i, (s'.task i).output = (s.task i).output ∧
      (s'.task i).origin = (s.task i).origin := by
    intro i
    rw [reprioritize_task]
    split
    · next hix => subst hix; exact ⟨rfl, rfl⟩
    · exact ⟨rfl, rfl⟩
  have hlog : s'.log = if (s.task x).state = .ready then s.log ++ [(x, priority)] else s.log :=
    reprioritize_log _
  constructor
  case ids => exact hids
  case parent_lt => exact hpar
  case gate =>
    intro i hi hst p hp
    rw [hstate] at hst ⊢
    rw [(hreq i).parents] at hp
    exact h.gate (hsize ▸ hi) hst p hp
  case held =>
    intro i hi hst
    rw [hstate] at hst
    rw [(hreq i).parents]
    obtain ⟨p, hp, hpf⟩ := h.held (hsize ▸ hi) hst
    exact ⟨p, hp, by rw [hstate]; exact hpf⟩
  case spared =>
    intro i hi hst p hp
    rw [hstate] at hst ⊢
    rw [(hreq i).parents] at hp
    exact h.spared (hsize ▸ hi) hst p hp
  case defined =>
    intro i hi
    rw [hstate]
    exact h.defined (hsize ▸ hi)
  case blank =>
    intro i hi hlive
    rw [hstate] at hlive
    rw [(hout i).1]
    exact h.blank (hsize ▸ hi) hlive
  case origin_le =>
    intro i hi
    rw [(hout i).2]
    exact h.origin_le (hsize ▸ hi)
  case log_lt =>
    intro e he
    rw [hsize]
    rw [hlog] at he
    split at he
    · rcases List.mem_append.1 he with he | he
      · exact h.log_lt e he
      · rw [List.mem_singleton.1 he]; exact hx
    · exact h.log_lt e he
  case unlogged =>
    intro i hi hst
    rw [hstate] at hst
    have hun := h.unlogged (hsize ▸ hi) hst
    rw [hlog]
    split
    · next hr =>
        have hix : i ≠ x := by rintro rfl; rw [hst] at hr; cases hr
        simpa [hix] using hun
    · exact hun
  case logged =>
    intro i hi hst
    rw [hstate] at hst
    have hla := h.logged (hsize ▸ hi) hst
    rw [hlog]
    by_cases hix : i = x
    · subst hix
      rw [if_pos hst, reprioritize_task, if_pos rfl]
      exact LastAt.append_new (l := [i]) (f := fun _ => priority) (List.mem_singleton_self i)
    · rw [reprioritize_task, if_neg hix]
      split
      · exact hla.append_other (l := [x]) (f := fun _ => priority) (by simpa using hix)
      · exact hla

section newborn
variable {request : TaskAddRequest α} {parents : List Nat}

/-- A task that is added past the gate has only finished parents. -/
theorem newTask_gate (hst : (s.newTask request parents).state = .ready ∨
    (s.newTask request parents).state = .running ∨
    (s.newTask request parents).state = .finished) :
    ∀ p ∈ parents, (s.task p).state = .finished := by
  rcases birth_cases s parents with ⟨q, -, -, hb⟩ | ⟨-, q, -, -, hb⟩ | ⟨-, hall, -⟩ | ⟨-, -, hb⟩
  · simp [newTask, hb] at hst
  · simp [newTask, hb] at hst
  · exact hall
  · simp [newTask, hb] at hst

/-- A task that is added waiting has a parent to wait for and none that ended badly. -/
theorem newTask_waiting (hst : (s.newTask request parents).state = .waiting) :
    (∃ p ∈ parents, (s.task p).state ≠ .finished) ∧ ∀ p ∈ parents, ¬ (s.task p).state.IsBad := by
  rcases birth_cases s parents with ⟨q, -, -, hb⟩ | ⟨-, q, -, -, hb⟩ | ⟨-, -, hb⟩ | ⟨hnb, hex, -⟩
  · simp [newTask, hb] at hst
  · simp [newTask, hb] at hst
  · simp [newTask, hb] at hst
  · exact ⟨hex, hnb⟩

/-- A task is never born in the state of the default value. -/
theorem newTask_defined : (s.newTask request parents).state ≠ .undefined := by
  rcases birth_cases s parents with ⟨q, -, -, hb⟩ | ⟨-, q, -, -, hb⟩ | ⟨-, -, hb⟩ | ⟨-, -, hb⟩ <;>
    simp [newTask, hb]

/-- A task that is born live has no output. -/
theorem newTask_blank (hl : (s.newTask request parents).state.isLive = true) :
    (s.newTask request parents).output = "" := by
  have hnb : ¬ (s.birth parents).1.IsBad := fun hb => hb.not_live hl
  exact if_neg hnb

/-- The origin of a new task is an old task or itself. -/
theorem WF.newTask_origin_le (h : s.WF) (hp : ∀ p ∈ parents, p < s.size) :
    (s.newTask request parents).origin ≤ s.size := by
  have hparent : ∀ q ∈ parents, (s.task q).origin ≤ s.size := fun q hq =>
    Nat.le_trans (h.origin_le (hp q hq)) (Nat.le_of_lt (hp q hq))
  rcases birth_cases s parents with ⟨q, hq, -, hb⟩ | ⟨-, q, hq, -, hb⟩ | ⟨-, -, hb⟩ | ⟨-, -, hb⟩
  · simpa only [newTask, hb] using hparent q hq
  · simpa only [newTask, hb] using hparent q hq
  · simp [newTask, hb]
  · simp [newTask, hb]

/-- A task that is not there yet was never logged. -/
theorem WF.not_logged (h : s.WF) : s.size ∉ s.log.map Prod.fst := by
  intro hmem
  obtain ⟨e, he, heq⟩ := List.mem_map.1 hmem
  exact absurd (h.log_lt e he) (by rw [heq]; exact Nat.lt_irrefl _)

/-- An add keeps the graph well formed. -/
theorem WF.add (h : s.WF) (hnew : s.find? request.taskId = none)
    (hp : ∀ p ∈ parents, p < s.size) : (s.add request parents).WF := by
  let s' := s.add request parents
  have hold : ∀ {i}, i < s.size → s'.task i = s.task i := fun hi => add_task_old _ _ hi
  have hnewTask : s'.task s.size = s.newTask request parents := add_task_new _ _
  -- the parents of an old task are old
  have hpold : ∀ {i}, i < s.size → ∀ p ∈ (s.task i).parents, s'.task p = s.task p :=
    fun {i} hi p hp => hold (h.parent_size ⟨hi, hp⟩)
  have hpnew : ∀ p ∈ parents, s'.task p = s.task p := fun p hmem => hold (hp p hmem)
  have hlog : s'.log = if (s.birth parents).1 = .ready
      then s.log ++ [(s.size, request.priority)] else s.log := add_log _ _
  constructor
  case ids =>
    intro i j hi hj hij
    have hfresh := find?_none.1 hnew
    rcases add_lt hi with hi | rfl <;> rcases add_lt hj with hj | rfl
    · rw [hold hi, hold hj] at hij; exact h.ids hi hj hij
    · rw [hold hi, hnewTask] at hij; exact absurd hij (hfresh i hi)
    · rw [hold hj, hnewTask] at hij; exact absurd hij.symm (hfresh j hj)
    · rfl
  case parent_lt =>
    intro p c ⟨hc, hpc⟩
    rcases add_lt hc with hc | rfl
    · rw [hold hc] at hpc; exact h.parent_lt ⟨hc, hpc⟩
    · rw [hnewTask] at hpc; exact hp p hpc
  case gate =>
    intro i hi hst p hpi
    rcases add_lt hi with hi | rfl
    · rw [hold hi] at hst hpi
      rw [hpold hi p hpi]
      exact h.gate hi hst p hpi
    · rw [hnewTask] at hst hpi
      rw [hpnew p hpi]
      exact newTask_gate hst p hpi
  case held =>
    intro i hi hst
    rcases add_lt hi with hi | rfl
    · rw [hold hi] at hst ⊢
      obtain ⟨p, hpi, hpf⟩ := h.held hi hst
      exact ⟨p, hpi, by rw [hpold hi p hpi]; exact hpf⟩
    · rw [hnewTask] at hst ⊢
      obtain ⟨p, hpm, hpf⟩ := (newTask_waiting hst).1
      exact ⟨p, hpm, by rw [hpnew p hpm]; exact hpf⟩
  case spared =>
    intro i hi hst p hpi
    rcases add_lt hi with hi | rfl
    · rw [hold hi] at hst hpi
      rw [hpold hi p hpi]
      exact h.spared hi hst p hpi
    · rw [hnewTask] at hst hpi
      rw [hpnew p hpi]
      exact (newTask_waiting hst).2 p hpi
  case defined =>
    intro i hi
    rcases add_lt hi with hi | rfl
    · rw [hold hi]; exact h.defined hi
    · rw [hnewTask]; exact newTask_defined
  case blank =>
    intro i hi hlive
    rcases add_lt hi with hi | rfl
    · rw [hold hi] at hlive ⊢; exact h.blank hi hlive
    · rw [hnewTask] at hlive ⊢; exact newTask_blank hlive
  case origin_le =>
    intro i hi
    rcases add_lt hi with hi | rfl
    · rw [hold hi]; exact h.origin_le hi
    · rw [hnewTask]; exact h.newTask_origin_le hp
  case log_lt =>
    intro e he
    rw [hlog] at he
    rw [add_size]
    split at he
    · rcases List.mem_append.1 he with he | he
      · exact Nat.lt_succ_of_lt (h.log_lt e he)
      · rw [List.mem_singleton.1 he]; exact Nat.lt_succ_self _
    · exact Nat.lt_succ_of_lt (h.log_lt e he)
  case unlogged =>
    intro i hi hst
    rw [hlog]
    rcases add_lt hi with hi | rfl
    · rw [hold hi] at hst
      have hun := h.unlogged hi hst
      split
      · simpa [Nat.ne_of_lt hi] using hun
      · exact hun
    · rw [hnewTask] at hst
      have hnr : (s.birth parents).1 ≠ .ready := by
        change (s.birth parents).1 = .waiting at hst
        rw [hst]; decide
      rw [if_neg hnr]
      exact h.not_logged
  case logged =>
    intro i hi hst
    rw [hlog]
    rcases add_lt hi with hi | rfl
    · rw [hold hi] at hst ⊢
      have hla := h.logged hi hst
      split
      · exact hla.append_other (l := [s.size]) (f := fun _ => request.priority)
          (by simpa using Nat.ne_of_lt hi)
      · exact hla
    · rw [hnewTask] at hst ⊢
      have hr : (s.birth parents).1 = .ready := hst
      rw [if_pos hr]
      exact LastAt.append_new (l := [s.size]) (f := fun _ => request.priority)
        (List.mem_singleton_self _)

end newborn

/-- **Every change keeps the invariant.** -/
theorem Change.wf {op : TaskOp α} {r : TaskReply α} (hc : s.Change op r s') (h : s.WF) :
    s'.WF := by
  cases hc with
  | same _ => exact h
  | add hnew hp => exact h.add hnew (resolve_lt hp)
  | cancel hi hl => exact h.endBadly (.inr rfl) hl
  | setPriority hi => exact h.reprioritize (find?_some hi).1
  | claim _ hi => exact h.claim hi.2.1
  | fail hi hr _ _ => exact h.endBadly (.inl rfl) (by rw [hr]; rfl)
  | finish hi hr _ _ => exact h.finish (find?_some hi).1 hr

end TaskGraph

end DsService

import DsService.Task.Determined
import DsService.Task.Schedule

/-!
# A part of the task graph

A `TaskScope` is a set of task ids with a set of queues. When every call stays within a scope or
outside of it, the tasks of the scope depend on one another only, so they are a task graph by
themselves (`Part`), in which the calls of the scope are answered as in the whole
(`Part.serve_within`) and which the other calls leave as it is (`Part.serve_others`).
-/

namespace DsService

variable {α : Type}

/-- A set of task ids and a set of queues. -/
structure TaskScope where
  task : String → Bool
  queue : String → Bool

/-- The ids and queues that are not in the scope. -/
def TaskScope.others (c : TaskScope) : TaskScope := ⟨fun t => !c.task t, fun q => !c.queue q⟩

/-- The call names tasks and queues of the scope only. A search and the counts are about all
tasks. -/
def TaskOp.Within (c : TaskScope) : TaskOp α → Prop
  | .add request => c.task request.taskId = true ∧
      (∀ p ∈ request.parentTaskIds, c.task p = true) ∧ ∀ q ∈ request.queue, c.queue q = true
  | .getStatus request => ∀ t ∈ request.taskId, c.task t = true
  | .getOutput request => c.task request.taskId = true
  | .getCountByState => False
  | .cancel request => c.task request.taskId = true
  | .getPriority request => c.task request.taskId = true
  | .setPriority request => c.task request.taskId = true
  | .getWorkerId request => c.task request.taskId = true
  | .searchId _ => False
  | .get request => ∀ q ∈ request.queue, c.queue q = true
  | .done request => c.task request.taskId = true

instance (c : TaskScope) : ∀ op : TaskOp α, Decidable (op.Within c)
  | .add request => inferInstanceAs (Decidable (c.task request.taskId = true ∧
      (∀ p ∈ request.parentTaskIds, c.task p = true) ∧ ∀ q ∈ request.queue, c.queue q = true))
  | .getStatus request => inferInstanceAs (Decidable (∀ t ∈ request.taskId, c.task t = true))
  | .getOutput request => inferInstanceAs (Decidable (c.task request.taskId = true))
  | .getCountByState => isFalse id
  | .cancel request => inferInstanceAs (Decidable (c.task request.taskId = true))
  | .getPriority request => inferInstanceAs (Decidable (c.task request.taskId = true))
  | .setPriority request => inferInstanceAs (Decidable (c.task request.taskId = true))
  | .getWorkerId request => inferInstanceAs (Decidable (c.task request.taskId = true))
  | .searchId _ => isFalse id
  | .get request => inferInstanceAs (Decidable (∀ q ∈ request.queue, c.queue q = true))
  | .done request => inferInstanceAs (Decidable (c.task request.taskId = true))

/-- The task as a task of a graph in which task `i` is task `ι i`. -/
def Task.moved (ι : Nat → Nat) (t : Task α) : Task α :=
  { t with parents := t.parents.map ι, origin := ι t.origin }

namespace Task

variable {ι ι' : Nat → Nat} {t t' : Task α}

/-- A renumbered task keeps its id. -/
@[simp] theorem moved_taskId : (t.moved ι).taskId = t.taskId := rfl

/-- A renumbered task keeps its function. -/
@[simp] theorem moved_function : (t.moved ι).function = t.function := rfl

/-- A renumbered task keeps its input. -/
@[simp] theorem moved_input : (t.moved ι).input = t.input := rfl

/-- A renumbered task keeps its queues. -/
@[simp] theorem moved_queues : (t.moved ι).queues = t.queues := rfl

/-- The parents of a renumbered task are renumbered. -/
@[simp] theorem moved_parents : (t.moved ι).parents = t.parents.map ι := rfl

/-- A renumbered task keeps its priority. -/
@[simp] theorem moved_priority : (t.moved ι).priority = t.priority := rfl

/-- A renumbered task keeps its state. -/
@[simp] theorem moved_state : (t.moved ι).state = t.state := rfl

/-- A renumbered task keeps its worker. -/
@[simp] theorem moved_workerId : (t.moved ι).workerId = t.workerId := rfl

/-- A renumbered task keeps its output. -/
@[simp] theorem moved_output : (t.moved ι).output = t.output := rfl

/-- The origin of a renumbered task is renumbered. -/
@[simp] theorem moved_origin : (t.moved ι).origin = ι t.origin := rfl

/-- Only the numbers of the parents and of the origin matter. -/
theorem moved_congr (hp : ∀ p ∈ t.parents, ι' p = ι p) (ho : ι' t.origin = ι t.origin) :
    t.moved ι' = t.moved ι := by
  unfold moved
  rw [List.map_congr_left hp, ho]

/-- Renumbering keeps equal requests equal. -/
theorem SameRequest.moved (h : t.SameRequest t') : (t.moved ι).SameRequest (t'.moved ι) :=
  ⟨h.taskId, h.function, h.input, h.queues, congrArg (List.map ι) h.parents⟩

end Task

namespace TaskGraph

/-- `t` is the part of `s` in the scope: task `i` of the part is task `ι i` of the whole. -/
structure Part (c : TaskScope) (ι : Nat → Nat) (s t : TaskGraph α) : Prop where
  /-- Tasks were added to the part in the order in which they were added to the whole. -/
  mono : ∀ {i j}, j < t.size → i < j → ι i < ι j
  lt : ∀ {i}, i < t.size → ι i < s.size
  /-- The part has every task of the scope. -/
  onto : ∀ {j}, j < s.size → c.task (s.task j).taskId = true → ∃ i, i < t.size ∧ ι i = j
  task : ∀ {i}, i < t.size → s.task (ι i) = (t.task i).moved ι
  /-- A task of the part and its queues are in the scope. -/
  within : ∀ {i}, i < t.size →
    c.task (t.task i).taskId = true ∧ ∀ q ∈ (t.task i).queues, c.queue q = true
  /-- Another task, its queues and its parents are not in the scope. -/
  others : ∀ {j}, j < s.size → c.task (s.task j).taskId = false →
    (∀ q ∈ (s.task j).queues, c.queue q = false) ∧
      ∀ p ∈ (s.task j).parents, c.task (s.task p).taskId = false
  /-- The part has no dangling index. -/
  closed : ∀ {i}, i < t.size →
    (∀ p ∈ (t.task i).parents, p < t.size) ∧ (t.task i).origin < t.size
  log_lt : ∀ e ∈ t.log, e.1 < t.size
  /-- The part has the queue entries of its tasks. -/
  log : s.log.filter (fun e => c.task (s.task e.1).taskId) = t.log.map fun e => (ι e.1, e.2)

namespace Part

variable {c : TaskScope} {ι ι' : Nat → Nat} {s s' t t' : TaskGraph α} {i j x : Nat}

/-- The empty graph is a part of itself. -/
theorem empty (c : TaskScope) (ι : Nat → Nat) : Part c ι (empty : TaskGraph α) empty where
  mono hj := absurd hj (Nat.not_lt_zero _)
  lt hi := absurd hi (Nat.not_lt_zero _)
  onto hj := absurd hj (Nat.not_lt_zero _)
  task hi := absurd hi (Nat.not_lt_zero _)
  within hi := absurd hi (Nat.not_lt_zero _)
  others hj := absurd hj (Nat.not_lt_zero _)
  closed hi := absurd hi (Nat.not_lt_zero _)
  log_lt e he := by cases he
  log := rfl

section
variable (h : Part c ι s t)
include h

/-- The numbers of the part are told apart in the whole. -/
theorem inj (hi : i < t.size) (hj : j < t.size) (heq : ι i = ι j) : i = j := by
  rcases Nat.lt_trichotomy i j with hlt | rfl | hlt
  · exact absurd heq (h.mono hj hlt).ne
  · rfl
  · exact absurd heq.symm (h.mono hi hlt).ne

/-- What the whole says of a task of the part. -/
theorem taskId (hi : i < t.size) : (s.task (ι i)).taskId = (t.task i).taskId := by
  rw [h.task hi, Task.moved_taskId]

/-- The part has the states of the whole. -/
theorem state (hi : i < t.size) : (s.task (ι i)).state = (t.task i).state := by
  rw [h.task hi, Task.moved_state]

/-- The tasks of the part are in scope. -/
theorem in_scope (hi : i < t.size) : c.task (s.task (ι i)).taskId = true := by
  rw [h.taskId hi]
  exact (h.within hi).1

/-! ## Ancestors -/

/-- A child of a task of the part is in the part. -/
theorem of_parent (hx : x < t.size) (hp : s.Parent (ι x) j) :
    ∃ i, i < t.size ∧ ι i = j ∧ t.Parent x i := by
  cases hj : c.task (s.task j).taskId with
  | false =>
      have hx' := (h.others hp.1 hj).2 _ hp.2
      rw [h.in_scope hx] at hx'
      cases hx'
  | true =>
      obtain ⟨i, hi, rfl⟩ := h.onto hp.1 hj
      have hmem := hp.2
      rw [h.task hi, Task.moved_parents] at hmem
      obtain ⟨p, hp, heq⟩ := List.mem_map.1 hmem
      cases h.inj ((h.closed hi).1 p hp) hx heq
      exact ⟨i, hi, rfl, hi, hp⟩

/-- The parents of a task of the part are in the part. -/
theorem parent_of (hi : i < t.size) (hp : s.Parent j (ι i)) : ∃ p, ι p = j ∧ t.Parent p i := by
  have hmem := hp.2
  rw [h.task hi, Task.moved_parents] at hmem
  obtain ⟨p, hparent, rfl⟩ := List.mem_map.1 hmem
  exact ⟨p, rfl, hi, hparent⟩

/-- The descendants of a task of the part are its descendants in the part. -/
theorem of_ancestor (hx : x < t.size) (ha : s.Ancestor (ι x) j) :
    ∃ i, i < t.size ∧ ι i = j ∧ t.Ancestor x i := by
  induction ha with
  | single hp =>
      obtain ⟨i, hi, heq, hpi⟩ := h.of_parent hx hp
      exact ⟨i, hi, heq, .single hpi⟩
  | tail _ hp ih =>
      obtain ⟨i, hi, rfl, ha⟩ := ih
      obtain ⟨k, hk, heq, hpk⟩ := h.of_parent hi hp
      exact ⟨k, hk, heq, .tail ha hpk⟩

/-- An ancestor in the part is one in the whole. -/
theorem ancestor (ha : t.Ancestor x i) : s.Ancestor (ι x) (ι i) := by
  have hparent : ∀ {p k}, t.Parent p k → s.Parent (ι p) (ι k) := fun hp =>
    ⟨h.lt hp.1, by rw [h.task hp.1, Task.moved_parents]; exact List.mem_map_of_mem hp.2⟩
  induction ha with
  | single hp => exact .single (hparent hp)
  | tail _ hp ih => exact .tail ih (hparent hp)

/-- An ancestor of a task of the part is in the part. -/
theorem ancestor_in_scope (hi : i < t.size) (ha : s.Ancestor x (ι i)) :
    ∃ k, k < t.size ∧ ι k = x := by
  have hstep : ∀ {k}, s.Ancestor x k → ∀ i, i < t.size → ι i = k →
      ∃ k, k < t.size ∧ ι k = x := by
    intro k ha
    induction ha with
    | single hp =>
        rintro i hi rfl
        obtain ⟨p, rfl, hparent⟩ := h.parent_of hi hp
        exact ⟨p, (h.closed hi).1 p hparent.2, rfl⟩
    | tail _ hp ih =>
        rintro i hi rfl
        obtain ⟨p, rfl, hparent⟩ := h.parent_of hi hp
        exact ih p ((h.closed hi).1 p hparent.2) rfl
  exact hstep ha i hi rfl

/-- What falls in the part is what falls in the whole. -/
theorem falls (hx : x < t.size) (hi : i < t.size) : s.Falls (ι x) (ι i) ↔ t.Falls x i := by
  unfold Falls
  rw [h.state hi]
  constructor
  · rintro ⟨-, hl, ha⟩
    obtain ⟨k, hk, heq, ha⟩ := h.of_ancestor hx ha
    cases h.inj hk hi heq
    exact ⟨hi, hl, ha⟩
  · rintro ⟨-, hl, ha⟩
    exact ⟨h.lt hi, hl, h.ancestor ha⟩

/-! ## Lookups -/

/-- An id of the scope is found in the part as in the whole. -/
theorem find?_eq (hs : s.WF) {id : String} (hid : c.task id = true) :
    s.find? id = (t.find? id).map ι := by
  cases hf : t.find? id with
  | some i =>
      obtain ⟨hi, hti⟩ := find?_some hf
      exact hs.find?_eq.2 ⟨h.lt hi, by rw [h.taskId hi, hti]⟩
  | none =>
      refine find?_none.2 fun j hj heq => ?_
      obtain ⟨i, hi, rfl⟩ := h.onto hj (by rw [heq, hid])
      exact find?_none.1 hf i hi (by rw [← h.taskId hi, heq])

/-- Ids in scope are resolved alike. -/
theorem resolve_eq (hs : s.WF) : ∀ {ids : List String},
    (∀ p ∈ ids, c.task p = true) → s.resolve ids = (t.resolve ids).map (List.map ι)
  | [], _ => rfl
  | p :: ids, hids => by
      have hp := h.find?_eq hs (hids p (.head _))
      have hrest := resolve_eq hs fun q hq => hids q (.tail _ hq)
      simp only [resolve, hp, hrest]
      cases t.find? p with
      | none => rfl
      | some i =>
          cases t.resolve ids with
          | error e => rfl
          | ok is => rfl

/-- The status of an id in scope is the same. -/
theorem status_eq (hs : s.WF) {id : String} (hid : c.task id = true) :
    s.status id = t.status id := by
  unfold status
  rw [h.find?_eq hs hid]
  cases hf : t.find? id with
  | none => rfl
  | some i => exact h.state (find?_some hf).1

/-- A queue of the scope offers the tasks of the part. -/
theorem offers_iff {q : String} (hq : c.queue q = true) :
    s.Offers q j ↔ ∃ i, ι i = j ∧ t.Offers q i := by
  constructor
  · rintro ⟨hj, hr, hmem⟩
    cases hscope : c.task (s.task j).taskId with
    | false =>
        have := (h.others hj hscope).1 q hmem
        rw [hq] at this
        cases this
    | true =>
        obtain ⟨i, hi, rfl⟩ := h.onto hj hscope
        rw [h.task hi] at hr hmem
        exact ⟨i, rfl, hi, hr, hmem⟩
  · rintro ⟨i, rfl, hi, hr, hmem⟩
    refine ⟨h.lt hi, ?_, ?_⟩
    · rw [h.task hi]; exact hr
    · rw [h.task hi]; exact hmem

end

/-! ## Changes of both sides -/

/-- Two changes that keep the requests and make the same of the tasks of the part. -/
theorem both (h : Part c ι s t) (hsize : s'.size = s.size) (htsize : t'.size = t.size)
    (hs : ∀ i, (s.task i).SameRequest (s'.task i)) (ht : ∀ i, (t.task i).SameRequest (t'.task i))
    (htask : ∀ i, i < t.size → s'.task (ι i) = (t'.task i).moved ι)
    (horigin : ∀ i, i < t.size → (t'.task i).origin < t.size)
    (hlt : ∀ e ∈ t'.log, e.1 < t.size)
    (hlog : s'.log.filter (fun e => c.task (s.task e.1).taskId) =
      t'.log.map fun e => (ι e.1, e.2)) : Part c ι s' t' where
  mono hj hij := h.mono (htsize ▸ hj) hij
  lt hi := hsize ▸ h.lt (htsize ▸ hi)
  onto {j} hj hid := by
    rw [(hs j).taskId] at hid
    obtain ⟨i, hi, heq⟩ := h.onto (hsize ▸ hj) hid
    exact ⟨i, htsize ▸ hi, heq⟩
  task hi := htask _ (htsize ▸ hi)
  within {i} hi := by
    rw [(ht i).taskId, (ht i).queues]
    exact h.within (htsize ▸ hi)
  others {j} hj hid := by
    rw [(hs j).taskId] at hid
    rw [(hs j).queues, (hs j).parents]
    simp only [(hs _).taskId]
    exact h.others (hsize ▸ hj) hid
  closed {i} hi := by
    rw [(ht i).parents, htsize]
    exact ⟨(h.closed (htsize ▸ hi)).1, horigin i (htsize ▸ hi)⟩
  log_lt := by
    rw [htsize]
    exact hlt
  log := by
    simp only [(hs _).taskId]
    exact hlog

/-- A change that leaves the tasks of the part. -/
theorem frame (h : Part c ι s t) (hsize : s'.size = s.size)
    (hs : ∀ i, (s.task i).SameRequest (s'.task i))
    (htask : ∀ i, i < t.size → s'.task (ι i) = s.task (ι i))
    (hlog : s'.log.filter (fun e => c.task (s.task e.1).taskId) =
      s.log.filter fun e => c.task (s.task e.1).taskId) : Part c ι s' t :=
  h.both hsize rfl hs (fun _ => .refl _) (fun i hi => (htask i hi).trans (h.task hi))
    (fun _ hi => (h.closed hi).2) h.log_lt (hlog.trans h.log)

/-- One task changes, on both sides. -/
theorem update (h : Part c ι s t) (hx : x < t.size) {T : Task α}
    (hreq : (t.task x).SameRequest T) (horigin : T.origin < t.size) :
    Part c ι (s.update (ι x) (T.moved ι)) (t.update x T) := by
  refine h.both rfl rfl (fun i => ?_) (fun i => ?_) (fun i hi => ?_) (fun i hi => ?_) h.log_lt h.log
  · rw [update_task]
    split
    · next hix =>
        rw [hix, h.task hx]
        exact hreq.moved
    · exact .refl _
  · rw [update_task]
    split
    · next hix => rw [hix]; exact hreq
    · exact .refl _
  · rw [update_task, update_task]
    by_cases hix : i = x
    · rw [hix, if_pos rfl, if_pos rfl]
    · rw [if_neg hix, if_neg fun heq => hix (h.inj hi hx heq), h.task hi]
  · rw [update_task]
    split
    · exact horigin
    · exact (h.closed hi).2

/-- A task enters its queues, on both sides. -/
theorem enter (h : Part c ι s t) (hx : x < t.size) : Part c ι (s.enter (ι x)) (t.enter x) := by
  refine h.both rfl rfl (fun _ => .refl _) (fun _ => .refl _) (fun i hi => h.task hi)
    (fun i hi => (h.closed hi).2) (fun e he => ?_) ?_
  · rcases List.mem_append.1 he with he | he
    · exact h.log_lt e he
    · cases List.mem_singleton.1 he
      exact hx
  · rw [enter_log, enter_log, List.filter_append, h.log, List.map_append]
    simp [h.task hx, (h.within hx).1]

/-- Tasks are released, on both sides. -/
theorem release (h : Part c ι s t) {cs : List Nat} (hcs : ∀ i ∈ cs, i < t.size) :
    Part c ι (s.release (cs.map ι)) (t.release cs) := by
  have hmem : ∀ {i}, i < t.size → (ι i ∈ cs.map ι ↔ i ∈ cs) := fun hi =>
    ⟨fun hm => by
      obtain ⟨k, hk, heq⟩ := List.mem_map.1 hm
      exact h.inj (hcs k hk) hi heq ▸ hk, List.mem_map_of_mem⟩
  refine h.both rfl rfl (fun i => ?_) (fun i => ?_) (fun i hi => ?_) (fun i hi => ?_)
    (fun e he => ?_) ?_
  · rw [release_task]
    split
    · exact ⟨rfl, rfl, rfl, rfl, rfl⟩
    · exact .refl _
  · rw [release_task]
    split
    · exact ⟨rfl, rfl, rfl, rfl, rfl⟩
    · exact .refl _
  · rw [release_task, release_task]
    by_cases hi' : i ∈ cs
    · rw [if_pos hi', if_pos ((hmem hi).2 hi'), h.task hi]
      rfl
    · rw [if_neg hi', if_neg fun hm => hi' ((hmem hi).1 hm), h.task hi]
  · rw [release_task]
    split <;> exact (h.closed hi).2
  · rcases List.mem_append.1 he with he | he
    · exact h.log_lt e he
    · obtain ⟨i, hi, rfl⟩ := List.mem_map.1 he
      exact hcs i hi
  · simp only [TaskGraph.release]
    rw [List.filter_append, h.log, List.map_append, List.map_map, List.map_map,
      List.filter_eq_self.2]
    · congr 1
      exact List.map_congr_left fun i hi => by simp [h.task (hcs i hi)]
    · intro e he
      obtain ⟨i, hi, rfl⟩ := List.mem_map.1 he
      exact h.in_scope (hcs i hi)

/-- An ending that spreads, on both sides. -/
theorem endBadly (h : Part c ι s t) (hx : x < t.size) (state : TaskState)
    (workerId output : String) :
    Part c ι (s.endBadly (ι x) state workerId output) (t.endBadly x state workerId output) := by
  have hout : s.terminalOutput state (ι x) = t.terminalOutput state x := by
    unfold terminalOutput
    rw [h.taskId hx]
  refine h.both rfl rfl (fun _ => endBadly_sameRequest _ _ _) (fun _ => endBadly_sameRequest _ _ _)
    (fun i hi => ?_) (fun i hi => ?_) h.log_lt h.log
  · by_cases hix : i = x
    · rw [hix, endBadly_self, endBadly_self, h.task hx]
      rfl
    · have hne : ι i ≠ ι x := fun heq => hix (h.inj hi hx heq)
      by_cases hf : t.Falls x i
      · rw [endBadly_falls _ _ _ hix hf, endBadly_falls _ _ _ hne ((h.falls hx hi).2 hf), h.task hi,
          hout]
        rfl
      · rw [endBadly_other _ _ _ hix hf,
          endBadly_other _ _ _ hne fun hf' => hf ((h.falls hx hi).1 hf'), h.task hi]
  · obtain ⟨-, heq⟩ | ⟨-, heq⟩ | ⟨-, -, heq⟩ := t.endBadly_task_cases x state workerId output i
    · rw [heq]; exact hx
    · rw [heq]; exact hx
    · rw [heq]; exact (h.closed hi).2

/-- A report of success is made in both. -/
theorem settle (h : Part c ι s t) (hx : x < t.size) (output : String) :
    Part c ι (s.settle (ι x) output) (t.settle x output) := by
  have hsettle := h.update hx (T := { t.task x with state := .finished, output := output })
    ⟨rfl, rfl, rfl, rfl, rfl⟩ (h.closed hx).2
  unfold TaskGraph.settle
  rw [h.task hx]
  exact hsettle

/-- Two increasing lists with the same elements are equal. -/
theorem eq_of_increasing {l l' : List Nat} (hl : l.Pairwise (· < ·)) (hl' : l'.Pairwise (· < ·))
    (hmem : ∀ a, a ∈ l ↔ a ∈ l') : l = l' :=
  List.Perm.eq_of_pairwise (fun _ _ _ _ h h' => absurd h (Nat.lt_asymm h')) hl hl'
    ((List.perm_ext_iff_of_nodup (hl.imp Nat.ne_of_lt) (hl'.imp Nat.ne_of_lt)).2 hmem)

/-- A finished task releases the same tasks on both sides, in the same order. -/
theorem releasedBy (h : Part c ι s t) (hx : x < t.size) :
    s.releasedBy (ι x) = (t.releasedBy x).map ι := by
  have hsorted : ∀ (g : TaskGraph α) (y : Nat), (g.releasedBy y).Pairwise (· < ·) := fun g y =>
    List.pairwise_lt_range.filter _
  have hmoved : ((t.releasedBy x).map ι).Pairwise (· < ·) :=
    List.pairwise_map.2 ((hsorted t x).imp_of_mem fun _ hb hlt =>
      h.mono (mem_releasedBy.1 hb).1 hlt)
  refine eq_of_increasing (hsorted s (ι x)) hmoved fun j => ?_
  rw [mem_releasedBy, List.mem_map]
  constructor
  · rintro ⟨hj, hw, hmem, hall⟩
    obtain ⟨i, hi, rfl, hp⟩ := h.of_parent hx ⟨hj, hmem⟩
    refine ⟨i, mem_releasedBy.2 ⟨hi, by rw [← h.state hi, hw], hp.2, fun p hp => ?_⟩, rfl⟩
    rw [← h.state ((h.closed hi).1 p hp)]
    refine hall _ ?_
    rw [h.task hi]
    exact List.mem_map_of_mem hp
  · rintro ⟨i, hi, rfl⟩
    obtain ⟨hi, hw, hmem, hall⟩ := mem_releasedBy.1 hi
    have hparents : (s.task (ι i)).parents = (t.task i).parents.map ι := by
      rw [h.task hi, Task.moved_parents]
    refine ⟨h.lt hi, by rw [h.state hi, hw], hparents ▸ List.mem_map_of_mem hmem, fun p hp => ?_⟩
    rw [hparents] at hp
    obtain ⟨q, hq, rfl⟩ := List.mem_map.1 hp
    rw [h.state ((h.closed hi).1 q hq), hall q hq]

/-- A task finishes in both, and releases the same tasks. -/
theorem finish (h : Part c ι s t) (hx : x < t.size) (output : String) :
    Part c ι (s.finish (ι x) output) (t.finish x output) := by
  have hsettle := h.settle hx output
  unfold TaskGraph.finish
  rw [hsettle.releasedBy hx]
  exact hsettle.release fun i hi => (mem_releasedBy.1 hi).1

/-- A claim is made in both. -/
theorem claim (h : Part c ι s t) (hx : x < t.size) (workerId : String) :
    Part c ι (s.claim (ι x) workerId) (t.claim x workerId) := by
  have hclaim := h.update hx (T := { t.task x with state := .running, workerId := workerId })
    ⟨rfl, rfl, rfl, rfl, rfl⟩ (h.closed hx).2
  unfold TaskGraph.claim
  rw [h.task hx]
  exact hclaim

/-- A new priority is set in both. -/
theorem reprioritize (h : Part c ι s t) (hx : x < t.size) (priority : Double α) :
    Part c ι (s.reprioritize (ι x) priority) (t.reprioritize x priority) := by
  have hupdate := h.update hx (T := { t.task x with priority := priority })
    ⟨rfl, rfl, rfl, rfl, rfl⟩ (h.closed hx).2
  unfold TaskGraph.reprioritize
  rw [h.state hx]
  dsimp only
  split
  · rw [h.task hx]
    exact hupdate.enter hx
  · rw [h.task hx]
    exact hupdate

/-! ## A new task -/

/-- The numbering matters for the tasks of the part only. -/
theorem congr (h : Part c ι s t) (hι : ∀ i, i < t.size → ι' i = ι i) : Part c ι' s t where
  mono {i j} hj hij := by
    rw [hι i (Nat.lt_trans hij hj), hι j hj]
    exact h.mono hj hij
  lt {i} hi := by
    rw [hι i hi]
    exact h.lt hi
  onto hj hid := by
    obtain ⟨i, hi, heq⟩ := h.onto hj hid
    exact ⟨i, hi, by rw [hι i hi, heq]⟩
  task {i} hi := by
    rw [hι i hi, h.task hi]
    exact (Task.moved_congr (fun p hp => hι p ((h.closed hi).1 p hp)) (hι _ (h.closed hi).2)).symm
  within := h.within
  others := h.others
  closed := h.closed
  log_lt := h.log_lt
  log := by
    rw [h.log]
    exact List.map_congr_left fun e he => by rw [hι e.1 (h.log_lt e he)]

/-- A task of the scope is added, on both sides. -/
theorem snoc (h : Part c ι s t) (hs : s.WF) (hnew : ι t.size = s.size) {T : Task α}
    (hid : c.task T.taskId = true) (hq : ∀ q ∈ T.queues, c.queue q = true)
    (hp : ∀ p ∈ T.parents, p < t.size) (ho : T.origin ≤ t.size) :
    Part c ι (s.snoc (T.moved ι)) (t.snoc T) where
  mono {i j} hj hij := by
    rcases Nat.lt_succ_iff_lt_or_eq.1 hj with hj | rfl
    · exact h.mono hj hij
    · rw [hnew]
      exact h.lt hij
  lt {i} hi := by
    rw [snoc_size]
    rcases Nat.lt_succ_iff_lt_or_eq.1 hi with hi | rfl
    · exact Nat.lt_succ_of_lt (h.lt hi)
    · rw [hnew]
      exact Nat.lt_succ_self _
  onto {j} hj hid := by
    rw [snoc_size] at hj
    rw [snoc_task] at hid
    by_cases hjs : j = s.size
    · exact ⟨t.size, Nat.lt_succ_self _, by rw [hnew, hjs]⟩
    · rw [if_neg hjs] at hid
      obtain ⟨i, hi, heq⟩ := h.onto (by omega) hid
      exact ⟨i, Nat.lt_succ_of_lt hi, heq⟩
  task {i} hi := by
    rw [snoc_task, snoc_task]
    rcases Nat.lt_succ_iff_lt_or_eq.1 hi with hi | rfl
    · rw [if_neg (h.lt hi).ne, if_neg hi.ne, h.task hi]
    · rw [if_pos hnew, if_pos rfl]
  within {i} hi := by
    rw [snoc_task]
    rcases Nat.lt_succ_iff_lt_or_eq.1 hi with hi | rfl
    · rw [if_neg hi.ne]
      exact h.within hi
    · rw [if_pos rfl]
      exact ⟨hid, hq⟩
  others {j} hj hj' := by
    rw [snoc_size] at hj
    have hjs : j ≠ s.size := by
      rintro rfl
      rw [snoc_task, if_pos rfl, Task.moved_taskId, hid] at hj'
      cases hj'
    rw [snoc_task, if_neg hjs] at hj'
    rw [snoc_task, if_neg hjs]
    have hjlt : j < s.size := by omega
    obtain ⟨hqueues, hparents⟩ := h.others hjlt hj'
    refine ⟨hqueues, fun p hp => ?_⟩
    rw [snoc_task, if_neg (hs.parent_size ⟨hjlt, hp⟩).ne]
    exact hparents p hp
  closed {i} hi := by
    rw [snoc_size, snoc_task]
    rcases Nat.lt_succ_iff_lt_or_eq.1 hi with hi | rfl
    · rw [if_neg hi.ne]
      obtain ⟨hparents, horigin⟩ := h.closed hi
      exact ⟨fun p hp => Nat.lt_succ_of_lt (hparents p hp), Nat.lt_succ_of_lt horigin⟩
    · rw [if_pos rfl]
      exact ⟨fun p hp' => Nat.lt_succ_of_lt (hp p hp'), Nat.lt_succ_of_le ho⟩
  log_lt e he := Nat.lt_succ_of_lt (h.log_lt e he)
  log := by
    rw [snoc_log, snoc_log, ← h.log]
    refine List.filter_congr fun e he => ?_
    rw [snoc_task, if_neg (hs.log_lt e he).ne]

/-- A task is born on both sides in the same state. -/
theorem birth (h : Part c ι s t) (hnew : ι t.size = s.size) {parents : List Nat}
    (hp : ∀ p ∈ parents, p < t.size) :
    s.birth (parents.map ι) = ((t.birth parents).1, ι (t.birth parents).2) := by
  have hfind : ∀ state : TaskState, ((parents.map ι).find? fun p => (s.task p).state = state) =
      (parents.find? fun p => (t.task p).state = state).map ι := by
    intro state
    rw [List.find?_map]
    congr 1
    rw [← List.head?_filter, ← List.head?_filter]
    congr 1
    exact List.filter_congr fun p hpp => by simp [h.state (hp p hpp)]
  have horigin : ∀ {p f}, parents.find? f = some p → (s.task (ι p)).origin = ι (t.task p).origin :=
    fun hf => by rw [h.task (hp _ (List.mem_of_find?_eq_some hf)), Task.moved_origin]
  have hall : (∀ p ∈ parents.map ι, (s.task p).state = .finished) ↔
      ∀ p ∈ parents, (t.task p).state = .finished := by
    rw [List.forall_mem_map]
    exact forall₂_congr fun p hpp => by rw [h.state (hp p hpp)]
  unfold TaskGraph.birth
  rw [hfind, hfind]
  cases hf : parents.find? fun p => (t.task p).state = .failed with
  | some p =>
      simp only [Option.map_some]
      rw [horigin hf]
  | none =>
      simp only [Option.map_none]
      cases hc : parents.find? fun p => (t.task p).state = .canceled with
      | some p =>
          simp only [Option.map_some]
          rw [horigin hc]
      | none =>
          simp only [Option.map_none, hall]
          split
          · rw [hnew]
          · rw [hnew]

/-- A task that is added is born alike in both. -/
theorem newTask (h : Part c ι s t) (hnew : ι t.size = s.size) {parents : List Nat}
    (hp : ∀ p ∈ parents, p < t.size) (request : TaskAddRequest α) :
    s.newTask request (parents.map ι) = (t.newTask request parents).moved ι := by
  have hbirth := h.birth hnew hp
  have hout : (t.birth parents).1 = .failed ∨ (t.birth parents).1 = .canceled →
      s.terminalOutput (t.birth parents).1 (ι (t.birth parents).2) =
        t.terminalOutput (t.birth parents).1 (t.birth parents).2 := by
    intro hbad
    have hlt : (t.birth parents).2 < t.size := by
      rcases t.birth_cases parents with ⟨p, hpp, -, hb⟩ | ⟨-, p, hpp, -, hb⟩ | ⟨-, -, hb⟩ |
        ⟨-, -, hb⟩
      · rw [hb]; exact (h.closed (hp p hpp)).2
      · rw [hb]; exact (h.closed (hp p hpp)).2
      · simp [hb] at hbad
      · simp [hb] at hbad
    unfold terminalOutput
    rw [h.taskId hlt]
  unfold TaskGraph.newTask Task.moved
  rw [hbirth]
  dsimp only
  by_cases hbad : (t.birth parents).1 = .failed ∨ (t.birth parents).1 = .canceled
  · rw [if_pos hbad, if_pos hbad, hout hbad]
  · rw [if_neg hbad, if_neg hbad]

/-- `task_add` within the scope, on both sides. -/
theorem add (h : Part c ι s t) (hs : s.WF) (hnew : ι t.size = s.size) {parents : List Nat}
    (hp : ∀ p ∈ parents, p < t.size) {request : TaskAddRequest α}
    (hid : c.task request.taskId = true) (hq : ∀ q ∈ request.queue, c.queue q = true) :
    Part c ι (s.add request (parents.map ι)) (t.add request parents) := by
  have ho : (t.newTask request parents).origin ≤ t.size := by
    unfold TaskGraph.newTask
    rcases t.birth_cases parents with ⟨p, hpp, -, hb⟩ | ⟨-, p, hpp, -, hb⟩ | ⟨-, -, hb⟩ |
      ⟨-, -, hb⟩
    · rw [hb]; exact (h.closed (hp p hpp)).2.le
    · rw [hb]; exact (h.closed (hp p hpp)).2.le
    · rw [hb]
    · rw [hb]
  have hsnoc := h.snoc hs hnew (T := t.newTask request parents) hid hq hp ho
  unfold TaskGraph.add
  rw [h.newTask hnew hp, h.birth hnew hp]
  dsimp only
  split
  · have henter := hsnoc.enter (x := t.size) (Nat.lt_succ_self _)
    rw [hnew] at henter
    exact henter
  · exact hsnoc

/-- `task_add` outside of the scope leaves the part. -/
theorem add_others (h : Part c ι s t) (hs : s.WF) {parents : List Nat}
    (hp : ∀ p ∈ parents, c.task (s.task p).taskId = false ∧ p < s.size)
    {request : TaskAddRequest α} (hid : c.task request.taskId = false)
    (hq : ∀ q ∈ request.queue, c.queue q = false) : Part c ι (s.add request parents) t where
  mono := h.mono
  lt hi := by
    rw [add_size]
    exact Nat.lt_succ_of_lt (h.lt hi)
  onto {j} hj hid' := by
    rcases add_lt hj with hj | rfl
    · rw [add_task_old _ _ hj] at hid'
      exact h.onto hj hid'
    · rw [add_task_new] at hid'
      exact absurd hid' (by simp [TaskGraph.newTask, hid])
  task hi := by rw [add_task_old _ _ (h.lt hi), h.task hi]
  within := h.within
  others {j} hj hid' := by
    rcases add_lt hj with hj | rfl
    · rw [add_task_old _ _ hj] at hid' ⊢
      obtain ⟨hqueues, hparents⟩ := h.others hj hid'
      refine ⟨hqueues, fun p hpp => ?_⟩
      rw [add_task_old _ _ (hs.parent_size ⟨hj, hpp⟩)]
      exact hparents p hpp
    · rw [add_task_new]
      refine ⟨hq, fun p hpp => ?_⟩
      rw [add_task_old _ _ (hp p hpp).2]
      exact (hp p hpp).1
  closed := h.closed
  log_lt := h.log_lt
  log := by
    have hold : s.log.filter (fun e => c.task ((s.add request parents).task e.1).taskId) =
        t.log.map fun e => (ι e.1, e.2) := by
      rw [← h.log]
      exact List.filter_congr fun e he => by rw [add_task_old _ _ (hs.log_lt e he)]
    rw [add_log]
    split
    · rw [List.filter_append, hold]
      simp [add_task_new, TaskGraph.newTask, hid]
    · exact hold

/-! ## Calls outside of the scope -/

/-- A task out of scope is none of the part. -/
theorem ne_of_others (h : Part c ι s t) (hx : c.task (s.task x).taskId = false) (hi : i < t.size) :
    ι i ≠ x := by
  rintro rfl
  rw [h.in_scope hi] at hx
  cases hx

/-- An ending out of scope leaves the part alone. -/
theorem endBadly_others (h : Part c ι s t) (hx : c.task (s.task x).taskId = false)
    (state : TaskState) (workerId output : String) :
    Part c ι (s.endBadly x state workerId output) t := by
  refine h.frame rfl (fun _ => endBadly_sameRequest _ _ _) (fun i hi => ?_) rfl
  refine endBadly_other _ _ _ (h.ne_of_others hx hi) fun hf => ?_
  obtain ⟨k, hk, heq⟩ := h.ancestor_in_scope hi hf.2.2
  exact h.ne_of_others hx hk heq

/-- A task out of scope releases none of the part. -/
theorem finish_others (h : Part c ι s t) (hx : c.task (s.task x).taskId = false)
    (output : String) : Part c ι (s.finish x output) t := by
  have hchild : ∀ {j}, j ∈ (s.settle x output).releasedBy x →
      j < s.size ∧ c.task (s.task j).taskId = false := by
    intro j hj
    obtain ⟨hlt, -, hmem, -⟩ := mem_releasedBy.1 hj
    rw [(settle_sameRequest output).parents] at hmem
    refine ⟨hlt, ?_⟩
    by_contra hscope
    obtain ⟨i, hi, rfl⟩ := h.onto hlt (by simpa using hscope)
    obtain ⟨p, rfl, hp⟩ := h.parent_of hi ⟨hlt, hmem⟩
    exact h.ne_of_others hx ((h.closed hi).1 p hp.2) rfl
  refine h.frame rfl (fun _ => finish_sameRequest _) (fun i hi => ?_) ?_
  · rcases finish_task_cases s x output (ι i) with ⟨heq, -⟩ | ⟨-, hmem, -, -⟩ | ⟨-, -, heq⟩
    · exact absurd heq (h.ne_of_others hx hi)
    · exact absurd rfl (h.ne_of_others (hchild hmem).2 hi)
    · exact heq
  · simp only [TaskGraph.finish, TaskGraph.release, settle_log]
    rw [List.filter_append, List.append_right_eq_self, List.filter_eq_nil_iff]
    intro e he
    obtain ⟨j, hj, rfl⟩ := List.mem_map.1 he
    simp [(hchild hj).2]

variable {op : TaskOp α} {r : TaskReply α} {re2 : RE2}

/-- **A call outside of the scope leaves the part as it is.** -/
theorem serve_others (h : Part c ι s t) (hs : s.WF) (hop : op.Within c.others)
    (hchange : s.Change op r s') : Part c ι s' t := by
  have hfound : ∀ {id x}, c.others.task id = true → s.find? id = some x →
      c.task (s.task x).taskId = false := by
    intro id x hid hx
    rw [(find?_some hx).2]
    simpa [TaskScope.others] using hid
  cases hchange with
  | same _ => exact h
  | @add request parents hnew hp =>
      obtain ⟨hid, hparents, hqueues⟩ := hop
      refine h.add_others hs (fun p hpp => ⟨?_, resolve_lt hp p hpp⟩) ?_ fun q hq => ?_
      · have hmem : (s.task p).taskId ∈ request.parentTaskIds := by
          rw [← resolve_ids hp]
          exact List.mem_map_of_mem hpp
        simpa [TaskScope.others] using hparents _ hmem
      · simpa [TaskScope.others] using hid
      · simpa [TaskScope.others] using hqueues q hq
  | cancel hx _ => exact h.endBadly_others (hfound hop hx) _ _ _
  | @setPriority request x hx =>
      have hx' := hfound hop hx
      refine h.frame (reprioritize_size _) (fun _ => reprioritize_sameRequest _) (fun i hi => ?_) ?_
      · rw [reprioritize_task, if_neg (h.ne_of_others hx' hi)]
      · rw [reprioritize_log]
        split
        · simp [hx']
        · rfl
  | @claim request qname x hq hx =>
      have hx' : c.task (s.task x).taskId = false := by
        by_contra hscope
        obtain ⟨i, hi, rfl⟩ := h.onto hx.1 (by simpa using hscope)
        have hmem := hx.2.2
        rw [h.task hi, Task.moved_queues] at hmem
        have hout := hop qname hq
        simp [TaskScope.others, (h.within hi).2 qname hmem] at hout
      refine h.frame rfl (fun _ => claim_sameRequest _) (fun i hi => ?_) rfl
      rw [claim_task, if_neg (h.ne_of_others hx' hi)]
  | fail hx _ _ _ => exact h.endBadly_others (hfound hop hx) _ _ _
  | finish hx _ _ _ => exact h.finish_others (hfound hop hx) _

/-! ## Calls within the scope -/

/-- What only reads in scope has one reply. -/
theorem serveRead_eq (h : Part c ι s t) (hs : s.WF) (hop : op.Within c) :
    s.serveRead re2 op = t.serveRead re2 op := by
  have hfind : ∀ {id}, c.task id = true →
      (s.find? id = none ∧ t.find? id = none) ∨
        ∃ i, s.find? id = some (ι i) ∧ t.find? id = some i ∧ s.task (ι i) = (t.task i).moved ι := by
    intro id hid
    rw [h.find?_eq hs hid]
    cases hf : t.find? id with
    | none => exact .inl ⟨rfl, rfl⟩
    | some i => exact .inr ⟨i, rfl, rfl, h.task (find?_some hf).1⟩
  cases op with
  | getStatus request =>
      simp only [serveRead, Option.some.injEq, TaskReply.getStatus.injEq, Except.ok.injEq,
        TaskGetStatusResponse.mk.injEq]
      exact List.map_congr_left fun id hid => h.status_eq hs (hop id hid)
  | getOutput request | getPriority request | getWorkerId request =>
      rcases hfind hop with ⟨hf, hf'⟩ | ⟨i, hf, hf', htask⟩
      · simp only [serveRead, hf, hf']
      · simp only [serveRead, hf, hf', htask, Task.moved_output, Task.moved_priority,
          Task.moved_state, Task.moved_workerId]
  | getCountByState | searchId request => exact hop.elim
  | add | cancel | setPriority | get | done => rfl

/-- A cancel in scope has one reply, and leaves a part. -/
theorem serveCancel (h : Part c ι s t) (hs : s.WF) {request : TaskCancelRequest}
    (hid : c.task request.taskId = true) :
    (s.serveCancel request).1 = (t.serveCancel request).1 ∧
      Part c ι (s.serveCancel request).2 (t.serveCancel request).2 := by
  unfold TaskGraph.serveCancel
  rw [h.find?_eq hs hid]
  cases hf : t.find? request.taskId with
  | none => exact ⟨rfl, h⟩
  | some i =>
      have hi := (find?_some hf).1
      dsimp only [Option.map_some]
      rw [h.state hi]
      split
      · exact ⟨rfl, h.endBadly hi _ _ _⟩
      · exact ⟨rfl, h⟩

/-- A new priority in scope has one reply, and leaves a part. -/
theorem serveSetPriority (h : Part c ι s t) (hs : s.WF) {request : TaskSetPriorityRequest α}
    (hid : c.task request.taskId = true) :
    (s.serveSetPriority request).1 = (t.serveSetPriority request).1 ∧
      Part c ι (s.serveSetPriority request).2 (t.serveSetPriority request).2 := by
  unfold TaskGraph.serveSetPriority
  rw [h.find?_eq hs hid]
  cases hf : t.find? request.taskId with
  | none => exact ⟨rfl, h⟩
  | some i => exact ⟨rfl, h.reprioritize (find?_some hf).1 _⟩

/-- A report in scope has one reply, and leaves a part. -/
theorem serveDone (h : Part c ι s t) (hs : s.WF) {request : TaskDoneRequest}
    (hid : c.task request.taskId = true) :
    (s.serveDone request).1 = (t.serveDone request).1 ∧
      Part c ι (s.serveDone request).2 (t.serveDone request).2 := by
  unfold TaskGraph.serveDone
  rw [h.find?_eq hs hid]
  cases hf : t.find? request.taskId with
  | none => exact ⟨rfl, h⟩
  | some i =>
      have hi := (find?_some hf).1
      have hfail : Part c ι (s.fail (ι i) request.output) (t.fail i request.output) := by
        unfold TaskGraph.fail
        rw [h.task hi, Task.moved_workerId]
        exact h.endBadly hi _ _ _
      dsimp only [Option.map_some]
      rw [h.task hi, Task.moved_state, Task.moved_workerId]
      by_cases hc : (t.task i).state = .canceled
      · rw [if_pos hc, if_pos hc]
        exact ⟨rfl, h⟩
      rw [if_neg hc, if_neg hc]
      by_cases hr : (t.task i).state ≠ .running
      · rw [if_pos hr, if_pos hr]
        exact ⟨rfl, h⟩
      rw [if_neg hr, if_neg hr]
      by_cases hw : (t.task i).workerId ≠ request.workerId
      · rw [if_pos hw, if_pos hw]
        exact ⟨rfl, h⟩
      rw [if_neg hw, if_neg hw]
      split
      · exact ⟨rfl, hfail⟩
      · exact ⟨rfl, h.finish hi _⟩

/-- An add in scope has one reply, and leaves a part under a new numbering. -/
theorem serveAdd (h : Part c ι s t) (hs : s.WF) {request : TaskAddRequest α}
    (hop : (TaskOp.add request).Within c) :
    (s.serveAdd request).1 = (t.serveAdd request).1 ∧
      ∃ ι', Part c ι' (s.serveAdd request).2 (t.serveAdd request).2 := by
  obtain ⟨hid, hparents, hqueues⟩ := hop
  unfold TaskGraph.serveAdd
  rw [h.find?_eq hs hid, h.resolve_eq hs hparents]
  cases hf : t.find? request.taskId with
  | some i => exact ⟨rfl, ι, h⟩
  | none =>
      cases hr : t.resolve request.parentTaskIds with
      | error p => exact ⟨rfl, ι, h⟩
      | ok parents =>
          -- the new task gets the next number in the part, and the next in the whole
          have hlt := resolve_lt hr
          have hι : ∀ i, i < t.size → Function.update ι t.size s.size i = ι i := fun i hi =>
            Function.update_of_ne hi.ne ..
          have hpart := (h.congr hι).add hs (Function.update_self ..) hlt hid hqueues
          rw [List.map_congr_left fun p hp => hι p (hlt p hp)] at hpart
          exact ⟨rfl, _, hpart⟩

/-- The queue entries of the part, as tasks of the whole. -/
theorem log_fst (h : Part c ι s t) :
    (s.log.map Prod.fst).filter (fun i => c.task (s.task i).taskId) =
      (t.log.map Prod.fst).map ι := by
  rw [List.filter_map, Function.comp_def, h.log, List.map_map, List.map_map]
  rfl

/-- Of two ready tasks of the part, the one that entered last did so in the part too. -/
theorem seq_lt (h : Part c ι s t) (hs : s.WF) (hi : i < t.size) (hj : j < t.size)
    (hr : (t.task i).state = .ready) (hlt : s.seq (ι i) < s.seq (ι j)) : t.seq i < t.seq j := by
  have hmem : ι i ∈ s.log.map Prod.fst := (hs.logged (h.lt hi) (by rw [h.state hi, hr])).1
  have hinj : ∀ {k}, k < t.size → ∀ b ∈ t.log.map Prod.fst, ι b = ι k → b = k := by
    intro k hk b hb heq
    obtain ⟨e, he, rfl⟩ := List.mem_map.1 hb
    exact h.inj (h.log_lt e he) hk heq
  have hfilter := lastSeq.filter_lt (p := fun k => c.task (s.task k).taskId) hmem
    (h.in_scope hi) (h.in_scope hj) hlt
  rw [h.log_fst, lastSeq.map (hinj hi), lastSeq.map (hinj hj)] at hfilter
  exact hfilter

/-- The part sets no priority to NaN either. -/
theorem numeric (h : Part c ι s t) (hnum : s.Numeric) : t.Numeric := by
  intro e he
  have hmem : (ι e.1, e.2) ∈ s.log.filter fun e => c.task (s.task e.1).taskId := by
    rw [h.log]
    exact List.mem_map_of_mem he
  exact hnum (ι e.1, e.2) (List.mem_filter.1 hmem).1

variable [LinearOrder α]

/-- A ready task of the part that outranks another in the whole does so in the part. -/
theorem outranks (h : Part c ι s t) (hs : s.WF) (hi : i < t.size) (hj : j < t.size)
    (hr : (t.task i).state = .ready) (hout : s.Outranks (ι i) (ι j)) : t.Outranks i j := by
  unfold Outranks at hout ⊢
  rw [h.task hi, h.task hj] at hout
  exact hout.imp_right fun ⟨heq, hlt⟩ => ⟨heq, h.seq_lt hs hi hj hr hlt⟩

/-- `task_get` takes the same task on both sides. -/
theorem serveGet (h : Part c ι s t) (hs : s.WF) (hnum : s.Numeric) {request : TaskGetRequest}
    (hop : ∀ q ∈ request.queue, c.queue q = true) (hget : s.ServesGet request r s') :
    ∃ t', t.ServesGet request r t' ∧ Part c ι s' t' := by
  cases hget with
  | @claim qnames rest qname x hq hskip hx hbest =>
      have hqname : c.queue qname = true := hop qname (by rw [hq]; simp)
      obtain ⟨i, rfl, hi⟩ := (h.offers_iff hqname).1 hx
      refine ⟨t.claim i request.workerId, ?_, h.claim hi.1 _⟩
      rw [h.task hi.1]
      refine .claim hq (fun q hmem j hj => ?_) hi fun _ j hj hne => ?_
      · exact hskip q hmem (ι j) ((h.offers_iff (hop q (by rw [hq]; simp [hmem]))).2 ⟨j, rfl, hj⟩)
      · exact h.outranks hs hi.1 hj.1 hi.2.1
          (hbest hnum (ι j) ((h.offers_iff hqname).2 ⟨j, rfl, hj⟩)
            fun heq => hne (h.inj hj.1 hi.1 heq))
  | none hnone =>
      refine ⟨t, .none fun q hq j hj => ?_, h⟩
      exact hnone q hq (ι j) ((h.offers_iff (hop q hq)).2 ⟨j, rfl, hj⟩)

/-- **A call within the scope is answered by the part as by the whole**, and it makes the same
change to both. -/
theorem serve_within (h : Part c ι s t) (hs : s.WF) (hnum : s.Numeric) (hop : op.Within c)
    (hserve : s.Serves re2 op r s') :
    ∃ ι' t', t.Serves re2 op r t' ∧ Part c ι' s' t' := by
  cases hserve with
  | read hread => exact ⟨ι, t, .read ((h.serveRead_eq hs hop).symm.trans hread), h⟩
  | get hget =>
      obtain ⟨t', hget', h'⟩ := h.serveGet hs hnum hop hget
      exact ⟨ι, t', .get hget', h'⟩
  | add request =>
      obtain ⟨heq, ι', h'⟩ := h.serveAdd hs hop
      exact ⟨ι', _, heq ▸ .add request, h'⟩
  | cancel request =>
      obtain ⟨heq, h'⟩ := h.serveCancel hs hop
      exact ⟨ι, _, heq ▸ .cancel request, h'⟩
  | setPriority request =>
      obtain ⟨heq, h'⟩ := h.serveSetPriority hs hop
      exact ⟨ι, _, heq ▸ .setPriority request, h'⟩
  | done request =>
      obtain ⟨heq, h'⟩ := h.serveDone hs hop
      exact ⟨ι, _, heq ▸ .done request, h'⟩

end Part

end TaskGraph

end DsService

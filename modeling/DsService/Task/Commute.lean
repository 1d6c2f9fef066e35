import DsService.Task.History

/-!
# Adding a task commutes with an ending

A client adds a child of `x` while `x` ends. In one order the ending finds the child in the graph
and takes it along or releases it; in the other `task_add` gives the child its birth state from its
parents. `add_endBadly` and `add_finish` say that the two orders make one graph.
-/

namespace DsService

variable {Q α : Type}

namespace TaskGraph

variable {s : TaskGraph α} {request : TaskAddRequest α} {parents : List Nat} {i x : Nat}

/-! ## Reading the graph with one more task -/

/-- Graphs with the same size, tasks and log are equal. -/
theorem ext {g g' : TaskGraph α} (hsize : g.size = g'.size) (htask : ∀ i, g.task i = g'.task i)
    (hlog : g.log = g'.log) : g = g' := by
  cases g; cases g'
  simp only [mk.injEq]
  exact ⟨hsize, funext htask, hlog⟩

/-- An add leaves every other task as it is. -/
theorem add_task_other (hi : i ≠ s.size) : (s.add request parents).task i = s.task i := by
  rw [add_task, if_neg hi]

/-- Below the new task the parents are the old ones. -/
theorem add_parent_old (hi : i < s.size) {p : Nat} :
    (s.add request parents).Parent p i ↔ s.Parent p i := by
  unfold Parent
  rw [add_task_old _ _ hi, add_size]
  exact ⟨fun h => ⟨hi, h.2⟩, fun h => ⟨Nat.lt_succ_of_lt hi, h.2⟩⟩

/-- The parents of a new task are those of its request. -/
theorem add_parent_new {p : Nat} : (s.add request parents).Parent p s.size ↔ p ∈ parents := by
  unfold Parent
  rw [add_task_new, add_size]
  exact ⟨fun h => h.2, fun h => ⟨Nat.lt_succ_self _, h⟩⟩

/-- Ids are resolved by the lookup alone. -/
theorem resolve_congr {g : TaskGraph α} (hfind : ∀ t, g.find? t = s.find? t) (ids : List String) :
    g.resolve ids = s.resolve ids := by
  induction ids with
  | nil => rfl
  | cons t ids ih => simp only [resolve, hfind, ih]

/-- Ids that all exist resolve. -/
theorem exists_resolve {ids : List String} (h : ∀ t ∈ ids, (s.find? t).isSome = true) :
    ∃ is, s.resolve ids = .ok is := by
  induction ids with
  | nil => exact ⟨[], rfl⟩
  | cons t ids ih =>
      obtain ⟨i, hi⟩ := Option.isSome_iff_exists.1 (h t (.head _))
      obtain ⟨is, his⟩ := ih fun u hu => h u (.tail _ hu)
      refine ⟨i :: is, ?_⟩
      simp only [resolve, hi, his]
      rfl

/-- The birth state looks only at the parents. -/
theorem birth_congr {g : TaskGraph α} (hsize : g.size = s.size)
    (hp : ∀ p ∈ parents, (g.task p).state = (s.task p).state ∧
      (g.task p).origin = (s.task p).origin) : g.birth parents = s.birth parents := by
  have hfind : ∀ state : TaskState, (parents.find? fun p => (g.task p).state = state) =
      parents.find? fun p => (s.task p).state = state := by
    intro state
    rw [← List.head?_filter, ← List.head?_filter]
    congr 1
    exact List.filter_congr fun p hpp => by rw [(hp p hpp).1]
  have horigin : ∀ {p f}, parents.find? f = some p → (g.task p).origin = (s.task p).origin :=
    fun hf => (hp _ (List.mem_of_find?_eq_some hf)).2
  have hall : (∀ p ∈ parents, (g.task p).state = .finished) ↔
      ∀ p ∈ parents, (s.task p).state = .finished :=
    forall₂_congr fun p hpp => by rw [(hp p hpp).1]
  unfold birth
  rw [hfind, hfind]
  cases hf : parents.find? fun p => (s.task p).state = .failed with
  | some p => dsimp only; rw [horigin hf]
  | none =>
      cases hc : parents.find? fun p => (s.task p).state = .canceled with
      | some p => dsimp only; rw [horigin hc]
      | none => simp only [hall, hsize]

/-- The output of an ending names its origin by the id. -/
theorem terminalOutput_congr {g : TaskGraph α} (hid : ∀ o, (g.task o).taskId = (s.task o).taskId)
    (state : TaskState) (origin : Nat) :
    g.terminalOutput state origin = s.terminalOutput state origin := by
  unfold terminalOutput
  rw [hid]

/-- The new task depends on the graph through its birth state and the ids only. -/
theorem newTask_congr {g : TaskGraph α} (hbirth : g.birth parents = s.birth parents)
    (hid : ∀ o, (g.task o).taskId = (s.task o).taskId) :
    g.newTask request parents = s.newTask request parents := by
  unfold newTask
  rw [hbirth, terminalOutput_congr hid]

/-- A task is added with the ending of its parents when these have ended badly in one way. -/
theorem birth_bad {state : TaskState} {origin : Nat}
    (hall : ∀ p ∈ parents, (s.task p).state.IsBad →
      (s.task p).state = state ∧ (s.task p).origin = origin)
    (hex : ∃ p ∈ parents, (s.task p).state.IsBad) : s.birth parents = (state, origin) := by
  obtain ⟨q, hq, hbad⟩ := hex
  rcases s.birth_cases parents with ⟨p, hpp, hst, hb⟩ | ⟨-, p, hpp, hst, hb⟩ | ⟨hnb, -⟩ | ⟨hnb, -⟩
  · obtain ⟨hstate, horigin⟩ := hall p hpp (.inl hst)
    rw [hb, horigin, ← hstate, hst]
  · obtain ⟨hstate, horigin⟩ := hall p hpp (.inr hst)
    rw [hb, horigin, ← hstate, hst]
  · exact absurd hbad (hnb q hq)
  · exact absurd hbad (hnb q hq)

/-! ## A bad ending -/

section bad
variable (hwf : s.WF) (hnew : s.find? request.taskId = none) (hp : ∀ p ∈ parents, p < s.size)
include hwf hnew hp

/-- Below the new task the ancestors are the old ones. -/
theorem add_ancestor_old (hi : i < s.size) :
    (s.add request parents).Ancestor x i ↔ s.Ancestor x i := by
  have hwf' := hwf.add hnew hp
  constructor
  · intro ha
    induction ha with
    | single hpar => exact .single ((add_parent_old hi).1 hpar)
    | tail _ hpar ih =>
        exact .tail (ih (Nat.lt_trans (hwf'.parent_lt hpar) hi)) ((add_parent_old hi).1 hpar)
  · intro ha
    induction ha with
    | single hpar => exact .single ((add_parent_old hi).2 hpar)
    | tail _ hpar ih =>
        exact .tail (ih (hwf.parent_size hpar)) ((add_parent_old hi).2 hpar)

/-- The ancestors of the new task are its parents and theirs. -/
theorem add_ancestor_new : (s.add request parents).Ancestor x s.size ↔
    ∃ p ∈ parents, x = p ∨ s.Ancestor x p := by
  constructor
  · intro ha
    cases ha with
    | single hpar => exact ⟨x, add_parent_new.1 hpar, .inl rfl⟩
    | @tail p _ ha hpar =>
        have hpp := add_parent_new.1 hpar
        exact ⟨p, hpp, .inr ((add_ancestor_old hwf hnew hp (hp p hpp)).1 ha)⟩
  · rintro ⟨p, hpp, rfl | ha⟩
    · exact .single (add_parent_new.2 hpp)
    · exact .tail ((add_ancestor_old hwf hnew hp (hp p hpp)).2 ha) (add_parent_new.2 hpp)

/-- A new task changes nothing about what falls among the old ones. -/
theorem add_falls_old (hi : i < s.size) :
    (s.add request parents).Falls x i ↔ s.Falls x i := by
  unfold Falls
  rw [add_task_old _ _ hi, add_ancestor_old hwf hnew hp hi, add_size]
  exact ⟨fun h => ⟨hi, h.2⟩, fun h => ⟨Nat.lt_succ_of_lt hi, h.2⟩⟩

section ending
variable {state : TaskState} {workerId output : String} (hb : state.IsBad) (hx : x < s.size)
  (hl : (s.task x).state.isLive = true)

omit hwf hnew hp in

/-- A task that is neither the origin nor below it is spared. -/
theorem endBadly_spared {p : Nat} (hnot : ¬ (p = x ∨ s.Ancestor x p)) :
    (s.endBadly x state workerId output).task p = s.task p :=
  endBadly_other _ _ _ (fun h => hnot (.inl h)) fun h => hnot (.inr h.2.2)

include hx

/-- The ending makes the same of the old tasks, with the new task there or not. -/
theorem add_endBadly_old (hi : i ≠ s.size) :
    ((s.add request parents).endBadly x state workerId output).task i =
      (s.endBadly x state workerId output).task i := by
  have hterm : (s.add request parents).terminalOutput state x = s.terminalOutput state x := by
    unfold terminalOutput
    rw [add_task_old _ _ hx]
  by_cases hix : i = x
  · subst hix
    rw [endBadly_self, endBadly_self, add_task_other hi]
  · have hfalls : (s.add request parents).Falls x i ↔ s.Falls x i := by
      rcases Nat.lt_or_ge i s.size with hlt | hge
      · exact add_falls_old hwf hnew hp hlt
      · refine ⟨fun h => absurd h.1 ?_, fun h => absurd h.1 (by omega)⟩
        rw [add_size]; omega
    by_cases hf : s.Falls x i
    · rw [endBadly_falls _ _ _ hix (hfalls.2 hf), endBadly_falls _ _ _ hix hf,
        add_task_other hi, hterm]
    · rw [endBadly_other _ _ _ hix (fun h => hf (hfalls.1 h)), endBadly_other _ _ _ hix hf,
        add_task_other hi]

variable (hgood : ∀ p ∈ parents, ¬ (s.task p).state.IsBad)
include hb hl hgood

omit hnew hx in
/-- Below `x` a task waits before the ending of `x`, and is added with that ending after it. -/
theorem birth_endBadly_below (hbelow : ∃ p ∈ parents, x = p ∨ s.Ancestor x p) :
    s.birth parents = (.waiting, s.size) ∧
      (s.endBadly x state workerId output).birth parents = (state, x) := by
  have htaken : ∀ p ∈ parents, p = x ∨ s.Ancestor x p →
      ((s.endBadly x state workerId output).task p).state = state ∧
        ((s.endBadly x state workerId output).task p).origin = x := fun p hpp hpx =>
    endBadly_taken (hpx.imp id fun ha => hwf.falls_of_good (hp p hpp) ha hl (hgood p hpp))
  obtain ⟨p, hpp, hxp⟩ := hbelow
  have hpx : p = x ∨ s.Ancestor x p := hxp.imp Eq.symm id
  constructor
  · have hnf : (s.task p).state ≠ .finished := by
      intro hf
      have hxf : (s.task x).state = .finished := by
        rcases hpx with rfl | ha
        · exact hf
        · exact hwf.ancestor_finished ha hf
      rw [hxf] at hl
      cases hl
    rcases s.birth_cases parents with ⟨q, hq, hst, -⟩ | ⟨-, q, hq, hst, -⟩ | ⟨-, hall, -⟩ |
      ⟨-, -, hbirth⟩
    · exact absurd (.inl hst) (hgood q hq)
    · exact absurd (.inr hst) (hgood q hq)
    · exact absurd (hall p hpp) hnf
    · exact hbirth
  · refine birth_bad (fun q hq hbad => ?_) ⟨p, hpp, by rw [(htaken p hpp hpx).1]; exact hb⟩
    by_cases hqx : q = x ∨ s.Ancestor x q
    · exact htaken q hq hqx
    · rw [endBadly_spared hqx] at hbad
      exact absurd hbad (hgood q hq)

/-- What becomes of the new task, and the log. -/
theorem add_endBadly_new :
    ((s.add request parents).endBadly x state workerId output).task s.size =
        (s.endBadly x state workerId output).newTask request parents ∧
      (s.add request parents).log =
        ((s.endBadly x state workerId output).add request parents).log := by
  let g := s.endBadly x state workerId output
  have hnx : s.size ≠ x := Nat.ne_of_gt hx
  have hid : ∀ o, (g.task o).taskId = (s.task o).taskId := fun o =>
    (endBadly_sameRequest _ _ _).taskId
  by_cases hbelow : ∃ p ∈ parents, x = p ∨ s.Ancestor x p
  · -- the new task falls, as it would have been added fallen
    obtain ⟨hwait, hgbirth⟩ : s.birth parents = (.waiting, s.size) ∧ g.birth parents = (state, x) :=
      birth_endBadly_below hwf hp hb hl hgood hbelow
    have hfall : (s.add request parents).Falls x s.size := by
      refine ⟨by rw [add_size]; exact Nat.lt_succ_self _, ?_,
        (add_ancestor_new hwf hnew hp).2 hbelow⟩
      rw [add_task_new]
      change (s.birth parents).1.isLive = true
      rw [hwait]
      rfl
    have hterm : (s.add request parents).terminalOutput state x = g.terminalOutput state x := by
      unfold terminalOutput
      rw [add_task_old _ _ hx, hid]
    have hout : (g.newTask request parents).output = g.terminalOutput state x := by
      unfold newTask
      rw [hgbirth]
      exact if_pos hb
    constructor
    · rw [endBadly_falls _ _ _ hnx hfall, add_task_new, hterm, ← hout]
      unfold newTask
      rw [hgbirth]
    · have hne : state ≠ .ready := by rintro rfl; rcases hb with h | h <;> cases h
      rw [add_log, add_log, hwait, hgbirth, if_neg (by simp), if_neg hne]
      rfl
  · have hgbirth : g.birth parents = s.birth parents :=
      birth_congr rfl fun p hpp => by
        rw [endBadly_spared fun h => hbelow ⟨p, hpp, h.imp Eq.symm id⟩]
        exact ⟨rfl, rfl⟩
    constructor
    · rw [endBadly_other _ _ _ hnx fun h => hbelow ((add_ancestor_new hwf hnew hp).1 h.2.2),
        add_task_new, newTask_congr hgbirth hid]
    · rw [add_log, add_log, hgbirth]
      rfl

/-- **Adding a task and ending another badly commute**, unless a parent of the new task had ended
badly before. -/
theorem add_endBadly : (s.add request parents).endBadly x state workerId output =
    (s.endBadly x state workerId output).add request parents := by
  refine ext ?_ (fun i => ?_) (add_endBadly_new hwf hnew hp hb hx hl hgood).2
  · rw [endBadly_size, add_size, add_size, endBadly_size]
  · by_cases hi : i = s.size
    · subst hi
      rw [(add_endBadly_new hwf hnew hp hb hx hl hgood).1]
      exact (add_task_new (s := s.endBadly x state workerId output) request parents).symm
    · rw [add_endBadly_old hwf hnew hp hx hi]
      exact (add_task_other (s := s.endBadly x state workerId output) hi).symm

end ending

end bad

/-! ## A good ending -/

/-- Finishing a running task leaves the tasks that ended badly. -/
theorem finish_bad {output : String} {state : TaskState} (hb : state.IsBad)
    (hr : (s.task x).state = .running) :
    ((s.finish x output).task i).state = state ↔ (s.task i).state = state := by
  have hne : ∀ {a : TaskState}, a.IsBad ∨ a = state → a ≠ .running ∧ a ≠ .finished ∧
      a ≠ .waiting ∧ a ≠ .ready := by
    rintro a (ha | rfl)
    · rcases ha with rfl | rfl <;> simp
    · rcases hb with rfl | rfl <;> simp
  obtain ⟨h₁, h₂, h₃, h₄⟩ := hne (.inr rfl)
  rcases finish_task_cases s x output i with ⟨rfl, hst⟩ | ⟨-, -, hw, hst⟩ | ⟨-, -, hst⟩
  · rw [hst, hr]; exact ⟨fun h => absurd h.symm h₂, fun h => absurd h.symm h₁⟩
  · rw [hst, hw]; exact ⟨fun h => absurd h.symm h₄, fun h => absurd h.symm h₃⟩
  · rw [hst]

/-- A task that is added neither ready nor with a bad ending is its own origin. -/
theorem birth_waiting (hb : ¬ (s.birth parents).1.IsBad) (hr : (s.birth parents).1 ≠ .ready) :
    s.birth parents = (.waiting, s.size) := by
  rcases s.birth_cases parents with ⟨_, -, -, hbirth⟩ | ⟨-, _, -, -, hbirth⟩ | ⟨-, -, hbirth⟩ |
    ⟨-, -, hbirth⟩
  · exact absurd (.inl (by rw [hbirth])) hb
  · exact absurd (.inr (by rw [hbirth])) hb
  · exact absurd (by rw [hbirth]) hr
  · exact hbirth

/-- The state a task is added in right after `x` has finished. -/
theorem birth_finish {output : String} (hr : (s.task x).state = .running) :
    (s.finish x output).birth parents = if (s.birth parents).1.IsBad then s.birth parents
      else (if ∀ p ∈ parents, ((s.settle x output).task p).state = .finished then .ready
        else .waiting, s.size) := by
  have hfind : ∀ {state : TaskState}, state.IsBad →
      (parents.find? fun p => ((s.finish x output).task p).state = state) =
        parents.find? fun p => (s.task p).state = state := by
    intro state hb
    rw [← List.head?_filter, ← List.head?_filter]
    congr 1
    exact List.filter_congr fun p _ => decide_eq_decide.2 (finish_bad hb hr)
  unfold birth
  rw [hfind (.inl rfl), hfind (.inr rfl)]
  cases parents.find? fun p => (s.task p).state = .failed with
  | some p =>
      dsimp only
      rw [finish_origin]
      exact (if_pos (Or.inl rfl)).symm
  | none =>
      cases parents.find? fun p => (s.task p).state = .canceled with
      | some p =>
          dsimp only
          rw [finish_origin]
          exact (if_pos (Or.inr rfl)).symm
      | none =>
          have hnb : ¬ (if ∀ p ∈ parents, (s.task p).state = .finished
              then (TaskState.ready, s.size) else (.waiting, s.size)).1.IsBad := by
            split <;> (rintro (h | h) <;> cases h)
          simp only [if_neg hnb, finish_finished, finish_size]
          split <;> rfl

/-- What `x` releases when a new task names it among its parents. -/
theorem releasedBy_add {output : String} (hwf : s.WF) (hp : ∀ p ∈ parents, p < s.size)
    (hx : x < s.size) (hxp : x ∈ parents) :
    ((s.add request parents).settle x output).releasedBy x =
      (s.settle x output).releasedBy x ++
        if (s.birth parents).1 = .waiting ∧
          ∀ p ∈ parents, ((s.settle x output).task p).state = .finished then [s.size] else [] := by
  have hold : ∀ {j}, j < s.size → ((s.add request parents).settle x output).task j =
      (s.settle x output).task j := by
    intro j hj
    rw [settle_task, settle_task, add_task_old _ _ hj, add_task_old _ _ hx]
  have hnewTask : ((s.add request parents).settle x output).task s.size =
      s.newTask request parents := by
    rw [settle_task, if_neg (Nat.ne_of_gt hx), add_task_new]
  unfold releasedBy
  rw [settle_size, settle_size, add_size, List.range_succ, List.filter_append]
  congr 1
  · refine List.filter_congr fun c hc => decide_eq_decide.2 ?_
    have hcs := List.mem_range.1 hc
    have hparents : ((s.settle x output).task c).parents = (s.task c).parents :=
      (settle_sameRequest _).parents
    rw [hold hcs, hparents]
    refine and_congr_right fun _ => and_congr_right fun _ => forall₂_congr fun p hpc => ?_
    rw [hold (hwf.parent_size ⟨hcs, hpc⟩)]
  · have hall : (∀ p ∈ parents, (((s.add request parents).settle x output).task p).state =
        .finished) ↔ ∀ p ∈ parents, ((s.settle x output).task p).state = .finished :=
      forall₂_congr fun p hpp => by rw [hold (hp p hpp)]
    rw [List.filter_singleton, hnewTask]
    simp only [newTask, hxp, hall, true_and, cond_eq_ite, decide_eq_true_eq]

/-- A task below a running one is not added ready. -/
theorem birth_not_ready (hr : (s.task x).state = .running) (hxp : x ∈ parents) :
    (s.birth parents).1 ≠ .ready := by
  rcases s.birth_cases parents with ⟨_, -, -, hb⟩ | ⟨-, _, -, -, hb⟩ | ⟨-, hall, -⟩ | ⟨-, -, hb⟩
  · rw [hb]; exact fun h => by cases h
  · rw [hb]; exact fun h => by cases h
  · have hxf := hall x hxp
    rw [hr] at hxf
    cases hxf
  · rw [hb]; exact fun h => by cases h

section finish
variable {output : String} (hwf : s.WF) (hp : ∀ p ∈ parents, p < s.size) (hx : x < s.size)
  (hxp : x ∈ parents)
include hwf hp hx hxp

/-- The report makes the same of the old tasks, with the new task there or not. -/
theorem add_finish_old (hi : i ≠ s.size) : ((s.add request parents).finish x output).task i =
    (s.finish x output).task i := by
  have hsettle : ((s.add request parents).settle x output).task i = (s.settle x output).task i := by
    rw [settle_task, settle_task, add_task_other hi, add_task_other (Nat.ne_of_lt hx)]
  have hmem : i ∈ ((s.add request parents).settle x output).releasedBy x ↔
      i ∈ (s.settle x output).releasedBy x := by
    rw [releasedBy_add hwf hp hx hxp, List.mem_append]
    split <;> simp [hi]
  unfold finish
  simp only [release_task, hmem, hsettle]

variable (hr : (s.task x).state = .running)
include hr

/-- What becomes of the new task, and the log. -/
theorem add_finish_new : ((s.add request parents).finish x output).task s.size =
      (s.finish x output).newTask request parents ∧
    ((s.add request parents).finish x output).log =
      ((s.finish x output).add request parents).log := by
  let s₀ := s.add request parents
  let g := s.finish x output
  let P := (s.settle x output).releasedBy x
  let P₀ := (s₀.settle x output).releasedBy x
  have hid : ∀ o, (g.task o).taskId = (s.task o).taskId := fun o => (finish_sameRequest _).taskId
  have hlast : ∀ j ∈ P, j < s.size := fun j hj => (mem_releasedBy.1 hj).1
  have hnotReady := birth_not_ready hr hxp
  have hP₀ : P₀ = P ++ if (s.birth parents).1 = .waiting ∧
      ∀ p ∈ parents, ((s.settle x output).task p).state = .finished then [s.size] else [] :=
    releasedBy_add hwf hp hx hxp
  have hnewTask : (s₀.settle x output).task s.size = s.newTask request parents := by
    rw [settle_task, if_neg (Nat.ne_of_gt hx), add_task_new]
  have hfinish : (s₀.finish x output).task s.size =
      if s.size ∈ P₀ then { s.newTask request parents with state := .ready }
      else s.newTask request parents := by
    rw [← hnewTask]
    exact release_task _
  have hlog : (s₀.finish x output).log =
      s.log ++ P₀.map fun c => (c, (s₀.task c).priority) := by
    rw [finish_log, add_log, if_neg hnotReady]
  have hrecords : (P.map fun c => (c, (s₀.task c).priority)) =
      P.map fun c => (c, (s.task c).priority) :=
    List.map_congr_left fun c hc => by rw [add_task_old _ _ (hlast c hc)]
  rw [hfinish, hlog, hP₀, add_log, finish_log, finish_size]
  by_cases hrel : (s.birth parents).1 = .waiting ∧
      ∀ p ∈ parents, ((s.settle x output).task p).state = .finished
  · -- the new task waited for `x` alone: one order releases it, and the other adds it ready
    have hnb : ¬ (s.birth parents).1.IsBad := by
      rw [hrel.1]; rintro (h | h) <;> cases h
    have hbirth := birth_waiting hnb hnotReady
    have hgbirth : g.birth parents = (.ready, s.size) := by
      rw [birth_finish hr, if_neg hnb, if_pos hrel.2]
    rw [hgbirth, if_pos hrel, if_pos rfl, List.map_append, hrecords, List.append_assoc,
      if_pos (List.mem_append_right _ (.head _))]
    refine ⟨?_, ?_⟩
    · unfold newTask
      rw [hbirth, hgbirth]
      rfl
    · rw [List.map_singleton, add_task_new]
      rfl
  · have hgbirth : g.birth parents = s.birth parents := by
      rw [birth_finish hr]
      split
      · rfl
      · next hnb =>
          have hbirth := birth_waiting hnb hnotReady
          rw [if_neg fun hall => hrel ⟨by rw [hbirth], hall⟩, hbirth]
    rw [hgbirth, if_neg hrel, if_neg hnotReady, List.append_nil, hrecords,
      if_neg fun hm => Nat.lt_irrefl _ (hlast _ hm)]
    exact ⟨(newTask_congr hgbirth hid).symm, rfl⟩

/-- **Adding a task and finishing one of its parents commute.** -/
theorem add_finish :
    (s.add request parents).finish x output = (s.finish x output).add request parents := by
  refine ext ?_ (fun i => ?_) (add_finish_new hwf hp hx hxp hr).2
  · rw [finish_size, add_size, add_size, finish_size]
  · by_cases hi : i = s.size
    · subst hi
      rw [(add_finish_new hwf hp hx hxp hr).1]
      exact (add_task_new (s := s.finish x output) request parents).symm
    · rw [add_finish_old hwf hp hx hxp hi]
      exact (add_task_other (s := s.finish x output) hi).symm

end finish

/-! ## Serving the ending -/

section serve
variable (hwf : s.WF) (hnew : s.find? request.taskId = none) (hp : ∀ p ∈ parents, p < s.size)
include hwf hnew hp

/-- An id that is known is found at its old place. -/
theorem add_find?_old {t : String} (hi : s.find? t = some i) :
    (s.add request parents).find? t = some i := by
  have hne : t ≠ request.taskId := by
    rintro rfl
    rw [hnew] at hi
    cases hi
  rw [hwf.find?_add hnew hp, if_neg hne, hi]

/-- **A `task_cancel` answers the same and leads to the same graph** before and after a
`task_add`. -/
theorem add_serveCancel {cancel : TaskCancelRequest} (hx : s.find? cancel.taskId = some x)
    (hgood : ∀ p ∈ parents, ¬ (s.task p).state.IsBad) :
    (s.add request parents).serveCancel cancel =
      ((s.serveCancel cancel).1, (s.serveCancel cancel).2.add request parents) := by
  have hlt := (find?_some hx).1
  unfold serveCancel
  rw [add_find?_old hwf hnew hp hx, hx]
  dsimp only
  rw [add_task_old _ _ hlt]
  by_cases hl : (s.task x).state.isLive = true
  · rw [if_pos hl, if_pos hl]
    unfold TaskGraph.cancel
    rw [add_endBadly hwf hnew hp (.inr rfl) hlt hl hgood]
  · rw [if_neg hl, if_neg hl]

/-- **A `task_done` answers the same and leads to the same graph** before and after a `task_add`, if
it reports a failure and no parent of the new task has ended badly, or if it reports a success of
one of the parents. -/
theorem add_serveDone {done : TaskDoneRequest} (hx : s.find? done.taskId = some x)
    (h : done.failed = true ∧ (∀ p ∈ parents, ¬ (s.task p).state.IsBad) ∨
      done.failed = false ∧ x ∈ parents) :
    (s.add request parents).serveDone done =
      ((s.serveDone done).1, (s.serveDone done).2.add request parents) := by
  have hlt := (find?_some hx).1
  unfold serveDone
  rw [add_find?_old hwf hnew hp hx, hx]
  dsimp only
  rw [add_task_old _ _ hlt]
  split
  · rfl
  split
  · rfl
  next hr =>
    rw [not_not] at hr
    split
    · rfl
    rcases h with ⟨hf, hgood⟩ | ⟨hf, hxp⟩
    · have hl : (s.task x).state.isLive = true := by rw [hr]; rfl
      rw [if_pos hf, if_pos hf]
      unfold fail
      rw [add_task_old _ _ hlt, add_endBadly hwf hnew hp (.inl rfl) hlt hl hgood]
    · have hnf : ¬ done.failed = true := by rw [hf]; exact Bool.false_ne_true
      rw [if_neg hnf, if_neg hnf, add_finish hwf hp hlt hxp hr]

end serve

/-- A `task_cancel` finishes nothing. -/
theorem serveCancel_finished {cancel : TaskCancelRequest} :
    ((s.serveCancel cancel).2.task i).state = .finished ↔ (s.task i).state = .finished := by
  unfold serveCancel
  split
  · exact .rfl
  · split
    · next hl => exact endBadly_finished (.inr rfl) hl
    · exact .rfl

/-- A `task_done` finishes at most the task it reports, and only if it reports a success. -/
theorem serveDone_finished {done : TaskDoneRequest}
    (h : done.failed = true ∨ s.find? done.taskId ≠ some i) :
    ((s.serveDone done).2.task i).state = .finished ↔ (s.task i).state = .finished := by
  unfold serveDone
  split
  · exact .rfl
  next x hx =>
    split
    · exact .rfl
    split
    · exact .rfl
    next hr =>
      rw [not_not] at hr
      split
      · exact .rfl
      split
      · exact endBadly_finished (.inl rfl) (by rw [hr]; rfl)
      · next hnf =>
          have hix : i ≠ x := by
            rintro rfl
            exact h.elim hnf fun hne => hne hx
          dsimp only
          rw [finish_finished, settle_task, if_neg hix]

/-- A finished task stays finished under a `task_done`. -/
theorem serveDone_keeps {done : TaskDoneRequest} (hf : (s.task i).state = .finished) :
    ((s.serveDone done).2.task i).state = .finished := by
  by_cases h : s.find? done.taskId = some i
  · unfold serveDone
    rw [h]
    dsimp only
    rw [hf]
    exact hf
  · exact (serveDone_finished (.inr h)).2 hf

end TaskGraph

end DsService

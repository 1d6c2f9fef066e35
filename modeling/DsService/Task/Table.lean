import DsService.Task.History

/-!
# The table stays in shape

Indices are kept in four places: the index of ids, the entries of the queues, the child lists and
the column of origins. `no_dangling_index` says that in every reachable state all of them point at
rows, that the twelve columns have one length, and so that no call makes an access out of bounds.
-/

namespace DsService

variable {Q α : Type}

/-- All twelve columns have `n` values. -/
structure TaskTable.Rectangular (t : TaskTable α) (n : Nat) : Prop where
  taskId : t.taskId.length = n
  function : t.function.length = n
  input : t.input.length = n
  output : t.output.length = n
  state : t.state.length = n
  workerId : t.workerId.length = n
  priority : t.priority.length = n
  queues : t.queues.length = n
  seq : t.seq.length = n
  pendingParents : t.pendingParents.length = n
  children : t.children.length = n
  terminalOrigin : t.terminalOrigin.length = n

/-- The columns of rows are all of one length. -/
theorem Rows.rectangular (v : Rows Q α) : v.manager.tasks.Rectangular v.size :=
  ⟨tab.length, tab.length, tab.length, tab.length, tab.length, tab.length, tab.length, tab.length,
    tab.length, tab.length, tab.length, tab.length⟩

/-- Row `i` of the table holds what the request asked for. -/
structure TaskTable.Holds (t : TaskTable α) (i : Nat) (request : TaskAddRequest α) : Prop where
  taskId : t.taskId[i]? = some request.taskId
  function : t.function[i]? = some request.function
  input : t.input[i]? = some request.input
  queues : t.queues[i]? = some request.queue

/-- `c` is listed among the children of `p`. -/
def TaskTable.Child (t : TaskTable α) (p c : Nat) : Prop :=
  ∃ children, t.children[p]? = some children ∧ c ∈ children

/-- The six counts of a state column without undefined states. -/
theorem count_states {l : List TaskState} (h : ∀ state ∈ l, state ≠ .undefined) :
    l.count .waiting + l.count .ready + l.count .running + l.count .finished + l.count .failed +
      l.count .canceled = l.length := by
  induction l with
  | nil => rfl
  | cons a l ih =>
      have hl := ih fun state hs => h state (.tail _ hs)
      have ha := h a (.head _)
      simp only [List.count_cons, List.length_cons]
      cases a <;> simp at ha ⊢ <;> omega

/-- A relation that goes upwards has no cycle. -/
theorem not_transGen_self {r : Nat → Nat → Prop} (h : ∀ {a b}, r a b → a < b) (a : Nat) :
    ¬ Relation.TransGen r a a := by
  have hlt : ∀ {a b}, Relation.TransGen r a b → a < b := by
    intro a b hab
    induction hab with
    | single hr => exact h hr
    | tail _ hr ih => exact Nat.lt_trans ih (h hr)
  exact fun haa => Nat.lt_irrefl a (hlt haa)

variable [LinearOrder α] [PriorityQueue Q (TaskQueueEntry α) taskQueueEntryOrder]
variable {re2 : RE2} {es : List (TaskEvent Q α)} {m : TaskManager Q α} {s : TaskGraph α}

/-- A child list of the rows is the one of the table. -/
theorem RefinesWith.child {pend : Nat → Nat} {v : Rows Q α} (h : RefinesWith pend v s) {p c : Nat}
    (hc : v.manager.tasks.Child p c) : p < c ∧ c < s.size := by
  obtain ⟨children, hget, hmem⟩ := hc
  have hp : p < v.size := by
    have := (List.getElem?_eq_some_iff.1 hget).1
    rwa [v.rectangular.children] at this
  rw [Rows.children_manager hp, Option.some.injEq] at hget
  subst hget
  exact h.children_lt (h.size ▸ hp) hmem

/-- **No dangling index.** In every reachable state, with one row for each successful `task_add`:
the columns have one length; the index and the id column are inverse to each other; the six counts
add up; every index in a queue, a child list or the column of origins is that of a row; child lists
point upwards, so there are no cycles; a row holds what its request asked for; and every call is
defined, which is to say that its accesses are in bounds. -/
theorem no_dangling_index (h : (TaskManager.machine Q re2).Run es m) :
    m.tasks.Rectangular (adds es).length ∧
    (∀ t (i : Nat), m.taskIndex.lookup t = some i ↔ m.tasks.taskId[i]? = some t) ∧
    m.tasks.taskId.Nodup ∧
    (∀ counts, m.getCountByState = .ok counts → counts.waiting + counts.ready + counts.running +
      counts.finished + counts.failed + counts.canceled = (adds es).length) ∧
    (∀ qname q, m.queue.lookup qname = some q →
      ∀ e ∈ PriorityQueue.elems (α := TaskQueueEntry α) q, e.index < (adds es).length) ∧
    (∀ p c, m.tasks.Child p c → p < c ∧ c < (adds es).length) ∧
    (∀ p, ¬ Relation.TransGen m.tasks.Child p p) ∧
    (∀ (i : Nat) origin, m.tasks.terminalOrigin[i]? = some origin → origin < (adds es).length) ∧
    (∀ (i : Nat) request, (adds es)[i]? = some request → m.tasks.Holds i request) ∧
    ∀ op, ∃ r m', m.step re2 op = some (r, m') := by
  obtain ⟨s, hc⟩ := TaskManager.exists_taskRun h
  obtain ⟨hlen, hall⟩ := hc.recorded
  have hdefined : ∀ op, ∃ r m', m.step re2 op = some (r, m') := by
    intro op
    obtain ⟨r, m', _, hs, -⟩ := (TaskManager.simulation re2).step op hc.related
    exact ⟨r, m', hs⟩
  obtain ⟨hwf, v, rfl, href⟩ := hc.related
  have hid : ∀ (i : Nat) t, v.manager.tasks.taskId[i]? = some t ↔
      i < s.size ∧ (s.task i).taskId = t := by
    intro i t
    by_cases hi : i < s.size
    · rw [Rows.taskId_manager (href.size ▸ hi), href.row hi, Option.some.injEq]
      simp [hi, TaskGraph.rowOf]
    · have hnone : v.manager.tasks.taskId[i]? = none :=
        List.getElem?_eq_none (by rw [v.rectangular.taskId, href.size]; omega)
      simp [hnone, hi]
  rw [hlen]
  refine ⟨href.size ▸ v.rectangular, ?_, ?_, ?_, ?_, ?_, ?_, ?_, ?_, hdefined⟩
  · intro t i
    rw [href.lookup_eq, hwf.find?_eq, hid]
  · rw [List.nodup_iff_getElem?_ne_getElem?]
    intro i j hij hj heq
    have hjs : j < s.size := by rwa [v.rectangular.taskId, href.size] at hj
    have hjt := (hid j _).2 ⟨hjs, rfl⟩
    obtain ⟨his, hit⟩ := (hid i _).1 (heq.trans hjt)
    exact Nat.ne_of_lt hij (hwf.ids his hjs hit)
  · intro counts hcounts
    rw [href.getCountByState] at hcounts
    cases hcounts
    simp only [← href.count_state]
    rw [count_states, v.rectangular.state, href.size]
    intro state hst
    rw [href.state_column] at hst
    obtain ⟨i, hi, rfl⟩ := List.mem_map.1 hst
    exact hwf.defined (List.mem_range.1 hi)
  · intro qname q hq e he
    rw [← entries_lookup hq] at he
    exact href.entry_lt hwf he
  · exact fun p c hpc => href.child hpc
  · exact not_transGen_self fun hpc => (href.child hpc).1
  · intro i origin hi
    have hiv : i < v.size := by
      have := (List.getElem?_eq_some_iff.1 hi).1
      rwa [v.rectangular.terminalOrigin] at this
    have his : i < s.size := href.size ▸ hiv
    rw [Rows.terminalOrigin_manager hiv, href.row his, Option.some.injEq] at hi
    subst hi
    exact Nat.lt_of_le_of_lt (hwf.origin_le his) his
  · intro i request hi
    have his : i < s.size := hlen ▸ (List.getElem?_eq_some_iff.1 hi).1
    have hiv : i < v.size := href.size ▸ his
    have hrec := hall i request hi
    refine ⟨?_, ?_, ?_, ?_⟩
    · rw [Rows.taskId_manager hiv, href.row his, ← hrec.taskId]; rfl
    · rw [Rows.function_manager hiv, href.row his, ← hrec.function]; rfl
    · rw [Rows.input_manager hiv, href.row his, ← hrec.input]; rfl
    · rw [Rows.queues_manager hiv, href.row his, ← hrec.queues]; rfl

/-- The last row of the diamond holds what was asked for. -/
theorem no_dangling_index_diamond : (sampleRun diamond).2.tasks.Holds 3 diamondLast :=
  (no_dangling_index (run_sampleRun diamond rfl)).2.2.2.2.2.2.2.2.1 3 diamondLast rfl

end DsService

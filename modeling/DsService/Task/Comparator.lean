import DsService.Task.Schedule

/-!
# The comparator on what can be queued

`std::priority_queue` asks of `TaskQueueEntryOrder` that it be a strict weak order on the entries of
every queue. Three of the four laws hold of all entries, but an entry whose priority is NaN is
incomparable with every other, so the fourth fails as soon as a queue that holds one also holds two
entries that compare (`taskQueueEntryOrder_strictWeakOn_iff`). Nothing between a client and the heap
rejects NaN, so it can be queued; a run whose calls pass numbers only keeps the law in every queue.
-/

namespace DsService

variable {Q α : Type} [LinearOrder α]

/-! ## Which laws NaN breaks -/

/-- Only numbers compare. -/
theorem taskQueueEntryOrder_ne_nan {a b : TaskQueueEntry α} (h : taskQueueEntryOrder a b = true) :
    a.priority ≠ .nan ∧ b.priority ≠ .nan := by
  unfold taskQueueEntryOrder at h
  constructor
  · intro ha
    rw [ha] at h
    cases h
  · intro hb
    rw [hb] at h
    cases ha : a.priority <;> rw [ha] at h <;> cases h

/-- An entry with priority NaN is incomparable with every entry. -/
theorem taskQueueEntryOrder_nan {a : TaskQueueEntry α} (ha : a.priority = .nan)
    (b : TaskQueueEntry α) : taskQueueEntryOrder a b = false ∧ taskQueueEntryOrder b a = false := by
  constructor
  · exact Bool.eq_false_iff.2 fun h => (taskQueueEntryOrder_ne_nan h).1 ha
  · exact Bool.eq_false_iff.2 fun h => (taskQueueEntryOrder_ne_nan h).2 ha

/-- No entry comes before itself. -/
theorem taskQueueEntryOrder_irrefl (a : TaskQueueEntry α) : taskQueueEntryOrder a a = false := by
  refine Bool.eq_false_iff.2 fun h => ?_
  have ha := (taskQueueEntryOrder_ne_nan h).1
  rw [taskQueueEntryOrder_strictWeak.irrefl a ha] at h
  cases h

/-- Of two entries at most one comes before the other. -/
theorem taskQueueEntryOrder_asymm {a b : TaskQueueEntry α} (h : taskQueueEntryOrder a b = true) :
    taskQueueEntryOrder b a = false := by
  obtain ⟨ha, hb⟩ := taskQueueEntryOrder_ne_nan h
  exact taskQueueEntryOrder_strictWeak.asymm a b ha hb h

/-- The order of the entries is transitive, with NaN among them too. -/
theorem taskQueueEntryOrder_trans {a b c : TaskQueueEntry α} (hab : taskQueueEntryOrder a b = true)
    (hbc : taskQueueEntryOrder b c = true) : taskQueueEntryOrder a c = true := by
  obtain ⟨ha, hb⟩ := taskQueueEntryOrder_ne_nan hab
  have hc := (taskQueueEntryOrder_ne_nan hbc).2
  exact taskQueueEntryOrder_strictWeak.trans a b c ha hb hc hab hbc

/-- **The comparator is a strict weak order on a set of entries exactly when none of them has NaN as
its priority or no two of them compare.** -/
theorem taskQueueEntryOrder_strictWeakOn_iff {s : TaskQueueEntry α → Prop} :
    StrictWeakOn taskQueueEntryOrder s ↔
      (∀ e, s e → e.priority ≠ .nan) ∨ ∀ a b, s a → s b → taskQueueEntryOrder a b = false := by
  constructor
  · intro h
    by_cases hnan : ∃ e, s e ∧ e.priority = .nan
    · -- everything is incomparable with the entry `e`, so all entries are with each other
      obtain ⟨e, he, hp⟩ := hnan
      refine .inr fun a b ha hb => ?_
      have hae := taskQueueEntryOrder_nan hp a
      have heb := taskQueueEntryOrder_nan hp b
      exact (h.incomp a e b ha he hb hae.2 hae.1 heb.1 heb.2).1
    · exact .inl fun e he hp => hnan ⟨e, he, hp⟩
  · rintro (h | h)
    · exact taskQueueEntryOrder_strictWeak.mono h
    · constructor
      case irrefl => exact fun a _ => taskQueueEntryOrder_irrefl a
      case asymm => exact fun a b _ _ hab => taskQueueEntryOrder_asymm hab
      case trans => exact fun a b c _ _ _ hab hbc => taskQueueEntryOrder_trans hab hbc
      case incomp => exact fun a b c ha _ hc _ _ _ _ => ⟨h a c ha hc, h c a hc ha⟩

/-! ## Runs -/

variable [PriorityQueue Q (TaskQueueEntry α) taskQueueEntryOrder]

/-- The comparator is what `std::priority_queue` requires on every queue. -/
def TaskManager.Ordered (m : TaskManager Q α) : Prop :=
  ∀ qname, StrictWeakOn taskQueueEntryOrder (· ∈ entries m.queue qname)

/-- Two tasks of priority `x` around one whose priority is NaN, in one queue. -/
def nanBetween (x : α) : List (TaskOp α) :=
  [.add ⟨"a", [], ["q"], .num x, "f", "1"⟩, .add ⟨"b", [], ["q"], .nan, "f", "2"⟩,
    .add ⟨"c", [], ["q"], .num x, "f", "3"⟩]

variable {re2 : RE2} {es : List (TaskEvent Q α)} {m : TaskManager Q α} {s : TaskGraph α}

/-- The priorities of a run are those its calls pass. -/
theorem TaskRun.prioritiesIn {P : Double α → Prop} (h : TaskRun re2 es m s)
    (hops : ∀ e ∈ es, ∀ p, e.op.priority? = some p → P p) : s.PrioritiesIn P := by
  refine Machine.Coupled.invariant
    (I := fun es _ s => (∀ e ∈ es, ∀ p, e.op.priority? = some p → P p) → s.PrioritiesIn P)
    ?_ ?_ h hops
  · exact fun _ => .empty
  · intro es m s op r m' s' _ ih _ hserve _ hops
    exact hserve.change.prioritiesIn (hops ⟨m, op, r, m'⟩ (List.mem_append_right _ (.head _)))
      (ih fun e he => hops e (List.mem_append_left _ he))

/-- An entry of a queue has a priority that some call of the run passed. -/
theorem TaskRun.entry_priority {P : Double α → Prop} (h : TaskRun re2 es m s)
    (hops : ∀ e ∈ es, ∀ p, e.op.priority? = some p → P p) {qname : String} {e : TaskQueueEntry α}
    (he : e ∈ entries m.queue qname) : P e.priority := by
  obtain ⟨-, v, rfl, href⟩ := h.related
  exact (h.prioritiesIn hops).log _ (List.mem_of_getElem? (href.queued.entry he).2.2)

/-- The run of `nanBetween` and the entries that it leaves in the queue. -/
theorem run_nanBetween (re2 : RE2) (x : α) :
    ∃ es m, (TaskManager.machine Q re2).Run es m ∧ es.map (·.op) = nanBetween x ∧
      entries m.queue "q" = {⟨.num x, 3, 2⟩, ⟨.nan, 2, 1⟩, ⟨.num x, 1, 0⟩} := by
  have htrace : ((TaskManager.machine Q re2).trace (TaskManager.machine Q re2).init
      (nanBetween x)).isSome = true := rfl
  refine ⟨_, _, Machine.run_runOf _ htrace, rfl, ?_⟩
  show PriorityQueue.elems (PriorityQueue.push (PriorityQueue.push (PriorityQueue.push
    (PriorityQueue.empty : Q) ⟨.num x, 1, 0⟩) ⟨.nan, 2, 1⟩) ⟨.num x, 3, 2⟩) = _
  rw [PriorityQueue.elems_push, PriorityQueue.elems_push, PriorityQueue.elems_push,
    PriorityQueue.elems_empty]
  rfl

/-- **The comparator is a strict weak order on every queue exactly when NaN is not passed among the
numbers.** Let the clients pass priorities out of a set only. In every state that every such run
reaches, and in every queue, the comparator is irreflexive, asymmetric and transitive with
transitive incomparability, if and only if NaN is not in the set or no number is. -/
theorem queues_ordered_iff (re2 : RE2) (passed : Double α → Prop) :
    (∀ es m, (TaskManager.machine Q re2).Run es m →
        (∀ e ∈ es, ∀ p, e.op.priority? = some p → passed p) → m.Ordered) ↔
      ¬ passed .nan ∨ ∀ x, ¬ passed (.num x) := by
  constructor
  · intro h
    by_contra hboth
    obtain ⟨hnan, x, hx⟩ : passed .nan ∧ ∃ x, passed (.num x) := by
      simpa only [not_or, not_not, not_forall] using hboth
    obtain ⟨es, m, hrun, hops, hq⟩ := run_nanBetween (Q := Q) re2 x
    have hpass : ∀ e ∈ es, ∀ p, e.op.priority? = some p → passed p := by
      intro e he p hp
      have hop : e.op ∈ nanBetween x := hops ▸ List.mem_map_of_mem he
      simp only [nanBetween, List.mem_cons, List.not_mem_nil, or_false] at hop
      rcases hop with hop | hop | hop <;> rw [hop] at hp <;> cases hp
      · exact hx
      · exact hnan
      · exact hx
    have hord := h es m hrun hpass "q"
    rw [hq, taskQueueEntryOrder_strictWeakOn_iff] at hord
    rcases hord with hord | hord
    · exact hord ⟨.nan, 2, 1⟩ (by simp) rfl
    · -- the later of the two tasks of equal priority is the smaller entry
      have hlt : taskQueueEntryOrder (⟨.num x, 3, 2⟩ : TaskQueueEntry α) ⟨.num x, 1, 0⟩ = true :=
        (taskQueueEntryOrder_num rfl rfl).2 (.inr ⟨rfl, show 1 < 3 by decide⟩)
      rw [hord _ _ (by simp) (by simp)] at hlt
      cases hlt
  · intro hset es m hrun hops qname
    obtain ⟨s, hc⟩ := TaskManager.exists_taskRun hrun
    have hpassed : ∀ e, e ∈ entries m.queue qname → passed e.priority :=
      fun e he => hc.entry_priority hops he
    rw [taskQueueEntryOrder_strictWeakOn_iff]
    rcases hset with hnan | hnum
    · refine .inl fun e he hp => hnan ?_
      rw [← hp]
      exact hpassed e he
    · refine .inr fun a b ha _ => Bool.eq_false_iff.2 fun hlt => ?_
      obtain ⟨x, hx⟩ := Double.eq_num (taskQueueEntryOrder_ne_nan hlt).1
      exact hnum x (hx ▸ hpassed a ha)

/-- Three tasks whose priorities are 2, NaN and 1: both numbers are incomparable with NaN, but they
compare. -/
def nanAmongNumbers : List (TaskOp Nat) :=
  [.add ⟨"a", [], ["q"], .num 2, "f", "1"⟩, .add ⟨"b", [], ["q"], .nan, "f", "2"⟩,
    .add ⟨"c", [], ["q"], .num 1, "f", "3"⟩]

/-- **With NaN among numbers the entries have no strict weak order.** -/
theorem nanAmongNumbers_not_ordered :
    sampleMachine.Run (sampleRun nanAmongNumbers).1 (sampleRun nanAmongNumbers).2 ∧
      ¬ (sampleRun nanAmongNumbers).2.Ordered := by
  refine ⟨run_sampleRun nanAmongNumbers rfl, fun hord => ?_⟩
  have hincomp := ((hord "q").incomp ⟨.num 1, 3, 2⟩ ⟨.nan, 2, 1⟩ ⟨.num 2, 1, 0⟩ (by decide)
    (by decide) (by decide) rfl rfl rfl rfl).1
  revert hincomp
  decide

end DsService

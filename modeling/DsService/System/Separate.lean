import DsService.Lib.Locality
import DsService.Store.Calls
import DsService.Store.Ownership
import DsService.System.Keys
import DsService.System.Refusal
import DsService.Task.Restrict

/-!
# Clients that share no names

Clients that keep to names of their own do not notice one another. `Names` is a set of keys of each
store, of task ids and of queues. In a run whose calls each stay within the names or outside of
them, the calls within are answered as if the others had not been made
(`separate_names_do_not_interfere`). Every keyed call acts on the cell of its key; for the tasks
this is `TaskGraph.Part`.
-/

namespace DsService

variable {Q α : Type}

/-! ## The cell of a call -/

def MapOp.key? : MapOp → Option String
  | .set request => some request.key
  | .get request => some request.key
  | .searchKey _ => none

def JournalOp.key? : JournalOp → Option String
  | .size request => some request.key
  | .read request => some request.key
  | .append request => some request.key
  | .searchKey _ => none

def TimeSeriesOp.key? : TimeSeriesOp α → Option String
  | .append request => some request.key
  | .get request => some request.key
  | .searchKey _ => none

def CounterOp.key? : CounterOp → Option String
  | .getNextValue request => some request.key
  | .getCurrentValue request => some request.key
  | .searchKey _ => none

section acts

variable {re2 : RE2} {iso : Iso8601} {k : String}

/-- A call on the map reads and writes its key only. -/
theorem Map.actsOn {op : MapOp} (hk : op.key? = some k) :
    Machine.ActsOn (Map.step re2) (fun self k => self.data.lookup k) op k := by
  cases op with
  | set request =>
      cases hk
      constructor
      · intro m n r m' _ hs
        cases hs
        exact ⟨_, rfl, by rw [AList.lookup_insert, AList.lookup_insert]⟩
      · intro m r m' k' hs hne
        cases hs
        exact AList.lookup_insert_ne hne
  | get request =>
      cases hk
      constructor
      · intro m n r m' hcell hs
        cases hs
        refine ⟨n, ?_, hcell⟩
        simp only [step, get] at hcell ⊢
        rw [hcell]
      · intro m r m' k' hs _
        cases hs
        rfl
  | searchKey => cases hk

/-- A call on the journals reads and writes its key only. -/
theorem JournalMap.actsOn {op : JournalOp} (hk : op.key? = some k) :
    Machine.ActsOn (JournalMap.step re2) (fun self k => self.data.lookup k) op k := by
  cases op with
  | size request =>
      cases hk
      constructor
      · intro m n r m' hcell hs
        cases hs
        refine ⟨n, ?_, hcell⟩
        simp only [step, size] at hcell ⊢
        rw [hcell]
      · intro m r m' k' hs _
        cases hs
        rfl
  | read request =>
      cases hk
      have hread : ∀ {m n : JournalMap}, m.data.lookup request.key = n.data.lookup request.key →
          m.read request = n.read request := fun hcell => by unfold read; rw [hcell]
      constructor
      · intro m n r m' hcell hs
        obtain ⟨result, hr, heq⟩ := Option.bind_eq_some_iff.1 hs
        cases heq
        rw [hread hcell] at hr
        exact ⟨n, Option.bind_eq_some_iff.2 ⟨result, hr, rfl⟩, hcell⟩
      · intro m r m' k' hs _
        obtain ⟨result, -, heq⟩ := Option.bind_eq_some_iff.1 hs
        cases heq
        rfl
  | append request =>
      cases hk
      constructor
      · intro m n r m' hcell hs
        cases hs
        refine ⟨_, rfl, ?_⟩
        dsimp only at hcell ⊢
        rw [AList.lookup_insert, AList.lookup_insert, hcell]
      · intro m r m' k' hs hne
        cases hs
        exact AList.lookup_insert_ne hne
  | searchKey => cases hk

/-- A call on the time series reads and writes its key only. -/
theorem TimeSeriesMap.actsOn {op : TimeSeriesOp α} (hk : op.key? = some k) :
    Machine.ActsOn (TimeSeriesMap.step re2 iso) (fun self k => self.data.lookup k) op k := by
  cases op with
  | append request =>
      cases hk
      constructor
      · intro m n r m' hcell hs
        cases hparse : iso.parse request.datetime with
        | none =>
            simp only [step, append, hparse, Option.some.injEq, Prod.mk.injEq] at hs ⊢
            obtain ⟨rfl, rfl⟩ := hs
            exact ⟨n, ⟨rfl, rfl⟩, hcell⟩
        | some tp =>
            simp only [step, append, hparse, Option.some.injEq, Prod.mk.injEq] at hs ⊢
            obtain ⟨rfl, rfl⟩ := hs
            refine ⟨_, ⟨rfl, rfl⟩, ?_⟩
            simp only [AList.lookup_insert, hcell]
      · intro m r m' k' hs hne
        cases hparse : iso.parse request.datetime with
        | none =>
            simp only [step, append, hparse, Option.some.injEq, Prod.mk.injEq] at hs
            rw [← hs.2]
        | some tp =>
            simp only [step, append, hparse, Option.some.injEq, Prod.mk.injEq] at hs
            rw [← hs.2]
            exact AList.lookup_insert_ne hne
  | get request =>
      cases hk
      have hget : ∀ {m n : TimeSeriesMap α},
          m.data.lookup request.key = n.data.lookup request.key →
          m.get iso request = n.get iso request := fun hcell => by unfold get; rw [hcell]
      constructor
      · intro m n r m' hcell hs
        obtain ⟨result, hr, heq⟩ := Option.bind_eq_some_iff.1 hs
        cases heq
        rw [hget hcell] at hr
        exact ⟨n, Option.bind_eq_some_iff.2 ⟨result, hr, rfl⟩, hcell⟩
      · intro m r m' k' hs _
        obtain ⟨result, -, heq⟩ := Option.bind_eq_some_iff.1 hs
        cases heq
        rfl
  | searchKey => cases hk

/-- A call on the mutexes reads and writes its key only. -/
theorem Mutexes.actsOn {op : MutexOp} (hk : op.key? = some k) :
    Machine.ActsOn (Mutexes.step re2) (fun self k => self.data.lookup k) op k where
  alike hcell hs := step_congr hs hk hcell
  other hs hne := step_other hs fun heq => hne (Option.some.inj (heq.symm.trans hk))

/-- A call on the counters reads and writes its key only. -/
theorem Counters.actsOn {op : CounterOp} (hk : op.key? = some k) :
    Machine.ActsOn (Counters.step re2) (fun self k => self.data.lookup k) op k := by
  cases op with
  | getNextValue request =>
      cases hk
      constructor
      · intro m n r m' hcell hs
        cases hs
        simp only [step, getNextValue] at hcell ⊢
        rw [hcell]
        exact ⟨_, rfl, by rw [AList.lookup_insert, AList.lookup_insert]⟩
      · intro m r m' k' hs hne
        cases hs
        exact AList.lookup_insert_ne hne
  | getCurrentValue request =>
      cases hk
      constructor
      · intro m n r m' hcell hs
        cases hs
        refine ⟨n, ?_, hcell⟩
        simp only [step, getCurrentValue] at hcell ⊢
        rw [hcell]
      · intro m r m' k' hs _
        cases hs
        rfl
  | searchKey => cases hk

end acts

/-! ## Names -/

/-- A set of keys of each store, with the task ids as the keys of the tasks, and a set of queues. -/
structure Names where
  key : Store → String → Bool
  queue : String → Bool

namespace Names

/-- The names that are not among these. -/
def others (c : Names) : Names := ⟨fun store k => !c.key store k, fun q => !c.queue q⟩

/-- The task ids and the queues. -/
def tasks (c : Names) : TaskScope := ⟨c.key .tasks, c.queue⟩

end Names

/-- The call uses these names only. A search uses all names of its store, and so do the counts of
the tasks. -/
def SystemOp.Within (c : Names) : SystemOp α → Prop
  | .map op => op.key?.any (c.key .map) = true
  | .journalMap op => op.key?.any (c.key .journals) = true
  | .timeSeries op => op.key?.any (c.key .timeSeries) = true
  | .mutexes op => op.key?.any (c.key .mutexes) = true
  | .counters op => op.key?.any (c.key .counters) = true
  | .taskManager op => op.Within c.tasks

instance (c : Names) : ∀ op : SystemOp α, Decidable (op.Within c)
  | .map op => inferInstanceAs (Decidable (op.key?.any (c.key .map) = true))
  | .journalMap op => inferInstanceAs (Decidable (op.key?.any (c.key .journals) = true))
  | .timeSeries op => inferInstanceAs (Decidable (op.key?.any (c.key .timeSeries) = true))
  | .mutexes op => inferInstanceAs (Decidable (op.key?.any (c.key .mutexes) = true))
  | .counters op => inferInstanceAs (Decidable (op.key?.any (c.key .counters) = true))
  | .taskManager op => inferInstanceAs (Decidable (op.Within c.tasks))

/-- The call stays on one side of the names, and sets no priority to NaN. -/
def SystemOp.Sided (c : Names) (op : SystemOp α) : Prop :=
  (op.Within c ∨ op.Within c.others) ∧ op.numeric = true

instance (c : Names) (op : SystemOp α) : Decidable (op.Sided c) :=
  inferInstanceAs (Decidable (_ ∧ _))

variable [LinearOrder α] [PriorityQueue Q (TaskQueueEntry α) taskQueueEntryOrder]

namespace SystemState

/-- The two states have the same cells under the names, and the tasks of `n` are the part of the
tasks of `m` there. -/
structure Agree (c : Names) (m n : SystemState Q α) : Prop where
  map : ∀ k, c.key .map k = true → m.map.data.lookup k = n.map.data.lookup k
  journals : ∀ k, c.key .journals k = true →
    m.journalMap.data.lookup k = n.journalMap.data.lookup k
  timeSeries : ∀ k, c.key .timeSeries k = true →
    m.timeSeries.data.lookup k = n.timeSeries.data.lookup k
  mutexes : ∀ k, c.key .mutexes k = true → m.mutexes.data.lookup k = n.mutexes.data.lookup k
  counters : ∀ k, c.key .counters k = true → m.counters.data.lookup k = n.counters.data.lookup k
  tasks : ∃ ι s t, m.taskManager.Represents s ∧ n.taskManager.Represents t ∧ s.AllNumeric ∧
    TaskGraph.Part c.tasks ι s t

variable {c : Names} {re2 : RE2} {iso : Iso8601} {m m' n : SystemState Q α} {op : SystemOp α}
variable {r : SystemReply α}

/-- Two empty servers agree on every name. -/
theorem agree_init (c : Names) : Agree c ({} : SystemState Q α) {} where
  map _ _ := rfl
  journals _ _ := rfl
  timeSeries _ _ := rfl
  mutexes _ _ := rfl
  counters _ _ := rfl
  tasks :=
    have hinit : ({} : TaskManager Q α).Represents TaskGraph.empty := ⟨.empty, _, rfl, .empty⟩
    ⟨id, _, _, hinit, hinit, .empty, .empty _ _⟩

/-- A call within the names is answered alike, and the states agree after it. -/
theorem Agree.within (h : Agree c m n) (hop : op.Within c) (hnum : op.numeric = true)
    (hs : step re2 iso m op = some (r, m')) :
    ∃ n', step re2 iso n op = some (r, n') ∧ Agree c m' n' := by
  have hkey : ∀ {key : Option String} {p : String → Bool}, key.any p = true →
      ∃ k, key = some k ∧ p k = true := by
    intro key p hany
    cases key with
    | none => cases hany
    | some k => exact ⟨k, rfl, hany⟩
  cases step_served hs with
  | map hmap =>
      obtain ⟨k, hk, hck⟩ := hkey hop
      obtain ⟨n', hn, hcell⟩ := (Map.actsOn hk).agree hck h.map hmap
      exact ⟨_, Option.bind_eq_some_iff.2 ⟨_, hn, rfl⟩, { h with map := hcell }⟩
  | journalMap hjournal =>
      obtain ⟨k, hk, hck⟩ := hkey hop
      obtain ⟨n', hn, hcell⟩ := (JournalMap.actsOn hk).agree hck h.journals hjournal
      exact ⟨_, Option.bind_eq_some_iff.2 ⟨_, hn, rfl⟩, { h with journals := hcell }⟩
  | timeSeries hseries =>
      obtain ⟨k, hk, hck⟩ := hkey hop
      obtain ⟨n', hn, hcell⟩ := (TimeSeriesMap.actsOn hk).agree hck h.timeSeries hseries
      exact ⟨_, Option.bind_eq_some_iff.2 ⟨_, hn, rfl⟩, { h with timeSeries := hcell }⟩
  | mutexes hmutex =>
      obtain ⟨k, hk, hck⟩ := hkey hop
      obtain ⟨n', hn, hcell⟩ := (Mutexes.actsOn hk).agree hck h.mutexes hmutex
      exact ⟨_, Option.bind_eq_some_iff.2 ⟨_, hn, rfl⟩, { h with mutexes := hcell }⟩
  | counters hcounter =>
      obtain ⟨k, hk, hck⟩ := hkey hop
      obtain ⟨n', hn, hcell⟩ := (Counters.actsOn hk).agree hck h.counters hcounter
      exact ⟨_, Option.bind_eq_some_iff.2 ⟨_, hn, rfl⟩, { h with counters := hcell }⟩
  | @taskManager op reply taskManager htask =>
      obtain ⟨ι, s, t, hrep, hrep', hall, hpart⟩ := h.tasks
      have hsim := TaskManager.simulation (Q := Q) (α := α) re2
      obtain ⟨s', hserve, hrep₁⟩ := hsim.serves hrep htask
      obtain ⟨ι', t', hserve', hpart'⟩ := hpart.serve_within hrep.1 hall.log hop hserve
      obtain ⟨reply', n', t'', hn, hserve'', hrep₂⟩ := hsim.step op hrep'
      -- the part has one way to serve the call, and the task manager takes it
      obtain ⟨rfl, rfl⟩ := hserve'.unique (hpart.numeric hall.log) hserve''
      have hn' : n.taskManager.step re2 op = some (reply, n') := hn
      exact ⟨_, Option.bind_eq_some_iff.2 ⟨_, hn', rfl⟩,
        { h with tasks := ⟨ι', s', t', hrep₁, hrep₂, hserve.change.numeric hnum hall, hpart'⟩ }⟩

/-- The states still agree after a call outside of the names on one of them. -/
theorem Agree.outside (h : Agree c m n) (hop : op.Within c.others) (hnum : op.numeric = true)
    (hs : step re2 iso m op = some (r, m')) : Agree c m' n := by
  have hkey : ∀ {key : Option String} {p : String → Bool}, key.any (fun k => !p k) = true →
      ∃ k, key = some k ∧ ¬ p k = true := by
    intro key p hany
    cases key with
    | none => cases hany
    | some k => exact ⟨k, rfl, by simpa using hany⟩
  cases step_served hs with
  | map hmap =>
      obtain ⟨k, hk, hck⟩ := hkey hop
      exact { h with map := (Map.actsOn hk).leave hck h.map hmap }
  | journalMap hjournal =>
      obtain ⟨k, hk, hck⟩ := hkey hop
      exact { h with journals := (JournalMap.actsOn hk).leave hck h.journals hjournal }
  | timeSeries hseries =>
      obtain ⟨k, hk, hck⟩ := hkey hop
      exact { h with timeSeries := (TimeSeriesMap.actsOn hk).leave hck h.timeSeries hseries }
  | mutexes hmutex =>
      obtain ⟨k, hk, hck⟩ := hkey hop
      exact { h with mutexes := (Mutexes.actsOn hk).leave hck h.mutexes hmutex }
  | counters hcounter =>
      obtain ⟨k, hk, hck⟩ := hkey hop
      exact { h with counters := (Counters.actsOn hk).leave hck h.counters hcounter }
  | taskManager htask =>
      obtain ⟨ι, s, t, hrep, hrep', hall, hpart⟩ := h.tasks
      obtain ⟨s', hserve, hrep₁⟩ := (TaskManager.simulation re2).serves hrep htask
      exact { h with tasks := ⟨ι, s', t, hrep₁, hrep', hserve.change.numeric hnum hall,
        hpart.serve_others hrep.1 hop hserve.change⟩ }

end SystemState

/-- **Clients that share no names do not interfere.** In every run whose calls each keep to some
names or to the others, the calls that keep to these names are the calls of a run of their own, with
the same replies: what other clients write, acquire, count, add, claim, report, cancel and
reprioritize under other names shows in none of them. -/
theorem separate_names_do_not_interfere {re2 : RE2} {iso : Iso8601}
    {es : List (Machine.Event (SystemState Q α) (SystemOp α) (SystemReply α))}
    {m : SystemState Q α} (h : (SystemState.machine Q re2 iso).Run es m) (c : Names)
    (hsided : ∀ e ∈ es, e.op.Sided c) :
    ∃ es' m', (SystemState.machine Q re2 iso).Run es' m' ∧
      es'.map Machine.Event.call =
        (es.filter fun e => e.op.Within c).map Machine.Event.call := by
  obtain ⟨es', m', hrun, hcalls, -⟩ := (h.restrict hsided).project
    (N := SystemState.machine Q re2 iso)
    (fun (op : SystemOp α) r => if op.Within c then some (op, r) else none)
    (R := SystemState.Agree c) (SystemState.agree_init c)
    (fun hagree hs hview => by
      obtain ⟨⟨-, hnum⟩, hs⟩ := Machine.restrict_step.1 hs
      split at hview
      · next hop =>
          cases hview
          exact hagree.within hop hnum hs
      · cases hview)
    (fun hagree hs hview => by
      obtain ⟨⟨hside, hnum⟩, hs⟩ := Machine.restrict_step.1 hs
      split at hview
      · cases hview
      · next hop => exact hagree.outside (hside.resolve_left hop) hnum hs)
  refine ⟨es', m', hrun, hcalls.trans ?_⟩
  rw [← List.filterMap_eq_map, List.filterMap_filter]
  refine List.filterMap_congr fun e _ => ?_
  by_cases hop : e.op.Within c <;> simp [hop, Machine.Event.call]

/-- One name of each kind. -/
def sampleNames : Names := ⟨fun _ k => decide (k = "x"), fun q => decide (q = "x")⟩

/-- Two clients, one of which keeps to these names. -/
def sideBySide : List (SystemOp Nat) :=
  [.mutexes (.tryAcquire ⟨"y", "v"⟩), .mutexes (.tryAcquire ⟨"x", "w"⟩),
    .taskManager (.add ⟨"y", [], ["y"], .num 1, "f", "1"⟩),
    .taskManager (.add ⟨"x", [], ["x"], .num 0, "f", "2"⟩), .taskManager (.get ⟨"w", ["x"]⟩),
    .taskManager (.cancel ⟨"y"⟩), .taskManager (.done ⟨"x", "3", "w", false⟩)]

/-- The calls of one side, in a run of both. -/
theorem separate_names_do_not_interfere_sideBySide :
    ∃ es' m', sampleServer.Run es' m' ∧ es'.map Machine.Event.call =
      ((sampleServer.runOf sideBySide).1.filter fun e => e.op.Within sampleNames).map
        Machine.Event.call :=
  separate_names_do_not_interfere (sampleServer.run_runOf sideBySide rfl) sampleNames (by decide)

end DsService

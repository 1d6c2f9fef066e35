import DsService.System.Codes
import DsService.System.Registers

/-!
# Exclusive sections

Workers guard a resource with a mutex: each works on it between a `mutex_try_acquire` that succeeds
and its `mutex_release`. `concurrent_mutex_excludes` says that this works for calls that overlap.
Every call on the mutex sees what one of the turns before it left, and between two acquires that
succeed one of the two workers releases.
-/

namespace DsService

variable {Q α : Type}

/-! ## Holders -/

/-- Who holds the mutex after a turn. -/
def Turn.holder : Turn → Option String
  | .acquired workerId => some workerId
  | .released _ => none

/-- Who holds the mutex. -/
def MutexState.holder (mutex : MutexState) : Option String :=
  if mutex.held then some mutex.workerId else none

section
variable [LinearOrder α] [PriorityQueue Q (TaskQueueEntry α) taskQueueEntryOrder]

/-- Between two acquires the first worker releases. -/
theorem SystemState.released_between {re2 : RE2} {iso : Iso8601}
    {es₁ es₂ es₃ : List (SystemEvent Q α)} {e e' : SystemEvent Q α} {m : SystemState Q α}
    {k w w' : String}
    (h : (machine Q re2 iso).Run (es₁ ++ e :: (es₂ ++ e' :: es₃)) m)
    (he : e.op.turn k e.reply = some (.acquired w))
    (he' : e'.op.turn k e'.reply = some (.acquired w')) :
    ∃ f ∈ es₂, f.op.turn k f.reply = some (.released w) := by
  obtain ⟨es, hrun, hturns⟩ := mutexRun h
  -- the turns of the mutex are cut where the history is
  have hcut := hturns k
  have hcons : ∀ {x : SystemEvent Q α} {xs t}, x.op.turn k x.reply = some t →
      (x :: xs).filterMap (fun x => x.op.turn k x.reply) =
        t :: xs.filterMap fun x => x.op.turn k x.reply := fun hx => List.filterMap_cons_some hx
  rw [List.filterMap_append, hcons he, List.filterMap_append, hcons he'] at hcut
  obtain ⟨l₁, l, rfl, -, hl⟩ := List.filterMap_eq_append_iff.1 hcut
  obtain ⟨p, a, l, rfl, -, ha, hl⟩ := List.filterMap_eq_cons_iff.1 hl
  obtain ⟨l₂, l, rfl, hbetween, hl⟩ := List.filterMap_eq_append_iff.1 hl
  obtain ⟨p', a', l, rfl, hnone, ha', -⟩ := List.filterMap_eq_cons_iff.1 hl
  have hrun' : (Mutexes.machine re2).Run ((l₁ ++ p) ++ a :: ((l₂ ++ p') ++ a' :: l)) m.mutexes := by
    simpa using hrun
  obtain ⟨f, hf, hreleased⟩ := Mutexes.released_between hrun' ha ha'
  have hmem : Turn.released w ∈ es₂.filterMap fun e => e.op.turn k e.reply := by
    rw [← hbetween]
    rcases List.mem_append.1 hf with hf | hf
    · exact List.mem_filterMap.2 ⟨f, hf, hreleased⟩
    · rw [hnone f hf] at hreleased
      cases hreleased
  exact List.mem_filterMap.1 hmem

end

/-! ## Calls that overlap -/

variable {κ : Type}

/-- The call was made, and its reply, if it has one yet, is `r`. -/
def Yields (H : List (SystemVisible κ α)) (i : κ) (op : SystemOp α) (r : SystemReply α) : Prop :=
  .call i op ∈ H ∧ ∀ r', .answer i r' ∈ H → r' = r

/-- The call was made and answered. -/
def Replied (H : List (SystemVisible κ α)) (i : κ) (op : SystemOp α) (r : SystemReply α) : Prop :=
  .call i op ∈ H ∧ .answer i r ∈ H

/-- The call is this turn of the mutex `k`, as far as its caller can tell by now. -/
def Turns (k : String) (H : List (SystemVisible κ α)) (i : κ) (t : Turn) : Prop :=
  ∃ op r, Yields H i op r ∧ op.turn k r = some t

/-- The call was answered as this turn of the mutex `k`. -/
def Turned (k : String) (H : List (SystemVisible κ α)) (i : κ) (t : Turn) : Prop :=
  ∃ op r, Replied H i op r ∧ op.turn k r = some t

variable [LinearOrder α] [PriorityQueue Q (TaskQueueEntry α) taskQueueEntryOrder]
  {re2 : RE2} {iso : Iso8601} {cuts : Cuts Q re2 iso} [DecidableEq κ] {H : List (SystemVisible κ α)}
  {c : Locking.Config (SystemState Q α) Store κ (Store.Part Q α) (SystemOp α) (SystemReply α)}
  {k : String}

section
variable {l : List (κ × SystemEvent Q α)} {m : SystemState Q α} (h : SystemExec cuts H c)
  (hl : Locking.Linearizes (SystemState.machine Q re2 iso) H l m)
include h hl

/-- A call that was replied to is in the run. -/
theorem Replied.event {j : κ} {op : SystemOp α} {r : SystemReply α} (hr : Replied H j op r) :
    ∃ e, (j, e) ∈ l ∧ e.op = op ∧ e.reply = r := by
  obtain ⟨e, he, hreply⟩ := hl.answered hr.2
  exact ⟨e, he, Locking.Exec.call_unique h (hl.called he) hr.1, hreply⟩

omit h [DecidableEq κ] in
/-- A call of the run yields its reply, answered yet or not. -/
theorem yields_of_mem {i : κ} {f : SystemEvent Q α} (hf : (i, f) ∈ l) :
    Yields H i f.op f.reply := by
  refine ⟨hl.called hf, fun r' hr' => ?_⟩
  obtain ⟨f', hf', rfl⟩ := hl.answered hr'
  rw [hl.eq_of_mem hf hf']

/-- A turn that was answered is in the run. -/
theorem Turned.event {j : κ} {t : Turn} (ht : Turned k H j t) :
    ∃ e, (j, e) ∈ l ∧ e.op.turn k e.reply = some t := by
  obtain ⟨op, r, hr, hturn⟩ := ht
  obtain ⟨e, he, rfl, rfl⟩ := hr.event h hl
  exact ⟨e, he, hturn⟩

/-- The step of the server core that answered a call. -/
theorem Replied.step {j : κ} {op : SystemOp α} {r : SystemReply α} (hr : Replied H j op r) :
    ∃ pre post : SystemState Q α, (j, ⟨pre, op, r, post⟩) ∈ l ∧
      pre.step re2 iso op = some (r, post) := by
  obtain ⟨⟨pre, eop, reply, post⟩, he, hop, hreply⟩ := hr.event h hl
  cases hop
  cases hreply
  obtain ⟨l₁, l₂, hsplit⟩ := List.append_of_mem he
  have hrun := hl.run
  rw [hsplit, List.map_append, List.map_cons] at hrun
  exact ⟨pre, post, he, hrun.split.2⟩

omit h in
/-- Between two acquires, in the order in which they took effect, there is a release. -/
theorem released_between {i j : κ} {e e' : SystemEvent Q α} {w w' : String} (he : (i, e) ∈ l)
    (he' : (j, e') ∈ l) (hturn : e.op.turn k e.reply = some (.acquired w))
    (hturn' : e'.op.turn k e'.reply = some (.acquired w')) (hij : [i, j].Sublist (l.map Prod.fst)) :
    ∃ f, Turns k H f (.released w) ∧ ¬ Before H f i ∧ ¬ Before H j f := by
  obtain ⟨l₁₂, l₃, hsplit, -, hbefore⟩ := hl.split he'
  obtain ⟨l₁, l₂, rfl⟩ := List.append_of_mem ((hbefore he).1 hij)
  have hrun := hl.run
  rw [hsplit] at hrun
  simp only [List.map_append, List.map_cons, List.append_assoc, List.cons_append] at hrun
  obtain ⟨f, hf, hreleased⟩ := SystemState.released_between hrun hturn hturn'
  obtain ⟨⟨g, f⟩, hg, rfl⟩ := List.mem_map.1 hf
  have hmem : (g, f) ∈ l := by
    rw [hsplit]
    simp [hg]
  have hig : [i, g].Sublist (l.map Prod.fst) := by
    have hpair : [(i, e), (g, f)].Sublist l := by
      rw [hsplit]
      have hcons := (List.singleton_sublist.2 hg).cons_cons (i, e)
      exact (hcons.trans (List.sublist_append_right l₁ _)).trans (List.sublist_append_left _ _)
    exact hpair.map Prod.fst
  have hgj : [g, j].Sublist (l.map Prod.fst) := by
    refine (hbefore hmem).2 ?_
    simp [hg]
  exact ⟨g, ⟨f.op, f.reply, yields_of_mem hl hmem, hreleased⟩,
    fun hgi => hl.asymm hig (hgi.sublist hl (List.mem_map_of_mem he)),
    fun hjg => hl.asymm hgj (hjg.sublist hl (List.mem_map_of_mem hmem))⟩

end

end DsService

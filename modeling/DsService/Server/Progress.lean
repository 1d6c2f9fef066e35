import DsService.Server.Lifecycle

/-!
# The server process stops when asked

A signal that was heard keeps the two threads going until the process has ended: `remaining` counts
the steps they have before them, and each of their steps lowers it.
-/

namespace DsService

/-- A call of the startup that did not go through. -/
def ProcessOp.fails : ProcessOp → Bool
  | .mask ok => !ok
  | .parseArgs outcome => outcome != .parsed
  | .start bound => !bound
  | .launch created => !created
  | _ => false

/-- A step of one of the two threads on its way to the end, rather than one from outside. -/
def ProcessOp.advances : ProcessOp → Bool
  | .signal _ | .spawn _ => false
  | op => !op.fails

namespace Process

variable {n : Nat} {mask : Finset Signal} {p p' : Process} {op : ProcessOp}
variable {es es₁ es₂ : List ProcessEvent}

/-- How many steps `main` has before it. -/
def mainLeft (n : Nat) : MainPhase → Nat
  | .masking => 2 * n + 4
  | .parsing => 2 * n + 3
  | .starting i => 2 * n - i + 2
  | .waiting i => n - i + 1
  | .ended _ => 0

/-- How many steps the shutdown thread has before it. -/
def threadLeft (n : Nat) (p : Process) : Nat :=
  match p.thread with
  | none | some .sigwait => 2 * n + 3
  | some .taken => 2 * n + 2
  | some (.shutting i deadline) =>
      2 * (n - i) + if i < n ∧ p.transport i = .draining deadline then 0 else 1
  | some (.done _) => 0

def remaining (n : Nat) (p : Process) : Nat := mainLeft n p.main + p.threadLeft n

/-- Every step of the two threads brings the process closer to its end, and no step takes it
further away. -/
theorem Move.remaining (hm : Move n p op p') (h : Staged n p) :
    p'.remaining n + (if op.advances then 1 else 0) ≤ p.remaining n := by
  have hone : op.advances = true → p'.remaining n + 1 ≤ p.remaining n := by
    intro hop
    unfold Process.remaining
    cases hm with
    | pend _ => cases hop
    | spawn _ _ => cases hop
    | mask hmain =>
      simp only [hmain, mainLeft, threadLeft]
      omega
    | parsed hmain =>
      simp only [hmain, mainLeft, threadLeft]
      omega
    | start hmain hi =>
      simp only [hmain, mainLeft, threadLeft, setTransport, (h.starting hmain).2.1]
      omega
    | launch hmain =>
      simp only [hmain, mainLeft, threadLeft, (h.starting hmain).2.1]
      omega
    | wait hmain hi ht =>
      simp only [hmain, mainLeft, threadLeft]
      omega
    | take hthread hs =>
      simp only [hthread, threadLeft]
      omega
    | takeNone hthread =>
      simp only [hthread, threadLeft]
      omega
    | flag hthread =>
      simp only [hthread, threadLeft]
      split <;> omega
    | shutdown hthread hi ht =>
      simp only [hthread, threadLeft, setTransport, hi, ht, Function.update_self, reduceCtorEq,
        and_self, and_false, if_true, if_false]
      omega
    | @drained i deadline hthread hi ht =>
      have hmain : (p.setTransport i .down).main = p.main := rfl
      simp only [hthread, threadLeft, hi, ht, hmain, and_self, if_true]
      split <;> omega
    | finish hthread => simp [hthread, threadLeft]
  cases hop : op.advances with
  | true => exact hone hop
  | false =>
    cases hm with
    | pend _ => exact le_rfl
    | spawn _ _ => exact le_rfl
    | _ => cases hop

/-- A signal is pending, or the shutdown thread has left `sigwait`. -/
def Heard (p : Process) : Prop :=
  p.pending.Nonempty ∨ ∃ t, p.thread = some t ∧ t ≠ .sigwait

/-- A signal that was heard is not forgotten. -/
theorem Move.heard (hm : Move n p op p') (hst : Staged n p) (h : p.Heard) : p'.Heard := by
  cases hm with
  | pend _ => exact .inl ⟨_, Finset.mem_insert_self _ _⟩
  | launch hmain =>
    rcases h with hpending | ⟨t, ht, -⟩
    · exact .inl hpending
    · rw [(hst.starting hmain).2.1] at ht
      cases ht
  | take _ _ => exact .inr ⟨_, rfl, nofun⟩
  | takeNone _ => exact .inr ⟨_, rfl, nofun⟩
  | flag _ => exact .inr ⟨_, rfl, nofun⟩
  | drained _ _ _ => exact .inr ⟨_, rfl, nofun⟩
  | finish _ => exact .inr ⟨_, rfl, nofun⟩
  | _ => exact h

/-- A step of a process that has not ended. -/
theorem step_of (halive : p.ended = false) {q : Process} (h : p.stepAlive n op = some q) :
    step n p op = some ((), q) := by
  rw [step, halive, h]
  rfl

/-- While a signal was heard and the process has not ended, one of its threads can go on. -/
theorem Staged.exists_advance (h : Staged n p) (halive : p.ended = false) (hheard : p.Heard) :
    ∃ (op : ProcessOp) (p' : Process), op.advances = true ∧ step n p op = some ((), p') := by
  cases hmain : p.main with
  | masking =>
    exact ⟨.mask true, _, rfl, step_of halive (by simp [stepAlive, stepMain, hmain]; rfl)⟩
  | parsing =>
    exact ⟨.parseArgs .parsed, _, rfl, step_of halive (by simp [stepAlive, stepMain, hmain]; rfl)⟩
  | starting i =>
    rcases Nat.lt_or_ge i n with hi | hi
    · exact ⟨.start true, _, rfl, step_of halive (by simp [stepAlive, stepMain, hmain, hi]; rfl)⟩
    · have heq : i = n := Nat.le_antisymm (h.starting hmain).1 hi
      exact ⟨.launch true, _, rfl,
        step_of halive (by simp [stepAlive, stepMain, hmain, heq]; rfl)⟩
  | waiting j =>
    obtain ⟨hj, hthread, -⟩ := h.waiting hmain
    obtain ⟨t, ht⟩ := Option.ne_none_iff_exists'.1 hthread
    have hallows := h.thread ht
    cases t with
    | sigwait =>
      rcases hheard with ⟨s, hs⟩ | ⟨t', ht', hne⟩
      · exact ⟨.sigwait (some s), _, rfl,
          step_of halive (by simp [stepAlive, stepMain, stepThread, ht, hs]; rfl)⟩
      · rw [ht] at ht'
        cases ht'
        exact absurd rfl hne
    | taken =>
      exact ⟨.flag 0, _, rfl, step_of halive (by simp [stepAlive, stepMain, stepThread, ht]; rfl)⟩
    | shutting i deadline =>
      rcases Nat.lt_or_ge i n with hi | hi
      · have hstate := hallows i hi
        simp only [ShutdownPhase.Allows, Nat.lt_irrefl, if_false, if_true] at hstate
        rcases hstate with hserving | hdraining
        · exact ⟨.shutdown, _, rfl,
            step_of halive (by simp [stepAlive, stepMain, stepThread, ht, hi, hserving]; rfl)⟩
        · exact ⟨.drained, _, rfl,
            step_of halive (by simp [stepAlive, stepMain, stepThread, ht, hi, hdraining]; rfl)⟩
      · have heq : i = n := Nat.le_antisymm (h.within ht) hi
        exact ⟨.finish, _, rfl,
          step_of halive (by simp [stepAlive, stepMain, stepThread, ht, heq]; rfl)⟩
    | done deadline =>
      rcases Nat.lt_or_ge j n with hlt | hge
      · have hdown : p.transport j = .down := hallows j hlt
        exact ⟨.wait, _, rfl,
          step_of halive (by simp [stepAlive, stepMain, hmain, hlt, hdown]; rfl)⟩
      · have heq : j = n := Nat.le_antisymm hj hge
        exact ⟨.join, _, rfl,
          step_of halive (by simp [stepAlive, stepMain, hmain, ht, heq]; rfl)⟩
  | ended ending =>
    rw [ended, hmain] at halive
    cases halive

/-- The main thread has a step left until it ends. -/
theorem mainLeft_pos (halive : p.ended = false) : 0 < mainLeft n p.main := by
  cases hmain : p.main with
  | ended ending =>
    rw [ended, hmain] at halive
    cases halive
  | _ => exact Nat.succ_pos _

/-- The steps of the two threads in a run are few. -/
theorem Runs.advances_le (h : Runs n mask es p) :
    es.countP (·.op.advances) + p.remaining n ≤ 4 * n + 7 := by
  induction h with
  | nil =>
    simp only [List.countP_nil, Process.remaining, mainLeft, threadLeft, machine]
    omega
  | @snoc es q q' op _ h hs ih =>
    obtain ⟨halive, hnext⟩ := step_next hs
    have hstep : q'.remaining n + (if op.advances then 1 else 0) ≤ q.remaining n := by
      cases hnext with
      | move hm => exact hm.remaining (Runs.staged h)
      | fall _ hmain hthread htransport =>
        have hpos : 0 < mainLeft n q.main := mainLeft_pos halive
        have hover : mainLeft n q'.main = 0 := by rw [hmain]; rfl
        have hsame : q'.threadLeft n = q.threadLeft n := by
          unfold threadLeft
          rw [hthread, htransport]
        unfold Process.remaining
        split <;> omega
    have hone : [(⟨q, op, (), q'⟩ : ProcessEvent)].countP (·.op.advances) =
        if op.advances then 1 else 0 := List.countP_singleton
    rw [List.countP_append, hone]
    omega

/-- A signal is heard, unless it ends the process. -/
theorem heard_signal {s : Signal} (hs : step n p (.signal s) = some ((), p')) :
    p'.ended = true ∨ p'.Heard := by
  obtain ⟨-, hnext⟩ := step_next hs
  cases hnext with
  | move hm =>
    cases hm with
    | pend _ => exact .inr (.inl ⟨s, Finset.mem_insert_self _ _⟩)
  | fall _ hmain _ _ => exact .inl (by rw [ended, hmain])

/-- A signal that does not kill the process is heard from then on. -/
theorem Runs.stays_heard {e : ProcessEvent} (h : Runs n mask (es₁ ++ e :: es₂) p) {s : Signal}
    (hsignal : e.op = .signal s) : p.ended = true ∨ p.Heard := by
  refine (Machine.Run.stable (P := fun q : Process => q.ended = true ∨ q.Heard) ?_ ?_ h).1
  · intro es m op r m' hrun hs hbefore
    obtain ⟨halive, hnext⟩ := step_next hs
    cases hnext with
    | move hm =>
      refine .inr (hm.heard (Runs.staged hrun) (hbefore.resolve_left ?_))
      rw [halive]
      nofun
    | fall _ hmain _ _ => exact .inl (by rw [ended, hmain])
  · obtain ⟨-, hs⟩ := h.split
    rw [hsignal] at hs
    exact heard_signal hs

end Process

/-- **No signal to stop is lost.** A SIGINT or SIGTERM that arrives once the signals are blocked,
during the startup or later, stops the server: whatever else arrives and in whatever order the
threads run, if the startup goes through, the process does not end but with exit code 0, one of its
threads can always go on until then, and they do so at most `4 * n + 7` times in all. -/
theorem no_signal_to_stop_is_lost {n : Nat} {mask : Finset Signal}
    {es₁ es₂ : List Process.ProcessEvent} {e : Process.ProcessEvent} {p : Process} {s : Signal}
    (h : (Process.machine n mask).Run (es₁ ++ e :: es₂) p)
    (hmask : ∃ e' ∈ es₁, e'.op = .mask true) (hsignal : e.op = .signal s)
    (hfails : ∀ e' ∈ es₁ ++ e :: es₂, e'.op.fails = false) :
    (es₁ ++ e :: es₂).countP (·.op.advances) ≤ 4 * n + 7 ∧
      (p.main = .ended (.exited 0) ∨
        p.ended = false ∧ ∃ (op : ProcessOp) (p' : Process),
          op.advances = true ∧ Process.step n p op = some ((), p')) := by
  have hrun : Process.Runs n mask (es₁ ++ e :: es₂) p := h
  refine ⟨le_trans (Nat.le_add_right _ _) hrun.advances_le, ?_⟩
  cases halive : p.ended with
  | false =>
    have hheard : p.Heard := (hrun.stays_heard hsignal).resolve_left (by rw [halive]; nofun)
    exact .inr ⟨rfl, hrun.staged.exists_advance halive hheard⟩
  | true =>
    have hno : ∀ {op : ProcessOp}, op.fails = true → ∀ e' ∈ es₁ ++ e :: es₂, e'.op ≠ op := by
      rintro _ hop e' he' rfl
      rw [hfails e' he'] at hop
      cases hop
    cases hmain : p.main with
    | ended ending =>
      left
      cases ending with
      | exited code =>
        cases hrun.exit hmain with
        | failed hfailed _ =>
          obtain ⟨e', he', hop | hop | hop⟩ := hfailed
          · exact absurd hop (hno rfl e' he')
          · exact absurd hop (hno rfl e' he')
          · exact absurd hop (hno rfl e' he')
        | printed _ _ => rfl
        | stopped _ _ _ _ _ => rfl
      | killed s' =>
        obtain ⟨e', he', hop⟩ := hmask
        exact absurd hop ((hrun.killed hmain).2 e' (List.mem_append_left _ he'))
      | terminated =>
        obtain ⟨e', he', hop⟩ := hrun.terminated hmain
        exact absurd hop (hno rfl e' he')
      | crashed => exact absurd hmain hrun.not_crashed
    | _ =>
      rw [Process.ended, hmain] at halive
      cases halive

/-- The same server takes no more steps than its bound allows. -/
theorem no_signal_to_stop_is_lost_early :
    stoppedEarly.1.countP (·.op.advances) ≤ 15 ∧
      (stoppedEarly.2.main = .ended (.exited 0) ∨
        stoppedEarly.2.ended = false ∧ ∃ (op : ProcessOp) (p' : Process),
          op.advances = true ∧ Process.step 2 stoppedEarly.2 op = some ((), p')) := by
  have hrun : (Process.machine 2 ∅).Run stoppedEarly.1 stoppedEarly.2 :=
    (Process.machine 2 ∅).run_runOf _ (by decide)
  have hlt : 3 < stoppedEarly.1.length := by decide
  have hsplit : stoppedEarly.1 =
      stoppedEarly.1.take 3 ++ stoppedEarly.1.get ⟨3, hlt⟩ :: stoppedEarly.1.drop 4 := by
    rw [List.get_eq_getElem, List.getElem_cons_drop, List.take_append_drop]
  have hfails : ∀ e ∈ stoppedEarly.1, e.op.fails = false := by decide
  rw [hsplit] at hrun hfails
  rw [hsplit]
  exact no_signal_to_stop_is_lost hrun (by decide) (s := .sigterm) rfl hfails

end DsService

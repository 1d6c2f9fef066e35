import DsService.Server.Main

/-!
# The moves of the server process

`Process.Move` has the steps that the process survives and `Fall` those that end it. `Staged` ties
the transports to the places of the two threads, in every state a run reaches.
-/

namespace DsService

/-- Where the transport `i` can be while the shutdown thread is here. -/
def ShutdownPhase.Allows (t : ShutdownPhase) (i : Nat) (state : TransportState) : Prop :=
  match t with
  | .sigwait | .taken => state = .serving
  | .shutting j deadline =>
      if i < j then state = .down
      else if i = j then state = .serving ∨ state = .draining deadline
      else state = .serving
  | .done _ => state = .down

namespace Process

variable {n : Nat} {p p' : Process} {op : ProcessOp}

/-! ## Moves -/

/-- The steps that the process survives. -/
inductive Move (n : Nat) (p : Process) : ProcessOp → Process → Prop
  | pend {s : Signal} (hall : ∀ mask ∈ p.masks, s ∈ mask) :
      Move n p (.signal s) { p with pending := insert s p.pending }
  | spawn {i : Nat} {mask : Finset Signal} (hmask : p.masks[i]? = some mask)
      (hmain : p.main ≠ .masking) : Move n p (.spawn i) { p with masks := p.masks ++ [mask] }
  | mask (hmain : p.main = .masking) :
      Move n p (.mask true)
        { p with masks := p.masks.modifyHead (· ∪ shutdownSignals), main := .parsing }
  | parsed (hmain : p.main = .parsing) :
      Move n p (.parseArgs .parsed) { p with main := .starting 0 }
  | start {i : Nat} (hmain : p.main = .starting i) (hi : i < n) :
      Move n p (.start true) { p.setTransport i .serving with main := .starting (i + 1) }
  | launch (hmain : p.main = .starting n) :
      Move n p (.launch true)
        { p with
          masks := p.masks ++ p.masks.head?.toList
          thread := some .sigwait
          joinable := true
          main := .waiting 0 }
  | wait {i : Nat} (hmain : p.main = .waiting i) (hi : i < n) (ht : p.transport i = .down) :
      Move n p .wait { p with main := .waiting (i + 1) }
  | take {s : Signal} (hthread : p.thread = some .sigwait) (hs : s ∈ p.pending) :
      Move n p (.sigwait (some s)) { p with pending := p.pending.erase s, thread := some .taken }
  | takeNone (hthread : p.thread = some .sigwait) :
      Move n p (.sigwait none) { p with thread := some .taken }
  | flag {now : Int} (hthread : p.thread = some .taken) :
      Move n p (.flag now)
        { p with shutdown := true, thread := some (.shutting 0 (shutdownDeadline now)) }
  | shutdown {i : Nat} {deadline : Int} (hthread : p.thread = some (.shutting i deadline))
      (hi : i < n) (ht : p.transport i = .serving) :
      Move n p .shutdown (p.setTransport i (.draining deadline))
  | drained {i : Nat} {deadline : Int} (hthread : p.thread = some (.shutting i deadline))
      (hi : i < n) (ht : p.transport i = .draining deadline) :
      Move n p .drained
        { p.setTransport i .down with thread := some (.shutting (i + 1) deadline) }
  | finish {deadline : Int} (hthread : p.thread = some (.shutting n deadline)) :
      Move n p .finish { p with thread := some (.done deadline) }

/-- The steps that end the process. -/
inductive Fall (n : Nat) (p : Process) : ProcessOp → ProcessEnd → Prop
  | kill {s : Signal} {mask : Finset Signal} (hmask : mask ∈ p.masks) (hs : s ∉ mask) :
      Fall n p (.signal s) (.killed s)
  | unmasked (hmain : p.main = .masking) : Fall n p (.mask false) (p.leaving 1)
  | unparsed (hmain : p.main = .parsing) : Fall n p (.parseArgs .failed) (.exited 1)
  | printed (hmain : p.main = .parsing) : Fall n p (.parseArgs .printed) (.exited 0)
  | unbound {i : Nat} (hmain : p.main = .starting i) (hi : i < n) :
      Fall n p (.start false) (p.leaving 1)
  | unlaunched (hmain : p.main = .starting n) : Fall n p (.launch false) .terminated
  | waitIdle {i : Nat} (hmain : p.main = .waiting i) (hi : i < n) (ht : p.transport i = .idle) :
      Fall n p .wait .crashed
  | shutdownIdle {i : Nat} {deadline : Int} (hthread : p.thread = some (.shutting i deadline))
      (hi : i < n) (ht : p.transport i = .idle) : Fall n p .shutdown .crashed
  | join {deadline : Int} (hmain : p.main = .waiting n)
      (hthread : p.thread = some (.done deadline)) : Fall n p .join (.exited 0)

/-- What a step leads to. -/
inductive Next (n : Nat) (p : Process) (op : ProcessOp) (p' : Process) : Prop
  | move (h : Move n p op p')
  | fall {ending : ProcessEnd} (h : Fall n p op ending) (hmain : p'.main = .ended ending)
      (hthread : p'.thread = p.thread) (htransport : p'.transport = p.transport)

/-- A step of the main thread is one of the moves. -/
theorem stepMain_next (h : p.stepMain n op = some p') : Next n p op p' := by
  cases op with
  | mask ok =>
    simp only [stepMain, ite_not] at h
    split at h
    · next hmain =>
      cases ok <;> cases h
      · exact .fall (.unmasked hmain) rfl rfl rfl
      · exact .move (.mask hmain)
    · cases h
  | parseArgs outcome =>
    simp only [stepMain, ite_not] at h
    split at h
    · next hmain =>
      cases outcome <;> cases h
      · exact .move (.parsed hmain)
      · exact .fall (.unparsed hmain) rfl rfl rfl
      · exact .fall (.printed hmain) rfl rfl rfl
    · cases h
  | start bound =>
    simp only [stepMain] at h
    split at h
    · next i hmain =>
      split at h
      · next hi =>
        cases bound <;> cases h
        · exact .fall (.unbound hmain hi) rfl rfl rfl
        · exact .move (.start hmain hi)
      · cases h
    · cases h
  | launch created =>
    simp only [stepMain, ite_not] at h
    split at h
    · next hmain =>
      cases created <;> cases h
      · exact .fall (.unlaunched hmain) rfl rfl rfl
      · exact .move (.launch hmain)
    · cases h
  | wait =>
    simp only [stepMain] at h
    split at h
    · next i hmain =>
      split at h
      · next hi =>
        cases ht : p.transport i with
        | idle =>
          rw [ht] at h
          cases h
          exact .fall (.waitIdle hmain hi ht) rfl rfl rfl
        | down =>
          rw [ht] at h
          cases h
          exact .move (.wait hmain hi ht)
        | _ =>
          rw [ht] at h
          cases h
      · cases h
    · cases h
  | join =>
    simp only [stepMain] at h
    split at h
    · next i deadline hmain hthread =>
      split at h
      · next hi =>
        subst hi
        cases h
        exact .fall (.join hmain hthread) rfl rfl rfl
      · cases h
    · cases h
  | _ => cases h

/-- A step of the shutdown thread is one of the moves. -/
theorem stepThread_next (h : p.stepThread n op = some p') : Next n p op p' := by
  cases op with
  | sigwait signal =>
    simp only [stepThread, ite_not] at h
    split at h
    · next hthread =>
      cases signal with
      | none =>
        cases h
        exact .move (.takeNone hthread)
      | some s =>
        simp only at h
        split at h
        · next hs =>
          cases h
          exact .move (.take hthread hs)
        · cases h
    · cases h
  | flag now =>
    simp only [stepThread, ite_not] at h
    split at h
    · next hthread =>
      cases h
      exact .move (.flag hthread)
    · cases h
  | shutdown =>
    simp only [stepThread] at h
    split at h
    · next i deadline hthread =>
      split at h
      · next hi =>
        cases ht : p.transport i with
        | idle =>
          rw [ht] at h
          cases h
          exact .fall (.shutdownIdle hthread hi ht) rfl rfl rfl
        | serving =>
          rw [ht] at h
          cases h
          exact .move (.shutdown hthread hi ht)
        | _ =>
          rw [ht] at h
          cases h
      · cases h
    · cases h
  | drained =>
    simp only [stepThread] at h
    split at h
    · next i deadline hthread =>
      split at h
      · next hi =>
        cases h
        exact .move (.drained hthread hi.1 hi.2)
      · cases h
    · cases h
  | finish =>
    simp only [stepThread] at h
    split at h
    · next i deadline hthread =>
      split at h
      · next hi =>
        subst hi
        cases h
        exact .move (.finish hthread)
      · cases h
    · cases h
  | _ => cases h

/-- Every step is one of these. -/
theorem step_next (h : step n p op = some ((), p')) : p.ended = false ∧ Next n p op p' := by
  unfold step at h
  split at h
  · cases h
  · next halive =>
    refine ⟨Bool.eq_false_of_not_eq_true halive, ?_⟩
    obtain ⟨q, hq, heq⟩ := Option.map_eq_some_iff.1 h
    cases heq
    cases op with
    | signal s =>
      cases hq
      unfold send
      split
      · next hall => exact .move (.pend hall)
      · next hall =>
        simp only [not_forall] at hall
        obtain ⟨mask, hmask, hs⟩ := hall
        exact .fall (.kill hmask hs) rfl rfl rfl
    | spawn i =>
      simp only [stepAlive, spawn] at hq
      split at hq
      · next j hmain =>
        obtain ⟨mask, hmask, heq⟩ := Option.bind_eq_some_iff.1 hq
        cases heq
        exact .move (.spawn hmask (by rw [hmain]; nofun))
      · next j hmain =>
        obtain ⟨mask, hmask, heq⟩ := Option.bind_eq_some_iff.1 hq
        cases heq
        exact .move (.spawn hmask (by rw [hmain]; nofun))
      · cases hq
    | _ =>
      simp only [stepAlive] at hq
      rcases Option.or_eq_some_iff.1 hq with hq | ⟨-, hq⟩
      · exact stepMain_next hq
      · exact stepThread_next hq

/-! ## The places of the threads -/

/-- Where the transports are, by the places of the two threads. -/
structure Staged (n : Nat) (p : Process) : Prop where
  early : p.main = .masking ∨ p.main = .parsing →
    p.thread = none ∧ p.joinable = false ∧ ∀ i, p.transport i = .idle
  starting : ∀ {j : Nat}, p.main = .starting j → j ≤ n ∧ p.thread = none ∧ p.joinable = false ∧
    ∀ i, p.transport i = if i < j then .serving else .idle
  waiting : ∀ {j : Nat}, p.main = .waiting j → j ≤ n ∧ p.thread ≠ none ∧
    ∀ i, i < j → p.transport i = .down
  thread : ∀ {t : ShutdownPhase}, p.thread = some t → ∀ i, i < n → t.Allows i (p.transport i)
  within : ∀ {i : Nat} {deadline : Int}, p.thread = some (.shutting i deadline) → i ≤ n

/-- The transports are idle at first. -/
theorem Staged.init (mask : Finset Signal) : Staged n (machine n mask).init where
  early _ := ⟨rfl, rfl, fun _ => rfl⟩
  starting := nofun
  waiting := nofun
  thread := nofun
  within := nofun

/-- The end of the process leaves the transports where they are. -/
theorem Staged.fallen (h : Staged n p) {q : Process} {ending : ProcessEnd}
    (hmain : q.main = .ended ending) (hthread : q.thread = p.thread)
    (htransport : q.transport = p.transport) : Staged n q where
  early := by rw [hmain]; nofun
  starting := by rw [hmain]; nofun
  waiting := by rw [hmain]; nofun
  thread ht := by
    rw [hthread] at ht
    rw [htransport]
    exact h.thread ht
  within ht := by
    rw [hthread] at ht
    exact h.within ht

/-- The shutdown thread runs only while `main` waits, or after the end. -/
theorem Staged.main_waiting (h : Staged n p) (halive : p.ended = false) {t : ShutdownPhase}
    (ht : p.thread = some t) : ∃ j, p.main = .waiting j := by
  cases hmain : p.main with
  | masking =>
    rw [(h.early (.inl hmain)).1] at ht
    cases ht
  | parsing =>
    rw [(h.early (.inr hmain)).1] at ht
    cases ht
  | starting j =>
    rw [(h.starting hmain).2.1] at ht
    cases ht
  | waiting j => exact ⟨j, rfl⟩
  | ended ending =>
    rw [ended, hmain] at halive
    cases halive

/-- A step of the shutdown thread, seen from the waiting `main`. -/
theorem Staged.advance (h : Staged n p) (halive : p.ended = false) {t t' : ShutdownPhase}
    (ht : p.thread = some t) {q : Process} (hmain : q.main = p.main)
    (hthread : q.thread = some t')
    (hwithin : ∀ {i : Nat} {deadline : Int}, t' = .shutting i deadline → i ≤ n)
    (hdown : ∀ i, p.transport i = .down → q.transport i = .down)
    (hallows : ∀ i, i < n → t'.Allows i (q.transport i)) : Staged n q := by
  obtain ⟨j, hj⟩ := h.main_waiting halive ht
  refine ⟨?_, ?_, fun {j'} hj' => ?_, fun {t''} ht'' => ?_, fun hi => ?_⟩
  · rw [hmain, hj]
    nofun
  · rw [hmain, hj]
    nofun
  · rw [hmain] at hj'
    obtain ⟨hle, -, hall⟩ := h.waiting hj'
    exact ⟨hle, by rw [hthread]; nofun, fun i hi => hdown i (hall i hi)⟩
  · rw [hthread] at ht''
    cases ht''
    exact hallows
  · rw [hthread] at hi
    exact hwithin (Option.some.inj hi)

/-- The transport that is set is in its new state. -/
theorem setTransport_self (p : Process) (i : Nat) (state : TransportState) :
    (p.setTransport i state).transport i = state := Function.update_self ..

/-- The other transports stay. -/
theorem setTransport_of_ne (p : Process) {i j : Nat} (h : j ≠ i) (state : TransportState) :
    (p.setTransport i state).transport j = p.transport j := Function.update_of_ne h ..

/-- The transports stay in step with the threads. -/
theorem Move.staged (hm : Move n p op p') (halive : p.ended = false) (h : Staged n p) :
    Staged n p' := by
  cases hm with
  | pend _ => exact ⟨h.early, h.starting, h.waiting, h.thread, h.within⟩
  | spawn _ _ => exact ⟨h.early, h.starting, h.waiting, h.thread, h.within⟩
  | mask hmain => exact ⟨fun _ => h.early (.inl hmain), nofun, nofun, h.thread, h.within⟩
  | parsed hmain =>
    obtain ⟨hthread, hjoinable, hidle⟩ := h.early (.inr hmain)
    refine ⟨nofun, fun hj => ?_, nofun, h.thread, h.within⟩
    cases hj
    exact ⟨Nat.zero_le n, hthread, hjoinable, hidle⟩
  | @start i hmain hi =>
    obtain ⟨-, hthread, hjoinable, hall⟩ := h.starting hmain
    refine ⟨nofun, fun hj => ?_, nofun, fun ht => ?_, h.within⟩
    · cases hj
      refine ⟨hi, hthread, hjoinable, fun k => ?_⟩
      rcases eq_or_ne k i with rfl | hne
      · rw [if_pos (Nat.lt_succ_self k)]
        exact setTransport_self ..
      · refine (setTransport_of_ne p hne _).trans ((hall k).trans ?_)
        have hiff : k < i ↔ k < i + 1 := by omega
        simp only [hiff]
    · rw [show p.thread = some _ from ht] at hthread
      cases hthread
  | launch hmain =>
    obtain ⟨-, -, -, hall⟩ := h.starting hmain
    refine ⟨nofun, nofun, fun hj => ?_, fun ht i hi => ?_, nofun⟩
    · cases hj
      exact ⟨Nat.zero_le n, nofun, nofun⟩
    · cases ht
      exact (hall i).trans (if_pos hi)
  | @wait i hmain hi ht =>
    obtain ⟨-, hthread, hall⟩ := h.waiting hmain
    refine ⟨nofun, nofun, fun hj => ?_, h.thread, h.within⟩
    cases hj
    refine ⟨hi, hthread, fun k hk => ?_⟩
    rcases Nat.lt_succ_iff_lt_or_eq.1 hk with hk | rfl
    · exact hall k hk
    · exact ht
  | take hthread _ =>
    exact h.advance halive hthread rfl rfl nofun (fun _ => id) fun i hi => h.thread hthread i hi
  | takeNone hthread =>
    exact h.advance halive hthread rfl rfl nofun (fun _ => id) fun i hi => h.thread hthread i hi
  | flag hthread =>
    have hzero : ∀ {i : Nat} {deadline d : Int},
        ShutdownPhase.shutting 0 d = .shutting i deadline → i ≤ n := by
      rintro i deadline d ⟨⟩
      exact Nat.zero_le n
    refine h.advance halive hthread rfl rfl hzero (fun _ => id) fun i hi => ?_
    have hserving : p.transport i = .serving := h.thread hthread i hi
    simp [ShutdownPhase.Allows, hserving]
  | @shutdown i deadline hthread hi ht =>
    refine h.advance halive hthread rfl hthread (fun heq => h.within (heq ▸ hthread))
      (fun k hk => ?_) fun k hk => ?_
    · have hne : k ≠ i := by
        rintro rfl
        rw [ht] at hk
        cases hk
      rw [setTransport_of_ne p hne]
      exact hk
    · rcases eq_or_ne k i with rfl | hne
      · rw [setTransport_self]
        simp [ShutdownPhase.Allows]
      · rw [setTransport_of_ne p hne]
        exact h.thread hthread k hk
  | @drained i deadline hthread hi ht =>
    have hnext : ∀ {k : Nat} {d : Int},
        ShutdownPhase.shutting (i + 1) deadline = .shutting k d → k ≤ n := by
      rintro k d ⟨⟩
      exact hi
    refine h.advance halive hthread rfl rfl hnext (fun k hk => ?_) fun k hk => ?_
    · rcases eq_or_ne k i with rfl | hne
      · exact setTransport_self ..
      · exact (setTransport_of_ne p hne _).trans hk
    · have hallows := h.thread hthread k hk
      rcases eq_or_ne k i with rfl | hne
      · have hdown : (p.setTransport k .down).transport k = .down := setTransport_self ..
        simp [ShutdownPhase.Allows, hdown]
      · have hsame := setTransport_of_ne p hne .down
        have hlt : k < i ↔ k < i + 1 := by omega
        simp only [ShutdownPhase.Allows, hsame, if_neg hne, hlt] at hallows ⊢
        by_cases hk' : k < i + 1
        · rw [if_pos hk'] at hallows ⊢
          exact hallows
        · rw [if_neg hk'] at hallows ⊢
          simp [hallows]
  | @finish deadline hthread =>
    refine h.advance halive hthread rfl rfl nofun (fun _ => id) fun i hi => ?_
    have hallows := h.thread hthread i hi
    simp only [ShutdownPhase.Allows, if_pos hi] at hallows
    exact hallows

end Process

end DsService

import DsService.Server.Moves
import Mathlib.Data.List.Infix

/-!
# The life of the server process

What `main.cpp` promises of the process it runs, over any number of transports and every order of
the steps of its threads and of the signals it is sent. `Recorded` ties a process that has not ended
to the calls behind it; one that has ended is read off its last step.
-/

namespace DsService

namespace Process

variable {n : Nat} {p p' : Process} {op : ProcessOp}

/-! ## The calls behind a state -/

abbrev ProcessEvent := Machine.Event Process ProcessOp Unit

/-- The transport this event started. -/
def startOf (e : ProcessEvent) : Option Nat :=
  match e.op, e.pre.main with
  | .start true, .starting i => some i
  | _, _ => none

/-- The transport whose `wait` this event returned from. -/
def waitOf (e : ProcessEvent) : Option Nat :=
  match e.op, e.pre.main with
  | .wait, .waiting i => some i
  | _, _ => none

/-- The call of `shutdown` this event made. -/
def shutdownOf (e : ProcessEvent) : Option (Nat × Int) :=
  match e.op, e.pre.thread with
  | .shutdown, some (.shutting i deadline) => some (i, deadline)
  | _, _ => none

def starts (es : List ProcessEvent) : List Nat := es.filterMap startOf

def waits (es : List ProcessEvent) : List Nat := es.filterMap waitOf

def shutdowns (es : List ProcessEvent) : List (Nat × Int) := es.filterMap shutdownOf

/-- How many transports have been started. -/
def started (n : Nat) : MainPhase → Nat
  | .starting i => i
  | .waiting _ => n
  | _ => 0

/-- How many transports have been waited for. -/
def waited : MainPhase → Nat
  | .waiting i => i
  | _ => 0

/-- The calls of `shutdown` made by a shutdown thread that is here. -/
def shutdownCalls (n : Nat) (p : Process) : List (Nat × Int) :=
  match p.thread with
  | some (.shutting i deadline) =>
      (List.range (if i < n ∧ p.transport i = .draining deadline then i + 1 else i)).map
        (·, deadline)
  | some (.done deadline) => (List.range n).map (·, deadline)
  | _ => []

/-- The shutdown thread has come this far with this deadline. -/
def Deadline (p : Process) (deadline : Int) : Prop :=
  (∃ i, p.thread = some (.shutting i deadline)) ∨ p.thread = some (.done deadline)

/-- Someone has asked the process to stop, or `sigwait` has failed. -/
def Asked (es : List ProcessEvent) : Prop :=
  ∃ e ∈ es, e.op = .sigwait none ∨ ∃ s, e.op = .signal s

/-- A process that has not ended, against the calls behind it. -/
structure Recorded (n : Nat) (mask : Finset Signal) (es : List ProcessEvent) (p : Process) :
    Prop where
  starts : starts es = List.range (started n p.main)
  waits : waits es = List.range (waited p.main)
  shutdowns : shutdowns es = p.shutdownCalls n
  asked : ∀ {t}, p.thread = some t → t ≠ .sigwait → Asked es
  pending : ∀ s ∈ p.pending, ∃ e ∈ es, e.op = .signal s
  deadline : ∀ {d}, p.Deadline d → ∃ e ∈ es, ∃ now, e.op = .flag now ∧ d = shutdownDeadline now
  masking : p.main = .masking → p.masks = [mask] ∧ ∀ e ∈ es, e.op ≠ .mask true
  masked : p.main ≠ .masking → ∀ m ∈ p.masks, shutdownSignals ⊆ m

/-- What a step adds to the transports started. -/
theorem Move.starts (hm : Move n p op p') :
    List.range (started n p'.main) =
      List.range (started n p.main) ++ (startOf ⟨p, op, (), p'⟩).toList := by
  cases hm with
  | mask hmain => simp [startOf, started, hmain]
  | parsed hmain => simp [startOf, started, hmain]
  | start hmain hi => simp [startOf, started, hmain, List.range_succ]
  | launch hmain => simp [startOf, started, hmain]
  | wait hmain hi ht => simp [startOf, started, hmain]
  | _ => simp [startOf, setTransport]

/-- What a step adds to the transports waited for. -/
theorem Move.waits (hm : Move n p op p') :
    List.range (waited p'.main) =
      List.range (waited p.main) ++ (waitOf ⟨p, op, (), p'⟩).toList := by
  cases hm with
  | mask hmain => simp [waitOf, waited, hmain]
  | parsed hmain => simp [waitOf, waited, hmain]
  | start hmain hi => simp [waitOf, waited, hmain]
  | launch hmain => simp [waitOf, waited, hmain]
  | wait hmain hi ht => simp [waitOf, waited, hmain, List.range_succ]
  | _ => simp [waitOf, setTransport]

/-- What a step adds to the calls of `shutdown`. -/
theorem Move.shutdowns (hm : Move n p op p') (h : Staged n p) :
    p'.shutdownCalls n = p.shutdownCalls n ++ (shutdownOf ⟨p, op, (), p'⟩).toList := by
  cases hm with
  | start hmain hi =>
    obtain ⟨-, hthread, -⟩ := h.starting hmain
    simp [shutdownCalls, shutdownOf, setTransport, hthread]
  | launch hmain =>
    obtain ⟨-, hthread, -⟩ := h.starting hmain
    simp [shutdownCalls, shutdownOf, hthread]
  | take hthread _ => simp [shutdownCalls, shutdownOf, hthread]
  | takeNone hthread => simp [shutdownCalls, shutdownOf, hthread]
  | @flag now hthread =>
    have hserving : ¬ (0 < n ∧ p.transport 0 = .draining (shutdownDeadline now)) := by
      rintro ⟨hn, ht⟩
      have hall : p.transport 0 = .serving := h.thread hthread 0 hn
      rw [hall] at ht
      cases ht
    simp [shutdownCalls, shutdownOf, hthread, if_neg hserving]
  | shutdown hthread hi ht =>
    simp [shutdownCalls, shutdownOf, setTransport, hthread, hi, ht, List.range_succ]
  | @drained i deadline hthread hi ht =>
    -- the next transport still serves, so its shutdown has not been called
    have hserving : ¬ (i + 1 < n ∧ p.transport (i + 1) = .draining deadline) := by
      rintro ⟨hn, hnext⟩
      have hall := h.thread hthread (i + 1) hn
      simp [ShutdownPhase.Allows, hnext] at hall
    simp [shutdownCalls, shutdownOf, setTransport, hthread, hi, ht, if_neg hserving]
  | finish hthread => simp [shutdownCalls, shutdownOf, hthread]
  | _ => simp [shutdownCalls, shutdownOf]

/-- A move does not end the process. -/
theorem Move.alive (hm : Move n p op p') (h : p.ended = false) : p'.ended = false := by
  cases hm <;> first | exact h | rfl

/-- The deadline is the one the flag was set with. -/
theorem Move.deadline (hm : Move n p op p') {d : Int} (hd : p'.Deadline d) :
    p.Deadline d ∨ ∃ now, op = .flag now ∧ d = shutdownDeadline now := by
  cases hm with
  | flag hthread =>
    rcases hd with ⟨i, hd⟩ | hd
    · cases hd
      exact .inr ⟨_, rfl, rfl⟩
    · cases hd
  | drained hthread _ _ =>
    rcases hd with ⟨i, hd⟩ | hd
    · cases hd
      exact .inl (.inl ⟨_, hthread⟩)
    · cases hd
  | finish hthread =>
    rcases hd with ⟨i, hd⟩ | hd
    · cases hd
    · cases hd
      exact .inl (.inl ⟨_, hthread⟩)
  | launch _ => rcases hd with ⟨i, hd⟩ | hd <;> cases hd
  | take _ _ => rcases hd with ⟨i, hd⟩ | hd <;> cases hd
  | takeNone _ => rcases hd with ⟨i, hd⟩ | hd <;> cases hd
  | _ => exact .inl hd

/-- A thread that has left `sigwait` was there before, or left it with this step. -/
theorem Move.left (hm : Move n p op p') {t : ShutdownPhase} (ht : p'.thread = some t)
    (hne : t ≠ .sigwait) : (∃ t', p.thread = some t' ∧ t' ≠ .sigwait) ∨
      op = .sigwait none ∨ ∃ s ∈ p.pending, op = .sigwait (some s) := by
  cases hm with
  | take _ hs => exact .inr (.inr ⟨_, hs, rfl⟩)
  | takeNone _ => exact .inr (.inl rfl)
  | flag hthread => exact .inl ⟨_, hthread, nofun⟩
  | drained hthread _ _ => exact .inl ⟨_, hthread, nofun⟩
  | finish hthread => exact .inl ⟨_, hthread, nofun⟩
  | launch _ =>
    cases ht
    exact absurd rfl hne
  | _ => exact .inl ⟨t, ht, hne⟩

/-- Only a signal makes a signal pending. -/
theorem Move.pending (hm : Move n p op p') {s : Signal} (hs : s ∈ p'.pending) :
    s ∈ p.pending ∨ op = .signal s := by
  cases hm with
  | pend _ => exact (Finset.mem_insert.1 hs).symm.imp_right fun heq => by rw [heq]
  | take _ _ => exact .inl (Finset.mem_of_mem_erase hs)
  | _ => exact .inl hs

/-- Every thread blocks the shutdown signals once `main` does. -/
theorem Move.masks (hm : Move n p op p') (hone : p.main = .masking → ∃ mask, p.masks = [mask])
    (h : p.main ≠ .masking → ∀ m ∈ p.masks, shutdownSignals ⊆ m) (hmain : p'.main ≠ .masking) :
    ∀ m ∈ p'.masks, shutdownSignals ⊆ m := by
  cases hm with
  | spawn hmask hne =>
    intro m hm
    rcases List.mem_append.1 hm with hm | hm
    · exact h hne m hm
    · rw [List.mem_singleton.1 hm]
      exact h hne _ (List.mem_of_getElem? hmask)
  | mask hmasking =>
    obtain ⟨mask, hmasks⟩ := hone hmasking
    simp [hmasks]
  | parsed hparsing => exact h (by rw [hparsing]; nofun)
  | start hstarting _ => exact h (by rw [hstarting]; nofun)
  | launch hstarting =>
    have hall := h (by rw [hstarting]; nofun)
    intro m hm
    rcases List.mem_append.1 hm with hm | hm
    · exact hall m hm
    · exact hall m (List.mem_of_mem_head? (Option.mem_toList.1 hm))
  | wait hwaiting _ _ => exact h (by rw [hwaiting]; nofun)
  | _ => exact h hmain

/-- `main` is before its mask only at the start. -/
theorem Move.masking (hm : Move n p op p') (hmain : p'.main = .masking) :
    p.main = .masking ∧ p'.masks = p.masks ∧ op ≠ .mask true := by
  cases hm with
  | mask _ => cases hmain
  | parsed _ => cases hmain
  | start _ _ => cases hmain
  | launch _ => cases hmain
  | wait _ _ _ => cases hmain
  | spawn _ hne => exact absurd hmain hne
  | _ => exact ⟨hmain, rfl, nofun⟩

variable {mask : Finset Signal} {es : List ProcessEvent}

/-- Nothing has been called yet. -/
theorem Recorded.init : Recorded n mask [] (machine n mask).init where
  starts := rfl
  waits := rfl
  shutdowns := rfl
  asked ht := by cases ht
  pending s hs := absurd hs (Finset.notMem_empty s)
  deadline := by rintro d (⟨i, hd⟩ | hd) <;> cases hd
  masking _ := ⟨rfl, fun e he => absurd he List.not_mem_nil⟩
  masked hmain := absurd rfl hmain

/-- **Every move keeps the record.** -/
theorem Move.recorded (hm : Move n p op p') (hst : Staged n p) (h : Recorded n mask es p) :
    Recorded n mask (es ++ [⟨p, op, (), p'⟩]) p' where
  starts := by
    rw [hm.starts, ← h.starts, Process.starts, List.filterMap_append]
    rfl
  waits := by
    rw [hm.waits, ← h.waits, Process.waits, List.filterMap_append]
    rfl
  shutdowns := by
    rw [hm.shutdowns hst, ← h.shutdowns, Process.shutdowns, List.filterMap_append]
    rfl
  asked ht hne := by
    unfold Asked
    rw [Machine.exists_snoc]
    rcases hm.left ht hne with ⟨t', ht', hne'⟩ | hnone | ⟨s, hs, -⟩
    · exact .inl (h.asked ht' hne')
    · exact .inr (.inl hnone)
    · obtain ⟨e, he, hsent⟩ := h.pending s hs
      exact .inl ⟨e, he, .inr ⟨s, hsent⟩⟩
  pending s hs := by
    rw [Machine.exists_snoc]
    exact (hm.pending hs).imp_left (h.pending s)
  deadline hd := by
    rw [Machine.exists_snoc]
    exact (hm.deadline hd).imp_left h.deadline
  masking hmain := by
    obtain ⟨hbefore, hmasks, hop⟩ := hm.masking hmain
    obtain ⟨hone, hnone⟩ := h.masking hbefore
    refine ⟨hmasks.trans hone, fun e he => ?_⟩
    rcases List.mem_append.1 he with he | he
    · exact hnone e he
    · rw [List.mem_singleton.1 he]
      exact hop
  masked hmain := hm.masks (fun hbefore => ⟨mask, (h.masking hbefore).1⟩) h.masked hmain

abbrev Runs (n : Nat) (mask : Finset Signal) (es : List ProcessEvent) (p : Process) : Prop :=
  (machine n mask).Run es p

/-- The transports are in step with the threads in every run. -/
theorem Runs.staged (h : Runs n mask es p) : Staged n p := by
  induction h with
  | nil => exact .init mask
  | snoc _ hs ih =>
    obtain ⟨halive, hnext⟩ := step_next hs
    cases hnext with
    | move hm => exact hm.staged halive ih
    | fall _ hmain hthread htransport => exact ih.fallen hmain hthread htransport

/-- A process that has not ended has its calls behind it. -/
theorem Runs.recorded (h : Runs n mask es p) (halive : p.ended = false) :
    Recorded n mask es p := by
  induction h with
  | nil => exact .init
  | snoc h hs ih =>
    obtain ⟨hbefore, hnext⟩ := step_next hs
    cases hnext with
    | move hm => exact hm.recorded (Runs.staged h) (ih hbefore)
    | fall _ hmain _ _ =>
      rw [ended, hmain] at halive
      cases halive

/-! ## What a run promises -/

/-- The calls of the transports come in the order of the list: every start before any shutdown,
one deadline for all shutdowns, and a wait returns only once its transport was shut down. -/
structure Ordered (n : Nat) (es : List ProcessEvent) : Prop where
  starts_prefix : starts es <+: List.range n
  shutdowns_prefix : ∃ deadline : Int, shutdowns es <+: (List.range n).map (·, deadline)
  started_first : shutdowns es ≠ [] → starts es = List.range n ∧ Asked es
  waits_prefix : waits es <+: (shutdowns es).map Prod.fst

/-- How the process can exit, with what came before. -/
inductive Exit (n : Nat) (es : List ProcessEvent) : Nat → Prop
  | failed (hfailed : ∃ e ∈ es, e.op = .mask false ∨ e.op = .parseArgs .failed ∨
      e.op = .start false) (hshutdowns : shutdowns es = []) : Exit n es 1
  | printed (hprinted : ∃ e ∈ es, e.op = .parseArgs .printed) (hstarts : starts es = []) :
      Exit n es 0
  | stopped {now : Int} (hasked : Asked es) (hflag : ∃ e ∈ es, e.op = .flag now)
      (hstarts : starts es = List.range n)
      (hshutdowns : shutdowns es = (List.range n).map (·, shutdownDeadline now))
      (hwaits : waits es = List.range n) : Exit n es 0

/-- A shorter count is the beginning of a longer one. -/
theorem range_initial {i j : Nat} (h : i ≤ j) : List.range i <+: List.range j := by
  rw [List.prefix_iff_eq_take, List.length_range, List.take_range, min_eq_left h]

/-- The calls of `shutdown` go down the list with one deadline. -/
theorem Staged.shutdownCalls (h : Staged n p) :
    ∃ deadline : Int, p.shutdownCalls n <+: (List.range n).map (·, deadline) := by
  unfold Process.shutdownCalls
  split
  · next i deadline hthread =>
    refine ⟨deadline, (range_initial ?_).map _⟩
    have hle := h.within hthread
    split <;> omega
  · next deadline hthread => exact ⟨deadline, List.prefix_rfl⟩
  · exact ⟨0, List.nil_prefix⟩

/-- `main` has waited only for transports that were shut down. -/
theorem Staged.waited (h : Staged n p) :
    List.range (Process.waited p.main) <+: (p.shutdownCalls n).map Prod.fst := by
  cases hmain : p.main with
  | waiting j =>
    obtain ⟨hj, hthread, hdown⟩ := h.waiting hmain
    have hserving : (∀ i, i < n → p.transport i = .serving) → j = 0 := by
      intro hall
      by_contra hne
      have hpos := Nat.pos_of_ne_zero hne
      have h0 := hdown 0 hpos
      rw [hall 0 (Nat.lt_of_lt_of_le hpos hj)] at h0
      cases h0
    cases ht : p.thread with
    | none => exact absurd ht hthread
    | some t =>
      have hallows := h.thread ht
      cases t with
      | sigwait =>
        rw [hserving hallows]
        exact List.nil_prefix
      | taken =>
        rw [hserving hallows]
        exact List.nil_prefix
      | shutting i deadline =>
        have hji : j ≤ i := by
          by_contra hlt
          have hi : i < j := Nat.lt_of_not_le hlt
          have hthis := hallows i (Nat.lt_of_lt_of_le hi hj)
          simp [ShutdownPhase.Allows, hdown i hi] at hthis
        simp only [Process.shutdownCalls, ht, List.map_map, Function.comp_def, List.map_id_fun',
          id_eq]
        refine range_initial (hji.trans ?_)
        split <;> omega
      | done deadline =>
        simp only [Process.shutdownCalls, ht, List.map_map, Function.comp_def, List.map_id_fun',
          id_eq]
        exact range_initial hj
  | _ => exact List.nil_prefix

/-- The calls behind a process that has not ended are in order. -/
theorem Recorded.ordered (hr : Recorded n mask es p) (h : Staged n p) (halive : p.ended = false) :
    Ordered n es where
  starts_prefix := by
    rw [hr.starts]
    refine range_initial ?_
    cases hmain : p.main with
    | starting j => exact (h.starting hmain).1
    | waiting j => exact le_rfl
    | _ => exact Nat.zero_le n
  shutdowns_prefix := by
    rw [hr.shutdowns]
    exact h.shutdownCalls
  started_first hne := by
    rw [hr.shutdowns] at hne
    cases ht : p.thread with
    | none =>
      rw [Process.shutdownCalls, ht] at hne
      exact absurd rfl hne
    | some t =>
      obtain ⟨j, hmain⟩ := h.main_waiting halive ht
      refine ⟨by rw [hr.starts, hmain]; rfl, hr.asked ht ?_⟩
      rintro rfl
      rw [Process.shutdownCalls, ht] at hne
      exact hne rfl
  waits_prefix := by
    rw [hr.waits, hr.shutdowns]
    exact h.waited

/-- A process that leaves `main` exits, unless it is terminated on the way. -/
theorem leaving_cases (p : Process) (code : Nat) :
    p.leaving code = .terminated ∨ p.leaving code = .exited code := by
  unfold leaving
  split
  · exact .inl rfl
  · exact .inr rfl

/-- The last step of the process makes no call of a transport. -/
theorem Fall.calls {ending : ProcessEnd} (hf : Fall n p op ending) (h : Staged n p)
    (p' : Process) : ending ≠ .crashed ∧
      startOf ⟨p, op, (), p'⟩ = none ∧ waitOf ⟨p, op, (), p'⟩ = none ∧
      shutdownOf ⟨p, op, (), p'⟩ = none := by
  have hidle : ∀ {t : ShutdownPhase} {i : Nat}, p.thread = some t → i < n →
      p.transport i ≠ .idle := by
    intro t i ht hi hidle
    have hallows := h.thread ht i hi
    rw [hidle] at hallows
    cases t with
    | shutting j deadline => simp [ShutdownPhase.Allows] at hallows
    | _ => cases hallows
  have hleave : p.leaving 1 ≠ .crashed := by
    rcases p.leaving_cases 1 with h | h <;> simp [h]
  cases hf with
  | waitIdle hmain hi ht =>
    obtain ⟨-, hthread, -⟩ := h.waiting hmain
    obtain ⟨t, hthread⟩ := Option.ne_none_iff_exists'.1 hthread
    exact absurd ht (hidle hthread hi)
  | shutdownIdle hthread hi ht => exact absurd ht (hidle hthread hi)
  | unmasked _ => exact ⟨hleave, rfl, rfl, rfl⟩
  | unbound _ _ => exact ⟨hleave, rfl, rfl, rfl⟩
  | _ =>
    refine ⟨?_, rfl, rfl, rfl⟩
    intro hcrashed
    cases hcrashed

/-- A process that has ended did so with its last step. -/
theorem Runs.fall (h : Runs n mask es p) {ending : ProcessEnd} (hmain : p.main = .ended ending) :
    ∃ (es' : List ProcessEvent) (q : Process) (op : ProcessOp), es = es' ++ [⟨q, op, (), p⟩] ∧
      Runs n mask es' q ∧ q.ended = false ∧ Fall n q op ending := by
  cases h with
  | nil => cases hmain
  | @snoc es' q _ op _ h hs =>
    obtain ⟨halive, hnext⟩ := step_next hs
    refine ⟨es', q, op, rfl, h, halive, ?_⟩
    cases hnext with
    | move hm =>
      have halive' := hm.alive halive
      rw [ended, hmain] at halive'
      cases halive'
    | fall hf hmain' _ _ =>
      rw [hmain] at hmain'
      cases hmain'
      exact hf

/-- The calls of the transports are in order in every run. -/
theorem Runs.ordered (h : Runs n mask es p) : Ordered n es := by
  cases halive : p.ended with
  | false => exact (h.recorded halive).ordered h.staged halive
  | true =>
    cases hmain : p.main with
    | ended ending =>
      obtain ⟨es', q, op, rfl, hq, hqalive, hf⟩ := h.fall hmain
      obtain ⟨-, hstart, hwait, hshutdown⟩ := hf.calls hq.staged p
      have hord := (hq.recorded hqalive).ordered hq.staged hqalive
      have hasked : Asked es' → Asked (es' ++ [⟨q, op, (), p⟩]) := fun hasked =>
        Machine.exists_snoc.2 (.inl hasked)
      have hstarts : starts (es' ++ [⟨q, op, (), p⟩]) = starts es' := by
        simp [starts, hstart]
      have hwaits : waits (es' ++ [⟨q, op, (), p⟩]) = waits es' := by
        simp [waits, hwait]
      have hshutdowns : shutdowns (es' ++ [⟨q, op, (), p⟩]) = shutdowns es' := by
        simp [shutdowns, hshutdown]
      refine ⟨?_, ?_, fun hne => ?_, ?_⟩
      · rw [hstarts]
        exact hord.starts_prefix
      · rw [hshutdowns]
        exact hord.shutdowns_prefix
      · rw [hshutdowns] at hne
        rw [hstarts]
        exact (hord.started_first hne).imp_right hasked
      · rw [hwaits, hshutdowns]
        exact hord.waits_prefix
    | _ =>
      rw [ended, hmain] at halive
      cases halive

/-- How a run can end. -/
theorem Runs.exit (h : Runs n mask es p) {code : Nat} (hmain : p.main = .ended (.exited code)) :
    Exit n es code := by
  obtain ⟨es', q, op, rfl, hq, halive, hf⟩ := h.fall hmain
  obtain ⟨-, hstart, hwait, hshutdown⟩ := hf.calls hq.staged p
  have hst := hq.staged
  have hr := hq.recorded halive
  have hlast : (⟨q, op, (), p⟩ : ProcessEvent) ∈ es' ++ [⟨q, op, (), p⟩] := by simp
  have hstarts : starts (es' ++ [⟨q, op, (), p⟩]) = starts es' := by simp [starts, hstart]
  have hwaits : waits (es' ++ [⟨q, op, (), p⟩]) = waits es' := by simp [waits, hwait]
  have hshutdowns : shutdowns (es' ++ [⟨q, op, (), p⟩]) = shutdowns es' := by
    simp [shutdowns, hshutdown]
  have hnone : q.thread = none → shutdowns (es' ++ [⟨q, op, (), p⟩]) = [] := by
    intro hthread
    rw [hshutdowns, hr.shutdowns, shutdownCalls, hthread]
  generalize hending : ProcessEnd.exited code = ending at hf
  cases hf with
  | unmasked hmasking =>
    obtain ⟨hthread, hjoinable, -⟩ := hst.early (.inl hmasking)
    rw [leaving, hjoinable] at hending
    cases hending
    exact .failed ⟨_, hlast, .inl rfl⟩ (hnone hthread)
  | unparsed hparsing =>
    cases hending
    exact .failed ⟨_, hlast, .inr (.inl rfl)⟩ (hnone (hst.early (.inr hparsing)).1)
  | printed hparsing =>
    cases hending
    refine .printed ⟨_, hlast, rfl⟩ ?_
    rw [hstarts, hr.starts, hparsing]
    rfl
  | unbound hstarting _ =>
    obtain ⟨-, hthread, hjoinable, -⟩ := hst.starting hstarting
    rw [leaving, hjoinable] at hending
    cases hending
    exact .failed ⟨_, hlast, .inr (.inr rfl)⟩ (hnone hthread)
  | @join deadline hwaiting hthread =>
    cases hending
    obtain ⟨e, he, now, hflag, rfl⟩ := hr.deadline (.inr hthread)
    obtain ⟨e', he', hasked⟩ := hr.asked hthread nofun
    refine .stopped ⟨e', List.mem_append_left _ he', hasked⟩
      ⟨e, List.mem_append_left _ he, hflag⟩ ?_ ?_ ?_
    · rw [hstarts, hr.starts, hwaiting]
      rfl
    · rw [hshutdowns, hr.shutdowns, shutdownCalls, hthread]
    · rw [hwaits, hr.waits, hwaiting]
      rfl
  | _ => cases hending

/-- The default action of a signal is taken only before the mask, and only if the process did not
start with the signal blocked. -/
theorem Runs.killed (h : Runs n mask es p) {s : Signal} (hmain : p.main = .ended (.killed s)) :
    s ∉ mask ∧ ∀ e ∈ es, e.op ≠ .mask true := by
  obtain ⟨es', q, op, rfl, hq, halive, hf⟩ := h.fall hmain
  have hr := hq.recorded halive
  generalize hending : ProcessEnd.killed s = ending at hf
  cases hf with
  | @kill s' m hm hs =>
    cases hending
    by_cases hmasking : q.main = .masking
    · obtain ⟨hone, hnone⟩ := hr.masking hmasking
      rw [hone, List.mem_singleton] at hm
      rw [hm] at hs
      refine ⟨hs, fun e he => ?_⟩
      rcases List.mem_append.1 he with he | he
      · exact hnone e he
      · rw [List.mem_singleton.1 he]
        nofun
    · have hall : s ∈ shutdownSignals := by cases s <;> decide
      exact absurd (hr.masked hmasking m hm hall) hs
  | unmasked _ => rcases q.leaving_cases 1 with h | h <;> rw [h] at hending <;> cases hending
  | unbound _ _ => rcases q.leaving_cases 1 with h | h <;> rw [h] at hending <;> cases hending
  | _ => cases hending

/-- `std::terminate` is called only for a shutdown thread that could not be created. -/
theorem Runs.terminated (h : Runs n mask es p) (hmain : p.main = .ended .terminated) :
    ∃ e ∈ es, e.op = .launch false := by
  obtain ⟨es', q, op, rfl, hq, halive, hf⟩ := h.fall hmain
  have hlast : (⟨q, op, (), p⟩ : ProcessEvent) ∈ es' ++ [⟨q, op, (), p⟩] := by simp
  generalize hending : ProcessEnd.terminated = ending at hf
  cases hf with
  | unmasked hmasking =>
    rw [leaving, (hq.staged.early (.inl hmasking)).2.1] at hending
    cases hending
  | unbound hstarting _ =>
    rw [leaving, (hq.staged.starting hstarting).2.2.1] at hending
    cases hending
  | unlaunched _ => exact ⟨_, hlast, rfl⟩
  | _ => cases hending

/-- No transport is called before it is started. -/
theorem Runs.not_crashed (h : Runs n mask es p) : p.main ≠ .ended .crashed := by
  intro hmain
  obtain ⟨es', q, op, -, hq, -, hf⟩ := h.fall hmain
  exact (hf.calls hq.staged p).1 rfl

end Process

/-- **The server stops in order.** Whatever signals arrive and however the two threads interleave:
every transport is started before any is shut down, each is shut down once, in order and with one
deadline, and `main` returns only after it has waited for all of them. A failure to start shuts
nothing down. A signal kills the process only before the mask; no transport is called that holds no
server, and nothing ends in `std::terminate` but a thread that could not be created. -/
theorem server_stops_in_order {n : Nat} {mask : Finset Signal} {es : List Process.ProcessEvent}
    {p : Process} (h : (Process.machine n mask).Run es p) :
    Process.Ordered n es ∧
    (∀ code, p.main = .ended (.exited code) → Process.Exit n es code) ∧
    (∀ s, p.main = .ended (.killed s) → s ∉ mask ∧ ∀ e ∈ es, e.op ≠ .mask true) ∧
    (p.main = .ended .terminated → ∃ e ∈ es, e.op = .launch false) ∧
    p.main ≠ .ended .crashed :=
  ⟨Process.Runs.ordered h, fun _ => Process.Runs.exit h, fun _ => Process.Runs.killed h,
    Process.Runs.terminated h, Process.Runs.not_crashed h⟩

/-- A server with two transports that is asked to stop while it starts, and again while it stops. -/
def stoppedEarly : List Process.ProcessEvent × Process :=
  (Process.machine 2 ∅).runOf
    [.mask true, .parseArgs .parsed, .start true, .signal .sigterm, .spawn 0, .start true,
      .launch true, .sigwait (some .sigterm), .flag 7, .shutdown, .signal .sigint, .drained, .wait,
      .shutdown, .drained, .finish, .wait, .join]

/-- A server that is stopped while it starts. -/
theorem server_stops_in_order_early :
    Process.Exit 2 stoppedEarly.1 0 ∧ stoppedEarly.2.main ≠ .ended .crashed := by
  have h := server_stops_in_order ((Process.machine 2 ∅).run_runOf
    [.mask true, .parseArgs .parsed, .start true, .signal .sigterm, .spawn 0, .start true,
      .launch true, .sigwait (some .sigterm), .flag 7, .shutdown, .signal .sigint, .drained, .wait,
      .shutdown, .drained, .finish, .wait, .join] (by decide))
  exact ⟨h.2.1 0 (by decide), h.2.2.2.2⟩

end DsService

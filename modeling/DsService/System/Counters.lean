import DsService.System.Concurrent
import Mathlib.Data.List.Perm.Subperm

/-!
# Counters

A counter holds the number of `counter_get_next_value` calls on its key (`counter_eq`), so in the
order of a run these calls are answered 1, 2, 3 and so on (`numbers_eq`). Callers do not see that
order. What they see of it is `concurrent_counters_are_gap_free`.
-/

namespace DsService

variable {Q α : Type}

/-! ## In the order of a run -/

/-- The call asks for the next value of the counter `k`. -/
def SystemOp.isNext (k : String) : SystemOp α → Bool
  | .counters (.getNextValue request) => decide (request.key = k)
  | _ => false

/-- The number that the call got from the counter `k`. -/
def SystemOp.number (k : String) : SystemOp α → SystemReply α → Option Nat
  | .counters (.getNextValue request), .counters (.getNextValue (.ok ⟨value⟩)) =>
      if request.key = k then some value else none
  | _, _ => none

/-- Only `counters_get_next_value` takes a number, and the reply says which. -/
theorem SystemOp.number_eq_some {k : String} {op : SystemOp α} {r : SystemReply α} {v : Nat} :
    op.number k r = some v ↔ op = .counters (.getNextValue ⟨k⟩) ∧
      r = .counters (.getNextValue (.ok ⟨v⟩)) := by
  constructor
  · intro h
    unfold number at h
    split at h
    · next request value =>
        split at h
        · next hk =>
            cases h
            subst hk
            exact ⟨rfl, rfl⟩
        · cases h
    · cases h
  · rintro ⟨rfl, rfl⟩
    exact if_pos rfl

variable [LinearOrder α] [PriorityQueue Q (TaskQueueEntry α) taskQueueEntryOrder]
  {re2 : RE2} {iso : Iso8601} {es : List (SystemEvent Q α)} {m m' : SystemState Q α}
  {op : SystemOp α} {r : SystemReply α} {k : String}

/-- What a call does to the counter `k`. -/
theorem SystemState.step_counter (h : step re2 iso m op = some (r, m')) (k : String) :
    op.isNext k = true ∧
        (m'.counters.data.lookup k).getD 0 = ((m.counters.data.lookup k).getD 0 + 1) % 2 ^ 64 ∧
        op.number k r = some (((m.counters.data.lookup k).getD 0 + 1) % 2 ^ 64) ∨
      op.isNext k = false ∧ m'.counters.data.lookup k = m.counters.data.lookup k ∧
        op.number k r = none := by
  cases step_served h with
  | @counters op reply counters hs =>
      cases op with
      | getNextValue request =>
          cases hs
          by_cases hk : request.key = k
          · subst hk
            exact .inl ⟨by simp [SystemOp.isNext], by simp, by simp [SystemOp.number]⟩
          · refine .inr ⟨by simp [SystemOp.isNext, hk], ?_, by simp [SystemOp.number, hk]⟩
            exact AList.lookup_insert_ne (Ne.symm hk)
      | getCurrentValue | searchKey =>
          cases hs
          exact .inr ⟨rfl, rfl, rfl⟩
  | _ => exact .inr ⟨rfl, rfl, rfl⟩

/-- **A counter holds the number of calls that asked for its next value.** -/
theorem counter_eq (h : (SystemState.machine Q re2 iso).Run es m) (k : String) :
    (m.counters.data.lookup k).getD 0 = (es.countP fun e => e.op.isNext k) % 2 ^ 64 := by
  induction h with
  | nil => rfl
  | snoc _ hs ih =>
      rw [List.countP_append, List.countP_singleton]
      rcases SystemState.step_counter hs k with ⟨hnext, hvalue, -⟩ | ⟨hnext, hvalue, -⟩
      · rw [hvalue, ih, if_pos hnext, Nat.mod_add_mod]
      · rw [hvalue, ih, if_neg (by simp [hnext])]
        rfl

/-- The numbers that a history of calls got from the counter `k`. -/
def numbers (k : String) (es : List (SystemEvent Q α)) : List Nat :=
  es.filterMap fun e => e.op.number k e.reply

/-- **In the order of a run they are 1, 2, 3 and so on**, as far as 64 bits reach. -/
theorem numbers_eq (h : (SystemState.machine Q re2 iso).Run es m) (k : String)
    (hfew : (es.countP fun e => e.op.isNext k) < 2 ^ 64) :
    numbers k es = List.range' 1 (es.countP fun e => e.op.isNext k) := by
  induction h with
  | nil => rfl
  | @snoc es m m' op r hrun hs ih =>
      rw [List.countP_append, List.countP_singleton] at hfew ⊢
      have ih := ih (by omega)
      have hcounter := counter_eq hrun k
      unfold numbers at ih ⊢
      rw [List.filterMap_append, ih]
      rcases SystemState.step_counter hs k with ⟨hnext, -, hnumber⟩ | ⟨hnext, -, hnumber⟩
      · rw [if_pos hnext] at hfew
        rw [hcounter, Nat.mod_add_mod, Nat.mod_eq_of_lt hfew] at hnumber
        rw [if_pos hnext, List.range'_1_concat, Nat.add_comm 1]
        simp [hnumber]
      · rw [if_neg (by simp [hnext])]
        simp [hnumber]

/-- A counter never falls, as far as 64 bits reach. -/
theorem counter_mono (h : (SystemState.machine Q re2 iso).Run es m) (k : String)
    (hfew : (es.countP fun e => e.op.isNext k) < 2 ^ 64) :
    (es.Pairwise fun e f => (e.post.counters.data.lookup k).getD 0 ≤
        (f.pre.counters.data.lookup k).getD 0) ∧
      ∀ e ∈ es, (e.post.counters.data.lookup k).getD 0 ≤ (m.counters.data.lookup k).getD 0 := by
  induction h with
  | nil => exact ⟨.nil, fun _ he => by cases he⟩
  | @snoc es m m' op r hrun hs ih =>
      have hrun' := Machine.Run.snoc hrun hs
      have hcount : (es.countP fun e => e.op.isNext k) ≤
          List.countP (fun e : SystemEvent Q α => e.op.isNext k) (es ++ [⟨m, op, r, m'⟩]) := by
        rw [List.countP_append]
        exact Nat.le_add_right _ _
      obtain ⟨hpair, hle⟩ := ih (hcount.trans_lt hfew)
      have hstep : (m.counters.data.lookup k).getD 0 ≤ (m'.counters.data.lookup k).getD 0 := by
        rw [counter_eq hrun k, counter_eq hrun' k, Nat.mod_eq_of_lt hfew,
          Nat.mod_eq_of_lt (hcount.trans_lt hfew)]
        exact hcount
      refine ⟨List.pairwise_append.2 ⟨hpair, List.pairwise_singleton _ _, fun e he f hf => ?_⟩,
        fun e he => ?_⟩
      · rw [List.mem_singleton.1 hf]
        exact hle e he
      · rcases List.mem_append.1 he with he | he
        · exact (hle e he).trans hstep
        · rw [List.mem_singleton.1 he]

/-- A call that gets a number moves the counter to it. -/
theorem number_value (h : (SystemState.machine Q re2 iso).Run es m)
    (hfew : (es.countP fun e => e.op.isNext k) < 2 ^ 64) {e : SystemEvent Q α} {v : Nat}
    (he : e ∈ es) (hv : e.op.number k e.reply = some v) :
    (e.pre.counters.data.lookup k).getD 0 + 1 = v ∧
      (e.post.counters.data.lookup k).getD 0 = v := by
  obtain ⟨es₁, es₂, rfl⟩ := List.append_of_mem he
  obtain ⟨hrun, hs⟩ := h.split
  have hpre := counter_eq hrun k
  rw [List.countP_append, List.countP_cons] at hfew
  rcases SystemState.step_counter hs k with ⟨hnext, hpost, hnumber⟩ | ⟨-, -, hnumber⟩
  · rw [if_pos hnext] at hfew
    rw [hv, hpre, Nat.mod_eq_of_lt (by omega), Nat.mod_eq_of_lt (by omega)] at hnumber
    rw [hpre, Nat.mod_eq_of_lt (by omega), Nat.mod_eq_of_lt (by omega)] at hpost
    cases hnumber
    rw [hpre, Nat.mod_eq_of_lt (by omega)]
    exact ⟨rfl, hpost⟩
  · rw [hnumber] at hv
    cases hv

/-- A call that reads the counter leaves it. -/
theorem current_value (h : (SystemState.machine Q re2 iso).Run es m) {e : SystemEvent Q α}
    {v : Nat} (he : e ∈ es) (hop : e.op = .counters (.getCurrentValue ⟨k⟩))
    (hr : e.reply = .counters (.getCurrentValue (.ok ⟨v⟩))) :
    (e.pre.counters.data.lookup k).getD 0 = v ∧ (e.post.counters.data.lookup k).getD 0 = v := by
  obtain ⟨es₁, es₂, rfl⟩ := List.append_of_mem he
  obtain ⟨-, hs⟩ := h.split
  obtain ⟨m, op, reply, post⟩ := e
  subst hop hr
  have hs : some (SystemReply.counters (.getCurrentValue (m.counters.getCurrentValue ⟨k⟩)), m) =
      some (.counters (.getCurrentValue (.ok ⟨v⟩)), post) := hs
  simp only [Counters.getCurrentValue, Option.some.injEq, Prod.mk.injEq,
    SystemReply.counters.injEq, CounterReply.getCurrentValue.injEq, Except.ok.injEq,
    CounterGetCurrentValueResponse.mk.injEq] at hs
  exact ⟨hs.1, hs.2 ▸ hs.1⟩

/-! ## What concurrent callers see -/

variable {κ : Type}

/-- The call `i` was answered before the call `j` was made. -/
def Before (H : List (SystemVisible κ α)) (i j : κ) : Prop :=
  ∃ r op, [.answer i r, .call j op].Sublist H

/-- The call `i` got the number `v` from the counter `k`. -/
def Counted (k : String) (H : List (SystemVisible κ α)) (i : κ) (v : Nat) : Prop :=
  .call i (.counters (.getNextValue ⟨k⟩)) ∈ H ∧
    .answer i (.counters (.getNextValue (.ok ⟨v⟩))) ∈ H

/-- The call `i` read `v` as the current value of the counter `k`. -/
def CurrentlyRead (k : String) (H : List (SystemVisible κ α)) (i : κ) (v : Nat) : Prop :=
  .call i (.counters (.getCurrentValue ⟨k⟩)) ∈ H ∧
    .answer i (.counters (.getCurrentValue (.ok ⟨v⟩))) ∈ H

/-- The number of calls made so far that ask for the next value of the counter `k`. -/
def nextCalls (k : String) (H : List (SystemVisible κ α)) : Nat :=
  H.countP fun
    | .call _ op => op.isNext k
    | .answer _ _ => false

section
variable {H : List (SystemVisible κ α)} {l : List (κ × SystemEvent Q α)}
  (hl : Locking.Linearizes (SystemState.machine Q re2 iso) H l m)
include hl

/-- No more calls take effect than were made. -/
theorem countP_le_nextCalls (k : String) :
    ((l.map Prod.snd).countP fun e => e.op.isNext k) ≤ nextCalls k H := by
  let made : List (SystemVisible κ α) := (l.filter fun p => p.2.op.isNext k).map fun p =>
    .call p.1 p.2.op
  have hnodup : made.Nodup := by
    have hids : ((l.filter fun p => p.2.op.isNext k).map Prod.fst).Nodup :=
      hl.once.sublist (List.filter_sublist.map _)
    refine List.Nodup.of_map Locking.Visible.id ?_
    rw [List.map_map]
    exact hids
  have hsub : made ⊆ H.filter fun
      | .call _ op => op.isNext k
      | .answer _ _ => false := by
    intro v hv
    obtain ⟨p, hp, rfl⟩ := List.mem_map.1 hv
    obtain ⟨hmem, hnext⟩ := List.mem_filter.1 hp
    exact List.mem_filter.2 ⟨hl.called hmem, hnext⟩
  have hlength := (hnodup.subperm hsub).length_le
  rw [← List.countP_eq_length_filter] at hlength
  refine le_trans (le_of_eq ?_) hlength
  rw [List.length_map, ← List.countP_eq_length_filter, List.countP_map]
  rfl

omit hl [PriorityQueue Q (TaskQueueEntry α) taskQueueEntryOrder] [LinearOrder α] in
/-- The ids of the calls that a filter keeps. -/
theorem map_fst_filterMap_sublist {β γ : Type} (f : β → Option γ) (l : List (κ × β)) :
    ((l.filterMap fun p => (f p.2).map (p.1, ·)).map Prod.fst).Sublist (l.map Prod.fst) := by
  induction l with
  | nil => exact .slnil
  | cons p l ih =>
      cases hp : f p.2 with
      | none => simpa [hp] using ih.cons p.1
      | some c => simpa [hp] using ih.cons_cons p.1

variable {cuts : Cuts Q re2 iso} [DecidableEq κ]
  {c : Locking.Config (SystemState Q α) Store κ (Store.Part Q α) (SystemOp α) (SystemReply α)}
  (h : SystemExec cuts H c) {i : κ} {v : Nat}
include h

/-- The event of a call that got a number. -/
theorem Counted.event (hc : Counted k H i v) :
    ∃ e, (i, e) ∈ l ∧ e.op.number k e.reply = some v := by
  obtain ⟨e, he, hr⟩ := hl.answered hc.2
  have hop := Locking.Exec.call_unique h (hl.called he) hc.1
  exact ⟨e, he, SystemOp.number_eq_some.2 ⟨hop, hr⟩⟩

/-- A value that was read is in a reply. -/
theorem CurrentlyRead.event (hc : CurrentlyRead k H i v) : ∃ e, (i, e) ∈ l ∧
    e.op = .counters (.getCurrentValue ⟨k⟩) ∧
    e.reply = .counters (.getCurrentValue (.ok ⟨v⟩)) := by
  obtain ⟨e, he, hr⟩ := hl.answered hc.2
  exact ⟨e, he, Locking.Exec.call_unique h (hl.called he) hc.1, hr⟩

omit h [DecidableEq κ] in
/-- The numbers are places in the order in which the calls took effect. -/
theorem exists_order (hfew : nextCalls k H < 2 ^ 64) : ∃ order : List κ, order.Nodup ∧
    (∀ i ∈ order, .call i (.counters (.getNextValue ⟨k⟩)) ∈ H) ∧
    ∀ i e v, (i, e) ∈ l → e.op.number k e.reply = some v → 1 ≤ v ∧ order[v - 1]? = some i := by
  let counted := l.filterMap fun p => (p.2.op.number k p.2.reply).map (p.1, ·)
  have hsnd : counted.map Prod.snd =
      List.range' 1 ((l.map Prod.snd).countP fun e => e.op.isNext k) := by
    rw [← numbers_eq hl.run k ((countP_le_nextCalls hl k).trans_lt hfew), numbers,
      List.filterMap_map, List.map_filterMap]
    refine List.filterMap_congr fun p _ => ?_
    simp [Option.map_map, Function.comp_def]
  refine ⟨counted.map Prod.fst, hl.once.sublist
    (map_fst_filterMap_sublist (fun e : SystemEvent Q α => e.op.number k e.reply) l),
    fun i hi => ?_, fun i e v he hv => ?_⟩
  · obtain ⟨⟨i, v⟩, hmem, rfl⟩ := List.mem_map.1 hi
    obtain ⟨⟨i', e⟩, he, heq⟩ := List.mem_filterMap.1 hmem
    obtain ⟨v', hv, heq⟩ := Option.map_eq_some_iff.1 heq
    cases heq
    have hcall := hl.called he
    rwa [(SystemOp.number_eq_some.1 hv).1] at hcall
  · have hmem : (i, v) ∈ counted :=
      List.mem_filterMap.2 ⟨(i, e), he, Option.map_eq_some_iff.2 ⟨v, hv, rfl⟩⟩
    obtain ⟨n, hn⟩ := List.getElem?_of_mem hmem
    have hvn : (counted.map Prod.snd)[n]? = some v := by
      rw [List.getElem?_map, hn]
      rfl
    rw [hsnd] at hvn
    obtain ⟨hlt, hv'⟩ := List.getElem?_eq_some_iff.1 hvn
    rw [List.getElem_range'] at hv'
    have hvn : v - 1 = n := by omega
    refine ⟨by omega, ?_⟩
    rw [hvn, List.getElem?_map, hn]
    rfl

end

/-- **Concurrent callers get distinct numbers without gaps.** Whatever calls on the server run at
the same time, as long as fewer than 2^64 of them ask for the next value of the counter `k`: the
calls that got a number stand in one order of such calls, the one with the number `v` in place `v`;
a call made after another was answered has the greater number; and a call that reads the counter
reads no less than the numbers given out before it was made and less than the numbers asked for
after it was answered. -/
theorem concurrent_counters_are_gap_free {cuts : Cuts Q re2 iso} {κ : Type} [DecidableEq κ]
    {H : List (SystemVisible κ α)}
    {c : Locking.Config (SystemState Q α) Store κ (Store.Part Q α) (SystemOp α) (SystemReply α)}
    (h : SystemExec cuts H c) (k : String) (hfew : nextCalls k H < 2 ^ 64) :
    (∃ order : List κ, order.Nodup ∧
      (∀ i ∈ order, .call i (.counters (.getNextValue ⟨k⟩)) ∈ H) ∧
      ∀ i v, Counted k H i v → 1 ≤ v ∧ order[v - 1]? = some i) ∧
    (∀ i j u v, Counted k H i u → Counted k H j v → Before H i j → u < v) ∧
    ∀ i j u v, Counted k H i u → CurrentlyRead k H j v →
      (Before H i j → u ≤ v) ∧ (Before H j i → v < u) := by
  obtain ⟨l, m, hl, -⟩ := Locking.Exec.linearizes h
  rw [SystemState.machine_eq] at hl
  have hcount := (countP_le_nextCalls hl k).trans_lt hfew
  have hmono := (counter_mono hl.run k hcount).1
  have hmem : ∀ {i e}, (i, e) ∈ l → e ∈ l.map Prod.snd := fun he => List.mem_map.2 ⟨_, he, rfl⟩
  -- the counter has moved on from one of two calls to the other
  have hbefore : ∀ {i j e f}, (i, e) ∈ l → (j, f) ∈ l → Before H i j →
      (e.post.counters.data.lookup k).getD 0 ≤ (f.pre.counters.data.lookup k).getD 0 := by
    rintro i j e f he hf ⟨r, op, hsub⟩
    have hij := hl.inOrder hsub (List.mem_map.2 ⟨_, hf, rfl⟩)
    have hpair := hmono.sublist (hl.sublist_events he hf hij)
    simpa using hpair
  have hnumber : ∀ {i e v}, (i, e) ∈ l → e.op.number k e.reply = some v →
      (e.pre.counters.data.lookup k).getD 0 + 1 = v ∧
        (e.post.counters.data.lookup k).getD 0 = v := fun he hv =>
    number_value hl.run hcount (hmem he) hv
  refine ⟨?order, ?next, ?current⟩
  case order =>
    obtain ⟨order, hnodup, hmade, hplace⟩ := exists_order hl hfew
    refine ⟨order, hnodup, hmade, fun i v hc => ?_⟩
    obtain ⟨e, he, hv⟩ := hc.event hl h
    exact hplace i e v he hv
  case next =>
    intro i j u v hi hj hij
    obtain ⟨e, he, hu⟩ := hi.event hl h
    obtain ⟨f, hf, hv⟩ := hj.event hl h
    have hle := hbefore he hf hij
    have hpost := (hnumber he hu).2
    have hpre := (hnumber hf hv).1
    omega
  case current =>
    intro i j u v hi hj
    obtain ⟨e, he, hu⟩ := hi.event hl h
    obtain ⟨f, hf, hop, hr⟩ := hj.event hl h
    obtain ⟨hpre, hpost⟩ := current_value hl.run (hmem hf) hop hr
    obtain ⟨hpre', hpost'⟩ := hnumber he hu
    refine ⟨fun hij => ?_, fun hji => ?_⟩
    · have hle := hbefore he hf hij
      omega
    · have hle := hbefore hf he hji
      omega

/-- Two overlapping calls, of which the later one gets the first number. -/
theorem concurrent_counters_are_gap_free_overlapping : ∃ order : List Nat, order.Nodup ∧
    order[0]? = some 1 ∧ order[1]? = some 0 := by
  obtain ⟨c, h⟩ := sampleExec_overlapping
  obtain ⟨order, hnodup, -, hplace⟩ :=
    (concurrent_counters_are_gap_free h "n" (by decide)).1
  exact ⟨order, hnodup, (hplace 1 1 ⟨.tail _ (.head _), .tail _ (.tail _ (.head _))⟩).2,
    (hplace 0 2 ⟨.head _, .tail _ (.tail _ (.tail _ (.head _)))⟩).2⟩

end DsService

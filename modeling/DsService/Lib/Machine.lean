import Mathlib.Data.List.Induction

/-!
# Machines, runs and simulations

A `Machine` answers one request at a time: `step` returns the reply and the next state, or
`none` where the modelled program has no defined behaviour. A `Run` is the list of the events
of an execution, each with the states around it, so that a property of a whole history is a
property of that list.

Five rules carry the developments on top. `Run.stable` is about what stays once it holds,
`Run.arises` about where what holds came from, `Simulation.run` couples a run with a run of a
specification that simulates the machine, `Coupled.invariant` is the induction over both, and
`Bisimulation.replies_eq` turns a relation that a machine's steps respect into equality of all later
replies.
-/

/-- A machine with states `σ`, requests `ο` and replies `ρ`. A step that yields `none` is one
the modelled program leaves undefined. -/
structure Machine (σ ο ρ : Type) where
  init : σ
  step : σ → ο → Option (ρ × σ)

namespace Machine

variable {σ ο ρ : Type}

/-- One step of an execution: the request, its reply and the states around it. -/
structure Event (σ ο ρ : Type) where
  pre : σ
  op : ο
  reply : ρ
  post : σ

/-- `M.Run es m`: the events `es`, in order, lead from the initial state to `m`. -/
inductive Run (M : Machine σ ο ρ) : List (Event σ ο ρ) → σ → Prop
  | nil : Run M [] M.init
  | snoc {es : List (Event σ ο ρ)} {m m' : σ} {op : ο} {r : ρ} (h : Run M es m)
      (hs : M.step m op = some (r, m')) : Run M (es ++ [⟨m, op, r, m'⟩]) m'

/-- The events of a list of requests and the state they lead to, `none` as soon as one of them is
undefined. -/
def trace (M : Machine σ ο ρ) : σ → List ο → Option (List (Event σ ο ρ) × σ)
  | m, [] => some ([], m)
  | m, op :: ops => do
      let (r, m') ← M.step m op
      let (es, m'') ← M.trace m' ops
      return (⟨m, op, r, m'⟩ :: es, m'')

variable {M : Machine σ ο ρ} {es es₁ es₂ : List (Event σ ο ρ)} {m m' : σ}

/-- Running further from a run. -/
theorem Run.append_trace : ∀ {ops : List ο} {es es' : List (Event σ ο ρ)} {m m' : σ},
    M.Run es m → M.trace m ops = some (es', m') → M.Run (es ++ es') m'
  | [], es, es', m, m', h, ht => by
      cases ht
      rw [List.append_nil]
      exact h
  | op :: ops, es, es', m, m', h, ht => by
      simp only [trace, Option.bind_eq_bind, Option.bind_eq_some_iff] at ht
      obtain ⟨⟨r, m₁⟩, hs, ⟨es₁, m₂⟩, ht, heq⟩ := ht
      cases heq
      rw [← List.singleton_append, ← List.append_assoc]
      exact (Run.snoc h hs).append_trace ht

/-- A trace from the initial state is a run. -/
theorem run_of_trace {ops : List ο} (h : M.trace M.init ops = some (es, m)) : M.Run es m :=
  Run.append_trace .nil h

/-- The history of a list of requests and the state they lead to, from the initial state. -/
def runOf (M : Machine σ ο ρ) (ops : List ο) : List (Event σ ο ρ) × σ :=
  (M.trace M.init ops).getD ([], M.init)

/-- The run of inputs that all make a step is a run. -/
theorem run_runOf (ops : List ο) (h : (M.trace M.init ops).isSome = true) :
    M.Run (M.runOf ops).1 (M.runOf ops).2 := by
  obtain ⟨⟨es, m⟩, ht⟩ := Option.isSome_iff_exists.1 h
  unfold runOf
  rw [ht]
  exact run_of_trace ht

/-- A run ends with its last event. -/
theorem Run.snoc_inv {e : Event σ ο ρ} (h : M.Run (es ++ [e]) m) :
    M.Run es e.pre ∧ M.step e.pre e.op = some (e.reply, e.post) ∧ m = e.post := by
  generalize hes : es ++ [e] = es' at h
  cases h with
  | nil => simp at hes
  | snoc h hs =>
      obtain ⟨rfl, heq⟩ := List.append_inj' hes rfl
      cases heq
      exact ⟨h, hs, rfl⟩

/-- Every event of a run is a step from the state the events before it reach. -/
theorem Run.split {e : Event σ ο ρ} (h : M.Run (es₁ ++ e :: es₂) m) :
    M.Run es₁ e.pre ∧ M.step e.pre e.op = some (e.reply, e.post) := by
  induction es₂ using List.reverseRecOn generalizing m with
  | nil => exact ⟨h.snoc_inv.1, h.snoc_inv.2.1⟩
  | append_singleton es₂ e' ih =>
      rw [← List.cons_append, ← List.append_assoc] at h
      exact ih h.snoc_inv.1

/-- What a step from a reachable state keeps stays from the event after which it holds. -/
theorem Run.stable {P : σ → Prop}
    (hstep : ∀ {es m op r m'}, M.Run es m → M.step m op = some (r, m') → P m → P m')
    {e : Event σ ο ρ} (hp : P e.post) (h : M.Run (es₁ ++ e :: es₂) m) :
    P m ∧ ∀ e' ∈ es₂, P e'.pre ∧ P e'.post := by
  induction es₂ using List.reverseRecOn generalizing m with
  | nil =>
      rw [h.snoc_inv.2.2]
      exact ⟨hp, fun e' he' => by cases he'⟩
  | append_singleton es₂ f ih =>
      rw [← List.cons_append, ← List.append_assoc] at h
      obtain ⟨hrun, hs, rfl⟩ := h.snoc_inv
      obtain ⟨hpre, hall⟩ := ih hrun
      have hpost := hstep hrun hs hpre
      refine ⟨hpost, fun e' he' => ?_⟩
      rcases List.mem_append.1 he' with he' | he'
      · exact hall e' he'
      · rw [List.mem_singleton.1 he']
        exact ⟨hpre, hpost⟩

/-- What happened in a history that grew by an event happened before it, or in it. -/
theorem exists_snoc {P : Event σ ο ρ → Prop} {e : Event σ ο ρ} :
    (∃ e' ∈ es ++ [e], P e') ↔ (∃ e' ∈ es, P e') ∨ P e := by
  simp [or_and_right, exists_or]

/-- What holds in the end, and did not at the start, came with some event. -/
theorem Run.arises {P : σ → Prop} {brings : Event σ ο ρ → Prop} (h0 : ¬ P M.init)
    (hstep : ∀ {m op r m'}, M.step m op = some (r, m') → P m' → P m ∨ brings ⟨m, op, r, m'⟩)
    (h : M.Run es m) (hp : P m) : ∃ e ∈ es, brings e := by
  induction h with
  | nil => exact absurd hp h0
  | snoc _ hs ih =>
      rw [exists_snoc]
      exact (hstep hs hp).imp_left ih

/-! ## Simulation by a specification -/

/-- A specification: which replies and next states a request may have. -/
structure Spec (β ο ρ : Type) where
  init : β
  Serves : β → ο → ρ → β → Prop

/-- `M` is simulated by `S` along `rel`: from related states every request of `M` is defined,
and `S` may serve it with the same reply. -/
structure Simulation {β : Type} (M : Machine σ ο ρ) (S : Spec β ο ρ) (rel : σ → β → Prop) :
    Prop where
  init : rel M.init S.init
  step : ∀ {m b} (op : ο), rel m b →
    ∃ r m' b', M.step m op = some (r, m') ∧ S.Serves b op r b' ∧ rel m' b'

/-- A run of the machine side by side with one of the specification that serves the same requests
with the same replies. -/
inductive Coupled {β : Type} (M : Machine σ ο ρ) (S : Spec β ο ρ) (rel : σ → β → Prop) :
    List (Event σ ο ρ) → σ → β → Prop
  | nil (hrel : rel M.init S.init) : Coupled M S rel [] M.init S.init
  | snoc {es : List (Event σ ο ρ)} {m m' : σ} {b b' : β} {op : ο} {r : ρ}
      (h : Coupled M S rel es m b) (hs : M.step m op = some (r, m')) (hserve : S.Serves b op r b')
      (hrel : rel m' b') : Coupled M S rel (es ++ [⟨m, op, r, m'⟩]) m' b'

variable {β : Type} {S : Spec β ο ρ} {rel : σ → β → Prop} {b : β}

/-- Coupled states are related. -/
theorem Coupled.related (h : Coupled M S rel es m b) : rel m b := by
  cases h with
  | nil hrel => exact hrel
  | snoc _ _ _ hrel => exact hrel

/-- The induction rule of coupled runs, for properties of the history and both states. -/
theorem Coupled.invariant {I : List (Event σ ο ρ) → σ → β → Prop} (h0 : I [] M.init S.init)
    (hstep : ∀ {es m b op r m' b'}, Coupled M S rel es m b → I es m b →
      M.step m op = some (r, m') → S.Serves b op r b' → rel m' b' →
      I (es ++ [⟨m, op, r, m'⟩]) m' b')
    (h : Coupled M S rel es m b) : I es m b := by
  induction h with
  | nil _ => exact h0
  | snoc h hs hserve hrel ih => exact hstep h ih hs hserve hrel

/-- The served step of a simulation, read at the step the machine takes. -/
theorem Simulation.serves (H : Simulation M S rel) {op : ο} {r : ρ} (hR : rel m b)
    (hs : M.step m op = some (r, m')) : ∃ b', S.Serves b op r b' ∧ rel m' b' := by
  obtain ⟨r', m'', b', hs', hb, hR'⟩ := H.step op hR
  rw [hs] at hs'
  cases hs'
  exact ⟨b', hb, hR'⟩

/-- **A run of a simulated machine is coupled with a run of the specification.** -/
theorem Simulation.run (H : Simulation M S rel) (h : M.Run es m) :
    ∃ b, Coupled M S rel es m b := by
  induction h with
  | nil => exact ⟨S.init, .nil H.init⟩
  | snoc _ hs ih =>
      obtain ⟨b, hb⟩ := ih
      obtain ⟨b', hserve, hrel⟩ := H.serves hb.related hs
      exact ⟨b', .snoc hb hs hserve hrel⟩

/-! ## Replies -/

/-- The replies to a list of requests, `none` as soon as one of them is undefined. -/
def replies (M : Machine σ ο ρ) : σ → List ο → Option (List ρ)
  | _, [] => some []
  | m, op :: ops => do
      let (r, m') ← M.step m op
      let rs ← M.replies m' ops
      return r :: rs

/-- A relation between states that the steps respect: related states answer every request
alike and stay related. `ok` bounds the requests the relation speaks of. -/
structure Bisimulation (M : Machine σ ο ρ) (ok : ο → Prop) (R : σ → σ → Prop) : Prop where
  step : ∀ {m₁ m₂} (op : ο), ok op → R m₁ m₂ →
    ∃ r m₁' m₂', M.step m₁ op = some (r, m₁') ∧ M.step m₂ op = some (r, m₂') ∧ R m₁' m₂'

/-- A run of bounded requests ends in a state that is related to itself. -/
theorem Bisimulation.run {ok : ο → Prop} {R : σ → σ → Prop} (H : Bisimulation M ok R)
    (hinit : R M.init M.init) (h : M.Run es m) (hok : ∀ e ∈ es, ok e.op) : R m m := by
  induction h with
  | nil => exact hinit
  | @snoc es m m' op r _ hs ih =>
      have hlast : ok op := hok ⟨m, op, r, m'⟩ (by simp)
      obtain ⟨r', m₁, m₂, h₁, h₂, hR⟩ :=
        H.step op hlast (ih fun e he => hok e (List.mem_append_left _ he))
      rw [hs] at h₁ h₂
      cases h₁
      cases h₂
      exact hR

/-- Related states give the same replies to every later sequence of requests, all defined. -/
theorem Bisimulation.replies_eq {ok : ο → Prop} {R : σ → σ → Prop} (H : Bisimulation M ok R) :
    ∀ (ops : List ο) {m₁ m₂ : σ}, (∀ op ∈ ops, ok op) → R m₁ m₂ →
      ∃ rs, M.replies m₁ ops = some rs ∧ M.replies m₂ ops = some rs
  | [], _, _, _, _ => ⟨[], rfl, rfl⟩
  | op :: ops, m₁, m₂, hok, hR => by
      obtain ⟨r, m₁', m₂', h₁, h₂, hR'⟩ := H.step op (hok op (by simp)) hR
      obtain ⟨rs, hrs₁, hrs₂⟩ := H.replies_eq ops (fun o ho => hok o (by simp [ho])) hR'
      exact ⟨r :: rs, by simp [replies, h₁, hrs₁], by simp [replies, h₂, hrs₂]⟩

end Machine

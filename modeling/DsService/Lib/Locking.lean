import DsService.Lib.Machine
import Mathlib.Logic.Function.Basic
import Mathlib.Data.List.Nodup

/-!
# Locks make calls atomic

A server whose calls run at the same time. Its state has parts, each guarded by a lock. A call first
looks at its request alone, which may already refuse it, then takes the lock of one part, runs a
`Body` of statements on that part and gives the lock back before its reply is sent. A `Turn` is one
statement of one call, so the statements of different calls interleave in every way the locks allow.

`Exec.linearizes` is the rule a development uses: what the callers of such a server see is a run of
the `Machine` that serves one call at a time, in an order that respects which call was answered
before which was made. `Exec.exists_answered` says that the locks never keep a call from its answer.
-/

namespace Locking

variable {σ ι ο ρ κ : Type} {π : ι → Type}

/-! ## Calls -/

/-- The statements of a method on the part it has locked. A statement reads the part, writes it and
decides what comes next; `stuck` is where the program has no defined behaviour. -/
inductive Body (π ρ : Type) where
  | ret (r : ρ)
  | stmt (write : π → π) (next : π → Body π ρ)
  | stuck

/-- The body without interruption. -/
def Body.run {π ρ : Type} : Body π ρ → π → Option (ρ × π)
  | .ret r, p => some (r, p)
  | .stmt write next, p => (next p).run (write p)
  | .stuck, _ => none

/-- A way to write `f` as statements: run without interruption, they do what `f` does. -/
structure Cut {π ρ : Type} (f : π → Option (ρ × π)) where
  body : Body π ρ
  run_eq : ∀ p, body.run p = f p

/-- All of `f` in one statement. -/
def Cut.whole {π ρ : Type} (f : π → Option (ρ × π)) : Cut f where
  body := .stmt (fun p => ((f p).map Prod.snd).getD p) fun p =>
    match f p with
    | some (r, _) => .ret r
    | none => .stuck
  run_eq p := by
    simp only [Body.run]
    cases f p <;> rfl

/-- The body with another form of reply. -/
def Body.mapReply {π ρ ρ' : Type} (g : ρ → ρ') : Body π ρ → Body π ρ'
  | .ret r => .ret (g r)
  | .stmt write next => .stmt write fun p => (next p).mapReply g
  | .stuck => .stuck

/-- To rewrite the reply of a body rewrites what its run returns. -/
theorem Body.run_mapReply {π ρ ρ' : Type} (g : ρ → ρ') :
    ∀ (body : Body π ρ) (p : π), (body.mapReply g).run p = (body.run p).map fun (r, p) => (g r, p)
  | .ret _, _ => rfl
  | .stmt write next, p => run_mapReply g (next p) (write p)
  | .stuck, _ => rfl

/-- The statements of `f`, with another form of reply. -/
def Cut.mapReply {π ρ ρ' : Type} {f : π → Option (ρ × π)} (g : ρ → ρ') (cut : Cut f) :
    Cut fun p => (f p).map fun (r, p) => (g r, p) where
  body := cut.body.mapReply g
  run_eq p := by rw [Body.run_mapReply, cut.run_eq]

/-- What a request leads to: a refusal before any lock is taken, or a body under a lock. -/
inductive Method (ι : Type) (π : ι → Type) (ρ : Type) where
  | refuse (r : ρ)
  | locked (i : ι) (body : Body (π i) ρ)

/-- The parts of a state, each with a lock of its own. -/
structure Parts (σ ι : Type) (π : ι → Type) where
  get : (i : ι) → σ → π i
  set : (i : ι) → π i → σ → σ
  get_set : ∀ {i p s}, get i (set i p s) = p
  get_set_ne : ∀ {i j p s}, j ≠ i → get j (set i p s) = get j s
  ext : ∀ {s s'}, (∀ i, get i s = get i s') → s = s'

/-- The server that serves one call at a time. -/
def Parts.machine (P : Parts σ ι π) (method : ο → Method ι π ρ) (init : σ) : Machine σ ο ρ where
  init := init
  step m op :=
    match method op with
    | .refuse r => some (r, m)
    | .locked i body => (body.run (P.get i m)).map fun (r, p) => (r, P.set i p m)

/-! ## Calls at the same time -/

/-- How far a call has come. -/
inductive Phase (ι : Type) (π : ι → Type) (ο ρ : Type) where
  | absent
  | arrived (op : ο)
  | waiting (op : ο) (i : ι) (body : Body (π i) ρ)
  | holding (op : ο) (i : ι) (body : Body (π i) ρ)
  | leaving (r : ρ)
  | answered

/-- The state, who holds which lock, and how far each call has come. -/
structure Config (σ ι κ : Type) (π : ι → Type) (ο ρ : Type) where
  state : σ
  owner : ι → Option κ
  phase : κ → Phase ι π ο ρ

/-- What the callers see. -/
inductive Visible (κ ο ρ : Type) where
  | call (k : κ) (op : ο)
  | answer (k : κ) (r : ρ)

/-- The call that an event is about. -/
def Visible.id : Visible κ ο ρ → κ
  | .call k _ => k
  | .answer k _ => k

section turns
variable [DecidableEq κ] [DecidableEq ι]

/-- A call moves on. -/
def Config.move (c : Config σ ι κ π ο ρ) (k : κ) (p : Phase ι π ο ρ) : Config σ ι κ π ο ρ :=
  { c with phase := Function.update c.phase k p }

/-- One turn of one call, and what the callers see of it. -/
inductive Turn (P : Parts σ ι π) (method : ο → Method ι π ρ) :
    Config σ ι κ π ο ρ → Option (Visible κ ο ρ) → Config σ ι κ π ο ρ → Prop
  | arrive {c : Config σ ι κ π ο ρ} {k : κ} (op : ο) (h : c.phase k = .absent) :
      Turn P method c (some (.call k op)) (c.move k (.arrived op))
  | refuse {c k op r} (h : c.phase k = .arrived op) (hm : method op = .refuse r) :
      Turn P method c none (c.move k (.leaving r))
  | prepare {c k op i body} (h : c.phase k = .arrived op) (hm : method op = .locked i body) :
      Turn P method c none (c.move k (.waiting op i body))
  | lock {c k op i body} (h : c.phase k = .waiting op i body) (hfree : c.owner i = none) :
      Turn P method c none
        ⟨c.state, Function.update c.owner i (some k),
          Function.update c.phase k (.holding op i body)⟩
  | stmt {c k op i write next} (h : c.phase k = .holding op i (.stmt write next)) :
      Turn P method c none
        ⟨P.set i (write (P.get i c.state)) c.state, c.owner,
          Function.update c.phase k (.holding op i (next (P.get i c.state)))⟩
  | unlock {c k op i r} (h : c.phase k = .holding op i (.ret r)) :
      Turn P method c none
        ⟨c.state, Function.update c.owner i none, Function.update c.phase k (.leaving r)⟩
  | answer {c k r} (h : c.phase k = .leaving r) :
      Turn P method c (some (.answer k r)) (c.move k .answered)

/-- The turns of an execution from the state `init`: what the callers saw so far, and where all
calls are. -/
inductive Exec (P : Parts σ ι π) (method : ο → Method ι π ρ) (init : σ) :
    List (Visible κ ο ρ) → Config σ ι κ π ο ρ → Prop
  | start : Exec P method init [] ⟨init, fun _ => none, fun _ => .absent⟩
  | turn {H c v c'} (h : Exec P method init H c) (ht : Turn P method c v c') :
      Exec P method init (H ++ v.toList) c'

end turns

/-! ## Linearizations -/

/-- `l` is an order for the calls of the history: the machine serves them in this order with the
replies that were seen, each at most once, every answered call among them, and a call that was made
after another was answered comes after it. -/
structure Linearizes (M : Machine σ ο ρ) (H : List (Visible κ ο ρ))
    (l : List (κ × Machine.Event σ ο ρ)) (m : σ) : Prop where
  run : M.Run (l.map Prod.snd) m
  once : (l.map Prod.fst).Nodup
  called : ∀ {k e}, (k, e) ∈ l → .call k e.op ∈ H
  answered : ∀ {k r}, .answer k r ∈ H → ∃ e, (k, e) ∈ l ∧ e.reply = r
  inOrder : ∀ {j r k op}, [.answer j r, .call k op].Sublist H → k ∈ l.map Prod.fst →
    [j, k].Sublist (l.map Prod.fst)

/-- Two elements stand in their order in a longer list, or the second is the new one. -/
theorem pair_sublist_snoc {β : Type} {a b v : β} {l : List β} :
    [a, b].Sublist (l ++ [v]) ↔ [a, b].Sublist l ∨ a ∈ l ∧ b = v := by
  constructor
  · intro h
    obtain ⟨l₁, l₂, heq, h₁, h₂⟩ := List.sublist_append_iff.1 h
    match l₁, l₂, heq with
    | [], _, rfl =>
        have := h₂.length_le
        simp at this
    | [_], [_], rfl => exact .inr ⟨by simpa using h₁, by simpa using h₂⟩
    | [_, _], [], rfl => exact .inl h₁
    | _ :: _ :: _ :: _, _, heq => simp at heq
  · rintro (h | ⟨ha, rfl⟩)
    · exact h.trans (List.sublist_append_left _ _)
    · exact (List.singleton_sublist.2 ha).append (.refl [b])

/-- Two elements stand in one order or the other. -/
theorem pair_sublist_or {β : Type} {a b : β} {l : List β} (ha : a ∈ l) (hb : b ∈ l) (hne : a ≠ b) :
    [a, b].Sublist l ∨ [b, a].Sublist l := by
  obtain ⟨l₁, l₂, rfl⟩ := List.append_of_mem ha
  rcases List.mem_append.1 hb with hb | hb
  · exact .inr ((List.singleton_sublist.2 hb).append (List.singleton_sublist.2 (.head _)))
  · have hb := (List.mem_cons.1 hb).resolve_left hne.symm
    exact .inl (((List.singleton_sublist.2 hb).cons_cons a).trans (List.sublist_append_right _ _))

section linearizes
variable {M : Machine σ ο ρ} {H : List (Visible κ ο ρ)} {l : List (κ × Machine.Event σ ο ρ)}
  {m m' : σ} {k : κ} {op : ο} {r : ρ}

/-- An answered call is in the linearization. -/
theorem Linearizes.answered_mem (h : Linearizes M H l m) (hk : .answer k r ∈ H) :
    k ∈ l.map Prod.fst := by
  obtain ⟨e, he, -⟩ := h.answered hk
  exact List.mem_map_of_mem he

/-- A new call is not in the order yet. -/
theorem Linearizes.call (h : Linearizes M H l m) (hk : k ∉ l.map Prod.fst) :
    Linearizes M (H ++ [.call k op]) l m where
  run := h.run
  once := h.once
  called hke := List.mem_append_left _ (h.called hke)
  answered hkr := by
    rcases List.mem_append.1 hkr with hkr | hkr
    · exact h.answered hkr
    · cases List.mem_singleton.1 hkr
  inOrder hjk hmem := by
    rcases pair_sublist_snoc.1 hjk with hjk | ⟨-, heq⟩
    · exact h.inOrder hjk hmem
    · cases heq
      exact absurd hmem hk

/-- An answer has the reply that the order gives. -/
theorem Linearizes.answer (h : Linearizes M H l m) {e : Machine.Event σ ο ρ} (he : (k, e) ∈ l) :
    Linearizes M (H ++ [.answer k e.reply]) l m where
  run := h.run
  once := h.once
  called hke := List.mem_append_left _ (h.called hke)
  answered hkr := by
    rcases List.mem_append.1 hkr with hkr | hkr
    · exact h.answered hkr
    · cases List.mem_singleton.1 hkr
      exact ⟨e, he, rfl⟩
  inOrder hjk hmem := by
    rcases pair_sublist_snoc.1 hjk with hjk | ⟨-, heq⟩
    · exact h.inOrder hjk hmem
    · cases heq

/-- A call takes effect after all calls that did before. -/
theorem Linearizes.commit (h : Linearizes M H l m) (hcall : .call k op ∈ H)
    (hk : k ∉ l.map Prod.fst) (hs : M.step m op = some (r, m')) :
    Linearizes M H (l ++ [(k, ⟨m, op, r, m'⟩)]) m' where
  run := by
    rw [List.map_append]
    exact .snoc h.run hs
  once := by
    rw [List.map_append]
    exact h.once.append (List.nodup_singleton k) (by simpa using hk)
  called hke := by
    rcases List.mem_append.1 hke with hke | hke
    · exact h.called hke
    · cases List.mem_singleton.1 hke
      exact hcall
  answered hkr := by
    obtain ⟨e, he, hr⟩ := h.answered hkr
    exact ⟨e, List.mem_append_left _ he, hr⟩
  inOrder {j _ _ _} hjk hmem := by
    rw [List.map_append, List.mem_append] at hmem
    rw [List.map_append]
    rcases hmem with hmem | hmem
    · exact (h.inOrder hjk hmem).trans (List.sublist_append_left _ _)
    · cases List.mem_singleton.1 hmem
      refine pair_sublist_snoc.2 (.inr ⟨?_, rfl⟩)
      exact h.answered_mem (hjk.subset (.head _))

/-- The calls of an order by their ids. -/
theorem Linearizes.eq_of_mem (h : Linearizes M H l m) {e f : Machine.Event σ ο ρ}
    (he : (k, e) ∈ l) (hf : (k, f) ∈ l) : e = f :=
  congrArg Prod.snd (List.inj_on_of_nodup_map h.once he hf rfl)

/-- The events of two calls stand in the order of the calls. -/
theorem Linearizes.sublist_events (h : Linearizes M H l m) {j : κ} {e f : Machine.Event σ ο ρ}
    (he : (j, e) ∈ l) (hf : (k, f) ∈ l) (hjk : [j, k].Sublist (l.map Prod.fst)) :
    [e, f].Sublist (l.map Prod.snd) := by
  obtain ⟨l', hl', hmap⟩ := List.sublist_map_iff.1 hjk
  match l', hmap with
  | [(j', e'), (k', f')], hmap =>
      cases hmap
      rw [h.eq_of_mem he (hl'.subset (.head _)), h.eq_of_mem hf (hl'.subset (.tail _ (.head _)))]
      exact hl'.map Prod.snd

end linearizes

/-! ## The invariant -/

section invariant
variable [DecidableEq κ] [DecidableEq ι] {P : Parts σ ι π} {method : ο → Method ι π ρ} {init : σ}
  {H H' : List (Visible κ ο ρ)} {c c' : Config σ ι κ π ο ρ} {l l' : List (κ × Machine.Event σ ο ρ)}
  {m m' : σ} {k : κ}

/-- What is known of the call `k` where it is. A call takes effect in `m` when it gives its lock
back. Until then the rest of its body does to the part what the whole body does to the part in
`m`. -/
def Known (P : Parts σ ι π) (method : ο → Method ι π ρ) (H : List (Visible κ ο ρ))
    (c : Config σ ι κ π ο ρ) (l : List (κ × Machine.Event σ ο ρ)) (m : σ) (k : κ) :
    Phase ι π ο ρ → Prop
  | .absent => k ∉ l.map Prod.fst
  | .arrived op => .call k op ∈ H ∧ k ∉ l.map Prod.fst
  | .waiting op i body => .call k op ∈ H ∧ k ∉ l.map Prod.fst ∧ method op = .locked i body
  | .holding op i body => .call k op ∈ H ∧ k ∉ l.map Prod.fst ∧ c.owner i = some k ∧
      ∃ whole, method op = .locked i whole ∧
        body.run (P.get i c.state) = whole.run (P.get i m)
  | .leaving r => ∃ e, (k, e) ∈ l ∧ e.reply = r
  | .answered => True

/-- The configuration `c` after the history `H` has the state of `m` but for the parts that are
locked. -/
structure Sound (P : Parts σ ι π) (method : ο → Method ι π ρ) (init : σ)
    (H : List (Visible κ ο ρ)) (c : Config σ ι κ π ο ρ) (l : List (κ × Machine.Event σ ο ρ))
    (m : σ) : Prop where
  lin : Linearizes (P.machine method init) H l m
  known : ∀ k, Known P method H c l m k (c.phase k)
  free : ∀ i, c.owner i = none → P.get i c.state = P.get i m
  held : ∀ {i k}, c.owner i = some k → ∃ op body, c.phase k = .holding op i body

/-- What a turn of another call leaves to the call `k`. -/
structure Spared (P : Parts σ ι π) (k : κ) (c c' : Config σ ι κ π ο ρ) (m m' : σ) : Prop where
  phase : c'.phase k = c.phase k
  owner : ∀ i, c.owner i = some k → c'.owner i = some k
  part : ∀ i, c.owner i = some k →
    P.get i c'.state = P.get i c.state ∧ P.get i m' = P.get i m

omit [DecidableEq κ] [DecidableEq ι] in
/-- A call that is spared stays where it is. -/
theorem Known.spared (hs : Spared P k c c' m m') (hH : H ⊆ H') (hl : l ⊆ l')
    (hk : k ∈ l'.map Prod.fst → k ∈ l.map Prod.fst)
    (h : Known P method H c l m k (c.phase k)) : Known P method H' c' l' m' k (c'.phase k) := by
  rw [hs.phase]
  cases hphase : c.phase k with
  | absent =>
      rw [hphase] at h
      exact fun hmem => h (hk hmem)
  | arrived op =>
      rw [hphase] at h
      exact ⟨hH h.1, fun hmem => h.2 (hk hmem)⟩
  | waiting op i body =>
      rw [hphase] at h
      exact ⟨hH h.1, fun hmem => h.2.1 (hk hmem), h.2.2⟩
  | holding op i body =>
      rw [hphase] at h
      obtain ⟨hcall, hnot, howner, whole, hm, hrun⟩ := h
      obtain ⟨hstate, hmachine⟩ := hs.part i howner
      refine ⟨hH hcall, fun hmem => hnot (hk hmem), hs.owner i howner, whole, hm, ?_⟩
      rw [hstate, hmachine]
      exact hrun
  | leaving r =>
      rw [hphase] at h
      obtain ⟨e, he, hr⟩ := h
      exact ⟨e, hl he, hr⟩
  | answered => trivial

omit [DecidableEq ι] in
/-- A call that only moves on, without a lock before or after. -/
theorem Sound.move {p : Phase ι π ο ρ} (h : Sound P method init H c l m) (hH : H ⊆ H')
    (hl : l ⊆ l') (hids : ∀ j, j ≠ k → j ∈ l'.map Prod.fst → j ∈ l.map Prod.fst)
    (hlin : Linearizes (P.machine method init) H' l' m)
    (hnot : ∀ op i body, c.phase k ≠ .holding op i body)
    (hk : Known P method H' (c.move k p) l' m k p) :
    Sound P method init H' (c.move k p) l' m where
  lin := hlin
  known j := by
    by_cases hj : j = k
    · subst hj
      have hphase : (c.move j p).phase j = p := Function.update_self _ _ _
      rw [hphase]
      exact hk
    · have hphase : (c.move k p).phase j = c.phase j := Function.update_of_ne hj _ _
      have hspared : Spared P j c (c.move k p) m m :=
        ⟨hphase, fun _ ho => ho, fun _ _ => ⟨rfl, rfl⟩⟩
      exact (h.known j).spared hspared hH hl (hids j hj)
  free := h.free
  held {i j} ho := by
    obtain ⟨op, body, hphase⟩ := h.held ho
    have hj : j ≠ k := fun heq => hnot op i body (heq ▸ hphase)
    exact ⟨op, body, (Function.update_of_ne hj _ _).trans hphase⟩

/-- A turn of the call that holds a lock, which keeps to its own part. -/
theorem Sound.hold {op : ο} {i : ι} {body : Body (π i) ρ} {p : Phase ι π ο ρ}
    {owner' : ι → Option κ}
    {s' : σ} (h : Sound P method init H c l m)
    (hphase : c.phase k = .holding op i body)
    (hl : l ⊆ l') (hids : ∀ j, j ≠ k → j ∈ l'.map Prod.fst → j ∈ l.map Prod.fst)
    (hlin : Linearizes (P.machine method init) H l' m')
    (howner : ∀ j, j ≠ i → owner' j = c.owner j)
    (hstate : ∀ j, j ≠ i → P.get j s' = P.get j c.state)
    (hmachine : ∀ j, j ≠ i → P.get j m' = P.get j m)
    (hi : owner' i = none ∧ P.get i s' = P.get i m' ∨
      owner' i = some k ∧ ∃ op body, p = .holding op i body)
    (hk : Known P method H ⟨s', owner', Function.update c.phase k p⟩ l' m' k p) :
    Sound P method init H ⟨s', owner', Function.update c.phase k p⟩ l' m' where
  lin := hlin
  known j := by
    by_cases hj : j = k
    · subst hj
      dsimp only
      rw [Function.update_self]
      exact hk
    · have hphase' : Function.update c.phase k p j = c.phase j := Function.update_of_ne hj _ _
      have hki : c.owner i = some k := by
        have := h.known k
        rw [hphase] at this
        exact this.2.2.1
      -- the other call holds another lock, if any
      have hother : ∀ i', c.owner i' = some j → i' ≠ i := by
        rintro i' ho rfl
        rw [hki] at ho
        exact hj (Option.some.inj ho).symm
      refine (h.known j).spared ⟨hphase', fun i' ho => ?_, fun i' ho => ?_⟩
        (List.Subset.refl H) hl (hids j hj)
      · exact (howner i' (hother i' ho)).trans ho
      · exact ⟨hstate i' (hother i' ho), hmachine i' (hother i' ho)⟩
  free j ho := by
    by_cases hj : j = i
    · subst hj
      rcases hi with ⟨-, heq⟩ | ⟨hsome, -⟩
      · exact heq
      · rw [show owner' j = none from ho] at hsome
        cases hsome
    · rw [hstate j hj, hmachine j hj]
      exact h.free j ((howner j hj).symm.trans ho)
  held {j a} ho := by
    have ho : owner' j = some a := ho
    by_cases hj : j = i
    · subst hj
      rcases hi with ⟨hnone, -⟩ | ⟨hsome, op', body', hp⟩
      · rw [hnone] at ho
        cases ho
      · rw [hsome] at ho
        cases ho
        exact ⟨op', body', (Function.update_self _ _ _).trans hp⟩
    · rw [howner j hj] at ho
      obtain ⟨op', body', hp⟩ := h.held ho
      have ha : a ≠ k := by
        rintro rfl
        rw [hphase] at hp
        cases hp
        exact hj rfl
      exact ⟨op', body', (Function.update_of_ne ha _ _).trans hp⟩

/-- A call that takes its lock keeps the linearization. -/
theorem Sound.lock {op : ο} {i : ι} {body : Body (π i) ρ} (h : Sound P method init H c l m)
    (hphase : c.phase k = .waiting op i body) (hfree : c.owner i = none) :
    Sound P method init H ⟨c.state, Function.update c.owner i (some k),
      Function.update c.phase k (.holding op i body)⟩ l m where
  lin := h.lin
  known j := by
    by_cases hj : j = k
    · subst hj
      obtain ⟨hcall, hnot, hm⟩ : Known P method H c l m j (.waiting op i body) :=
        hphase ▸ h.known j
      dsimp only
      rw [Function.update_self]
      exact ⟨hcall, hnot, Function.update_self _ _ _, body, hm, by rw [h.free i hfree]⟩
    · refine (h.known j).spared ⟨Function.update_of_ne hj _ _, fun i' ho => ?_,
        fun _ _ => ⟨rfl, rfl⟩⟩ (List.Subset.refl H) (fun _ hv => hv) id
      have hi' : i' ≠ i := by
        rintro rfl
        rw [hfree] at ho
        cases ho
      exact (Function.update_of_ne hi' _ _).trans ho
  free j ho := by
    have ho : Function.update c.owner i (some k) j = none := ho
    have hj : j ≠ i := by
      rintro rfl
      rw [Function.update_self] at ho
      cases ho
    rw [Function.update_of_ne hj] at ho
    exact h.free j ho
  held {j a} ho := by
    have ho : Function.update c.owner i (some k) j = some a := ho
    by_cases hj : j = i
    · subst hj
      rw [Function.update_self] at ho
      cases ho
      exact ⟨op, body, Function.update_self _ _ _⟩
    · rw [Function.update_of_ne hj] at ho
      obtain ⟨op', body', hp⟩ := h.held ho
      have ha : a ≠ k := by
        rintro rfl
        rw [hphase] at hp
        cases hp
      exact ⟨op', body', (Function.update_of_ne ha _ _).trans hp⟩

/-- **Every turn keeps the invariant.** A call takes effect where it is refused or gives its lock
back. -/
theorem Sound.turn {v : Option (Visible κ ο ρ)} (h : Sound P method init H c l m)
    (ht : Turn P method c v c') : ∃ l' m', Sound P method init (H ++ v.toList) c' l' m' := by
  cases ht with
  | @arrive k op hphase =>
      have hnot : k ∉ l.map Prod.fst := by
        have := h.known k
        rwa [hphase] at this
      exact ⟨l, m, h.move (List.subset_append_left _ _) (fun _ he => he) (fun _ _ hm => hm)
        (h.lin.call hnot) (fun _ _ _ heq => by rw [hphase] at heq; cases heq)
        ⟨by simp, hnot⟩⟩
  | @refuse k op r hphase hm =>
      obtain ⟨hcall, hnot⟩ : Known P method H c l m k (.arrived op) := hphase ▸ h.known k
      have hs : (P.machine method init).step m op = some (r, m) := by
        simp [Parts.machine, hm]
      rw [Option.toList_none, List.append_nil]
      refine ⟨_, m, h.move (fun _ hv => hv) (List.subset_append_left _ _) (fun j hj hmem => ?_)
        (h.lin.commit hcall hnot hs) (fun _ _ _ heq => by rw [hphase] at heq; cases heq)
        ⟨_, List.mem_append_right _ (List.mem_singleton_self _), rfl⟩⟩
      simpa [hj] using hmem
  | @prepare k op i body hphase hm =>
      obtain ⟨hcall, hnot⟩ : Known P method H c l m k (.arrived op) := hphase ▸ h.known k
      rw [Option.toList_none, List.append_nil]
      exact ⟨l, m, h.move (fun _ hv => hv) (fun _ he => he) (fun _ _ hmem => hmem) h.lin
        (fun _ _ _ heq => by rw [hphase] at heq; cases heq) ⟨hcall, hnot, hm⟩⟩
  | @lock k op i body hphase hfree =>
      rw [Option.toList_none, List.append_nil]
      exact ⟨l, m, h.lock hphase hfree⟩
  | @stmt k op i write next hphase =>
      obtain ⟨hcall, hnot, howner, whole, hm, hrun⟩ :
        Known P method H c l m k (.holding op i (.stmt write next)) := hphase ▸ h.known k
      rw [Option.toList_none, List.append_nil]
      refine ⟨l, m, h.hold hphase (fun _ he => he) (fun _ _ hmem => hmem) h.lin (fun _ _ => rfl)
        (fun j hj => P.get_set_ne hj) (fun _ _ => rfl) (.inr ⟨howner, _, _, rfl⟩)
        ⟨hcall, hnot, howner, whole, hm, ?_⟩⟩
      rw [P.get_set]
      exact hrun
  | @unlock k op i r hphase =>
      obtain ⟨hcall, hnot, howner, whole, hm, hrun⟩ :
        Known P method H c l m k (.holding op i (.ret r)) := hphase ▸ h.known k
      have hs : (P.machine method init).step m op =
          some (r, P.set i (P.get i c.state) m) := by
        simp [Parts.machine, hm, ← hrun, Body.run]
      rw [Option.toList_none, List.append_nil]
      refine ⟨_, _, h.hold hphase (List.subset_append_left _ _) (fun j hj hmem => ?_)
        (h.lin.commit hcall hnot hs) (fun j hj => Function.update_of_ne hj _ _) (fun _ _ => rfl)
        (fun j hj => P.get_set_ne hj) (.inl ⟨Function.update_self _ _ _, P.get_set.symm⟩)
        ⟨_, List.mem_append_right _ (List.mem_singleton_self _), rfl⟩⟩
      simpa [hj] using hmem
  | @answer k r hphase =>
      obtain ⟨e, he, rfl⟩ : Known P method H c l m k (.leaving r) := hphase ▸ h.known k
      exact ⟨l, m, h.move (List.subset_append_left _ _) (fun _ hv => hv) (fun _ _ hmem => hmem)
        (h.lin.answer he) (fun _ _ _ heq => by rw [hphase] at heq; cases heq) trivial⟩

/-- **Every execution has a linearization.** -/
theorem Exec.sound (h : Exec P method init H c) : ∃ l m, Sound P method init H c l m := by
  induction h with
  | start =>
      refine ⟨[], init, ⟨.nil, List.nodup_nil, nofun, nofun, nofun⟩, fun k hk => ?_, fun _ _ => rfl,
        nofun⟩
      cases hk
  | turn _ ht ih =>
      obtain ⟨l, m, hsound⟩ := ih
      exact hsound.turn ht

/-- **What the callers see is a run of the machine**, one call at a time, in an order that respects
real time. Where no lock is held the state is the one this run leads to. -/
theorem Exec.linearizes (h : Exec P method init H c) :
    ∃ l m, Linearizes (P.machine method init) H l m ∧
      ((∀ i, c.owner i = none) → c.state = m) := by
  obtain ⟨l, m, hsound⟩ := h.sound
  exact ⟨l, m, hsound.lin, fun hfree => P.ext fun i => hsound.free i (hfree i)⟩

/-- A call that was made stays made. -/
theorem Turn.phase_ne_absent {v : Option (Visible κ ο ρ)} (ht : Turn P method c v c')
    (hk : c.phase k ≠ .absent) : c'.phase k ≠ .absent := by
  have hupdate : ∀ {j p}, p ≠ .absent → Function.update c.phase j p k ≠ .absent := by
    intro j p hp
    by_cases hj : k = j
    · subst hj
      rw [Function.update_self]
      exact hp
    · rw [Function.update_of_ne hj]
      exact hk
  cases ht <;> exact hupdate (by simp)

/-- A call that was made is somewhere on its way. -/
theorem Exec.phase_ne_absent {op : ο} (h : Exec P method init H c) (hk : .call k op ∈ H) :
    c.phase k ≠ .absent := by
  induction h with
  | start => cases hk
  | @turn H c v c' _ ht ih =>
      rcases List.mem_append.1 hk with hk | hk
      · exact ht.phase_ne_absent (ih hk)
      · cases ht with
        | arrive op' hphase =>
            cases List.mem_singleton.1 hk
            simp [Config.move]
        | answer => cases List.mem_singleton.1 hk
        | _ => cases hk

/-- A call is made once. -/
theorem Exec.call_unique {op op' : ο} (h : Exec P method init H c) (hk : .call k op ∈ H)
    (hk' : .call k op' ∈ H) : op = op' := by
  induction h with
  | start => cases hk
  | @turn H c v c' hexec ht ih =>
      cases ht with
      | @arrive j op₁ hphase =>
          have hnew : ∀ {op}, .call k op ∈ H → k ≠ j := by
            rintro op hmem rfl
            exact hexec.phase_ne_absent hmem hphase
          rcases List.mem_append.1 hk with hold | heq <;>
            rcases List.mem_append.1 hk' with hold' | heq'
          · exact ih hold hold'
          · cases List.mem_singleton.1 heq'
            exact absurd rfl (hnew hold)
          · cases List.mem_singleton.1 heq
            exact absurd rfl (hnew hold')
          · cases List.mem_singleton.1 heq
            cases List.mem_singleton.1 heq'
            rfl
      | answer =>
          exact ih (by simpa using hk) (by simpa using hk')
      | _ => exact ih (by simpa using hk) (by simpa using hk')

/-! ## No call waits forever for a lock -/

/-- Turns in a row, with what the callers see of them. -/
inductive Turns (P : Parts σ ι π) (method : ο → Method ι π ρ) :
    Config σ ι κ π ο ρ → List (Visible κ ο ρ) → Config σ ι κ π ο ρ → Prop
  | refl (c : Config σ ι κ π ο ρ) : Turns P method c [] c
  | step {c c' c'' : Config σ ι κ π ο ρ} {v : Option (Visible κ ο ρ)} {H : List (Visible κ ο ρ)}
      (ht : Turn P method c v c') (h : Turns P method c' H c'') :
      Turns P method c (v.toList ++ H) c''

/-- Turns can be chained. -/
theorem Turns.trans {c'' : Config σ ι κ π ο ρ} (h : Turns P method c H c')
    (h' : Turns P method c' H' c'') : Turns P method c (H ++ H') c'' := by
  induction h with
  | refl => exact h'
  | step ht _ ih =>
      rw [List.append_assoc]
      exact .step ht (ih h')

/-- Turns go on from an execution. -/
theorem Exec.turns (h : Exec P method init H c) (ht : Turns P method c H' c') :
    Exec P method init (H ++ H') c' := by
  induction ht generalizing H with
  | refl => simpa using h
  | step ht _ ih =>
      rw [← List.append_assoc]
      exact ih (.turn h ht)

variable (method) in
/-- A body that is defined runs to its end and gives the lock back. Other calls stay where they
are. -/
theorem turns_unlock {op : ο} {i : ι} {r : ρ} :
    ∀ {body : Body (π i) ρ} {c : Config σ ι κ π ο ρ} {p : π i},
      c.phase k = .holding op i body → body.run (P.get i c.state) = some (r, p) →
      ∃ c', Turns P method c [] c' ∧ c'.phase k = .leaving r ∧ c'.owner i = none ∧
        ∀ j, j ≠ k → c'.phase j = c.phase j
  | .ret r', c, p, hphase, hrun => by
      cases hrun
      exact ⟨_, .step (.unlock hphase) (.refl _), Function.update_self _ _ _,
        Function.update_self _ _ _, fun j hj => Function.update_of_ne hj _ _⟩
  | .stmt write next, c, p, hphase, hrun => by
      let c₁ : Config σ ι κ π ο ρ := ⟨P.set i (write (P.get i c.state)) c.state, c.owner,
        Function.update c.phase k (.holding op i (next (P.get i c.state)))⟩
      have hphase' : c₁.phase k = .holding op i (next (P.get i c.state)) :=
        Function.update_self _ _ _
      have hrun' : (next (P.get i c.state)).run (P.get i c₁.state) = some (r, p) := by
        rw [P.get_set]
        exact hrun
      obtain ⟨c', hturns, hleaving, howner, hother⟩ := turns_unlock hphase' hrun'
      exact ⟨c', .step (.stmt hphase) hturns, hleaving, howner,
        fun j hj => (hother j hj).trans (Function.update_of_ne hj _ _)⟩
  | .stuck, _, _, _, hrun => by cases hrun

variable (hdef : ∀ {es m} (op : ο), (P.machine method init).Run es m →
  ∃ r m', (P.machine method init).step m op = some (r, m'))
include hdef

/-- Where the machine is always defined, so is the rest of a body. -/
theorem Exec.body_defined {op : ο} {i : ι} {body : Body (π i) ρ} (h : Exec P method init H c)
    (hphase : c.phase k = .holding op i body) :
    ∃ r p, body.run (P.get i c.state) = some (r, p) := by
  obtain ⟨l, m, hsound⟩ := h.sound
  obtain ⟨-, -, -, whole, hm, hrun⟩ : Known P method H c l m k (.holding op i body) :=
    hphase ▸ hsound.known k
  obtain ⟨r, m', hs⟩ := hdef op hsound.lin.run
  simp only [Parts.machine, hm, Option.map_eq_some_iff] at hs
  obtain ⟨⟨r', p⟩, hwhole, -⟩ := hs
  exact ⟨r', p, hrun.trans hwhole⟩

/-- The lock of a part can be given back by the call that holds it. -/
theorem Exec.turns_free {op : ο} {i : ι} {body : Body (π i) ρ} (h : Exec P method init H c)
    (hphase : c.phase k = .waiting op i body) :
    ∃ c', Turns P method c [] c' ∧ c'.phase k = .waiting op i body ∧ c'.owner i = none := by
  cases howner : c.owner i with
  | none => exact ⟨c, .refl c, hphase, howner⟩
  | some j =>
      obtain ⟨l, m, hsound⟩ := h.sound
      obtain ⟨op', body', hphase'⟩ := hsound.held howner
      obtain ⟨r, p, hrun⟩ := h.body_defined hdef hphase'
      obtain ⟨c', hturns, -, howner', hother⟩ := turns_unlock method hphase' hrun
      have hne : k ≠ j := by
        rintro rfl
        rw [hphase] at hphase'
        cases hphase'
      exact ⟨c', hturns, (hother k hne).trans hphase, howner'⟩

/-- A call that holds its lock can run to its end by itself. -/
theorem Exec.turns_leaving_of_holding {op : ο} {i : ι} {body : Body (π i) ρ}
    (h : Exec P method init H c) (hphase : c.phase k = .holding op i body) :
    ∃ r c', Turns P method c [] c' ∧ c'.phase k = .leaving r := by
  obtain ⟨r, p, hrun⟩ := h.body_defined hdef hphase
  obtain ⟨c', hturns, hleaving, -⟩ := turns_unlock method hphase hrun
  exact ⟨r, c', hturns, hleaving⟩

/-- A call that waits gets its lock once the holder has run to its end. -/
theorem Exec.turns_leaving_of_waiting {op : ο} {i : ι} {body : Body (π i) ρ}
    (h : Exec P method init H c) (hphase : c.phase k = .waiting op i body) :
    ∃ r c', Turns P method c [] c' ∧ c'.phase k = .leaving r := by
  obtain ⟨c₁, hturns, hwaiting, hfree⟩ := h.turns_free hdef hphase
  have hlock : Turn P method c₁ none _ := .lock hwaiting hfree
  have hturns' := hturns.trans (.step hlock (.refl _))
  obtain ⟨r, c', hrest, hleaving⟩ :=
    (h.turns hturns').turns_leaving_of_holding hdef (k := k) (Function.update_self _ _ _)
  exact ⟨r, c', hturns'.trans hrest, hleaving⟩

/-- **No call is kept from its answer.** Every call that was made and not answered can be answered,
by turns of its own and of the call that holds the lock it waits for, whatever the other calls
do. -/
theorem Exec.exists_answered (h : Exec P method init H c) (hmade : c.phase k ≠ .absent)
    (hopen : c.phase k ≠ .answered) :
    ∃ r c', Turns P method c [.answer k r] c' := by
  have hleave : ∀ {c₁ : Config σ ι κ π ο ρ}, Turns P method c [] c₁ →
      (∃ r c', Turns P method c₁ [] c' ∧ c'.phase k = .leaving r) →
      ∃ r c', Turns P method c [.answer k r] c' := by
    rintro c₁ hturns ⟨r, c', hrest, hleaving⟩
    exact ⟨r, _, (hturns.trans hrest).trans (.step (.answer hleaving) (.refl _))⟩
  cases hphase : c.phase k with
  | absent => exact absurd hphase hmade
  | answered => exact absurd hphase hopen
  | leaving r => exact hleave (.refl c) ⟨r, c, .refl c, hphase⟩
  | holding op i body => exact hleave (.refl c) (h.turns_leaving_of_holding hdef hphase)
  | waiting op i body => exact hleave (.refl c) (h.turns_leaving_of_waiting hdef hphase)
  | arrived op =>
      cases hm : method op with
      | refuse r =>
          exact hleave (.step (.refuse hphase hm) (.refl _))
            ⟨r, _, .refl _, Function.update_self _ _ _⟩
      | locked i body =>
          have hturns : Turns P method c [] _ := .step (.prepare hphase hm) (.refl _)
          exact hleave hturns
            ((h.turns hturns).turns_leaving_of_waiting hdef (Function.update_self _ _ _))

end invariant

end Locking

import DsService.Lib.Machine

/-!
# Histories

What a run says about the past, and about a part of the machine. `Latest f es b` picks out the last
event of a history that `f` takes notice of, and `Run.latest_snoc` is how an event moves it.
`Run.project` reads a run of one machine as a run of another that serves some of the requests; with
the machine itself in both places it says that the requests left out change none of the replies to
the others.
-/

namespace Machine

variable {σ ο ρ β : Type}

/-- What is visible of an event from outside: the request and its reply. -/
def Event.call (e : Event σ ο ρ) : ο × ρ := (e.op, e.reply)

/-! ## The latest event of a kind -/

/-- The last event of the history with a value under `f` has the value `b`. -/
def Latest (f : Event σ ο ρ → Option β) (es : List (Event σ ο ρ)) (b : β) : Prop :=
  ∃ es₁ e es₂, es = es₁ ++ e :: es₂ ∧ f e = some b ∧ ∀ e' ∈ es₂, f e' = none

variable {f : Event σ ο ρ → Option β} {es es₁ es₂ : List (Event σ ο ρ)} {e : Event σ ο ρ} {b : β}

/-- Nothing is the latest of an empty history. -/
theorem not_latest_nil : ¬ Latest f ([] : List (Event σ ο ρ)) b := by
  rintro ⟨es₁, e, es₂, heq, -⟩
  simp at heq

/-- Events of no value leave the latest one. -/
theorem Latest.append (h : Latest f es₁ b) (hnone : ∀ e ∈ es₂, f e = none) :
    Latest f (es₁ ++ es₂) b := by
  obtain ⟨l₁, e, l₂, rfl, hb, hl⟩ := h
  refine ⟨l₁, e, l₂ ++ es₂, by simp, hb, fun e' he' => ?_⟩
  rcases List.mem_append.1 he' with he' | he'
  · exact hl e' he'
  · exact hnone e' he'

/-- An event with a value is the latest. -/
theorem latest_self (h : f e = some b) : Latest f (es ++ [e]) b :=
  ⟨es, e, [], rfl, h, fun _ he => by cases he⟩

/-- The last event is the latest if it counts, and else the latest stays. -/
theorem latest_snoc : Latest f (es ++ [e]) b ↔ f e = some b ∨ f e = none ∧ Latest f es b := by
  constructor
  · rintro ⟨l₁, e', l₂, heq, hb, hl⟩
    induction l₂ using List.reverseRecOn with
    | nil =>
        obtain ⟨rfl, hcons⟩ := List.append_inj' heq rfl
        cases hcons
        exact .inl hb
    | append_singleton l₂ e'' =>
        rw [← List.cons_append, ← List.append_assoc] at heq
        obtain ⟨rfl, hcons⟩ := List.append_inj' heq rfl
        cases hcons
        exact .inr ⟨hl e (by simp), l₁, e', l₂, rfl, hb, fun x hx => hl x (by simp [hx])⟩
  · rintro (h | ⟨hnone, h⟩)
    · exact latest_self h
    · exact h.append fun e' he' => by rw [List.mem_singleton.1 he']; exact hnone

/-- The latest value is the last of the values. -/
theorem latest_iff_getLast? : Latest f es b ↔ (es.filterMap f).getLast? = some b := by
  induction es using List.reverseRecOn with
  | nil => simp [not_latest_nil]
  | append_singleton es e ih =>
      rw [latest_snoc, List.filterMap_append, ih]
      cases hf : f e with
      | none => simp [hf]
      | some b' => simp [hf]

/-- The first event of a list with a value. -/
theorem exists_first (h : ∃ e ∈ es, f e ≠ none) :
    ∃ l₁ e l₂ b, es = l₁ ++ e :: l₂ ∧ f e = some b ∧ ∀ e' ∈ l₁, f e' = none := by
  induction es with
  | nil =>
      obtain ⟨e, he, -⟩ := h
      cases he
  | cons e es ih =>
      cases hb : f e with
      | some b => exact ⟨[], e, es, b, rfl, hb, fun _ he => by cases he⟩
      | none =>
          obtain ⟨e', he', hne⟩ := h
          rcases List.mem_cons.1 he' with rfl | he'
          · exact absurd hb hne
          obtain ⟨l₁, e'', l₂, b, rfl, hb', hl⟩ := ih ⟨e', he', hne⟩
          refine ⟨e :: l₁, e'', l₂, b, rfl, hb', fun x hx => ?_⟩
          rcases List.mem_cons.1 hx with rfl | hx
          · exact hb
          · exact hl x hx

/-- An event that leaves the state as it was can be left out of a history. -/
theorem Run.remove {M : Machine σ ο ρ} {m : σ} (h : M.Run (es₁ ++ e :: es₂) m)
    (heq : e.post = e.pre) : M.Run (es₁ ++ es₂) m := by
  induction es₂ using List.reverseRecOn generalizing m with
  | nil =>
      obtain ⟨hrun, -, rfl⟩ := h.snoc_inv
      rw [heq, List.append_nil]
      exact hrun
  | append_singleton es₂ e' ih =>
      rw [← List.cons_append, ← List.append_assoc] at h
      obtain ⟨hrun, hs, rfl⟩ := h.snoc_inv
      rw [← List.append_assoc]
      exact .snoc (ih hrun) hs

/-! ## A part of a machine -/

variable {σ' ο' ρ' : Type} {M : Machine σ ο ρ} {N : Machine σ' ο' ρ'} {m m' : σ}

/-- **A run of `M`, seen through `view`, is a run of `N`.** A call of `M` is seen as a call of `N`
that is answered alike, or not at all; `R` relates the states. -/
theorem Run.project (view : ο → ρ → Option (ο' × ρ')) {R : σ → σ' → Prop} (h0 : R M.init N.init)
    (hseen : ∀ {m m' n op r o r'}, R m n → M.step m op = some (r, m') → view op r = some (o, r') →
      ∃ n', N.step n o = some (r', n') ∧ R m' n')
    (hunseen : ∀ {m m' n op r}, R m n → M.step m op = some (r, m') → view op r = none → R m' n)
    (h : M.Run es m) :
    ∃ es' n, N.Run es' n ∧ es'.map Event.call = es.filterMap (fun e => view e.op e.reply) ∧
      R m n := by
  induction h with
  | nil => exact ⟨[], N.init, .nil, rfl, h0⟩
  | @snoc es m m' op r _ hs ih =>
      obtain ⟨es', n, hrun, hcalls, hR⟩ := ih
      cases hview : view op r with
      | none =>
          refine ⟨es', n, hrun, ?_, hunseen hR hs hview⟩
          simp [hcalls, hview]
      | some call =>
          obtain ⟨o, r'⟩ := call
          obtain ⟨n', hn, hR'⟩ := hseen hR hs hview
          refine ⟨es' ++ [⟨n, o, r', n'⟩], n', .snoc hrun hn, ?_, hR'⟩
          simp [hcalls, hview, Event.call]

end Machine

import DsService.Task.Change

/-!
# The specification is a function

`Serves` leaves `task_get` a choice only where priorities are not numbers. On a graph whose entries
all are, `Serves.unique` says that a request has one reply and one next graph: two tasks cannot
outrank one another. Two states of the code that represent one graph then answer alike.
-/

namespace DsService

namespace TaskGraph

variable {α : Type} [LinearOrder α] {s s₁ s₂ : TaskGraph α}

/-- Of two tasks at most one outranks the other. -/
theorem Outranks.asymm {i j : Nat} (h : s.Outranks i j) : ¬ s.Outranks j i := by
  have hlt : ∀ {a b : Double α}, a.lt b = true → b.lt a = true → False := by
    intro a b hab hba
    cases a with
    | nan => cases hab
    | num x =>
        cases b with
        | nan => cases hab
        | num y => exact lt_asymm (of_decide_eq_true hab) (of_decide_eq_true hba)
  have hirrefl : ∀ {a : Double α}, ¬ a.lt a = true := fun h => hlt h h
  rintro (h' | ⟨heq', hseq'⟩)
  · rcases h with h | ⟨heq, -⟩
    · exact hlt h h'
    · rw [heq] at h'
      exact hirrefl h'
  · rcases h with h | ⟨-, hseq⟩
    · rw [heq'] at h
      exact hirrefl h
    · exact Nat.lt_asymm hseq hseq'

omit [LinearOrder α] in
/-- The first queue that offers a task is one queue. -/
theorem first_offering {qnames qnames' rest rest' : List String} {qname qname' : String} {i j : Nat}
    (heq : qnames ++ qname :: rest = qnames' ++ qname' :: rest')
    (hskip : ∀ q ∈ qnames, ∀ j, ¬ s.Offers q j) (hi : s.Offers qname i)
    (hskip' : ∀ q ∈ qnames', ∀ j, ¬ s.Offers q j) (hj : s.Offers qname' j) : qname = qname' := by
  rcases List.append_eq_append_iff.1 heq with ⟨l, hl, hrest⟩ | ⟨l, hl, hrest⟩
  · cases l with
    | nil => cases hrest; rfl
    | cons q l =>
        cases hrest
        exact absurd hi (hskip' qname (by rw [hl]; simp) i)
  · cases l with
    | nil => cases hrest; rfl
    | cons q l =>
        cases hrest
        exact absurd hj (hskip qname' (by rw [hl]; simp) j)

/-- Without NaN a `task_get` has one reply and one effect. -/
theorem ServesGet.unique {request : TaskGetRequest} {r₁ r₂ : TaskReply α} (hnum : s.Numeric)
    (h₁ : s.ServesGet request r₁ s₁) (h₂ : s.ServesGet request r₂ s₂) : r₁ = r₂ ∧ s₁ = s₂ := by
  cases h₁ with
  | @claim _ _ qname i hq hskip hi hbest =>
      cases h₂ with
      | @claim _ _ qname' j hq' hskip' hj hbest' =>
          have hqname := first_offering (hq.symm.trans hq') hskip hi hskip' hj
          subst hqname
          have hij : i = j := by
            by_contra hne
            exact (hbest hnum j hj (Ne.symm hne)).asymm (hbest' hnum i hi hne)
          subst hij
          exact ⟨rfl, rfl⟩
      | none hnone => exact absurd hi (hnone qname (by rw [hq]; simp) i)
  | none hnone =>
      cases h₂ with
      | @claim _ _ qname j hq _ hj _ => exact absurd hj (hnone qname (by rw [hq]; simp) j)
      | none _ => exact ⟨rfl, rfl⟩

/-- **Where the priorities are numbers a request has one reply and one next graph.** -/
theorem Serves.unique {re2 : RE2} {op : TaskOp α} {r₁ r₂ : TaskReply α} (hnum : s.Numeric)
    (h₁ : s.Serves re2 op r₁ s₁) (h₂ : s.Serves re2 op r₂ s₂) : r₁ = r₂ ∧ s₁ = s₂ := by
  cases h₁ with
  | read hr =>
      cases h₂ with
      | read hr' => exact ⟨Option.some.inj (hr.symm.trans hr'), rfl⟩
      | add | cancel | setPriority | get | done => cases hr
  | add => cases h₂ with
    | read hr => cases hr
    | add => exact ⟨rfl, rfl⟩
  | cancel => cases h₂ with
    | read hr => cases hr
    | cancel => exact ⟨rfl, rfl⟩
  | setPriority => cases h₂ with
    | read hr => cases hr
    | setPriority => exact ⟨rfl, rfl⟩
  | get h => cases h₂ with
    | read hr => cases hr
    | get h' => exact h.unique hnum h'
  | done => cases h₂ with
    | read hr => cases hr
    | done => exact ⟨rfl, rfl⟩

end TaskGraph

end DsService

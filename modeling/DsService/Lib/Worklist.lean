import Mathlib.Data.List.Basic

/-!
# What a worklist sweep reaches

A sweep starts from a stack of nodes. It pops a node, passes over it when it is dead, and
otherwise kills it and pushes its successors. `Swept succ live stack` are the nodes such a sweep
kills: those that a path of live nodes joins to the stack. The equations `Swept.nil`,
`Swept.cons_dead` and `Swept.cons_live` follow the three cases of the loop, so an induction over
its turns proves a loop against `Swept`. The stack matters only as a set (`Swept.congr`).
-/

/-- The live nodes that a path of live nodes joins to the stack. -/
inductive Swept {ι : Type} (succ : ι → List ι) (live : ι → Prop) (stack : List ι) : ι → Prop
  | root {i : ι} (hi : i ∈ stack) (hl : live i) : Swept succ live stack i
  | step {i j : ι} (h : Swept succ live stack i) (hj : j ∈ succ i) (hl : live j) :
      Swept succ live stack j

namespace Swept

variable {ι : Type} {succ : ι → List ι} {live live' : ι → Prop} {stack stack' : List ι} {c i : ι}

/-- A sweep kills only live nodes. -/
theorem alive (h : Swept succ live stack i) : live i := by
  cases h with
  | root _ hl => exact hl
  | step _ _ hl => exact hl

/-- An empty stack reaches nothing. -/
theorem nil : ¬ Swept succ live [] i := by
  intro h
  induction h with
  | root hi => cases hi
  | step _ _ _ ih => exact ih

/-- The order of the stack and repetitions in it do not matter, nor does how liveness is
spelled. -/
theorem congr (hl : ∀ j, live j ↔ live' j) (hs : ∀ j, j ∈ stack ↔ j ∈ stack') :
    Swept succ live stack i ↔ Swept succ live' stack' i := by
  constructor <;> intro h <;> induction h with
  | root hi hlive => exact .root (by simpa [hs] using hi) (by simpa [hl] using hlive)
  | step _ hj hlive ih => exact .step ih hj (by simpa [hl] using hlive)

/-- A dead node on top is passed over. -/
theorem cons_dead (hc : ¬ live c) :
    Swept succ live (c :: stack) i ↔ Swept succ live stack i := by
  constructor
  · intro h
    induction h with
    | root hi hl =>
        rcases List.mem_cons.1 hi with rfl | hi
        · exact absurd hl hc
        · exact .root hi hl
    | step _ hj hl ih => exact .step ih hj hl
  · intro h
    induction h with
    | root hi hl => exact .root (.tail _ hi) hl
    | step _ hj hl ih => exact .step ih hj hl

/-- A live node on top is killed, and the sweep goes on from its successors. -/
theorem cons_live (hc : live c) : Swept succ live (c :: stack) i ↔
    i = c ∨ Swept succ (fun j => live j ∧ j ≠ c) (succ c ++ stack) i := by
  constructor
  · intro h
    induction h with
    | @root i hi hl =>
        by_cases hic : i = c
        · exact .inl hic
        · have hmem : i ∈ stack := (List.mem_cons.1 hi).resolve_left hic
          exact .inr (.root (List.mem_append_right _ hmem) ⟨hl, hic⟩)
    | @step i j _ hj hl ih =>
        by_cases hjc : j = c
        · exact .inl hjc
        · rcases ih with rfl | ih
          · exact .inr (.root (List.mem_append_left _ hj) ⟨hl, hjc⟩)
          · exact .inr (.step ih hj ⟨hl, hjc⟩)
  · rintro (rfl | h)
    · exact .root (.head _) hc
    · induction h with
      | root hi hl =>
          rcases List.mem_append.1 hi with hi | hi
          · exact .step (.root (.head _) hc) hi hl.1
          · exact .root (.tail _ hi) hl.1
      | step _ hj hl ih => exact .step ih hj hl.1

end Swept

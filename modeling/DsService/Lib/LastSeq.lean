import Mathlib.Data.List.Induction
import Mathlib.Data.List.Basic

/-!
# Last occurrences in a log

`lastSeq l a` is the place, counted from one, of the last occurrence of `a` in `l`, and zero where
`a` does not occur. It is the sequence number of an element that takes the next number each time it
is appended.
-/

/-- The place of the last occurrence, counted from one, or zero. -/
def lastSeq {β : Type} [DecidableEq β] (l : List β) (a : β) : Nat :=
  l.length - l.reverse.idxOf a

namespace lastSeq

variable {β : Type} [DecidableEq β] {l l₁ l₂ : List β} {a b : β}

/-- Nothing has a number in an empty list. -/
@[simp] theorem nil : lastSeq ([] : List β) a = 0 := rfl

/-- A later part of the log decides, if the element occurs there. -/
theorem append (l₁ l₂ : List β) (a : β) :
    lastSeq (l₁ ++ l₂) a = if a ∈ l₂ then l₁.length + lastSeq l₂ a else lastSeq l₁ a := by
  unfold lastSeq
  simp only [List.reverse_append, List.idxOf_append, List.length_append, List.mem_reverse,
    List.length_reverse]
  split
  · next h =>
      have : l₂.reverse.idxOf a < l₂.reverse.length :=
        List.idxOf_lt_length_iff.2 (List.mem_reverse.2 h)
      rw [List.length_reverse] at this
      omega
  · omega

/-- The last element takes the next number. -/
theorem append_singleton (l : List β) (a b : β) :
    lastSeq (l ++ [b]) a = if a = b then l.length + 1 else lastSeq l a := by
  rw [append]
  by_cases h : a = b
  · subst h; simp [lastSeq]
  · simp [h]

/-- A number is at most the length. -/
theorem le_length (l : List β) (a : β) : lastSeq l a ≤ l.length := Nat.sub_le ..

/-- An element that occurs has a positive place. -/
theorem pos_iff : 0 < lastSeq l a ↔ a ∈ l := by
  unfold lastSeq
  rw [Nat.sub_pos_iff_lt, ← List.length_reverse, List.idxOf_lt_length_iff, List.mem_reverse]

/-- What is not in the list has the number 0. -/
theorem eq_zero (h : a ∉ l) : lastSeq l a = 0 :=
  Nat.eq_zero_of_not_pos fun hpos => h (pos_iff.1 hpos)

omit [DecidableEq β] in
/-- The log up to the last occurrence of an element. -/
theorem split (h : a ∈ l) : ∃ l₁ l₂, l = l₁ ++ a :: l₂ ∧ a ∉ l₂ := by
  obtain ⟨r₁, r₂, heq, hnot⟩ := List.eq_append_cons_of_mem (List.mem_reverse.2 h)
  refine ⟨r₂.reverse, r₁.reverse, ?_, by simpa using hnot⟩
  rw [← List.reverse_reverse l, heq]
  simp

/-- The number is that of the last occurrence. -/
theorem of_split (h : a ∉ l₂) : lastSeq (l₁ ++ a :: l₂) a = l₁.length + 1 := by
  rw [← List.singleton_append, ← List.append_assoc, append, if_neg h, append_singleton, if_pos rfl]

/-- The log holds the element at its place. -/
theorem getElem? (h : a ∈ l) : l[lastSeq l a - 1]? = some a := by
  obtain ⟨l₁, l₂, rfl, hnot⟩ := split h
  simp [of_split hnot]

/-- Two elements that share a place are equal. -/
theorem inj (ha : a ∈ l) (hb : b ∈ l) (h : lastSeq l a = lastSeq l b) : a = b := by
  have h1 := getElem? ha
  rw [h, getElem? hb] at h1
  exact (Option.some.inj h1).symm

/-- Renaming the elements one to one keeps the places. -/
theorem map {γ : Type} [DecidableEq γ] {f : β → γ} (h : ∀ b ∈ l, f b = f a → b = a) :
    lastSeq (l.map f) (f a) = lastSeq l a := by
  induction l using List.reverseRecOn with
  | nil => rfl
  | append_singleton l b ih =>
      rw [List.map_append, List.map_singleton, append_singleton, append_singleton,
        List.length_map, ih fun c hc => h c (List.mem_append_left _ hc)]
      have hb := h b (List.mem_append_right _ (.head _))
      by_cases hab : a = b
      · subst hab; simp
      · rw [if_neg hab, if_neg fun heq => hab (hb heq.symm).symm]

/-- `a` was last appended before `b` was: after the last `a` there is a `b`. -/
theorem lt_iff (ha : a ∈ l) :
    lastSeq l a < lastSeq l b ↔ ∃ l₁ l₂, l = l₁ ++ a :: l₂ ∧ a ∉ l₂ ∧ b ∈ l₂ := by
  have hsplit : ∀ l₁ l₂ : List β, l₁ ++ a :: l₂ = (l₁ ++ [a]) ++ l₂ := by simp
  constructor
  · intro hlt
    obtain ⟨l₁, l₂, rfl, hnot⟩ := split ha
    refine ⟨l₁, l₂, rfl, hnot, ?_⟩
    by_contra hb
    rw [of_split hnot, hsplit, append, if_neg hb] at hlt
    have := le_length (l₁ ++ [a]) b
    simp at this
    omega
  · rintro ⟨l₁, l₂, rfl, hnot, hb⟩
    have hpos := pos_iff.2 hb
    rw [of_split hnot, hsplit, append, if_pos hb]
    simp
    omega

/-- Leaving out other elements keeps the order of the places. -/
theorem filter_lt {p : β → Bool} (ha : a ∈ l) (hpa : p a = true) (hpb : p b = true)
    (h : lastSeq l a < lastSeq l b) : lastSeq (l.filter p) a < lastSeq (l.filter p) b := by
  obtain ⟨l₁, l₂, rfl, hnot, hb⟩ := (lt_iff ha).1 h
  refine (lt_iff (List.mem_filter.2 ⟨ha, hpa⟩)).2 ⟨l₁.filter p, l₂.filter p, ?_, ?_, ?_⟩
  · rw [List.filter_append, List.filter_cons_of_pos hpa]
  · exact fun hmem => hnot (List.mem_filter.1 hmem).1
  · exact List.mem_filter.2 ⟨hb, hpb⟩

end lastSeq

/-! ## Logs of records -/

/-- The last record of `a` in the log is `c`. -/
def LastAt {β γ : Type} [DecidableEq β] (log : List (β × γ)) (a : β) (c : γ) : Prop :=
  a ∈ log.map Prod.fst ∧ log[lastSeq (log.map Prod.fst) a - 1]? = some (a, c)

namespace LastAt

variable {β γ : Type} [DecidableEq β] {log : List (β × γ)} {a : β} {c : γ} {l : List β} {f : β → γ}

omit [DecidableEq β] in

/-- New records add their names to those of the log. -/
theorem map_fst (log : List (β × γ)) (l : List β) (f : β → γ) :
    (log ++ l.map fun b => (b, f b)).map Prod.fst = log.map Prod.fst ++ l := by
  simp [Function.comp_def]

/-- Records of other elements leave the last record alone. -/
theorem append_other (h : LastAt log a c) (ha : a ∉ l) :
    LastAt (log ++ l.map fun b => (b, f b)) a c := by
  obtain ⟨hmem, hget⟩ := h
  have hlt : lastSeq (log.map Prod.fst) a - 1 < log.length := by
    have := lastSeq.pos_iff.2 hmem
    have := lastSeq.le_length (log.map Prod.fst) a
    rw [List.length_map] at this
    omega
  unfold LastAt
  rw [map_fst, lastSeq.append, if_neg ha, List.getElem?_append_left hlt]
  exact ⟨List.mem_append_left _ hmem, hget⟩

/-- An element that is recorded anew has its new record last. -/
theorem append_new (ha : a ∈ l) : LastAt (log ++ l.map fun b => (b, f b)) a (f a) := by
  have hpos := lastSeq.pos_iff.2 ha
  unfold LastAt
  rw [map_fst, lastSeq.append, if_pos ha, List.length_map,
    List.getElem?_append_right (by omega)]
  have hidx : log.length + lastSeq l a - 1 - log.length = lastSeq l a - 1 := by omega
  rw [hidx, List.getElem?_map, lastSeq.getElem? ha]
  exact ⟨List.mem_append_right _ ha, rfl⟩

end LastAt

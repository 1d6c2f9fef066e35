import Mathlib.Data.Multiset.AddSub

/-!
# Priority queues

What a client of `std::priority_queue` may rely on, as an interface. A queue holds a multiset of
elements; `pop` removes an element, and a greatest one when the comparator is a strict weak order
on what the queue holds. Nothing is promised about the choice among elements when it is not.

`ListQueue` is an executable implementation by linear scan.
-/

/-- `comp` is a strict weak order on the members of `s`, the precondition of every heap
operation of the C++ standard library. -/
structure StrictWeakOn {α : Type} (comp : α → α → Bool) (s : α → Prop) : Prop where
  irrefl : ∀ a, s a → comp a a = false
  asymm : ∀ a b, s a → s b → comp a b = true → comp b a = false
  trans : ∀ a b c, s a → s b → s c → comp a b = true → comp b c = true → comp a c = true
  incomp : ∀ a b c, s a → s b → s c → comp a b = false → comp b a = false → comp b c = false →
    comp c b = false → comp a c = false ∧ comp c a = false

namespace StrictWeakOn

variable {α : Type} {comp : α → α → Bool} {s t : α → Prop}

/-- On fewer elements the order stays one. -/
theorem mono (h : StrictWeakOn comp s) (hts : ∀ a, t a → s a) : StrictWeakOn comp t where
  irrefl a ha := h.irrefl a (hts a ha)
  asymm a b ha hb := h.asymm a b (hts a ha) (hts b hb)
  trans a b c ha hb hc := h.trans a b c (hts a ha) (hts b hb) (hts c hc)
  incomp a b c ha hb hc := h.incomp a b c (hts a ha) (hts b hb) (hts c hc)

/-- An element is comparable with one of the two ends of every strict pair. -/
theorem neg_trans (h : StrictWeakOn comp s) {a b c : α} (ha : s a) (hb : s b) (hc : s c)
    (hab : comp a b = false) (hbc : comp b c = false) : comp a c = false := by
  cases hba : comp b a with
  | true =>
      cases hac : comp a c with
      | true => rw [h.trans b a c hb ha hc hba hac] at hbc; cases hbc
      | false => rfl
  | false =>
      cases hcb : comp c b with
      | true =>
          cases hac : comp a c with
          | true => rw [h.trans a c b ha hc hb hac hcb] at hab; cases hab
          | false => rfl
      | false => exact (h.incomp a b c ha hb hc hab hba hbc hcb).1

end StrictWeakOn

/-- The operations of a priority queue over the carrier `Q`, and what they promise about the
elements it holds. -/
class PriorityQueue (Q : Type) (α : outParam Type) (comp : outParam (α → α → Bool)) where
  empty : Q
  push : Q → α → Q
  /-- `top` and `pop` together: the element on top and the queue without it. -/
  pop : Q → Option (α × Q)
  size : Q → Nat
  elems : Q → Multiset α
  elems_empty : elems empty = 0
  elems_push : ∀ q a, elems (push q a) = a ::ₘ elems q
  size_eq : ∀ q, size q = (elems q).card
  pop_none : ∀ {q}, pop q = none → elems q = 0
  pop_some : ∀ {q a q'}, pop q = some (a, q') → elems q = a ::ₘ elems q'
  pop_max : ∀ {q a q'}, StrictWeakOn comp (· ∈ elems q) → pop q = some (a, q') →
    ∀ b ∈ elems q', comp a b = false

namespace PriorityQueue

variable {Q α : Type} {comp : α → α → Bool} [PriorityQueue Q α comp] {q q' : Q} {a : α}

attribute [simp] elems_empty elems_push

/-- Popping shrinks the queue by one. -/
theorem size_pop (h : pop q = some (a, q')) : size q = size q' + 1 := by
  rw [size_eq, size_eq, pop_some h, Multiset.card_cons]

/-- An empty queue has nothing on top. -/
theorem pop_of_empty (h : elems q = 0) : pop q = none := by
  cases hp : pop q with
  | none => rfl
  | some eq =>
      have hcons := pop_some hp
      rw [h] at hcons
      exact absurd hcons.symm (Multiset.cons_ne_zero)

end PriorityQueue

/-! ## An implementation by linear scan -/

/-- A queue kept as the list of its elements. -/
structure ListQueue {α : Type} (comp : α → α → Bool) where
  toList : List α

namespace ListQueue

variable {α : Type} {comp : α → α → Bool}

/-- The greatest of `a` and the elements of a list, with the others. -/
def extract (comp : α → α → Bool) (a : α) : List α → α × List α
  | [] => (a, [])
  | b :: l =>
      if comp a b then ((extract comp b l).1, a :: (extract comp b l).2)
      else ((extract comp a l).1, b :: (extract comp a l).2)

/-- To extract an element loses none. -/
theorem extract_perm (comp : α → α → Bool) (a : α) (l : List α) :
    ((extract comp a l).1 :: (extract comp a l).2).Perm (a :: l) := by
  induction l generalizing a with
  | nil => exact .refl _
  | cons b l ih =>
      unfold extract
      split
      · exact (List.Perm.swap ..).trans ((ih b).cons a)
      · exact (List.Perm.swap ..).trans (((ih a).cons b).trans (List.Perm.swap ..))

/-- Nothing left behind is greater than the element taken out. -/
theorem extract_max (a : α) (l : List α) (h : StrictWeakOn comp (· ∈ a :: l)) :
    ∀ b ∈ (extract comp a l).2, comp (extract comp a l).1 b = false := by
  induction l generalizing a with
  | nil => intro b hb; cases hb
  | cons c l ih =>
      have hmem : ∀ x y, x ∈ (extract comp y l).1 :: (extract comp y l).2 ↔ x ∈ y :: l :=
        fun x y => (extract_perm comp y l).mem_iff
      unfold extract
      split
      · next hac =>
          have hsub : StrictWeakOn comp (· ∈ c :: l) := h.mono fun x hx => .tail _ hx
          have hm : (extract comp c l).1 ∈ c :: l := (hmem _ c).1 (.head _)
          have hmc : comp (extract comp c l).1 c = false := by
            rcases List.mem_cons.1 ((hmem c c).2 (.head _)) with heq | hc
            · rw [← heq]; exact h.irrefl c (by simp)
            · exact ih c hsub c hc
          intro b hb
          rcases List.mem_cons.1 hb with rfl | hb
          · have hca := h.asymm b c (by simp) (by simp) hac
            exact h.neg_trans (.tail _ hm) (by simp) (by simp) hmc hca
          · exact ih c hsub b hb
      · next hac =>
          have hac' : comp a c = false := by simpa using hac
          have hsub : StrictWeakOn comp (· ∈ a :: l) := h.mono fun x hx => by
            rcases List.mem_cons.1 hx with rfl | hx <;> simp [*]
          have hm : (extract comp a l).1 ∈ a :: c :: l := by
            rcases List.mem_cons.1 ((hmem _ a).1 (.head _)) with heq | hm
            · rw [heq]; simp
            · exact .tail _ (.tail _ hm)
          have hma : comp (extract comp a l).1 a = false := by
            rcases List.mem_cons.1 ((hmem a a).2 (.head _)) with heq | ha
            · rw [← heq]; exact h.irrefl a (by simp)
            · exact ih a hsub a ha
          intro b hb
          rcases List.mem_cons.1 hb with rfl | hb
          · exact h.neg_trans hm (by simp) (by simp) hma hac'
          · exact ih a hsub b hb

instance : PriorityQueue (ListQueue comp) α comp where
  empty := ⟨[]⟩
  push q a := ⟨a :: q.toList⟩
  pop q := match q.toList with
    | [] => none
    | a :: l => some ((extract comp a l).1, ⟨(extract comp a l).2⟩)
  size q := q.toList.length
  elems q := (q.toList : Multiset α)
  elems_empty := rfl
  elems_push _ _ := rfl
  size_eq _ := rfl
  pop_none {q} h := by
    obtain ⟨_ | ⟨a, l⟩⟩ := q
    · rfl
    · cases h
  pop_some {q a q'} h := by
    obtain ⟨_ | ⟨b, l⟩⟩ := q
    · cases h
    · cases h
      exact (Multiset.coe_eq_coe.2 (extract_perm comp b l)).symm
  pop_max {q a q'} hw h := by
    obtain ⟨_ | ⟨b, l⟩⟩ := q
    · cases h
    · cases h
      exact extract_max b l (hw.mono fun x hx => Multiset.mem_coe.2 hx)

end ListQueue

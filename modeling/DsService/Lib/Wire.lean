import Mathlib.Algebra.Order.Ring.Nat
import Mathlib.Data.List.Forall2
import Mathlib.Data.Nat.Log

/-!
# Sizes on the wire

The size of a serialised protobuf message, from its fields: each that is set costs its tag and its
value, and a text or byte string its length besides. `size_le_of_within` compares two messages field
by field: one whose fields are all among those of the other, under numbers no larger, is no larger.
-/

namespace Wire

/-- The bytes of a varint, with seven bits of the number in each. -/
def varintSize (n : Nat) : Nat := Nat.log 128 n + 1

/-- What a field holds. -/
inductive Value where
  | varint (n : Nat)
  | fixed64
  /-- A text or a byte string of this length. -/
  | delimited (length : Nat)

def Value.wireType : Value → Nat
  | .varint _ => 0
  | .fixed64 => 1
  | .delimited _ => 2

def Value.size : Value → Nat
  | .varint n => varintSize n
  | .fixed64 => 8
  | .delimited length => varintSize length + length

/-- A field that is set. -/
structure Field where
  number : Nat
  value : Value

def Field.size (field : Field) : Nat :=
  varintSize (8 * field.number + field.value.wireType) + field.value.size

/-- The size of a message with these fields. -/
def size (fields : List Field) : Nat := (fields.map Field.size).sum

/-- A singular field with explicit presence: a value costs its field even if it is the default. -/
def singular (number : Nat) (value : Option Value) : List Field := value.toList.map (.mk number)

/-- A repeated field. -/
def repeated (number : Nat) (values : List Value) : List Field := values.map (.mk number)

/-! ## Comparing messages -/

/-- The field has the same value under a number no larger. -/
def Field.Within (f g : Field) : Prop := f.number ≤ g.number ∧ f.value = g.value

/-- A field within another one is no larger. -/
theorem Field.Within.size_le {f g : Field} (h : f.Within g) : f.size ≤ g.size := by
  obtain ⟨hnumber, hvalue⟩ := h
  unfold Field.size varintSize
  rw [hvalue]
  have hlog : Nat.log 128 (8 * f.number + g.value.wireType) ≤
      Nat.log 128 (8 * g.number + g.value.wireType) := Nat.log_mono_right (by omega)
  omega

/-- **A message whose fields are all within those of another is no larger.** -/
theorem size_le_of_within {fs gs : List Field} (h : List.SublistForall₂ Field.Within fs gs) :
    size fs ≤ size gs := by
  unfold size
  induction h with
  | nil => exact Nat.zero_le _
  | cons hfg _ ih =>
      rw [List.map_cons, List.map_cons, List.sum_cons, List.sum_cons]
      exact Nat.add_le_add hfg.size_le ih
  | cons_right _ ih =>
      rw [List.map_cons, List.sum_cons]
      exact ih.trans (Nat.le_add_left _ _)

/-- Fields before the others do not matter. -/
theorem within_append {fs gs : List Field} (hs : List Field)
    (h : List.SublistForall₂ Field.Within fs gs) :
    List.SublistForall₂ Field.Within fs (hs ++ gs) := by
  induction hs with
  | nil => exact h
  | cons _ _ ih => exact .cons_right ih

/-- A value that both messages set. -/
theorem within_singular {n n' : Nat} (h : n ≤ n') (value : Value) {fs gs : List Field}
    (hrest : List.SublistForall₂ Field.Within fs gs) :
    List.SublistForall₂ Field.Within (singular n (some value) ++ fs)
      (singular n' (some value) ++ gs) :=
  .cons ⟨h, rfl⟩ hrest

end Wire

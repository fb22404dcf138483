import Simplex.Arithmetic
import Mathlib.Order.Defs.Unbundled

/-!
Arithmetic in which a result may be undefined. `UnitLaws` lists what zero, one and an undefined
operand must do for a column to stay a unit column through any number of pivots; of rounding it says
nothing. A sum with one summand besides zeros is that summand, as far as it is defined.
-/
namespace Simplex.Scalar

variable {α : Type} [Scalar α]

/-- The number equals `d`, unless it is undefined. -/
def Agrees (x d : α) : Prop := (x == d) = true ∨ isUndefined x = true

/-- The laws that unit columns rest on: zero and one act as they should, an undefined operand makes
    the result undefined, and comparisons with a result that is zero or undefined fail. -/
class UnitLaws (α : Type) [Scalar α] : Prop extends IsStrictOrder α (· < ·) where
  zero_beq_zero : ((0 : α) == 0) = true
  neg_zero_beq_zero : ((-0 : α) == 0) = true
  one_beq_one : ((1 : α) == 1) = true
  beq_zero_of_beq_one {x : α} : (x == 1) = true → (x == 0) = false
  add_zero_beq {x z d : α} : (x == d) = true → (z == 0) = true → (x + z == d) = true
  zero_add_beq {z x d : α} : (z == 0) = true → (x == d) = true → (z + x == d) = true
  sub_zero_beq {x z d : α} : (x == d) = true → (z == 0) = true → (x - z == d) = true
  sub_agrees_zero {x d : α} : (x == d) = true → Agrees (x - d) 0
  mul_one_agrees {x y : α} : (y == 1) = true → Agrees (x * y) x
  mul_zero_agrees {x z : α} : (z == 0) = true → Agrees (x * z) 0
  zero_mul_beq {z x : α} : (z == 0) = true → isFinite x = true → (z * x == 0) = true
  zero_mul_undefined {z x : α} : (z == 0) = true → isFinite x = false → isUndefined (z * x) = true
  zero_div_beq {z x : α} : (z == 0) = true → (x == 0) = false → isFinite x = true →
    (z / x == 0) = true
  undefined_add {x y : α} : isUndefined x = true ∨ isUndefined y = true → isUndefined (x + y) = true
  undefined_sub {x y : α} : isUndefined x = true ∨ isUndefined y = true → isUndefined (x - y) = true
  undefined_mul {x y : α} : isUndefined x = true ∨ isUndefined y = true → isUndefined (x * y) = true
  undefined_div {x y : α} : isUndefined x = true → isUndefined (x / y) = true
  not_lt_neg {x tolerance : α} : Agrees x 0 → ¬ tolerance < 0 → ¬ x < -tolerance
  not_lt_magnitude {x tolerance : α} : Agrees x 0 → ¬ tolerance < 0 → ¬ tolerance < magnitude x
  isFinite_of_div_pos {x y : α} : 0 < x / y → isFinite y = true

namespace Agrees

/-- A result agrees with a number if it does so for defined operands and is undefined otherwise. -/
theorem combine {x y d e r c : α} (hx : Agrees x d) (hy : Agrees y e)
    (defined : (x == d) = true → (y == e) = true → Agrees r c)
    (absorbs : isUndefined x = true ∨ isUndefined y = true → isUndefined r = true) :
    Agrees r c := by
  rcases hx with equal | undefined
  · rcases hy with equal' | undefined
    · exact defined equal equal'
    · exact .inr (absorbs (.inr undefined))
  · exact .inr (absorbs (.inl undefined))

variable [UnitLaws α] {x y z d : α}

theorem add_zero (hx : Agrees x d) (hz : Agrees z 0) : Agrees (x + z) d :=
  hx.combine hz (fun equal zero => .inl (UnitLaws.add_zero_beq equal zero)) UnitLaws.undefined_add

theorem zero_add (hz : Agrees z 0) (hx : Agrees x d) : Agrees (z + x) d :=
  hz.combine hx (fun zero equal => .inl (UnitLaws.zero_add_beq zero equal)) UnitLaws.undefined_add

theorem sub_zero (hx : Agrees x d) (hz : Agrees z 0) : Agrees (x - z) d :=
  hx.combine hz (fun equal zero => .inl (UnitLaws.sub_zero_beq equal zero)) UnitLaws.undefined_sub

theorem sub_self (hx : Agrees x d) : Agrees (x - d) 0 := by
  rcases hx with equal | undefined
  · exact UnitLaws.sub_agrees_zero equal
  · exact .inr (UnitLaws.undefined_sub (.inl undefined))

theorem mul_one (hy : Agrees y 1) : Agrees (x * y) x := by
  rcases hy with one | undefined
  · exact UnitLaws.mul_one_agrees one
  · exact .inr (UnitLaws.undefined_mul (.inr undefined))

theorem mul_zero (hz : Agrees z 0) : Agrees (x * z) 0 := by
  rcases hz with zero | undefined
  · exact UnitLaws.mul_zero_agrees zero
  · exact .inr (UnitLaws.undefined_mul (.inr undefined))

theorem zero_mul (hz : Agrees z 0) : Agrees (z * x) 0 := by
  rcases hz with zero | undefined
  · cases finite : isFinite x with
    | true => exact .inl (UnitLaws.zero_mul_beq zero finite)
    | false => exact .inr (UnitLaws.zero_mul_undefined zero finite)
  · exact .inr (UnitLaws.undefined_mul (.inl undefined))

theorem zero_div (hz : Agrees z 0) (nonzero : (x == 0) = false) (finite : isFinite x = true) :
    Agrees (z / x) 0 := by
  rcases hz with zero | undefined
  · exact .inl (UnitLaws.zero_div_beq zero nonzero finite)
  · exact .inr (UnitLaws.undefined_div undefined)

/-- Summands that are zero or undefined keep a number what it is, unless they make it undefined. -/
theorem foldl_add {xs : List α} (zeros : ∀ z ∈ xs, Agrees z 0) (start : Agrees x d) :
    Agrees (xs.foldl (· + ·) x) d := by
  induction xs generalizing x with
  | nil => exact start
  | cons z rest ih =>
    exact ih (fun y member => zeros y (List.mem_cons_of_mem _ member))
      (start.add_zero (zeros z List.mem_cons_self))

/-- A sum with one summand besides zeros. -/
theorem sum_single {β : Type} {items : List β} (distinct : items.Nodup) {own : β}
    (member : own ∈ items) {f : β → α} (ownTerm : Agrees (f own) d)
    (others : ∀ i ∈ items, i ≠ own → Agrees (f i) 0) : Agrees (sum (items.map f)) d := by
  obtain ⟨before, after, rfl⟩ := List.append_of_mem member
  obtain ⟨_, afterDistinct, apart⟩ := List.nodup_append.mp distinct
  have fresh : own ∉ after := (List.nodup_cons.mp afterDistinct).1
  have zerosBefore : ∀ z ∈ before.map f, Agrees z 0 := List.forall_mem_map.mpr fun i earlier =>
    others i (List.mem_append_left _ earlier) (apart i earlier own List.mem_cons_self)
  have zerosAfter : ∀ z ∈ after.map f, Agrees z 0 := List.forall_mem_map.mpr fun i later =>
    others i (List.mem_append_right _ (List.mem_cons_of_mem _ later)) fun same => fresh (same ▸ later)
  have start : Agrees (-0 : α) 0 := .inl UnitLaws.neg_zero_beq_zero
  -- the sum is zero up to the own summand, and stays what it is behind it
  rw [sum, List.map_append, List.map_cons, List.foldl_append, List.foldl_cons]
  exact foldl_add zerosAfter ((foldl_add zerosBefore start).zero_add ownTerm)

end Agrees

end Simplex.Scalar

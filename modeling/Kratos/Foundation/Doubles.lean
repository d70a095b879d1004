/- source: none(language runtime)
   digest: The nearest double of a natural number, and where it is the number itself. -/

import Mathlib.Algebra.GroupWithZero.Nat
import Mathlib.Data.Nat.Log

set_option autoImplicit false

namespace Kratos.Foundation.Doubles

/-- The distance of the doubles next to a natural number. -/
def spacing (n : Nat) : Nat := 2 ^ (n.log2 - 52)

/-- The nearest double of a natural number below the largest one; a tie goes to the even one. -/
def nearestDouble (n : Nat) : Nat :=
  let quotient := n / spacing n
  let rest := n % spacing n
  if 2 * rest > spacing n ∨ (2 * rest = spacing n ∧ quotient % 2 = 1) then
    (quotient + 1) * spacing n
  else quotient * spacing n

/-- `Number.MAX_SAFE_INTEGER + 1`: every natural number up to it is a double. -/
def exactLimit : Nat := 2 ^ 53

theorem nearestDouble_exact {n : Nat} (small : n ≤ exactLimit) : nearestDouble n = n := by
  rcases Nat.lt_or_eq_of_le small with below | rfl
  · have one : spacing n = 1 := by
      have short : n.log2 ≤ 52 := by
        rcases Nat.eq_zero_or_pos n with rfl | positive
        · simp
        · have bound := (Nat.log2_lt positive.ne').mpr below
          omega
      rw [spacing, Nat.sub_eq_zero_of_le short, Nat.pow_zero]
    have noTie : ¬(2 * 0 > 1 ∨ 2 * 0 = 1 ∧ n % 2 = 1) := by omega
    simp only [nearestDouble, one, Nat.div_one, Nat.mod_one, Nat.mul_one, if_neg noTie]
  · decide +kernel

/-- `values.reduce((sum, value) => sum + value, 0)`. -/
def addUp (values : List Nat) : Nat := values.foldl (fun sum value => nearestDouble (sum + value)) 0

theorem foldl_exact {values : List Nat} {start : Nat} (small : start + values.sum ≤ exactLimit) :
    values.foldl (fun sum value => nearestDouble (sum + value)) start = start + values.sum := by
  induction values generalizing start with
  | nil => rfl
  | cons value values ih =>
      rw [List.sum_cons] at small
      have here : nearestDouble (start + value) = start + value := nearestDouble_exact (by omega)
      rw [List.foldl_cons, here, ih (by omega), List.sum_cons, Nat.add_assoc]

theorem addUp_exact {values : List Nat} (small : values.sum ≤ exactLimit) :
    addUp values = values.sum := by
  rw [addUp, foldl_exact (by omega), Nat.zero_add]

def nearestInteger : Int → Int
  | .ofNat n => nearestDouble n
  | .negSucc n => -nearestDouble (n + 1)

theorem nearestInteger_exact {value : Int} (small : value.natAbs ≤ exactLimit) :
    nearestInteger value = value := by
  cases value with
  | ofNat n => exact congrArg Int.ofNat (nearestDouble_exact small)
  | negSucc n =>
      have same : nearestDouble (n + 1) = n + 1 := nearestDouble_exact small
      rw [nearestInteger, same]
      rfl

/-- From here on an integer rounds to infinity. -/
def infiniteFrom : Nat := 2 ^ 1024 - 2 ^ 970

theorem exactLimit_lt_infiniteFrom : exactLimit < infiniteFrom := by
  have apart : ∀ low middle high : Nat, low < middle → middle < high →
      2 ^ low < 2 ^ high - 2 ^ middle := by
    intro low middle high first second
    have twice : 2 * 2 ^ middle ≤ 2 ^ high := by
      rw [← Nat.pow_succ']
      exact Nat.pow_le_pow_right (by decide) second
    have less : 2 ^ low < 2 ^ middle := Nat.pow_lt_pow_right (by decide) first
    omega
  rw [exactLimit, infiniteFrom]
  apply apart <;> decide

end Kratos.Foundation.Doubles

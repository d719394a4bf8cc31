import Mathlib.Algebra.BigOperators.Group.List.Basic
import Mathlib.Algebra.Order.BigOperators.Group.List
import Mathlib.Tactic.Ring
import Mathlib.Tactic.Linarith

/-! # Running sums of a list

The sum of a list and the sum of its partial sums, with what appending does to them. -/

namespace PngDecode.Lib

/-- The last of `n` elements counts once, the one before it twice, and so on. -/
def ramp : List Nat → Nat
  | [] => 0
  | b :: bs => (bs.length + 1) * b + ramp bs

def runningStep (s : Nat × Nat) (b : Nat) : Nat × Nat := (s.1 + b, s.2 + (s.1 + b))

theorem foldl_runningStep (bs : List Nat) (s : Nat × Nat) :
    bs.foldl runningStep s = (s.1 + bs.sum, s.2 + bs.length * s.1 + ramp bs) := by
  induction bs generalizing s with
  | nil => simp [ramp]
  | cons b bs ih =>
    rw [List.foldl_cons, ih]
    simp only [runningStep, List.sum_cons, List.length_cons, ramp, Prod.mk.injEq]
    constructor <;> ring

theorem ramp_append (as bs : List Nat) :
    ramp (as ++ bs) = ramp as + bs.length * as.sum + ramp bs := by
  induction as with
  | nil => simp [ramp]
  | cons a as ih =>
    rw [List.cons_append, ramp, ih, List.length_append, List.sum_cons, ramp]
    ring

theorem sum_le_length_mul (m : Nat) (bs : List Nat) (bounded : ∀ b ∈ bs, b ≤ m) :
    bs.sum ≤ bs.length * m := by
  simpa using List.sum_le_card_nsmul bs m bounded

theorem two_mul_ramp_le (m : Nat) (bs : List Nat) (bounded : ∀ b ∈ bs, b ≤ m) :
    2 * ramp bs ≤ m * (bs.length * (bs.length + 1)) := by
  induction bs with
  | nil => simp [ramp]
  | cons b bs ih =>
    have rest := ih fun c member => bounded c (List.mem_cons_of_mem b member)
    have head : (bs.length + 1) * b ≤ (bs.length + 1) * m :=
      Nat.mul_le_mul_left _ (bounded b List.mem_cons_self)
    rw [ramp, List.length_cons]
    calc 2 * ((bs.length + 1) * b + ramp bs)
        ≤ 2 * ((bs.length + 1) * m) + m * (bs.length * (bs.length + 1)) := by linarith
      _ = m * ((bs.length + 1) * (bs.length + 1 + 1)) := by ring

/-! ## Reduced after every element -/

def reducedStep (base : Nat) (s : Nat × Nat) (b : Nat) : Nat × Nat :=
  ((s.1 + b) % base, (s.2 + (s.1 + b) % base) % base)

theorem foldl_reducedStep (base : Nat) (bs : List Nat) (s : Nat × Nat)
    (first : s.1 % base = s.1) (second : s.2 % base = s.2) :
    bs.foldl (reducedStep base) s =
      ((s.1 + bs.sum) % base, (s.2 + bs.length * s.1 + ramp bs) % base) := by
  have run (x y : Nat) : bs.foldl (reducedStep base) (x % base, y % base) =
      ((bs.foldl runningStep (x, y)).1 % base, (bs.foldl runningStep (x, y)).2 % base) := by
    induction bs generalizing x y with
    | nil => rfl
    | cons b bs ih =>
      have step : reducedStep base (x % base, y % base) b =
          ((x + b) % base, (y + (x + b)) % base) := by
        simp only [reducedStep, Nat.mod_add_mod, Nat.add_mod_mod]
      rw [List.foldl_cons, List.foldl_cons, step, ih]
      rfl
  have := run s.1 s.2
  rw [foldl_runningStep, first, second] at this
  exact this

end PngDecode.Lib

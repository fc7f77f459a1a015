import SpendingPlan.Proofs.Curve.Root

namespace SpendingPlan.Curve

/-- Euclid's algorithm in as many divisions as are allowed, with reduced coefficients. It is meant
    to be evaluated: the divisions are counted down and the numbers stay small. -/
def bezoutWithin : ℕ → ℕ → ℕ → ℕ → ℕ → ℕ
  | 0, _, _, olderCoefficient, _ => olderCoefficient
  | steps + 1, older, newer, olderCoefficient, newerCoefficient =>
    match newer.beq 0 with
    | true => olderCoefficient
    | false =>
      bezoutWithin steps newer (older % newer) newerCoefficient
        ((olderCoefficient + (prime - newerCoefficient) * (older / newer)) % prime)

theorem natCast_bezoutWithin {steps older newer a b : ℕ} {a' b' : ℤ} (enough : newer < steps)
    (reduced : b ≤ prime) (left : (a : ZMod prime) = a') (right : (b : ZMod prime) = b') :
    (bezoutWithin steps older newer a b : ZMod prime) = bezout older newer a' b' := by
  induction steps generalizing older newer a b a' b' with
  | zero => exact absurd enough (Nat.not_lt_zero newer)
  | succ steps ih =>
    rw [bezoutWithin, bezout]
    cases done : newer.beq 0 with
    | true =>
      rw [if_pos (Nat.eq_of_beq_eq_true done)]
      exact left
    | false =>
      have positive : newer ≠ 0 := Nat.ne_of_beq_eq_false done
      have smaller := Nat.mod_lt older (Nat.pos_of_ne_zero positive)
      rw [if_neg positive]
      apply ih (by omega) (Nat.mod_lt _ prime_pos).le right
      rw [ZMod.natCast_mod, Nat.cast_add, Nat.cast_mul, Nat.cast_sub reduced, ZMod.natCast_self,
        left, right, Int.cast_sub, Int.cast_mul, Int.cast_natCast]
      ring

def quickInverse (a : ℕ) : ℕ := bezoutWithin prime prime (a % prime) 0 1 % prime

theorem natCast_inverse_eq_bezout (a : ℕ) :
    (inverse a : ZMod prime) = bezout prime (a % prime) 0 1 := by
  have nonneg : 0 ≤ bezout prime (a % prime) 0 1 % prime :=
    Int.emod_nonneg _ (by exact_mod_cast prime_pos.ne')
  rw [inverse, ← Int.cast_natCast, Int.toNat_of_nonneg nonneg, ZMod.intCast_mod]

theorem inverse_lt (a : ℕ) : inverse a < prime := by
  have positive := prime_pos
  have below : bezout prime (a % prime) 0 1 % prime < prime :=
    Int.emod_lt_of_pos _ (by exact_mod_cast positive)
  rw [inverse]
  omega

theorem inverse_eq (a : ℕ) : inverse a = quickInverse a := by
  have start : ((0 : ℕ) : ZMod prime) = (0 : ℤ) := by rw [Nat.cast_zero, Int.cast_zero]
  have unit : ((1 : ℕ) : ZMod prime) = (1 : ℤ) := by rw [Nat.cast_one, Int.cast_one]
  rw [quickInverse, ← natCast_inj (inverse_lt a) (Nat.mod_lt _ prime_pos), ZMod.natCast_mod,
    natCast_bezoutWithin (Nat.mod_lt a prime_pos) (by decide) start unit,
    natCast_inverse_eq_bezout]

namespace Point

def addBy (invert : ℕ → ℕ) : Point → Point → Point
  | .infinity, point => point
  | point, .infinity => point
  | .affine x₁ y₁, .affine x₂ y₂ =>
    if x₁ = x₂ then
      if (y₁ + y₂) % prime = 0 then .infinity
      else reflectedThird (3 * x₁ * x₁ * invert (2 * y₁) % prime) x₁ y₁ x₂
    else reflectedThird (sub y₂ y₁ * invert (sub x₂ x₁) % prime) x₁ y₁ x₂

theorem add_eq (p q : Point) : p.add q = p.addBy quickInverse q := by
  cases p with
  | infinity => rfl
  | affine x₁ y₁ =>
    cases q with
    | infinity => rfl
    | affine x₂ y₂ => rw [add, addBy, inverse_eq, inverse_eq]

def mulWithin : ℕ → ℕ → Point → Point
  | 0, _, _ => .infinity
  | steps + 1, n, point =>
    match n.beq 0 with
    | true => .infinity
    | false =>
      let rest := mulWithin steps (n / 2) (point.addBy quickInverse point)
      if n % 2 = 1 then point.addBy quickInverse rest else rest

theorem mul_eq {steps n : ℕ} (enough : n ≤ steps) (point : Point) :
    Point.mul n point = mulWithin steps n point := by
  induction steps generalizing n point with
  | zero => rw [Point.mul, if_pos (Nat.le_zero.mp enough), mulWithin]
  | succ steps ih =>
    rw [Point.mul, mulWithin]
    cases done : n.beq 0 with
    | true => rw [if_pos (Nat.eq_of_beq_eq_true done)]
    | false =>
      have positive : n ≠ 0 := Nat.ne_of_beq_eq_false done
      dsimp only
      rw [if_neg positive, ih (by omega), add_eq, add_eq]

end Point

theorem mulGenerator_eq_mulWithin (n : ℤ) :
    mulGenerator n = Point.mulWithin order (n % order).toNat generator := by
  have small : n % order < order := Int.emod_lt_of_pos n (by decide)
  have enough : (n % order).toNat ≤ order := by omega
  rw [mulGenerator, Point.mul_eq enough]

end SpendingPlan.Curve

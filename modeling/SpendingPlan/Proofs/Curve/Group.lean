import Mathlib.AlgebraicGeometry.EllipticCurve.Affine.Point
import Mathlib.GroupTheory.OrderOfElement
import SpendingPlan.Proofs.Curve.Evaluation
import SpendingPlan.Proofs.Curve.Order

namespace SpendingPlan.Curve

open WeierstrassCurve

theorem bezout_mul {older newer : ℕ} {a b : ℤ} {x : ZMod prime} (left : a * x = older)
    (right : b * x = newer) : (bezout older newer a b : ZMod prime) * x = older.gcd newer := by
  fun_induction bezout older newer a b with
  | case1 older a b => rw [left, Nat.gcd_zero_right]
  | case2 older newer a b nonzero ih =>
    have whole : (older : ZMod prime) = newer * (older / newer : ℕ) + (older % newer : ℕ) := by
      exact_mod_cast congrArg (Nat.cast : ℕ → ZMod prime) (Nat.div_add_mod older newer).symm
    have next : ((a - (older / newer : ℕ) * b : ℤ) : ZMod prime) * x = (older % newer : ℕ) := by
      rw [Int.cast_sub, Int.cast_mul, Int.cast_natCast, sub_mul, mul_assoc, left, right, whole]
      ring
    rw [ih right next, Nat.gcd_comm newer, ← Nat.gcd_rec, Nat.gcd_comm]

theorem natCast_inverse (a : ℕ) : (inverse a : ZMod prime) = (a : ZMod prime)⁻¹ := by
  rw [natCast_inverse_eq_bezout]
  by_cases divides : prime ∣ a
  · have zero : (a : ZMod prime) = 0 := (ZMod.natCast_eq_zero_iff a prime).mpr divides
    rw [zero, inv_zero, Nat.mod_eq_zero_of_dvd divides, bezout, if_pos rfl, Int.cast_zero]
  · have multiple : (bezout prime (a % prime) 0 1 : ZMod prime) * a = prime.gcd (a % prime) := by
      apply bezout_mul
      · rw [Int.cast_zero, zero_mul, ZMod.natCast_self]
      · rw [Int.cast_one, one_mul, ZMod.natCast_mod]
    have coprime : prime.gcd (a % prime) = 1 := by
      rw [Nat.gcd_comm, ← Nat.gcd_rec]
      exact (Nat.Prime.coprime_iff_not_dvd prime_prime).mpr divides
    rw [coprime, Nat.cast_one] at multiple
    exact eq_inv_of_mul_eq_one_left multiple

theorem natCast_sub {a b : ℕ} (reduced : b ≤ prime) : (sub a b : ZMod prime) = a - b := by
  rw [sub, ZMod.natCast_mod, Nat.cast_add, Nat.cast_sub reduced, ZMod.natCast_self]
  ring

theorem sub_lt (a b : ℕ) : sub a b < prime := Nat.mod_lt _ prime_pos

def weierstrass : WeierstrassCurve.Affine (ZMod prime) := ⟨0, 0, 0, 0, 7⟩

theorem equation_iff {x y : ZMod prime} : weierstrass.Equation x y ↔ y ^ 2 = x ^ 3 + 7 := by
  rw [Affine.equation_iff]
  simp [weierstrass]

theorem negY_eq (x y : ZMod prime) : weierstrass.negY x y = -y := by
  simp [weierstrass, Affine.negY]

theorem addX_eq (x₁ x₂ l : ZMod prime) : weierstrass.addX x₁ x₂ l = l ^ 2 - x₁ - x₂ := by
  simp [weierstrass, Affine.addX]

theorem addY_eq (x₁ x₂ y₁ l : ZMod prime) :
    weierstrass.addY x₁ x₂ y₁ l = l * (x₁ - weierstrass.addX x₁ x₂ l) - y₁ := by
  rw [Affine.addY, negY_eq, Affine.negAddY]
  ring

theorem cubic_lt (x : ℕ) : cubic x < prime := Nat.mod_lt _ prime_pos

theorem holds_iff {x y : ℕ} (abscissa : x < prime) (ordinate : y < prime) :
    Holds x y ↔ weierstrass.Equation x y := by
  have cast : ((cubic x : ℕ) : ZMod prime) = (x : ZMod prime) ^ 3 + 7 := by
    rw [cubic_eq, ZMod.natCast_mod, Nat.cast_add, Nat.cast_pow, Nat.cast_ofNat]
  rw [equation_iff, ← cast, ← mul_self_mod_eq_iff (cubic_lt x), Holds]
  exact ⟨fun holds => holds.2.2, fun square => ⟨abscissa, ordinate, square⟩⟩

/-- A point of the group with its coordinates as reduced numbers. -/
def place : weierstrass.Point → Point
  | .zero => .infinity
  | .some x y _ => .affine x.val y.val

theorem holds_of_equation {x y : ZMod prime} (equation : weierstrass.Equation x y) :
    Holds x.val y.val := by
  rw [holds_iff x.val_lt y.val_lt, ZMod.natCast_zmod_val, ZMod.natCast_zmod_val]
  exact equation

theorem ne_neg_of_equation {x y : ZMod prime} (equation : weierstrass.Equation x y) : y ≠ -y := by
  have positive := (holds_of_equation equation).ordinate_pos
  intro opposite
  have two : (2 : ZMod prime) ≠ 0 := by unfold prime; decide
  have zero : y = 0 := by
    have double : 2 * y = 0 := by rw [two_mul]; nth_rewrite 2 [opposite]; ring
    exact (mul_eq_zero.mp double).resolve_left two
  rw [zero, ZMod.val_zero] at positive
  exact absurd positive (lt_irrefl 0)

theorem affine_eq {x y : ℕ} {a b : ZMod prime} (abscissa : x < prime) (ordinate : y < prime)
    (left : (x : ZMod prime) = a) (right : (y : ZMod prime) = b) :
    Point.affine x y = .affine a.val b.val := by
  rw [← left, ← right, ZMod.val_natCast_of_lt abscissa, ZMod.val_natCast_of_lt ordinate]

theorem reflectedThird_eq {steep : ℕ} {x₁ y₁ x₂ l : ZMod prime} (same : (steep : ZMod prime) = l) :
    reflectedThird steep x₁.val y₁.val x₂.val =
      .affine (weierstrass.addX x₁ x₂ l).val (weierstrass.addY x₁ x₂ y₁ l).val := by
  have abscissa : (sub (sub (steep * steep % prime) x₁.val) x₂.val : ZMod prime) =
      weierstrass.addX x₁ x₂ l := by
    rw [natCast_sub x₂.val_lt.le, natCast_sub x₁.val_lt.le, ZMod.natCast_mod, Nat.cast_mul, same,
      ZMod.natCast_zmod_val, ZMod.natCast_zmod_val, addX_eq, sq]
  rw [reflectedThird]
  apply affine_eq (sub_lt _ _) (sub_lt _ _) abscissa
  rw [natCast_sub y₁.val_lt.le, ZMod.natCast_mod, Nat.cast_mul, natCast_sub (sub_lt _ _).le,
    abscissa, same, ZMod.natCast_zmod_val, ZMod.natCast_zmod_val, addY_eq]

theorem tangent_eq {x y : ZMod prime} (equation : weierstrass.Equation x y) :
    ((3 * x.val * x.val * inverse (2 * y.val) % prime : ℕ) : ZMod prime) =
      weierstrass.slope x x y y := by
  have apart : y ≠ weierstrass.negY x y := by
    rw [negY_eq]
    exact ne_neg_of_equation equation
  rw [Affine.slope_of_Y_ne rfl apart, negY_eq, ZMod.natCast_mod, Nat.cast_mul,
    natCast_inverse, div_eq_mul_inv]
  push_cast
  rw [ZMod.natCast_zmod_val, ZMod.natCast_zmod_val]
  simp only [weierstrass]
  congr 1
  · ring
  · congr 1
    ring

theorem chord_eq {x₁ y₁ x₂ y₂ : ZMod prime} (apart : x₁ ≠ x₂) :
    ((sub y₂.val y₁.val * inverse (sub x₂.val x₁.val) % prime : ℕ) : ZMod prime) =
      weierstrass.slope x₁ x₂ y₁ y₂ := by
  rw [Affine.slope_of_X_ne apart, ZMod.natCast_mod, Nat.cast_mul, natCast_inverse,
    natCast_sub y₁.val_lt.le, natCast_sub x₁.val_lt.le]
  simp only [ZMod.natCast_zmod_val]
  rw [← neg_sub y₁, ← neg_sub x₁, inv_neg, neg_mul_neg, div_eq_mul_inv]

theorem add_val_mod_eq_zero_iff {y₁ y₂ : ZMod prime} :
    (y₁.val + y₂.val) % prime = 0 ↔ y₁ = -y₂ := by
  rw [← Nat.dvd_iff_mod_eq_zero, ← ZMod.natCast_eq_zero_iff, Nat.cast_add, ZMod.natCast_zmod_val,
    ZMod.natCast_zmod_val, add_eq_zero_iff_eq_neg]

theorem add_place (P Q : weierstrass.Point) : (place P).add (place Q) = place (P + Q) := by
  rcases P with _ | ⟨x₁, y₁, on₁⟩
  · rfl
  rcases Q with _ | ⟨x₂, y₂, on₂⟩
  · rfl
  simp only [place, Point.add, add_val_mod_eq_zero_iff, (ZMod.val_injective prime).eq_iff]
  by_cases above : x₁ = x₂
  · subst above
    rw [if_pos rfl]
    by_cases opposite : y₁ = -y₂
    · have mirrored : y₁ = weierstrass.negY x₁ y₂ := by
        rw [negY_eq]
        exact opposite
      rw [if_pos opposite, Affine.Point.add_of_Y_eq rfl mirrored]
    · have apart : y₁ ≠ weierstrass.negY x₁ y₂ := by
        rw [negY_eq]
        exact opposite
      have same : y₁ = y₂ :=
        (Affine.Y_eq_of_X_eq on₁.1 on₂.1 rfl).resolve_right apart
      subst same
      rw [if_neg opposite, Affine.Point.add_of_Y_ne apart,
        reflectedThird_eq (tangent_eq on₁.1)]
  · rw [if_neg above, Affine.Point.add_of_X_ne above,
      reflectedThird_eq (chord_eq above)]

theorem mul_place (n : ℕ) (P : weierstrass.Point) : Point.mul n (place P) = place (n • P) := by
  induction n using Nat.strongRecOn generalizing P with
  | _ n ih =>
    rw [Point.mul]
    split
    · rename_i zero
      rw [zero, zero_nsmul]
      rfl
    · rename_i nonzero
      rw [add_place, ih (n / 2) (by omega)]
      have doubled : (n / 2) • (P + P) = (2 * (n / 2)) • P := by
        rw [← two_nsmul, ← mul_nsmul', mul_comm]
      split
      · rename_i odd
        have whole : n = 2 * (n / 2) + 1 := by omega
        rw [add_place, doubled, ← succ_nsmul', ← whole]
      · rename_i even
        have whole : n = 2 * (n / 2) := by omega
        rw [doubled, ← whole]

theorem place_eq_infinity_iff {P : weierstrass.Point} : place P = .infinity ↔ P = 0 := by
  cases P with
  | zero => exact ⟨fun _ => rfl, fun _ => rfl⟩
  | some x y on =>
    constructor
    · intro placed
      cases placed
    · intro zero
      cases zero

theorem holds_of_place {P : weierstrass.Point} {x y : ℕ} (placed : place P = .affine x y) :
    Holds x y := by
  cases P with
  | zero => cases placed
  | some a b on =>
    cases placed
    exact holds_of_equation on.1

theorem place_neg {P : weierstrass.Point} {x y : ℕ} (placed : place P = .affine x y) :
    place (-P) = .affine x (prime - y) := by
  cases P with
  | zero => cases placed
  | some a b on =>
    cases placed
    have positive := (holds_of_equation on.1).ordinate_pos
    have nonzero : NeZero b := ⟨fun zero => by rw [zero, ZMod.val_zero] at positive; omega⟩
    rw [Affine.Point.neg_some, place, negY_eq, ZMod.val_neg_of_ne_zero]

theorem nonsingular_of_holds {x y : ℕ} (holds : Holds x y) : weierstrass.Nonsingular x y := by
  have equation := (holds_iff holds.1 holds.2.1).mp holds
  rw [Affine.nonsingular_iff]
  refine ⟨equation, .inr ?_⟩
  have apart := ne_neg_of_equation equation
  simpa [weierstrass] using apart

def base : weierstrass.Point :=
  .some _ _ (nonsingular_of_holds
    (x := 0x79be667ef9dcbbac55a06295ce870b07029bfcdb2dce28d959f2815b16f81798)
    (y := 0x483ada7726a3c4655da4fbfc0e1108a8fd17b448a68554199c47d08ffb10d4b8) (by decide))

theorem place_base : place base = generator := by
  rw [base, place, ZMod.val_natCast_of_lt (by decide), ZMod.val_natCast_of_lt (by decide)]
  rfl

theorem order_nsmul_base : order • base = 0 := by
  have vanishes : Point.mulWithin order order generator = .infinity := by decide +kernel
  rw [← place_eq_infinity_iff, ← mul_place, place_base, Point.mul_eq le_rfl, vanishes]

theorem addOrderOf_base : addOrderOf base = order :=
  addOrderOf_eq_prime order_nsmul_base (Affine.Point.some_ne_zero _)

theorem mulGenerator_eq (n : ℤ) : mulGenerator n = place (n • base) := by
  have nonneg : 0 ≤ n % order := Int.emod_nonneg _ (by decide)
  rw [mulGenerator, ← place_base, mul_place, ← natCast_zsmul, Int.toNat_of_nonneg nonneg,
    ← addOrderOf_base, mod_addOrderOf_zsmul]

theorem mulGenerator_add (m n : ℤ) :
    (mulGenerator m).add (mulGenerator n) = mulGenerator (m + n) := by
  rw [mulGenerator_eq, mulGenerator_eq, mulGenerator_eq, add_place, add_zsmul]

theorem mulGenerator_neg {n : ℤ} {x y : ℕ} (given : mulGenerator n = .affine x y) :
    mulGenerator (-n) = .affine x (prime - y) := by
  rw [mulGenerator_eq] at given ⊢
  rw [neg_zsmul]
  exact place_neg given

theorem mulGenerator_eq_infinity_iff {n : ℤ} : mulGenerator n = .infinity ↔ (order : ℤ) ∣ n := by
  rw [mulGenerator_eq, place_eq_infinity_iff, ← addOrderOf_dvd_iff_zsmul_eq_zero, addOrderOf_base]

theorem holds_of_mulGenerator {n : ℤ} {x y : ℕ} (given : mulGenerator n = .affine x y) :
    Holds x y := by
  rw [mulGenerator_eq] at given
  exact holds_of_place given

theorem mulGenerator_mod (n : ℤ) : mulGenerator (n % order) = mulGenerator n := by
  rw [mulGenerator, mulGenerator, Int.emod_emod]

end SpendingPlan.Curve

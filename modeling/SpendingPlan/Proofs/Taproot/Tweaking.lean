import SpendingPlan.Key
import SpendingPlan.Proofs.Curve.Group
import SpendingPlan.Proofs.Key.Reading
import SpendingPlan.Proofs.Taproot.Lifting

namespace SpendingPlan

open Curve

namespace SecretKey

theorem ofExponent_eq_ok_iff {n : Int} {secret : SecretKey} :
    ofExponent n = .ok secret ↔ (secret.exponent : Int) = n := by
  obtain ⟨exponent, pos, small⟩ := secret
  rw [ofExponent]
  constructor
  · intro chosen
    split at chosen
    · rename_i bounds
      cases chosen
      exact Int.toNat_of_nonneg (by omega)
    · cases chosen
  · rintro rfl
    exact dif_pos ⟨pos, small⟩

theorem exists_ofExponent {n : Int} (range : 1 ≤ n ∧ n < order) :
    ∃ secret, ofExponent n = .ok secret := by
  have bounds : 0 < n.toNat ∧ n.toNat < order := by omega
  exact ⟨_, dif_pos bounds⟩

theorem publicKey_eq_ok_iff {secret : SecretKey} {key : PublicKey} :
    secret.publicKey = .ok key ↔ mulGenerator secret.exponent = .affine key.x key.y := by
  rw [publicKey]
  cases multiple : mulGenerator secret.exponent with
  | infinity => simp
  | affine x y =>
    dsimp only
    rw [PublicKey.ofCoordinates_eq_ok_iff, Point.affine.injEq, eq_comm (a := x), eq_comm (a := y)]

theorem exists_publicKey (secret : SecretKey) : ∃ key, secret.publicKey = .ok key := by
  cases multiple : mulGenerator secret.exponent with
  | infinity =>
    have divides := mulGenerator_eq_infinity_iff.mp multiple
    have := Int.le_of_dvd (by exact_mod_cast secret.pos) divides
    have := secret.lt_order
    omega
  | affine x y =>
    exact ⟨⟨x, y, holds_of_mulGenerator multiple⟩, publicKey_eq_ok_iff.mpr multiple⟩

theorem ofPoint_publicKey {secret : SecretKey} {key : PublicKey}
    (given : secret.publicKey = .ok key) :
    Taproot.OutputKey.ofPoint (mulGenerator secret.exponent) = .ok ⟨key.xOnly, key.isOdd⟩ := by
  rw [publicKey_eq_ok_iff.mp given]
  rfl

end SecretKey

theorem mulGenerator_even {key : PublicKey} {d : Int}
    (given : mulGenerator d = .affine key.x key.y) :
    mulGenerator (if key.isOdd then order - d else d) = .affine key.x key.evenOrdinate := by
  rw [PublicKey.evenOrdinate]
  cases key.isOdd with
  | false => exact given
  | true =>
    rw [if_pos rfl, if_pos rfl, ← mulGenerator_mod, sub_eq_add_neg, Int.add_emod_left,
      mulGenerator_mod]
    exact mulGenerator_neg given

/-- The output key of a tweaked key is the public key of the tweaked secret, which is negated first
    when its key has an odd ordinate. Only a secret that is tweaked to nothing has none. -/
theorem outputKey_of_secret {d : Int} (range : 1 ≤ d ∧ d < order) :
    ∃ secret key, SecretKey.ofExponent d = .ok secret ∧ secret.publicKey = .ok key ∧
      ∀ tweak sum : Int, sum = ((if key.isOdd then order - d else d) + tweak) % order →
        (sum ≠ 0 → ∃ moved movedKey, SecretKey.ofExponent sum = .ok moved ∧
          moved.publicKey = .ok movedKey ∧
            Taproot.outputKey key.xOnly tweak = .ok ⟨movedKey.xOnly, movedKey.isOdd⟩) ∧
        (sum = 0 → ∃ e, Taproot.outputKey key.xOnly tweak = .error e ∧ e.kind = .attribute) := by
  obtain ⟨secret, chosen⟩ := SecretKey.exists_ofExponent range
  obtain ⟨key, given⟩ := secret.exists_publicKey
  refine ⟨secret, key, chosen, given, ?_⟩
  rw [SecretKey.publicKey_eq_ok_iff, SecretKey.ofExponent_eq_ok_iff.mp chosen] at given
  intro tweak sum reduced
  have nonneg : 0 ≤ sum := reduced ▸ Int.emod_nonneg _ (by decide)
  have small : sum < order := reduced ▸ Int.emod_lt_of_pos _ (by decide)
  rw [key.outputKey_xOnly, ← mulGenerator_even given, mulGenerator_add, ← mulGenerator_mod,
    ← reduced]
  constructor
  · intro nonzero
    obtain ⟨moved, chosen'⟩ := SecretKey.exists_ofExponent ⟨by omega, small⟩
    obtain ⟨movedKey, given'⟩ := moved.exists_publicKey
    refine ⟨moved, movedKey, chosen', given', ?_⟩
    rw [← SecretKey.ofExponent_eq_ok_iff.mp chosen']
    exact SecretKey.ofPoint_publicKey given'
  · rintro rfl
    rw [mulGenerator_zero]
    exact ⟨_, rfl, rfl⟩

theorem mulGenerator_last : mulGenerator (order - 1) =
    .affine 0x79be667ef9dcbbac55a06295ce870b07029bfcdb2dce28d959f2815b16f81798
      (prime - 0x483ada7726a3c4655da4fbfc0e1108a8fd17b448a68554199c47d08ffb10d4b8) := by
  rw [mulGenerator_eq_mulWithin]
  decide +kernel

theorem mulGenerator_two :
    mulGenerator 2 = .affine PublicKey.doubled.x PublicKey.doubled.y := by
  rw [mulGenerator_eq_mulWithin]
  decide +kernel

theorem outputKey_of_secret_last :
    ∃ secret key, SecretKey.ofExponent (order - 1) = .ok secret ∧ secret.publicKey = .ok key ∧
      key.isOdd = true ∧
      Taproot.outputKey key.xOnly 1 = .ok ⟨PublicKey.doubled.xOnly, false⟩ ∧
      ∃ e, Taproot.outputKey key.xOnly (-1) = .error e ∧ e.kind = .attribute := by
  obtain ⟨secret, key, chosen, given, sums⟩ := outputKey_of_secret (d := order - 1) (by decide)
  have place := SecretKey.publicKey_eq_ok_iff.mp given
  rw [SecretKey.ofExponent_eq_ok_iff.mp chosen, mulGenerator_last, Point.affine.injEq] at place
  have odd : key.isOdd = true := by
    rw [PublicKey.isOdd, ← place.2]
    decide
  rw [odd, if_pos rfl] at sums
  obtain ⟨moved, movedKey, chosen', given', output⟩ := (sums 1 2 (by decide)).1 (by decide)
  have doubled := SecretKey.publicKey_eq_ok_iff.mp given'
  rw [SecretKey.ofExponent_eq_ok_iff.mp chosen', mulGenerator_two, Point.affine.injEq] at doubled
  refine ⟨secret, key, chosen, given, odd, ?_, (sums (-1) 0 (by decide)).2 rfl⟩
  rw [output, PublicKey.xOnly, PublicKey.isOdd, ← doubled.1, ← doubled.2]
  rfl

end SpendingPlan

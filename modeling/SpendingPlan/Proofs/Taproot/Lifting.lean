import SpendingPlan.Proofs.Curve.Evaluation
import SpendingPlan.Proofs.Key.Encoding
import SpendingPlan.Proofs.Outcome
import SpendingPlan.Taproot.SpendInfo

namespace SpendingPlan

open Curve

def Taproot.OutputKey.ofPoint : Point → Except Error OutputKey
  | .infinity => .error .pointAtInfinity
  | .affine x y => .ok ⟨Bytes.ofNatBE 32 x, y % 2 = 1⟩

section Abscissa

variable {b : Bytes} (length : b.length = 32)

include length

theorem Bytes.toNatBE_lt_coordinateLimit : b.toNatBE < coordinateLimit := by
  have bound := Bytes.toNatLE_lt b.reverse
  rw [List.length_reverse, length] at bound
  rw [Bytes.toNatBE_eq]
  exact bound

theorem PublicKey.parse_xOnly : parse (Hex.encode b) = ofAbscissa b.toNatBE false :=
  parse_xOnly_form (spells_body_encode b) length

variable {y : Nat}

theorem PublicKey.parse_of_ordinate (ordinate : evenOrdinate? b.toNatBE = some y) :
    parse (Hex.encode b) = ofCoordinates b.toNatBE y := by
  have fits := Bytes.toNatBE_lt_coordinateLimit length
  rw [parse_xOnly length, ofAbscissa, ordinate]
  dsimp only
  rw [if_neg (by omega), if_neg Bool.false_ne_true]

theorem PublicKey.parse_of_nothing (off : evenOrdinate? b.toNatBE = none) :
    parse (Hex.encode b) = .error .keyOffCurve := by
  rw [parse_xOnly length, ofAbscissa, off]

theorem Taproot.outputKey_of_ordinate (ordinate : evenOrdinate? b.toNatBE = some y) (tweak : Int) :
    outputKey b tweak = PublicKey.ofCoordinates b.toNatBE y >>= fun key =>
      OutputKey.ofPoint ((Point.affine key.x key.y).add (mulGenerator tweak)) := by
  have fits := Bytes.toNatBE_lt_coordinateLimit length
  have written : encodeCoordinate b.toNatBE = .ok (Bytes.ofNatBE 32 b.toNatBE) := by
    rw [encodeCoordinate, if_neg (by omega), Int.toNat_natCast]
  rw [outputKey]
  simp only [ordinate, written, ok_bind]
  rfl

end Abscissa

theorem Taproot.outputKey_of_nothing {b : Bytes} (off : evenOrdinate? b.toNatBE = none)
    (tweak : Int) : outputKey b tweak = .error .internalKeyOffCurve := by
  rw [outputKey]
  simp only [off]

namespace PublicKey

def evenOrdinate (key : PublicKey) : Nat := if key.isOdd then prime - key.y else key.y

theorem outputKey_xOnly (key : PublicKey) (tweak : Int) :
    Taproot.outputKey key.xOnly tweak =
      Taproot.OutputKey.ofPoint
        ((Point.affine key.x key.evenOrdinate).add (mulGenerator tweak)) := by
  have abscissa : key.xOnly.toNatBE = key.x := toNatBE_coordinate key.x_lt_coordinateLimit
  have ordinate : evenOrdinate? key.xOnly.toNatBE = some key.evenOrdinate := by
    rw [abscissa]
    exact key.evenOrdinate?_x
  obtain ⟨reduced, -, square⟩ := evenOrdinate?_eq_some_iff.mp ordinate
  have holds : Holds key.xOnly.toNatBE key.evenOrdinate :=
    ⟨abscissa ▸ key.holds.1, reduced, square⟩
  rw [Taproot.outputKey_of_ordinate key.length_xOnly ordinate, ofCoordinates, dif_pos holds,
    ok_bind]
  dsimp only
  rw [abscissa]

end PublicKey

theorem Curve.evenOrdinate?_eq_none_iff {x : Nat} :
    evenOrdinate? x = none ↔ ∀ y, y ^ 2 % prime ≠ (x ^ 3 + 7) % prime := by
  rw [← cubic_eq]
  constructor
  · intro off y square
    obtain ⟨root, found⟩ := sqrt?_of_mul_self y
    rw [← sq, square] at found
    rw [evenOrdinate?, found] at off
    cases off
  · intro rootless
    rw [Option.eq_none_iff_forall_ne_some]
    intro y ordinate
    obtain ⟨-, -, square⟩ := evenOrdinate?_eq_some_iff.mp ordinate
    exact rootless y (by rw [sq, square])

theorem Curve.mulGenerator_zero : mulGenerator 0 = .infinity := by
  rw [mulGenerator, Int.zero_emod, Int.toNat_zero, Point.mul, if_pos rfl]

def Curve.ListsRoots (rootsOf : Nat → List Nat) : Prop :=
  ∀ a < prime, ∀ y, y ∈ rootsOf a ↔ y < prime ∧ y ^ 2 % prime = a

namespace PublicKey

/-- The point over an abscissa whose ordinate comes from the first even root that is listed. There
    is nothing to take when roots are listed and all of them are odd. -/
def ofListed (rootsOf : Nat → List Nat) (x : Nat) (odd : Bool) : Option (Except Error PublicKey) :=
  let roots := rootsOf ((x ^ 3 + 7) % prime)
  if roots = [] then some (.error .keyOffCurve)
  else
    (roots.find? fun y => y % 2 = 0).map fun even =>
      if coordinateLimit ≤ x then .error .malformedHex
      else ofCoordinates x (if odd then prime - even else even)

theorem ofListed_eq {rootsOf : Nat → List Nat} (lists : ListsRoots rootsOf) (x : Nat) (odd : Bool) :
    ofListed rootsOf x odd = some (ofAbscissa x odd) := by
  have all := lists ((x ^ 3 + 7) % prime) (Nat.mod_lt _ prime_pos)
  have first : evenOrdinate? x = (rootsOf ((x ^ 3 + 7) % prime)).find? fun y => y % 2 = 0 := by
    apply evenOrdinate?_eq_find?
    simpa only [sq, ← cubic_eq] using all
  rw [ofListed, ofAbscissa, ← first]
  split
  · rename_i empty
    rw [empty, List.find?_nil] at first
    rw [first]
  · rename_i listed
    obtain ⟨root, member⟩ := List.exists_mem_of_ne_nil _ listed
    cases ordinate : evenOrdinate? x with
    | none => exact absurd ((all root).mp member).2 (evenOrdinate?_eq_none_iff.mp ordinate root)
    | some even => rfl

section Lifting

variable {b : Bytes} (length : b.length = 32)

include length

theorem lift_cases :
    ((∀ y, y ^ 2 % prime ≠ (b.toNatBE ^ 3 + 7) % prime) ∧
      parse (Hex.encode b) = .error .keyOffCurve ∧
        Taproot.outputKey b 0 = .error .internalKeyOffCurve) ∨
    ((∃ y, y ^ 2 % prime = (b.toNatBE ^ 3 + 7) % prime) ∧ prime ≤ b.toNatBE ∧
      parse (Hex.encode b) = .error .pointRejected ∧
        Taproot.outputKey b 0 = .error .pointRejected) ∨
    ∃ key, parse (Hex.encode b) = .ok key ∧ key.xOnly = b ∧ key.isOdd = false ∧
      Taproot.outputKey b 0 = .ok ⟨b, false⟩ := by
  cases ordinate : evenOrdinate? b.toNatBE with
  | none =>
    exact .inl ⟨evenOrdinate?_eq_none_iff.mp ordinate, parse_of_nothing length ordinate,
      Taproot.outputKey_of_nothing ordinate 0⟩
  | some y =>
    obtain ⟨reduced, even, square⟩ := evenOrdinate?_eq_some_iff.mp ordinate
    rw [parse_of_ordinate length ordinate, Taproot.outputKey_of_ordinate length ordinate]
    by_cases inside : b.toNatBE < prime
    · have holds : Holds b.toNatBE y := ⟨inside, reduced, square⟩
      have written : Bytes.ofNatBE 32 b.toNatBE = b := by
        rw [← length]
        exact b.ofNatBE_toNatBE
      have parity : decide (y % 2 = 1) = false := decide_eq_false (by omega)
      rw [ofCoordinates, dif_pos holds, ok_bind, mulGenerator_zero]
      refine .inr (.inr ⟨_, rfl, written, parity, ?_⟩)
      rw [Point.add, Taproot.OutputKey.ofPoint, written, parity]
      simp
    · rw [ofCoordinates, dif_neg fun holds => inside holds.1]
      refine .inr (.inl ⟨⟨y, ?_⟩, Nat.not_lt.mp inside, rfl, rfl⟩)
      rw [sq, square, cubic_eq]

end Lifting

/-- Reading an abscissa as a key and lifting it to be tweaked come to the same point, or fail in the
    same way, whatever lists the square roots for the one and whatever power finds a root for the
    other. The abscissa of a key is always lifted. -/
theorem lifts_agree {rootsOf : Nat → List Nat} (lists : ListsRoots rootsOf) :
    (∀ b : Bytes, b.length = 32 →
      ofListed rootsOf b.toNatBE false = some (parse (Hex.encode b)) ∧
      ((∃ key, parse (Hex.encode b) = .ok key) ↔ ∃ output, Taproot.outputKey b 0 = .ok output) ∧
      (∀ key output, parse (Hex.encode b) = .ok key → Taproot.outputKey b 0 = .ok output →
        output = ⟨b, false⟩ ∧ key.xOnly = b ∧ key.isOdd = false) ∧
      ∀ e e', parse (Hex.encode b) = .error e → Taproot.outputKey b 0 = .error e' →
        e.kind = e'.kind ∧
          ((∀ y, y ^ 2 % prime ≠ (b.toNatBE ^ 3 + 7) % prime) ∧ e.kind = .value ∨
            (∃ y, y ^ 2 % prime = (b.toNatBE ^ 3 + 7) % prime) ∧ prime ≤ b.toNatBE ∧
              e.kind = .point)) ∧
    ∀ (key : PublicKey) (tweak : Int) (e : Error),
      Taproot.outputKey key.xOnly tweak = .error e → e = .pointAtInfinity := by
  constructor
  · intro b length
    refine ⟨by rw [ofListed_eq lists, parse_xOnly length], ?_⟩
    rcases lift_cases length with ⟨off, left, right⟩ | ⟨rooted, wide, left, right⟩ |
      ⟨key, left, same, even, right⟩
    all_goals rw [left, right]
    · refine ⟨by simp, by simp, ?_⟩
      rintro e e' ⟨⟩ ⟨⟩
      exact ⟨rfl, .inl ⟨off, rfl⟩⟩
    · refine ⟨by simp, by simp, ?_⟩
      rintro e e' ⟨⟩ ⟨⟩
      exact ⟨rfl, .inr ⟨rooted, wide, rfl⟩⟩
    · refine ⟨by simp, ?_, by simp⟩
      rintro key' output ⟨⟩ ⟨⟩
      exact ⟨rfl, same, even⟩
  · intro key tweak e failed
    rw [outputKey_xOnly] at failed
    cases sum : (Point.affine key.x key.evenOrdinate).add (mulGenerator tweak) with
    | infinity =>
      rw [sum] at failed
      cases failed
      rfl
    | affine x y =>
      rw [sum] at failed
      cases failed

def squareRoots (a : Nat) : List Nat :=
  match sqrt? a with
  | none => []
  | some 0 => [0]
  | some root => [min root (prime - root), max root (prime - root)]

theorem mem_squareRoots {a root y : Nat} (found : sqrt? a = some root) :
    y ∈ squareRoots a ↔ y < prime ∧ (y = root ∨ y + root = prime) := by
  obtain ⟨reduced, -⟩ := sqrt?_some found
  cases root with
  | zero =>
    simp only [squareRoots, found, List.mem_singleton]
    omega
  | succ root =>
    simp only [squareRoots, found, List.mem_cons, List.not_mem_nil, or_false]
    omega

theorem listsRoots_squareRoots : ListsRoots squareRoots := by
  intro a reduced y
  rw [sq]
  cases found : sqrt? a with
  | none =>
    simp only [squareRoots, found, List.not_mem_nil, false_iff, not_and]
    rintro - rfl
    obtain ⟨root, found'⟩ := sqrt?_of_mul_self y
    cases found.symm.trans found'
  | some root =>
    obtain ⟨reduced', square⟩ := sqrt?_some found
    rw [mem_squareRoots found]
    apply and_congr_right
    intro small
    constructor
    · rintro (rfl | sum)
      · exact square
      · have opposite : y = prime - root := by omega
        rw [opposite, opposite_mul_self reduced'.le, square]
    · intro square'
      exact eq_or_add_eq small reduced' (square'.trans square.symm)

def beyond : Bytes := Bytes.ofNatBE 32 (prime + 1)

def generatorAbscissa : Bytes :=
  Bytes.ofNatBE 32 0x79be667ef9dcbbac55a06295ce870b07029bfcdb2dce28d959f2815b16f81798

theorem lifts_agree_beyond :
    (prime ≤ beyond.toNatBE ∧ parse (Hex.encode beyond) = .error .pointRejected ∧
      Taproot.outputKey beyond 0 = .error .pointRejected) ∧
    Taproot.outputKey generatorAbscissa 0 = .ok ⟨generatorAbscissa, false⟩ ∧
    Taproot.outputKey generatorAbscissa (-1) = .error .pointAtInfinity := by
  have left : parse (Hex.encode beyond) = .error .pointRejected := by decide +kernel
  have right : Taproot.outputKey beyond 0 = .error .pointRejected := by decide +kernel
  have read : ∃ key, parse (Hex.encode generatorAbscissa) = .ok key := by
    apply exists_ok_of_isOk
    decide +kernel
  have cancelled : ∃ e, Taproot.outputKey generatorAbscissa (-1) = .error e := by
    refine ⟨.pointAtInfinity, ?_⟩
    simp only [Taproot.outputKey, mulGenerator_eq_mulWithin]
    decide +kernel
  obtain ⟨agree, tweaks⟩ := lifts_agree listsRoots_squareRoots
  obtain ⟨-, -, -, fails⟩ := agree beyond (Bytes.length_ofNatBE 32 _)
  obtain ⟨-, succeeds, result, -⟩ := agree generatorAbscissa (Bytes.length_ofNatBE 32 _)
  have wide : prime ≤ beyond.toNatBE := by
    rcases (fails _ _ left right).2 with ⟨-, kind⟩ | ⟨-, wide, -⟩
    · cases kind
    · exact wide
  obtain ⟨key, read⟩ := read
  obtain ⟨output, lifted⟩ := succeeds.mp ⟨key, read⟩
  obtain ⟨same, own, -⟩ := result key output read lifted
  obtain ⟨e, cancelled⟩ := cancelled
  cases tweaks key (-1) e (own ▸ cancelled)
  exact ⟨⟨wide, left, right⟩, same ▸ lifted, cancelled⟩

end PublicKey

end SpendingPlan

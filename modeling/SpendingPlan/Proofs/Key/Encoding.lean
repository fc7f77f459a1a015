import SpendingPlan.Bytes.Lemmas
import SpendingPlan.Key
import SpendingPlan.Proofs.Curve.Root
import SpendingPlan.Proofs.Text.Spelling

namespace SpendingPlan.PublicKey

open Curve Hex

theorem isOdd_eq_true_iff {key : PublicKey} : key.isOdd = true ↔ key.y % 2 = 1 := by
  simp [isOdd]

theorem isOdd_eq_false_iff {key : PublicKey} : key.isOdd = false ↔ key.y % 2 = 0 := by
  rw [← Bool.not_eq_true, isOdd_eq_true_iff, Nat.mod_two_not_eq_one]

theorem evenOrdinate?_x (key : PublicKey) :
    evenOrdinate? key.x = some (if key.isOdd then prime - key.y else key.y) := by
  obtain ⟨-, reduced, square⟩ := key.holds
  have := prime_odd
  rw [evenOrdinate?_eq_some_iff]
  split
  · rename_i odd
    rw [isOdd_eq_true_iff] at odd
    exact ⟨by omega, by omega, (opposite_mul_self reduced.le).trans square⟩
  · rename_i even
    rw [Bool.not_eq_true, isOdd_eq_false_iff] at even
    exact ⟨reduced, even, square⟩

theorem ofCoordinates_eq_ok_iff {x y : Nat} {key : PublicKey} :
    ofCoordinates x y = .ok key ↔ key.x = x ∧ key.y = y := by
  obtain ⟨x', y', holds⟩ := key
  rw [ofCoordinates]
  constructor
  · intro built
    split at built
    · cases built
      exact ⟨rfl, rfl⟩
    · cases built
  · rintro ⟨rfl, rfl⟩
    exact dif_pos holds

theorem x_lt_coordinateLimit (key : PublicKey) : key.x < coordinateLimit :=
  key.holds.1.trans (by decide)

theorem ofAbscissa_self (key : PublicKey) : ofAbscissa key.x key.isOdd = .ok key := by
  have reduced := key.holds.2.1
  have fits := key.x_lt_coordinateLimit
  rw [ofAbscissa, evenOrdinate?_x]
  dsimp only
  rw [if_neg (by omega), ofCoordinates_eq_ok_iff]
  refine ⟨rfl, ?_⟩
  split
  · omega
  · rfl

theorem ofAbscissa_eq_ok_iff {x : Nat} {odd : Bool} {key : PublicKey} :
    ofAbscissa x odd = .ok key ↔ key.x = x ∧ key.isOdd = odd := by
  constructor
  · intro built
    have := prime_odd
    rw [ofAbscissa] at built
    split at built
    · cases built
    rename_i y found
    obtain ⟨reduced, even, -⟩ := evenOrdinate?_eq_some_iff.mp found
    split at built
    · cases built
    obtain ⟨abscissa, ordinate⟩ := ofCoordinates_eq_ok_iff.mp built
    refine ⟨abscissa, ?_⟩
    cases odd with
    | false =>
      rw [isOdd_eq_false_iff, ordinate]
      exact even
    | true =>
      rw [isOdd_eq_true_iff, ordinate, if_pos rfl]
      omega
  · rintro ⟨rfl, rfl⟩
    exact key.ofAbscissa_self

theorem exists_ofAbscissa (key : PublicKey) (odd : Bool) :
    ∃ other, ofAbscissa key.x odd = .ok other := by
  obtain ⟨abscissa, reduced, square⟩ := key.holds
  -- no ordinate is zero, so that the opposite one is reduced and has the other parity
  have := key.holds.ordinate_pos
  have := prime_odd
  have opposite : Holds key.x (prime - key.y) :=
    ⟨abscissa, by omega, (opposite_mul_self reduced.le).trans square⟩
  by_cases same : key.isOdd = odd
  · exact ⟨key, same ▸ key.ofAbscissa_self⟩
  · refine ⟨⟨key.x, prime - key.y, opposite⟩, ofAbscissa_eq_ok_iff.mpr ⟨rfl, ?_⟩⟩
    cases odd with
    | false =>
      rw [Bool.not_eq_false, isOdd_eq_true_iff] at same
      rw [isOdd_eq_false_iff]
      dsimp only
      omega
    | true =>
      rw [Bool.not_eq_true, isOdd_eq_false_iff] at same
      rw [isOdd_eq_true_iff]
      dsimp only
      omega

section Parsing

variable {bytes : Bytes}

theorem body_of_spells {text : List Char} (spells : Spells text bytes) : body text = text := by
  have mark : 'x' ∉ text := spells.not_mem rfl
  have capital : 'X' ∉ text := spells.not_mem rfl
  rw [body, spells.trim]
  split
  · exact absurd (List.mem_cons_of_mem _ List.mem_cons_self) mark
  · exact absurd (List.mem_cons_of_mem _ List.mem_cons_self) capital
  · rfl

theorem spells_body_encode (bytes : Bytes) : Spells (body (Hex.encode bytes).toList) bytes := by
  rw [body_of_spells (spells_encode bytes)]
  exact spells_encode bytes

theorem abscissa_of_spells {text : List Char} (spells : Spells text bytes) (nonempty : bytes ≠ []) :
    abscissa text = .ok bytes.toNatBE := by
  rw [abscissa, spells.numeral nonempty]
  rfl

variable {text : String}

theorem parse_xOnly_form (spells : Spells (body text.toList) bytes) (length : bytes.length = 32) :
    parse text = ofAbscissa bytes.toNatBE false := by
  have nonempty := List.ne_nil_of_length_eq_add_one length
  rw [parse, spells.decode]
  simp only [length, abscissa_of_spells spells nonempty]
  rfl

theorem parse_compressed_form {first : UInt8}
    (spells : Spells (body text.toList) (first :: bytes)) (length : bytes.length = 32) :
    parse text =
      if first = 2 then ofAbscissa bytes.toNatBE false
      else if first = 3 then ofAbscissa bytes.toNatBE true
      else .error .compressedForm := by
  have nonempty := List.ne_nil_of_length_eq_add_one length
  rw [parse, spells.decode]
  simp only [List.length_cons, length, abscissa_of_spells spells.tail nonempty, List.head?_cons,
    Option.some.injEq]
  rfl

theorem parse_uncompressed_form {first : UInt8} {x y : Bytes}
    (spells : Spells (body text.toList) (first :: (x ++ y))) (abscissa : x.length = 32)
    (ordinate : y.length = 32) :
    parse text =
      if first = 4 then ofCoordinates x.toNatBE y.toNatBE else .error .uncompressedForm := by
  rw [parse, spells.decode]
  simp only [List.length_cons, List.length_append, abscissa, ordinate, List.head?_cons,
    Option.some.injEq, List.drop_succ_cons, List.drop_zero]
  rw [← abscissa, List.take_left, List.drop_left]

end Parsing

theorem toNatBE_coordinate {n : Nat} (fits : n < coordinateLimit) :
    (Bytes.ofNatBE 32 n).toNatBE = n := by
  rw [Bytes.toNatBE_ofNatBE]
  exact Nat.mod_eq_of_lt fits

theorem parse_encode_xOnly (key : PublicKey) :
    parse (Hex.encode key.xOnly) = ofAbscissa key.x false := by
  rw [parse_xOnly_form (spells_body_encode key.xOnly) key.length_xOnly, xOnly,
    toNatBE_coordinate key.x_lt_coordinateLimit]

theorem parse_encode_compressed (key : PublicKey) :
    parse (Hex.encode key.compressed) = .ok key := by
  rw [parse_compressed_form (spells_body_encode key.compressed) key.length_xOnly, xOnly,
    toNatBE_coordinate key.x_lt_coordinateLimit]
  have self := key.ofAbscissa_self
  cases parity : key.isOdd
  all_goals
    rw [parity] at self
    exact self

theorem parse_encode_uncompressed (key : PublicKey) :
    parse (Hex.encode key.uncompressed) = .ok key := by
  have fits : key.y < coordinateLimit := key.holds.2.1.trans (by decide)
  rw [parse_uncompressed_form (spells_body_encode key.uncompressed) key.length_xOnly
    (Bytes.length_ofNatBE 32 key.y), xOnly, toNatBE_coordinate key.x_lt_coordinateLimit,
    toNatBE_coordinate fits]
  exact ofCoordinates_eq_ok_iff.mpr ⟨rfl, rfl⟩

/-- Reading back the form with or without the ordinate gives the same point, and reading back the
    abscissa alone gives the point over it with even ordinate. None of them is refused, and the
    ordinate that is chosen does not depend on the order in which the square roots are found. -/
theorem forms_inverse (key : PublicKey) :
    (key.x < prime ∧ key.y < prime ∧ key.y ^ 2 % prime = (key.x ^ 3 + 7) % prime) ∧
      parse (Hex.encode key.compressed) = .ok key ∧
      parse (Hex.encode key.uncompressed) = .ok key ∧
      (∃ even, parse (Hex.encode key.xOnly) = .ok even ∧ even.x = key.x ∧ even.isOdd = false ∧
        (even = key ↔ key.isOdd = false)) ∧
      ∀ roots : List Nat,
        (∀ y, y ∈ roots ↔ y < prime ∧ y ^ 2 % prime = (key.x ^ 3 + 7) % prime) →
          ∃ even, (roots.find? fun y => y % 2 = 0) = some even ∧
            evenOrdinate? key.x = some even ∧ key.y = if key.isOdd then prime - even else even := by
  obtain ⟨abscissa, ordinate, square⟩ := key.holds
  refine ⟨⟨abscissa, ordinate, by rw [sq, square, cubic_eq]⟩, key.parse_encode_compressed,
    key.parse_encode_uncompressed, ?_, ?_⟩
  · obtain ⟨even, built⟩ := key.exists_ofAbscissa false
    obtain ⟨same, parity⟩ := ofAbscissa_eq_ok_iff.mp built
    refine ⟨even, key.parse_encode_xOnly.trans built, same, parity, ?_, ?_⟩
    · rintro rfl
      exact parity
    · intro parity'
      have self := key.ofAbscissa_self
      rw [parity', built] at self
      exact Except.ok.inj self
  · intro roots all
    simp only [sq, ← cubic_eq] at all
    have chosen := key.evenOrdinate?_x
    refine ⟨_, (evenOrdinate?_eq_find? all).symm.trans chosen, chosen, ?_⟩
    split
    · omega
    · rfl

end SpendingPlan.PublicKey

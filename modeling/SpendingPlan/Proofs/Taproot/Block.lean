import SpendingPlan.Proofs.Input.Values
import SpendingPlan.Proofs.Key.Encoding
import SpendingPlan.Taproot.ControlBlock

namespace SpendingPlan

theorem PublicKey.parse_xOnly_eq_ok_iff {bytes : Bytes} (length : bytes.length = 32)
    {key : PublicKey} :
    PublicKey.parse (Hex.encode bytes) = .ok key ↔ key.xOnly = bytes ∧ key.isOdd = false := by
  rw [parse_xOnly_form (spells_body_encode bytes) length, ofAbscissa_eq_ok_iff]
  constructor
  · rintro ⟨abscissa, even⟩
    refine ⟨?_, even⟩
    rw [xOnly, abscissa, ← length]
    exact Bytes.ofNatBE_toNatBE bytes
  · rintro ⟨rfl, even⟩
    exact ⟨(toNatBE_coordinate key.x_lt_coordinateLimit).symm, even⟩

namespace ControlBlock

theorem first_bits : ∀ n < 256,
    (UInt8.ofNat n &&& 1 = 1 ↔ n % 2 = 1) ∧ (UInt8.ofNat n &&& 0xfe).toNat = n - n % 2 := by
  decide +kernel

theorem first_parts (first : UInt8) :
    (first &&& 1 = 1 ↔ first.toNat % 2 = 1) ∧
      (first &&& 0xfe).toNat = first.toNat - first.toNat % 2 := by
  have bits := first_bits first.toNat first.toNat_lt
  rwa [UInt8.ofNat_toNat] at bits

theorem byte_eq_ok_iff {n : Int} {value : UInt8} :
    Taproot.byte n = .ok value ↔ n = value.toNat := by
  have bound := value.toNat_lt
  rw [Taproot.byte]
  constructor
  · intro h
    split at h
    · cases h
      rw [UInt8.toNat_ofNat']
      omega
    · cases h
  · rintro rfl
    rw [if_pos (by omega), Int.toNat_natCast, UInt8.ofNat_toNat]

theorem encode_eq_ok_iff {block : ControlBlock} {bytes : Bytes} :
    block.encode = .ok bytes ↔
      ∃ first : UInt8, (if block.odd then 1 else 0) + block.version = first.toNat ∧
        bytes = first :: (block.key.xOnly ++ block.path) := by
  rw [encode]
  constructor
  · intro h
    obtain ⟨first, fits, h⟩ := bind_ok h
    cases h
    exact ⟨first, byte_eq_ok_iff.mp fits, rfl⟩
  · rintro ⟨first, fits, rfl⟩
    rw [byte_eq_ok_iff.mpr fits]
    rfl

theorem make_eq_ok_iff {key : PublicKey} {path : Bytes} {odd : Bool} {version : Int}
    {block : ControlBlock} :
    make key path odd version = .ok block ↔
      block.key = key ∧ block.path = path ∧ block.odd = odd ∧ block.version = version := by
  rw [make]
  constructor
  · intro h
    split at h
    · split at h
      · cases h
        exact ⟨rfl, rfl, rfl, rfl⟩
      · cases h
    · cases h
  · rintro ⟨rfl, rfl, rfl, rfl⟩
    rw [dif_pos block.whole, dif_pos block.shallow]

theorem parse_eq_ok_iff {first : UInt8} {xOnly path : Bytes} (length : xOnly.length = 32)
    {block : ControlBlock} :
    parse (first :: (xOnly ++ path)) = .ok block ↔
      block.key.xOnly = xOnly ∧ block.key.isOdd = false ∧ block.path = path ∧
        block.odd = decide (first.toNat % 2 = 1) ∧
        block.version = (first.toNat - first.toNat % 2 : Nat) := by
  obtain ⟨parity, version⟩ := first_parts first
  have long : ¬ (first :: (xOnly ++ path)).length < 33 := by
    rw [List.length_cons, List.length_append]
    omega
  rw [parse, if_neg long, List.take_left' length, List.drop_left' length, version,
    decide_eq_decide.mpr parity]
  constructor
  · intro h
    obtain ⟨key, parsed, h⟩ := bind_ok h
    obtain ⟨rfl, whole⟩ := make_eq_ok_iff.mp h
    obtain ⟨abscissa, even⟩ := (PublicKey.parse_xOnly_eq_ok_iff length).mp parsed
    exact ⟨abscissa, even, whole⟩
  · rintro ⟨abscissa, even, whole⟩
    have parsed := (PublicKey.parse_xOnly_eq_ok_iff length).mpr ⟨abscissa, even⟩
    rw [parsed, ok_bind]
    exact make_eq_ok_iff.mpr ⟨rfl, whole⟩

theorem parse_short {bytes : Bytes} (short : bytes.length < 33) :
    parse bytes = .error (.controlBlockLength bytes.length) := by
  cases bytes with
  | nil => rfl
  | cons first rest => rw [parse, if_pos short]

theorem split_of_length {bytes : Bytes} (long : 33 ≤ bytes.length) :
    ∃ first path, bytes = first :: ((bytes.drop 1).take 32 ++ path) ∧
      ((bytes.drop 1).take 32).length = 32 := by
  cases bytes with
  | nil => cases long
  | cons first rest =>
    rw [List.length_cons] at long
    refine ⟨first, rest.drop 32, ?_, ?_⟩
    · rw [List.drop_one, List.tail_cons, List.take_append_drop]
    · rw [List.drop_one, List.tail_cons, List.length_take]
      omega

theorem split_of_parse {bytes : Bytes} {block : ControlBlock} (h : parse bytes = .ok block) :
    ∃ first path, bytes = first :: ((bytes.drop 1).take 32 ++ path) ∧
      ((bytes.drop 1).take 32).length = 32 := by
  apply split_of_length
  by_contra short
  rw [parse_short (by omega)] at h
  cases h

theorem encode_of_parse {bytes : Bytes} {block : ControlBlock} (h : parse bytes = .ok block) :
    block.encode = .ok bytes := by
  obtain ⟨first, path, whole, length⟩ := split_of_parse h
  rw [whole] at h ⊢
  obtain ⟨abscissa, -, rest, odd, version⟩ := (parse_eq_ok_iff length).mp h
  refine encode_eq_ok_iff.mpr ⟨first, ?_, by rw [abscissa, rest]⟩
  rw [odd, version]
  simp only [decide_eq_true_eq]
  split <;> omega

theorem exists_parse_iff {bytes : Bytes} :
    (∃ block, parse bytes = .ok block) ↔
      (∃ hashes, hashes ≤ 128 ∧ bytes.length = 33 + 32 * hashes) ∧
        ∃ key, PublicKey.parse (Hex.encode ((bytes.drop 1).take 32)) = .ok key := by
  constructor
  · rintro ⟨block, h⟩
    obtain ⟨first, path, whole, length⟩ := split_of_parse h
    have size := congrArg List.length whole
    rw [List.length_cons, List.length_append, length] at size
    rw [whole] at h
    obtain ⟨abscissa, even, rfl, -⟩ := (parse_eq_ok_iff length).mp h
    have multiple := block.whole
    have shallow := block.shallow
    unfold maxPathHashes at shallow
    refine ⟨⟨block.path.length / 32, shallow, by omega⟩, block.key, ?_⟩
    exact (PublicKey.parse_xOnly_eq_ok_iff length).mpr ⟨abscissa, even⟩
  · rintro ⟨⟨hashes, few, size⟩, key, parsed⟩
    have long : 33 ≤ bytes.length := by omega
    obtain ⟨first, path, whole, length⟩ := split_of_length long
    have parts := congrArg List.length whole
    rw [List.length_cons, List.length_append, length] at parts
    obtain ⟨abscissa, even⟩ := (PublicKey.parse_xOnly_eq_ok_iff length).mp parsed
    rw [whole]
    refine ⟨⟨key, path, decide (first.toNat % 2 = 1), (first.toNat - first.toNat % 2 : Nat), ?_,
      ?_⟩, (parse_eq_ok_iff length).mpr ⟨abscissa, even, rfl, rfl, rfl⟩⟩
    · omega
    · unfold maxPathHashes
      omega

/-- A control block read back: what its encoding does not tell is the parity of its key, and which
    part of the first byte is the parity of the output key when the version is odd. -/
theorem parse_of_encode {block : ControlBlock} {bytes : Bytes} (h : block.encode = .ok bytes) :
    ∃ other, parse bytes = .ok other ∧ other.path = block.path ∧ other.key.x = block.key.x ∧
      other.key.isOdd = false ∧
      (other.odd = block.odd ∧ other.version = block.version ↔ block.version % 2 = 0) := by
  obtain ⟨first, fits, rfl⟩ := encode_eq_ok_iff.mp h
  obtain ⟨even, built⟩ := block.key.exists_ofAbscissa false
  obtain ⟨abscissa, parity⟩ := PublicKey.ofAbscissa_eq_ok_iff.mp built
  have same : even.xOnly = block.key.xOnly := by rw [PublicKey.xOnly, abscissa, PublicKey.xOnly]
  refine ⟨⟨even, block.path, decide (first.toNat % 2 = 1), (first.toNat - first.toNat % 2 : Nat),
    block.whole, block.shallow⟩, ?_, rfl, abscissa, parity, ?_⟩
  · exact (parse_eq_ok_iff block.key.length_xOnly).mpr ⟨same, parity, rfl, rfl, rfl⟩
  · cases odd : block.odd
    all_goals
      rw [odd] at fits
      simp only [Bool.false_eq_true, if_false, if_true, decide_eq_false_iff_not,
        decide_eq_true_eq] at fits ⊢
      omega

/-- Reading takes the bytes of the format and no others, and writing gives them back. What was
    written is read as an equal control block, whose version and parity are those written unless the
    version is odd. -/
theorem parse_encode_inverse :
    (∀ bytes : Bytes,
      ((∃ block, parse bytes = .ok block) ↔
        (∃ hashes, hashes ≤ 128 ∧ bytes.length = 33 + 32 * hashes) ∧
          ∃ key, PublicKey.parse (Hex.encode ((bytes.drop 1).take 32)) = .ok key) ∧
      ∀ block, parse bytes = .ok block → block.encode = .ok bytes) ∧
    ∀ (block : ControlBlock) (bytes : Bytes), block.encode = .ok bytes →
      ∃ other, parse bytes = .ok other ∧ other.same block = .ok true ∧
        other.path = block.path ∧ other.key.x = block.key.x ∧ other.key.isOdd = false ∧
        (other.odd = block.odd ∧ other.version = block.version ↔ block.version % 2 = 0) := by
  refine ⟨fun bytes => ⟨exists_parse_iff, fun block => encode_of_parse⟩, ?_⟩
  intro block bytes written
  obtain ⟨other, parsed, parts⟩ := parse_of_encode written
  exact ⟨other, parsed, same_true (encode_of_parse parsed) written, parts⟩

def oddKeyed : ControlBlock where
  key :=
    { x := 0x79be667ef9dcbbac55a06295ce870b07029bfcdb2dce28d959f2815b16f81798
      y := 0xb7c52588d95c3b9aa25b0403f1eef75702e84bb7597aabe663b82f6f04ef2777
      holds := by decide }
  path := List.replicate 64 7
  odd := true
  version := Taproot.scriptLeafVersion
  whole := rfl
  shallow := by decide

theorem parse_encode_inverse_oddKeyed :
    ∃ bytes other, oddKeyed.encode = .ok bytes ∧ parse bytes = .ok other ∧
      other.same oddKeyed = .ok true ∧ other.key ≠ oddKeyed.key ∧ other.odd = true ∧
      other.version = 0xc0 := by
  have written : oddKeyed.encode = .ok (0xc1 :: (oddKeyed.key.xOnly ++ oddKeyed.path)) := rfl
  obtain ⟨other, parsed, equal, -, -, even, kept⟩ := parse_encode_inverse.2 oddKeyed _ written
  obtain ⟨odd, version⟩ := kept.mpr rfl
  refine ⟨_, other, written, parsed, equal, ?_, odd, version⟩
  intro same
  rw [same] at even
  exact absurd even (by decide)

end ControlBlock

end SpendingPlan

import Mathlib.Algebra.Ring.Int.Defs
import SpendingPlan.Proofs.CompactSize.Limit
import SpendingPlan.Proofs.PrefixFree

namespace SpendingPlan.CompactSize

theorem readFixed_eq_some {width n : Nat} {bytes rest : Bytes}
    (h : readFixed width bytes = some (n, rest)) :
    bytes.length = width + rest.length ∧ n < 256 ^ width := by
  simp only [readFixed, Bytes.split?, Option.map_eq_some_iff] at h
  obtain ⟨⟨front, tail⟩, cut, value⟩ := h
  split at cut
  · rename_i full
    cases cut
    cases value
    have bound := Bytes.toNatLE_lt (bytes.take width)
    rw [full] at bound
    rw [List.length_take] at full
    rw [List.length_drop]
    exact ⟨by omega, bound⟩
  · cases cut

theorem length_of_read {n : Nat} {bytes rest : Bytes} (h : read bytes = some (n, rest)) :
    (bytes.length = 1 + rest.length ∧ n < 0xfd) ∨ (bytes.length = 3 + rest.length ∧ n < 0x10000) ∨
      (bytes.length = 5 + rest.length ∧ n < 0x100000000) ∨
      (bytes.length = 9 + rest.length ∧ n < limit) := by
  cases bytes with
  | nil => cases h
  | cons first tail =>
    rw [List.length_cons]
    rw [read] at h
    split at h
    · obtain ⟨size, bound⟩ := readFixed_eq_some h
      exact .inr (.inl ⟨by omega, bound⟩)
    split at h
    · obtain ⟨size, bound⟩ := readFixed_eq_some h
      exact .inr (.inr (.inl ⟨by omega, bound⟩))
    split at h
    · obtain ⟨size, bound⟩ := readFixed_eq_some h
      exact .inr (.inr (.inr ⟨by omega, bound⟩))
    · rename_i two four eight
      cases h
      have bound := first.toNat_lt
      rw [← UInt8.toNat_inj] at two four eight
      have : (0xfd : UInt8).toNat = 0xfd := rfl
      have : (0xfe : UInt8).toNat = 0xfe := rfl
      have : (0xff : UInt8).toNat = 0xff := rfl
      exact .inl ⟨by omega, by omega⟩

theorem length_encode_le {n : Nat} {encoded bytes rest : Bytes} (h : encode n = .ok encoded)
    (readAs : read bytes = some (n, rest)) : encoded.length + rest.length ≤ bytes.length := by
  have written := length_of_encode h
  have taken := length_of_read readAs
  omega

theorem encode_of_neg {n : Int} (negative : n < 0) : encode n = .error .byteOutOfRange := by
  rw [encode, if_pos negative]

/-- The numbers of 64 bits are those that have an encoding. It is read back from what it starts,
    nothing shorter is read as the number, and byte strings behind their counted lengths can be told
    from what follows them. -/
theorem encode_prefix_minimal :
    (∀ n : Nat, n < 2 ^ 64 → ∃ encoded, encode n = .ok encoded ∧
      (∀ rest, read (encoded ++ rest) = some (n, rest)) ∧
      ∀ bytes rest, bytes.length < encoded.length → read bytes ≠ some (n, rest)) ∧
    (∀ n : Int, n < 0 ∨ 2 ^ 64 ≤ n → ∃ error, encode n = .error error ∧ error.kind = .value) ∧
    ∀ a b : Bytes, a.length < 2 ^ 64 → b.length < 2 ^ 64 →
      ∃ front other, frame a = .ok front ∧ frame b = .ok other ∧
        ∀ rest rest', front ++ rest = other ++ rest' → a = b ∧ rest = rest' := by
  refine ⟨?_, ?_, ?_⟩
  · intro n small
    obtain ⟨encoded, written⟩ := encode_of_lt small
    refine ⟨encoded, written, fun rest => read_encode written rest, ?_⟩
    intro bytes rest short readAs
    have := length_encode_le written readAs
    omega
  · rintro n (negative | large)
    · exact ⟨.byteOutOfRange, encode_of_neg negative, rfl⟩
    · obtain ⟨n, rfl⟩ := Int.eq_ofNat_of_zero_le (by omega : 0 ≤ n)
      exact ⟨.countTooLarge n, encode_of_le (by unfold limit; omega), rfl⟩
  · intro a b small small'
    obtain ⟨front, written⟩ := frame_of_lt small
    obtain ⟨other, written'⟩ := frame_of_lt small'
    exact ⟨front, other, written, written', fun _ _ same => PrefixFree.frame written written' same⟩

theorem encode_prefix_minimal_edges :
    (encode 0x10000 = .ok [0xfe, 0, 0, 1, 0] ∧
      ∀ bytes rest, bytes.length < 5 → read bytes ≠ some (0x10000, rest)) ∧
    (∃ error, encode (-1) = .error error ∧ error.kind = .value) ∧
    (∃ error, encode 0x10000000000000000 = .error error ∧ error.kind = .value) ∧
    ∀ rest rest' : Bytes, [1, 0xac] ++ rest ≠ [2, 0xac, 0x51] ++ rest' := by
  obtain ⟨encoded, written, -, shortest⟩ := encode_prefix_minimal.1 0x10000 (by decide)
  have wide : encode 0x10000 = .ok [0xfe, 0, 0, 1, 0] := by decide
  cases Except.ok.inj (written.symm.trans wide)
  have outside := encode_prefix_minimal.2.1
  obtain ⟨front, other, framed, framed', apart⟩ :=
    encode_prefix_minimal.2.2 [0xac] [0xac, 0x51] (by decide) (by decide)
  have one : frame [0xac] = .ok [1, 0xac] := by decide
  have two : frame [0xac, 0x51] = .ok [2, 0xac, 0x51] := by decide
  cases Except.ok.inj (framed.symm.trans one)
  cases Except.ok.inj (framed'.symm.trans two)
  refine ⟨⟨wide, shortest⟩, outside (-1) (.inl (by decide)),
    outside 0x10000000000000000 (.inr (by decide)), ?_⟩
  intro rest rest' same
  exact absurd (apart rest rest' same).1 (by decide)

end SpendingPlan.CompactSize

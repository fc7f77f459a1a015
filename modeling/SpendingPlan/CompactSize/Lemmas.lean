import SpendingPlan.Bytes.Lemmas
import SpendingPlan.CompactSize

namespace SpendingPlan.CompactSize

theorem readFixed_ofNatLE (width n : Nat) (fits : n < 256 ^ width) (rest : Bytes) :
    readFixed width (Bytes.ofNatLE width n ++ rest) = some (n, rest) := by
  have whole := Bytes.split?_append (Bytes.ofNatLE width n) rest
  rw [Bytes.length_ofNatLE] at whole
  simp [readFixed, whole, Bytes.toNatLE_ofNatLE, Nat.mod_eq_of_lt fits]

theorem encode_cases {n : Int} {bytes : Bytes} (h : encode n = .ok bytes) :
    0 ≤ n ∧ ((n < 0xfd ∧ bytes = Bytes.ofNatLE 1 n.toNat) ∨
      (0xfd ≤ n ∧ n < 0x10000 ∧ bytes = 0xfd :: Bytes.ofNatLE 2 n.toNat) ∨
      (0x10000 ≤ n ∧ n < 0x100000000 ∧ bytes = 0xfe :: Bytes.ofNatLE 4 n.toNat) ∨
      (0x100000000 ≤ n ∧ n < 0x10000000000000000 ∧ bytes = 0xff :: Bytes.ofNatLE 8 n.toNat)) := by
  unfold encode at h
  split at h
  · cases h
  refine ⟨by omega, ?_⟩
  split at h
  · cases h
    exact .inl ⟨by omega, rfl⟩
  split at h
  · cases h
    exact .inr (.inl ⟨by omega, by omega, rfl⟩)
  split at h
  · cases h
    exact .inr (.inr (.inl ⟨by omega, by omega, rfl⟩))
  split at h
  · cases h
    exact .inr (.inr (.inr ⟨by omega, by omega, rfl⟩))
  · cases h

theorem read_encode {n : Int} {bytes : Bytes} (h : encode n = .ok bytes) (rest : Bytes) :
    read (bytes ++ rest) = some (n.toNat, rest) := by
  obtain ⟨positive, ⟨small, rfl⟩ | ⟨-, fits, rfl⟩ | ⟨-, fits, rfl⟩ | ⟨-, fits, rfl⟩⟩ :=
    encode_cases h
  · have value : (UInt8.ofNat n.toNat).toNat = n.toNat := by
      simp only [UInt8.toNat_ofNat']
      omega
    have differs : ∀ marker : UInt8, 0xfd ≤ marker.toNat → UInt8.ofNat n.toNat ≠ marker := by
      intro marker large same
      rw [← same, value] at large
      omega
    simp [Bytes.ofNatLE, read, differs 0xfd (by decide), differs 0xfe (by decide),
      differs 0xff (by decide), value]
  · simpa [read] using readFixed_ofNatLE 2 n.toNat (by omega) rest
  · simpa [read] using readFixed_ofNatLE 4 n.toNat (by omega) rest
  · simpa [read] using readFixed_ofNatLE 8 n.toNat (by omega) rest

theorem readFrame_frame {bytes framed : Bytes} (h : frame bytes = .ok framed) (rest : Bytes) :
    readFrame (framed ++ rest) = some (bytes, rest) := by
  unfold frame at h
  cases count : encode bytes.length with
  | error e => simp [count, bind, Except.bind] at h
  | ok front =>
    simp only [count, bind, Except.bind, pure, Except.pure, Except.ok.injEq] at h
    subst h
    rw [List.append_assoc, readFrame, read_encode count]
    simpa using Bytes.split?_append bytes rest

end SpendingPlan.CompactSize

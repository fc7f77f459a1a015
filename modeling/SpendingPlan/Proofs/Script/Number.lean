import SpendingPlan.Proofs.Script.Elements
import SpendingPlan.Proofs.Script.Encoding

namespace SpendingPlan.Script

theorem lt_pow_byteWidth (n : Nat) : n < 2 ^ (8 * byteWidth n) := by
  rw [byteWidth]
  split
  · rename_i zero
    rw [zero]
    decide
  · calc
      n < 2 ^ (n.log2 + 1) := Nat.lt_log2_self
      _ ≤ 2 ^ (8 * (n.log2 / 8 + 1)) := Nat.pow_le_pow_right (by decide) (by omega)

theorem pow_byteWidth_le {n : Nat} (positive : 0 < n) : 2 ^ (8 * (byteWidth n - 1)) ≤ n := by
  have nonzero : n ≠ 0 := by omega
  rw [byteWidth, if_neg nonzero]
  calc
    2 ^ (8 * (n.log2 / 8 + 1 - 1)) ≤ 2 ^ n.log2 := Nat.pow_le_pow_right (by decide) (by omega)
    _ ≤ n := Nat.log2_self_le nonzero

theorem numberPayload_cases (n : Nat) :
    (n < 2 ^ (8 * byteWidth n - 1) ∧ numberPayload n = Bytes.ofNatLE (byteWidth n) n) ∨
      (2 ^ (8 * byteWidth n - 1) ≤ n ∧
        numberPayload n = Bytes.ofNatLE (byteWidth n) n ++ [0]) := by
  have bound := lt_pow_byteWidth n
  simp only [numberPayload]
  split
  · rename_i taken
    exact .inr ⟨Nat.ge_two_pow_of_testBit taken.2, rfl⟩
  · rename_i clear
    refine .inl ⟨?_, rfl⟩
    by_contra large
    by_cases positive : 0 < byteWidth n
    · have top : n < 2 ^ (8 * byteWidth n - 1 + 1) := by
        rwa [Nat.sub_add_cancel (by omega)]
      exact clear ⟨positive, Nat.testBit_of_two_pow_le_and_two_pow_add_one_gt (by omega) top⟩
    · have empty : byteWidth n = 0 := by omega
      rw [empty] at bound large
      omega

theorem toNatLE_numberPayload (n : Nat) : (numberPayload n).toNatLE = n := by
  have whole : (Bytes.ofNatLE (byteWidth n) n).toNatLE = n := by
    rw [Bytes.toNatLE_ofNatLE, Bytes.base_pow, Nat.mod_eq_of_lt (lt_pow_byteWidth n)]
  rcases numberPayload_cases n with ⟨-, payload⟩ | ⟨-, payload⟩
  · rw [payload, whole]
  · rw [payload, Bytes.toNatLE_append_zero, whole]

theorem lt_pow_length_numberPayload (n : Nat) : n < 2 ^ (8 * (numberPayload n).length - 1) := by
  rcases numberPayload_cases n with ⟨small, payload⟩ | ⟨-, payload⟩
  · rwa [payload, Bytes.length_ofNatLE]
  · rw [payload, List.length_append, Bytes.length_ofNatLE, List.length_singleton]
    calc
      n < 2 ^ (8 * byteWidth n) := lt_pow_byteWidth n
      _ ≤ 2 ^ (8 * (byteWidth n + 1) - 1) := Nat.pow_le_pow_right (by decide) (by omega)

theorem length_numberPayload_le {n size : Nat} (positive : 0 < n)
    (small : n < 2 ^ (8 * size - 1)) : (numberPayload n).length ≤ size := by
  rcases numberPayload_cases n with ⟨-, payload⟩ | ⟨large, payload⟩
  · rw [payload, Bytes.length_ofNatLE]
    have narrow := (pow_byteWidth_le positive).trans_lt small
    have := (Nat.pow_lt_pow_iff_right (by decide)).mp narrow
    omega
  · rw [payload, List.length_append, Bytes.length_ofNatLE, List.length_singleton]
    have narrow := large.trans_lt small
    have := (Nat.pow_lt_pow_iff_right (by decide)).mp narrow
    omega

theorem readNumber_eq_iff {n : Nat} (positive : 0 < n) (bytes : Bytes) :
    readNumber bytes = n ↔ bytes.toNatLE = n ∧ n < 2 ^ (8 * bytes.length - 1) := by
  rw [readNumber]
  constructor
  · intro value
    split at value
    · omega
    · rename_i clear
      have same : bytes.toNatLE = n := by exact_mod_cast value
      refine ⟨same, ?_⟩
      by_contra large
      have bound := Bytes.toNatLE_lt bytes
      rw [Bytes.base_pow, same] at bound
      have nonempty : 0 < bytes.length := by
        cases bytes with
        | nil => exact absurd same (by rw [Bytes.toNatLE]; omega)
        | cons _ _ => exact Nat.succ_pos _
      rw [← Nat.sub_add_cancel (by omega : 1 ≤ 8 * bytes.length)] at bound
      rw [same] at clear
      exact clear (Nat.testBit_of_two_pow_le_and_two_pow_add_one_gt (by omega) bound)
  · rintro ⟨rfl, small⟩
    have clear := Nat.testBit_lt_two_pow small
    rw [clear]
    rfl

theorem push_of_lt {data : Bytes} (small : data.length < 2 ^ 32) :
    ∃ bytes, push data = .ok bytes := by
  simp only [push]
  split
  · exact ⟨_, rfl⟩
  split
  · exact ⟨_, rfl⟩
  split
  · exact ⟨_, rfl⟩
  · rw [if_pos (by omega)]
    exact ⟨_, rfl⟩

theorem read_single {token : Token} {element : Element} {piece : Bytes}
    (written : token.encode = .ok piece) (stands : element.encode = .ok piece)
    (legible : element.Legible) :
    encode ⟨[token]⟩ = .ok piece ∧ Script.read piece = some [element] := by
  have whole := encode_cons written encode_nil
  have back := readWithin_flatten (.cons stands .nil) (by simpa using legible) (Nat.le_refl _)
  rw [List.flatten_singleton] at back
  rw [List.append_nil] at whole
  exact ⟨whole, back⟩

/-- A number above the small ones is pushed as the shortest bytes that stand for it, as far as
    there is a push for so many bytes, and a script with a negative number is refused. -/
theorem number_payload_minimal (n : Int) :
    (17 ≤ n →
      ((numberPayload n.toNat).length < 2 ^ 32 → ∃ bytes, encode ⟨[.number n]⟩ = .ok bytes ∧
        Script.read bytes = some [.push (numberPayload n.toNat)]) ∧
      readNumber (numberPayload n.toNat) = n ∧
      ∀ bytes : Bytes, bytes.length < (numberPayload n.toNat).length → readNumber bytes ≠ n) ∧
    (n < 0 → ∃ error, encode ⟨[.number n]⟩ = .error error ∧ error.kind = .value) := by
  constructor
  · intro large
    obtain ⟨n, rfl⟩ := Int.eq_ofNat_of_zero_le (by omega : 0 ≤ n)
    rw [Int.toNat_natCast]
    have positive : 0 < n := by omega
    refine ⟨?_, ?_, ?_⟩
    · intro short
      obtain ⟨bytes, pushed⟩ := push_of_lt short
      have written : (Token.number n).encode = .ok bytes := by
        rw [Token.encode, if_neg (by omega), if_neg (by omega), Int.toNat_natCast, pushed]
      have stands : (Element.push (numberPayload n)).encode = .ok bytes := pushed
      exact ⟨bytes, read_single written stands trivial⟩
    · exact (readNumber_eq_iff positive _).mpr
        ⟨toNatLE_numberPayload n, lt_pow_length_numberPayload n⟩
    · intro bytes short value
      have room := ((readNumber_eq_iff positive bytes).mp value).2
      exact Nat.not_lt.mpr (length_numberPayload_le positive room) short
  · intro negative
    refine ⟨.negativeNumber, ?_, rfl⟩
    rw [encode, List.mapM_cons, Token.encode, if_pos negative]
    rfl

theorem number_payload_minimal_signed :
    (∃ bytes, encode ⟨[.number 128]⟩ = .ok bytes ∧ Script.read bytes = some [.push [0x80, 0]]) ∧
    readNumber [0x80, 0] = 128 ∧ (∀ byte : UInt8, readNumber [byte] ≠ 128) ∧
    ∃ error, encode ⟨[.number (-1)]⟩ = .error error ∧ error.kind = .value := by
  obtain ⟨pushed, value, shortest⟩ := (number_payload_minimal 128).1 (by decide)
  have payload : numberPayload (Int.toNat 128) = [0x80, 0] := by decide
  rw [payload] at pushed value shortest
  exact ⟨pushed (by decide), value, fun byte => shortest [byte] Nat.one_lt_two,
    (number_payload_minimal (-1)).2 (by decide)⟩

end SpendingPlan.Script

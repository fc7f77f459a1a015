import Mathlib.Order.Bounds.Defs
import SpendingPlan.Proofs.Hash.Refinement

namespace SpendingPlan.Ripemd160

open Standard (Registers Word)

def State.Fits (s : State) : Prop :=
  ∀ word ∈ [s.a, s.b, s.c, s.d, s.e], word < 2 ^ 32

theorem fits_values (r : Registers) : r.values.Fits := by
  simp only [State.Fits, Registers.values, List.forall_mem_cons]
  exact ⟨r.a.isLt, r.b.isLt, r.c.isLt, r.d.isLt, r.e.isLt, List.forall_mem_nil _⟩

theorem length_pad (message : Bytes) :
    (pad message).length = (message.length + 9 + 63) / 64 * 64 := by
  simp only [pad, List.length_append, List.length_cons, List.length_replicate, Bytes.length_ofNatLE]
  omega

theorem isLeast_length_pad (message : Bytes) :
    IsLeast {size | 64 ∣ size ∧ message.length + 9 ≤ size} (pad message).length := by
  rw [length_pad]
  constructor
  · exact ⟨Nat.dvd_mul_left 64 _, by omega⟩
  · rintro size ⟨⟨count, rfl⟩, enough⟩
    omega

theorem pad_eq_padded (message : Bytes) : pad message = Standard.padded message := by
  have zeros : (119 - message.length % 64) % 64 =
      (message.length + 9 + 63) / 64 * 64 - (message.length + 9) := by omega
  simp only [pad, Standard.padded, zeros, List.append_assoc, List.cons_append,
    List.nil_append]

theorem toNatLE_drop_pad {message : Bytes} (short : message.length < 2 ^ 61) :
    Bytes.toNatLE ((pad message).drop ((pad message).length - 8)) = 8 * message.length := by
  have small : 8 * message.length < 256 ^ 8 := by omega
  have behind : (pad message).length - 8 = (message ++ 0x80 ::
      List.replicate ((119 - message.length % 64) % 64) 0).length := by
    simp only [pad, List.length_append, List.length_cons, List.length_replicate,
      Bytes.length_ofNatLE]
    omega
  rw [behind, pad, ← List.cons_append, ← List.append_assoc, List.drop_left, Bytes.toNatLE_ofNatLE,
    Nat.mod_eq_of_lt small]

section Blocks

variable {bytes : Bytes} {count : Nat}

theorem spells_slice (whole : bytes.length = 64 * count) {t : Nat} (inside : t < count) :
    Spells (((bytes.slice 64 t).chunks 4).map Bytes.toNatLE)
      fun i => Standard.word bytes (16 * t + i) := by
  intro i bound
  have size : (bytes.slice 64 t).length = 4 * 16 := Bytes.length_slice (by omega)
  have nested : Bytes.slice 4 (bytes.slice 64 t) i = bytes.slice 4 (16 * t + i) :=
    Bytes.slice_slice bound bytes
  rw [Bytes.chunks_eq_slices (by decide) size, List.getD_eq_getElem?_getD, List.getElem?_map,
    List.getElem?_map, List.getElem?_range bound]
  exact congrArg (fun piece => BitVec.ofNat 32 (Bytes.toNatLE piece)) nested

theorem foldl_take_chunks (whole : bytes.length = 64 * count) {t : Nat} (inside : t ≤ count) :
    ((bytes.chunks 64).take t).foldl compress initial = (Standard.chain bytes t).values := by
  rw [Bytes.chunks_eq_slices (by decide) whole, ← List.map_take, List.take_range,
    Nat.min_eq_left inside, List.foldl_map]
  induction t with
  | zero => rfl
  | succ t ih =>
    rw [List.range_succ, List.foldl_append, ih (by omega), List.foldl_cons, List.foldl_nil,
      compress_values (spells_slice whole inside), Standard.chain]

end Blocks

/-- The digest on unbounded integers is the one on words of 32 bits. The message is padded to the
    least number of whole blocks and ends in its length, the blocks are all of the padded message,
    and no word that is passed on from block to block has more than 32 bits. -/
theorem digest_eq_standard {message : Bytes} (short : message.length < 2 ^ 61) :
    digest message = Standard.digest message ∧
    IsLeast {size | 64 ∣ size ∧ message.length + 9 ≤ size} (pad message).length ∧
    Bytes.toNatLE ((pad message).drop ((pad message).length - 8)) = 8 * message.length ∧
    (((pad message).chunks 64).flatten = pad message ∧
      ∀ block ∈ (pad message).chunks 64, block.length = 64) ∧
    (∀ blocks, ((((pad message).chunks 64).take blocks).foldl compress initial).Fits) ∧
    (digest message).length = 20 := by
  have whole : (pad message).length = 64 * ((pad message).length / 64) :=
    (Nat.mul_div_cancel' (isLeast_length_pad message).1.1).symm
  have pieces := Bytes.chunks_eq_slices (by decide) whole
  have many : ((pad message).chunks 64).length = (pad message).length / 64 := by
    rw [pieces, List.length_map, List.length_range]
  refine ⟨?_, isLeast_length_pad message, toNatLE_drop_pad short, ⟨?_, ?_⟩, ?_,
    length_digest message⟩
  · have last := foldl_take_chunks whole (Nat.le_refl _)
    rw [← many, List.take_length] at last
    rw [digest, last, many, Standard.digest, ← pad_eq_padded]
    rfl
  · rw [pieces, Bytes.flatten_slices whole]
  · rw [pieces]
    exact Bytes.length_of_mem_slices whole
  · intro blocks
    rw [List.take_eq_take_min, many, foldl_take_chunks whole (Nat.min_le_right _ _)]
    exact fits_values _

def letterRuns : Bytes :=
  (List.range 14).flatMap fun first => (List.range 4).map fun i => UInt8.ofNat (0x61 + first + i)

/-- The shortest length that leaves no room for the padding in its own block. -/
theorem digest_eq_standard_letterRuns :
    letterRuns.length = 56 ∧ (pad letterRuns).length = 128 ∧
    ((((pad letterRuns).chunks 64).take 1).foldl compress initial).Fits ∧
    digest letterRuns =
      [0x12, 0xa0, 0x53, 0x38, 0x4a, 0x9c, 0x0c, 0x88, 0xe4, 0x05, 0xa0,
        0x6c, 0x27, 0xdc, 0xf4, 0x9a, 0xda, 0x62, 0xeb, 0x2b] := by
  have size : letterRuns.length = 56 := by decide
  have short : letterRuns.length < 2 ^ 61 := by
    rw [size]
    decide
  obtain ⟨same, -, -, -, fits, -⟩ := digest_eq_standard short
  refine ⟨size, by rw [length_pad, size], fits 1, same.trans ?_⟩
  decide +kernel

end SpendingPlan.Ripemd160

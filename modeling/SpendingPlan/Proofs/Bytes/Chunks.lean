import SpendingPlan.Bytes

namespace SpendingPlan.Bytes

theorem chunks_flatten {size : Nat} (positive : 0 < size) (pieces : List Bytes)
    (even : ∀ piece ∈ pieces, piece.length = size) : chunks size pieces.flatten = pieces := by
  induction pieces with
  | nil => simp [chunks]
  | cons piece pieces ih =>
    have first := even piece (by simp)
    have rest := ih fun other member => even other (List.mem_cons_of_mem _ member)
    have nonempty : ¬ (piece ++ pieces.flatten = [] ∨ size = 0) := by
      rintro (nothing | zero)
      · simp only [List.append_eq_nil_iff] at nothing
        rw [nothing.1, List.length_nil] at first
        omega
      · omega
    rw [List.flatten_cons, chunks, dif_neg nonempty, List.take_left' first, List.drop_left' first,
      rest]

theorem length_flatten {size : Nat} {pieces : List Bytes}
    (even : ∀ piece ∈ pieces, piece.length = size) :
    pieces.flatten.length = size * pieces.length := by
  rw [List.length_flatten, List.map_congr_left even, List.map_const', List.sum_replicate_nat,
    Nat.mul_comm]

def slice (size : Nat) (bytes : Bytes) (i : Nat) : Bytes := (bytes.drop (size * i)).take size

theorem length_slice {size i : Nat} {bytes : Bytes} (inside : size * (i + 1) ≤ bytes.length) :
    (slice size bytes i).length = size := by
  rw [Nat.mul_succ] at inside
  rw [slice, List.length_take, List.length_drop]
  omega

theorem slice_drop (size i : Nat) (bytes : Bytes) :
    slice size (bytes.drop size) i = slice size bytes (i + 1) := by
  rw [slice, slice, List.drop_drop, Nat.mul_succ, Nat.add_comm]

theorem slice_slice {size count t i : Nat} (inside : i < count) (bytes : Bytes) :
    slice size (slice (size * count) bytes t) i = slice size bytes (count * t + i) := by
  have room : size * i + size ≤ size * count := by
    rw [← Nat.mul_succ]
    exact Nat.mul_le_mul_left size inside
  have place : size * count * t + size * i = size * (count * t + i) := by
    rw [Nat.mul_add, Nat.mul_assoc]
  have width : min size (size * count - size * i) = size := by omega
  rw [slice, slice, slice, List.drop_take, List.drop_drop, List.take_take, place, width]

theorem flatten_slices {size count : Nat} {bytes : Bytes} (whole : bytes.length = size * count) :
    ((List.range count).map (slice size bytes)).flatten = bytes := by
  induction count generalizing bytes with
  | zero => exact (List.length_eq_zero_iff.mp whole).symm
  | succ count ih =>
    have shorter : (bytes.drop size).length = size * count := by
      rw [List.length_drop, whole, Nat.mul_succ, Nat.add_sub_cancel]
    have later : (List.range count).map (slice size bytes ∘ Nat.succ) =
        (List.range count).map (slice size (bytes.drop size)) :=
      List.map_congr_left fun i _ => (slice_drop size i bytes).symm
    rw [List.range_succ_eq_map, List.map_cons, List.map_map, List.flatten_cons, later, ih shorter,
      slice, Nat.mul_zero, List.drop_zero, List.take_append_drop]

theorem length_of_mem_slices {size count : Nat} {bytes : Bytes}
    (whole : bytes.length = size * count) :
    ∀ piece ∈ (List.range count).map (slice size bytes), piece.length = size := by
  intro piece member
  obtain ⟨i, inside, rfl⟩ := List.mem_map.mp member
  apply length_slice
  rw [whole]
  exact Nat.mul_le_mul_left size (List.mem_range.mp inside)

theorem chunks_eq_slices {size count : Nat} (positive : 0 < size) {bytes : Bytes}
    (whole : bytes.length = size * count) :
    chunks size bytes = (List.range count).map (slice size bytes) := by
  have pieces := chunks_flatten positive _ (length_of_mem_slices whole)
  rwa [flatten_slices whole] at pieces

end SpendingPlan.Bytes

import SpendingPlan.Input.Encode
import SpendingPlan.Proofs.Input.Layout
import SpendingPlan.Proofs.PrefixFree
import SpendingPlan.Proofs.Table.Sorted

namespace SpendingPlan.Input

namespace Field

theorem Lists.of_mem {κ ν : Type} {field : Field} {keyData : κ → Bytes}
    {write : ν → Except Error Bytes} {entries : List (κ × ν)} {pairs : List Pair}
    (h : field.Lists keyData write entries pairs) {pair : Pair} (member : pair ∈ pairs) :
    ∃ entry ∈ entries, pair.1 = field.type :: keyData entry.1 ∧ write entry.2 = .ok pair.2 :=
  exists_related h.flip member

theorem Gives.of_mem {ν : Type} {field : Field} {write : ν → Except Error Bytes} {value? : Option ν}
    {pairs : List Pair} (h : field.Gives write value? pairs) {pair : Pair} (member : pair ∈ pairs) :
    ∃ value, value? = some value ∧ pair.1 = [field.type] ∧ write value = .ok pair.2 := by
  obtain ⟨entry, held, key, wrote⟩ := Lists.of_mem h member
  obtain ⟨value, given, rfl⟩ := List.mem_map.mp held
  exact ⟨value, Option.mem_toList.mp given, key, wrote⟩

theorem Lists.head_key {κ ν : Type} {field : Field} {keyData : κ → Bytes}
    {write : ν → Except Error Bytes} {entries : List (κ × ν)} {pairs : List Pair}
    (h : field.Lists keyData write entries pairs) :
    ∀ pair ∈ pairs, pair.1.head? = some field.type := by
  intro pair member
  obtain ⟨entry, -, key, -⟩ := h.of_mem member
  rw [key]
  rfl

theorem Holds.head_key {input : Input} {pairs : List Pair} {field : Field}
    (h : field.Holds input pairs) : ∀ pair ∈ pairs, pair.1.head? = some field.type := by
  cases field
  all_goals
    simp only [Holds, Gives] at h
    exact h.head_key

end Field

theorem encodePair_ok {pair : Pair} {bytes : Bytes} (h : encodePair pair = .ok bytes) :
    ∃ key value, CompactSize.frame pair.1 = .ok key ∧ CompactSize.frame pair.2 = .ok value ∧
      bytes = key ++ value := by
  rw [encodePair] at h
  obtain ⟨key, keyFrame, h⟩ := bind_ok h
  obtain ⟨value, valueFrame, h⟩ := bind_ok h
  cases h
  exact ⟨key, value, keyFrame, valueFrame, rfl⟩

theorem frame_ne_nil {bytes framed : Bytes} (h : CompactSize.frame bytes = .ok framed) :
    framed ≠ [] := by
  rintro rfl
  have read := CompactSize.readFrame_frame h []
  cases read

theorem length_le_flatten {pairs : List Pair} {framed : List Bytes}
    (h : List.Forall₂ (fun pair frame => encodePair pair = .ok frame) pairs framed) :
    pairs.length ≤ framed.flatten.length := by
  induction h with
  | nil => exact Nat.le_refl _
  | cons head _ ih =>
    obtain ⟨key, value, keyFrame, -, rfl⟩ := encodePair_ok head
    have positive := List.length_pos_iff.mpr (frame_ne_nil keyFrame)
    simp only [List.length_cons, List.flatten_cons, List.length_append]
    omega

theorem readPairsWithin_step {pair : Pair} {key value : Bytes}
    (keyFrame : CompactSize.frame pair.1 = .ok key)
    (valueFrame : CompactSize.frame pair.2 = .ok value)
    (named : pair.1 ≠ []) (fuel : Nat) (rest : Bytes) :
    readPairsWithin (fuel + 1) (key ++ (value ++ rest)) =
      (readPairsWithin fuel rest).map fun (pairs, rest) => (pair :: pairs, rest) := by
  rw [readPairsWithin, CompactSize.readFrame_frame keyFrame]
  simp only [Option.bind_eq_bind, Option.bind_some, if_neg named,
    CompactSize.readFrame_frame valueFrame]
  cases readPairsWithin fuel rest <;> rfl

theorem readPairsWithin_frames {pairs : List Pair} {framed : List Bytes}
    (h : List.Forall₂ (fun pair frame => encodePair pair = .ok frame) pairs framed)
    (named : ∀ pair ∈ pairs, pair.1 ≠ []) (rest : Bytes) {fuel : Nat}
    (enough : pairs.length < fuel) :
    readPairsWithin fuel (framed.flatten ++ 0 :: rest) = some (pairs, rest) := by
  induction h generalizing fuel with
  | nil =>
    cases fuel with
    | zero => cases enough
    | succ fuel =>
      have ended : CompactSize.readFrame (0 :: rest) = some ([], rest) := rfl
      rw [List.flatten_nil, List.nil_append, readPairsWithin, ended]
      rfl
  | @cons pair frame pairs framed head _ ih =>
    cases fuel with
    | zero => cases enough
    | succ fuel =>
      obtain ⟨key, value, keyFrame, valueFrame, rfl⟩ := encodePair_ok head
      have here := named pair List.mem_cons_self
      have later := ih (fun other member => named other (List.mem_cons_of_mem _ member))
        (Nat.lt_of_succ_lt_succ enough)
      rw [List.flatten_cons, List.append_assoc, List.append_assoc,
        readPairsWithin_step keyFrame valueFrame here, later]
      rfl

theorem encode_layout {input : Input} {bytes : Bytes} (h : input.encode = .ok bytes) :
    ∃ (known : Field → List Pair) (framed : List Bytes),
      (∀ field : Field, field.Holds input (known field)) ∧
      List.Forall₂ (fun pair frame => encodePair pair = .ok frame)
        (Field.all.flatMap known ++ input.unknown.sorted Bytes.le) framed ∧
      bytes = framed.flatten ++ [0] := by
  rw [encode] at h
  obtain ⟨pairs, listed, h⟩ := bind_ok h
  obtain ⟨framed, written, h⟩ := bind_ok h
  cases h
  rw [Input.pairs] at listed
  obtain ⟨knownPairs, layout, listed⟩ := bind_ok listed
  cases listed
  obtain ⟨known, holds, rfl⟩ := knownPairs_layout layout
  exact ⟨known, framed, holds, forall₂_of_mapM written, rfl⟩

theorem named_layout_iff {input : Input} {known : Field → List Pair}
    (holds : ∀ field : Field, field.Holds input (known field)) :
    (∀ pair ∈ Field.all.flatMap known ++ input.unknown.sorted Bytes.le, pair.1 ≠ []) ↔
      [] ∉ input.unknown.keys := by
  constructor
  · intro named empty
    obtain ⟨⟨key, value⟩, held, same⟩ := List.mem_map.mp empty
    exact named (key, value) (List.mem_append_right _ (Table.mem_sorted.mpr held)) same
  · intro nonempty pair member
    rcases List.mem_append.mp member with member | member
    · obtain ⟨field, -, member⟩ := List.mem_flatMap.mp member
      have typed := (holds field).head_key pair member
      intro empty
      rw [empty] at typed
      cases typed
    · intro empty
      exact nonempty (List.mem_map.mpr ⟨pair, Table.mem_sorted.mp member, empty⟩)

theorem readPairs_frames {pairs : List Pair} {framed : List Bytes}
    (h : List.Forall₂ (fun pair frame => encodePair pair = .ok frame) pairs framed)
    (named : ∀ pair ∈ pairs, pair.1 ≠ []) (rest : Bytes) :
    readPairs (framed.flatten ++ [0] ++ rest) = some (pairs, rest) := by
  -- no frame is empty, so the bytes are fuel for all pairs
  have enough := length_le_flatten h
  rw [readPairs, List.append_assoc, List.singleton_append]
  apply readPairsWithin_frames h named
  have longer : (framed.flatten ++ 0 :: rest).length = framed.flatten.length + rest.length + 1 := by
    rw [List.length_append, List.length_cons, Nat.add_assoc]
  omega

def filled : Input :=
  { empty with
    previousOutput := some (100000, ⟨[.number 0, .word "00112233445566778899aabbccddeeff00112233"]⟩)
    partialSignatures := (Table.empty.insert [3, 1] [0x30, 1]).insert [2, 1] [0x30, 2]
    redeemScript := some ⟨[.word "OP_1"]⟩
    finalWitness := [[], [7]]
    tapKeyOrigins := Table.empty.insert (List.replicate 32 5)
      ([List.replicate 32 1, List.replicate 32 2], ⟨⟨[1, 2, 3, 4], rfl⟩, [0x80000056, 0]⟩)
    unknown := Table.empty.insert [0xfc, 1] [9, 9] }

theorem sorted_filled : filled.partialSignatures.sorted Bytes.le =
    [([2, 1], [0x30, 2]), ([3, 1], [0x30, 1])] :=
  Table.sorted_eq_of_perm Table.linear_bytes (by decide) (by decide)

theorem encode_filled : ∃ bytes, filled.encode = .ok bytes := by
  -- sorting does not evaluate, so the tables are sorted by hand
  have origins : filled.tapKeyOrigins.sorted Bytes.le = filled.tapKeyOrigins.entries :=
    List.mergeSort_singleton _
  have unknown : filled.unknown.sorted Bytes.le = filled.unknown.entries :=
    List.mergeSort_singleton _
  have keyOrigins : filled.keyOrigins.sorted Bytes.le = [] := List.mergeSort_nil
  have leafSignatures : filled.tapScriptSignatures.sorted lePair = [] := List.mergeSort_nil
  have leafScripts : filled.tapScripts.table.sorted Bytes.le = [] := List.mergeSort_nil
  apply exists_ok_of_isOk
  rw [encode, pairs, knownPairs, encodeTable, encodeTable, encodeTable, encodeTable, encodeTable,
    sorted_filled, origins, unknown, keyOrigins, leafSignatures, leafScripts]
  decide +kernel

end SpendingPlan.Input

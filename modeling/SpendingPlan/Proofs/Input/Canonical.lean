import SpendingPlan.Proofs.Input.KeyOrder
import SpendingPlan.Proofs.Input.Lossless

namespace SpendingPlan.Input

theorem encodeTable_congr {κ ν : Type} [DecidableEq κ] {type : UInt8} {le : κ → κ → Bool}
    (linear : Table.Linear le) {keyBytes : κ → Bytes} {write : ν → Except Error Bytes}
    {a b : Table κ ν} (alike : Table.SameBy (fun x y => write x = write y) a b) :
    encodeTable type le keyBytes write a = encodeTable type le keyBytes write b := by
  apply mapM_eq_of_forall₂
  apply (Table.forall₂_sorted linear alike).imp
  rintro ⟨key, value⟩ ⟨other, value'⟩ ⟨rfl, same⟩
  dsimp only at same ⊢
  rw [same]

/-- The same single fields and the same entries in the tables, whatever order these came in. Scripts
    count as the same when they encode alike or are refused alike. -/
structure SameContents (a b : Input) : Prop where
  previousTransaction : a.previousTransaction = b.previousTransaction
  previousOutput :
    Option.Rel (fun x y => x.1 = y.1 ∧ x.2.encode = y.2.encode) a.previousOutput b.previousOutput
  partialSignatures : Table.SameBy (· = ·) a.partialSignatures b.partialSignatures
  sighashType : a.sighashType = b.sighashType
  redeemScript : Option.Rel (fun x y => x.encode = y.encode) a.redeemScript b.redeemScript
  witnessScript : Option.Rel (fun x y => x.encode = y.encode) a.witnessScript b.witnessScript
  keyOrigins : Table.SameBy (· = ·) a.keyOrigins b.keyOrigins
  finalScriptSig : Option.Rel (fun x y => x.encode = y.encode) a.finalScriptSig b.finalScriptSig
  finalWitness : a.finalWitness = b.finalWitness
  tapKeySignature : a.tapKeySignature = b.tapKeySignature
  tapScriptSignatures : Table.SameBy (· = ·) a.tapScriptSignatures b.tapScriptSignatures
  tapScripts :
    Table.SameBy (fun x y => x.script.encode = y.script.encode ∧ x.version = y.version)
      a.tapScripts.table b.tapScripts.table
  tapKeyOrigins : Table.SameBy (· = ·) a.tapKeyOrigins b.tapKeyOrigins
  tapInternalKey : a.tapInternalKey = b.tapInternalKey
  tapMerkleRoot : a.tapMerkleRoot = b.tapMerkleRoot
  unknown : Table.SameBy (· = ·) a.unknown b.unknown

namespace SameContents

variable {a b : Input} (same : a.SameContents b)

include same

theorem knownPairs : a.knownPairs = b.knownPairs := by
  have equal {ν : Type} {write : ν → Except Error Bytes} (x y : ν) (h : x = y) :
      write x = write y := congrArg write h
  have output : a.previousOutput.mapM encodeOutput = b.previousOutput.mapM encodeOutput := by
    apply mapM_eq_of_rel
    have related := same.previousOutput
    generalize a.previousOutput = left, b.previousOutput = right at related ⊢
    cases related with
    | none => exact .none
    | some both =>
      refine .some ?_
      rw [encodeOutput, encodeOutput, both.1, both.2]
  have scripts : encodeTable 0x15 Bytes.le id encodeLeafScript a.tapScripts.table =
      encodeTable 0x15 Bytes.le id encodeLeafScript b.tapScripts.table := by
    apply encodeTable_congr Table.linear_bytes
    apply Table.SameBy.imp same.tapScripts
    rintro x y ⟨script, version⟩
    rw [encodeLeafScript, encodeLeafScript, script, version]
  have signatures : encodeTable 0x14 lePair (fun key => key.1 ++ key.2) .ok a.tapScriptSignatures =
      encodeTable 0x14 lePair (fun key => key.1 ++ key.2) .ok b.tapScriptSignatures :=
    encodeTable_congr linear_lePair (Table.SameBy.imp same.tapScriptSignatures equal)
  rw [Input.knownPairs, Input.knownPairs, output, scripts, signatures,
    encodeTable_congr Table.linear_bytes (Table.SameBy.imp same.partialSignatures equal),
    encodeTable_congr Table.linear_bytes (Table.SameBy.imp same.keyOrigins equal),
    encodeTable_congr Table.linear_bytes (Table.SameBy.imp same.tapKeyOrigins equal),
    mapM_eq_of_rel same.redeemScript, mapM_eq_of_rel same.witnessScript,
    mapM_eq_of_rel same.finalScriptSig, same.previousTransaction, same.sighashType,
    same.finalWitness, same.tapKeySignature, same.tapInternalKey, same.tapMerkleRoot]

theorem encode : a.encode = b.encode := by
  have unknown : a.unknown.sorted Bytes.le = b.unknown.sorted Bytes.le := by
    have sorted := Table.forall₂_sorted Table.linear_bytes same.unknown
    rw [← List.forall₂_eq_eq_eq]
    exact sorted.imp fun _ _ both => Prod.ext both.1 both.2
  rw [Input.encode, Input.encode, pairs, pairs, same.knownPairs, unknown]

end SameContents

def SortsByKeys (input : Input) : Prop :=
  input.partialSignatures.SortsByKeys Bytes.le ∧ input.keyOrigins.SortsByKeys Bytes.le ∧
    input.tapScriptSignatures.SortsByKeys lePair ∧ input.tapScripts.table.SortsByKeys Bytes.le ∧
    input.tapKeyOrigins.SortsByKeys Bytes.le ∧ input.unknown.SortsByKeys Bytes.le

/-- The bytes of an input do not depend on the order in which its entries came in, nor on any order
    of their values, and neither does the error when it is refused. The known keys, and the unknown
    ones after them, are written in strict order. -/
theorem encode_canonical (a b : Input) :
    (∀ bytes, a.encode = .ok bytes →
      (∀ x ∈ a.tapScriptSignatures.keys, ∀ y ∈ a.tapScriptSignatures.keys,
        x.1.length = y.1.length) →
      ∃ known framed, a.knownPairs = .ok known ∧
        List.Forall₂ (fun pair frame => encodePair pair = .ok frame)
          (known ++ a.unknown.sorted Bytes.le) framed ∧
        bytes = framed.flatten ++ [0] ∧
        known.Pairwise (fun x y => x.1 < y.1) ∧ (known.map Prod.fst).Nodup ∧
        (a.unknown.sorted Bytes.le).Pairwise fun x y => x.1 < y.1) ∧
    a.SortsByKeys ∧
    (a.SameContents b → a.encode = b.encode) := by
  refine ⟨?_, ?_, SameContents.encode⟩
  · intro bytes encoded even
    obtain ⟨pairs, listed, encoded⟩ := bind_ok encoded
    obtain ⟨framed, written, encoded⟩ := bind_ok encoded
    cases encoded
    obtain ⟨known, layout, listed⟩ := bind_ok listed
    cases listed
    have increasing : known.Pairwise fun x y => x.1 < y.1 := by
      obtain ⟨fields, holds, rfl⟩ := knownPairs_layout layout
      exact (keys_increasing even holds).imp fun less => (Bytes.lt_iff _ _).mp less
    refine ⟨known, framed, layout, forall₂_of_mapM written, rfl, increasing, ?_, ?_⟩
    · apply List.pairwise_map.mpr
      apply increasing.imp
      rintro x y less same
      exact List.lt_irrefl _ (same ▸ less)
    · exact (Table.pairwise_sorted_bytes _).imp fun less => (Bytes.lt_iff _ _).mp less
  · exact ⟨Table.sortsByKeys _ _, Table.sortsByKeys _ _, Table.sortsByKeys _ _,
      Table.sortsByKeys _ _, Table.sortsByKeys _ _, Table.sortsByKeys _ _⟩

def leafSigned : Input :=
  { filled with
    tapScriptSignatures := (Table.empty.insert ([2, 0], [1, 1]) [7]).insert ([1, 0], [3, 3]) [8] }

def leafSignedAgain : Input :=
  { respelled with
    tapScriptSignatures := (Table.empty.insert ([1, 0], [3, 3]) [8]).insert ([2, 0], [1, 1]) [7] }

theorem sameContents_leafSigned : leafSigned.SameContents leafSignedAgain := by
  have scripts : Script.encode ⟨[.word "OP_1"]⟩ = Script.encode ⟨[.number 1]⟩ := rfl
  constructor
  case previousOutput => exact .some ⟨rfl, rfl⟩
  case partialSignatures | tapScriptSignatures => exact Table.sameBy_of_perm (by decide)
  case redeemScript => exact .some scripts
  case tapScripts => exact fun _ => .none
  case witnessScript | finalScriptSig => exact .none
  case keyOrigins | tapKeyOrigins | unknown => exact Table.sameBy_of_perm (.refl _)
  all_goals rfl

theorem encode_leafSigned : ∃ bytes, leafSigned.encode = .ok bytes := by
  have signatures : leafSigned.partialSignatures.sorted Bytes.le =
      [([2, 1], [0x30, 2]), ([3, 1], [0x30, 1])] := sorted_filled
  have leafSignatures : leafSigned.tapScriptSignatures.sorted lePair =
      [(([1, 0], [3, 3]), [8]), (([2, 0], [1, 1]), [7])] :=
    Table.sorted_eq_of_perm linear_lePair (by decide) (by decide)
  have origins : leafSigned.tapKeyOrigins.sorted Bytes.le = leafSigned.tapKeyOrigins.entries :=
    List.mergeSort_singleton _
  have unknown : leafSigned.unknown.sorted Bytes.le = leafSigned.unknown.entries :=
    List.mergeSort_singleton _
  have keyOrigins : leafSigned.keyOrigins.sorted Bytes.le = [] := List.mergeSort_nil
  have leafScripts : leafSigned.tapScripts.table.sorted Bytes.le = [] := List.mergeSort_nil
  apply exists_ok_of_isOk
  rw [encode, pairs, knownPairs, encodeTable, encodeTable, encodeTable, encodeTable, encodeTable,
    signatures, leafSignatures, origins, unknown, keyOrigins, leafScripts]
  decide +kernel

theorem encode_canonical_leafSigned :
    leafSigned ≠ leafSignedAgain ∧ leafSigned.encode = leafSignedAgain.encode ∧
      ∃ bytes known, leafSigned.encode = .ok bytes ∧ leafSigned.knownPairs = .ok known ∧
        known.Pairwise fun x y => x.1 < y.1 := by
  obtain ⟨increasing, -, reordered⟩ := encode_canonical leafSigned leafSignedAgain
  obtain ⟨bytes, encoded⟩ := encode_leafSigned
  obtain ⟨known, framed, listed, -, -, ordered, -⟩ := increasing bytes encoded (by decide)
  exact ⟨by decide, reordered sameContents_leafSigned, bytes, known, encoded, listed, ordered⟩

end SpendingPlan.Input

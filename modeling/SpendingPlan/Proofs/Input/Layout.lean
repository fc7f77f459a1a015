import SpendingPlan.Input.Encode
import SpendingPlan.Proofs.Outcome

namespace SpendingPlan.Input

/-- What a map can tell about its input, in the order of the types it is written under. -/
inductive Field
  | previousTransaction
  | previousOutput
  | partialSignature
  | sighashType
  | redeemScript
  | witnessScript
  | keyOrigin
  | finalScriptSig
  | finalWitness
  | tapKeySignature
  | tapScriptSignature
  | tapScript
  | tapKeyOrigin
  | tapInternalKey
  | tapMerkleRoot
deriving DecidableEq

def witness? (items : List Bytes) : Option (List Bytes) := if items = [] then none else some items

def writeWitness (items : List Bytes) : Except Error Bytes := do
  let count ← CompactSize.encode items.length
  return count ++ (← items.mapM CompactSize.frame).flatten

namespace Field

def all : List Field :=
  [.previousTransaction, .previousOutput, .partialSignature, .sighashType, .redeemScript,
    .witnessScript, .keyOrigin, .finalScriptSig, .finalWitness, .tapKeySignature,
    .tapScriptSignature, .tapScript, .tapKeyOrigin, .tapInternalKey, .tapMerkleRoot]

def type : Field → UInt8
  | .previousTransaction => 0x00
  | .previousOutput => 0x01
  | .partialSignature => 0x02
  | .sighashType => 0x03
  | .redeemScript => 0x04
  | .witnessScript => 0x05
  | .keyOrigin => 0x06
  | .finalScriptSig => 0x07
  | .finalWitness => 0x08
  | .tapKeySignature => 0x13
  | .tapScriptSignature => 0x14
  | .tapScript => 0x15
  | .tapKeyOrigin => 0x16
  | .tapInternalKey => 0x17
  | .tapMerkleRoot => 0x18

/-- One pair for each entry and in the same order: the key data after the type, and the value as it
    is written. -/
def Lists {κ ν : Type} (field : Field) (keyData : κ → Bytes) (write : ν → Except Error Bytes)
    (entries : List (κ × ν)) (pairs : List Pair) : Prop :=
  List.Forall₂
    (fun entry pair => pair.1 = field.type :: keyData entry.1 ∧ write entry.2 = .ok pair.2)
    entries pairs

/-- One pair with the type for its key when there is a value, and none otherwise. -/
def Gives {ν : Type} (field : Field) (write : ν → Except Error Bytes) (value? : Option ν)
    (pairs : List Pair) : Prop :=
  field.Lists (fun _ : Unit => []) write (value?.toList.map fun value => ((), value)) pairs

/-- The pairs that one field of an input comes to. -/
def Holds (input : Input) (pairs : List Pair) (field : Field) : Prop :=
  match field with
  | .previousTransaction => field.Gives .ok input.previousTransaction pairs
  | .previousOutput => field.Gives encodeOutput input.previousOutput pairs
  | .partialSignature => field.Lists id .ok (input.partialSignatures.sorted Bytes.le) pairs
  | .sighashType => field.Gives encodeSighash input.sighashType pairs
  | .redeemScript => field.Gives Script.encode input.redeemScript pairs
  | .witnessScript => field.Gives Script.encode input.witnessScript pairs
  | .keyOrigin => field.Lists id KeyOrigin.encode (input.keyOrigins.sorted Bytes.le) pairs
  | .finalScriptSig => field.Gives Script.encode input.finalScriptSig pairs
  | .finalWitness => field.Gives writeWitness (witness? input.finalWitness) pairs
  | .tapKeySignature => field.Gives .ok input.tapKeySignature pairs
  | .tapScriptSignature =>
    field.Lists (fun key => key.1 ++ key.2) .ok (input.tapScriptSignatures.sorted lePair) pairs
  | .tapScript => field.Lists id encodeLeafScript (input.tapScripts.table.sorted Bytes.le) pairs
  | .tapKeyOrigin => field.Lists id encodeTapOrigin (input.tapKeyOrigins.sorted Bytes.le) pairs
  | .tapInternalKey => field.Gives .ok input.tapInternalKey pairs
  | .tapMerkleRoot => field.Gives .ok input.tapMerkleRoot pairs

theorem lists_encodeTable {κ ν : Type} (field : Field) {le : κ → κ → Bool} {keyData : κ → Bytes}
    {write : ν → Except Error Bytes} {table : Table κ ν} {pairs : List Pair}
    (h : encodeTable field.type le keyData write table = .ok pairs) :
    field.Lists keyData write (table.sorted le) pairs := by
  apply (forall₂_of_mapM h).imp
  intro entry pair written
  obtain ⟨value, wrote, written⟩ := bind_ok written
  cases written
  exact ⟨rfl, wrote⟩

theorem gives_single (field : Field) (value? : Option Bytes) :
    field.Gives .ok value? (single field.type value?) := by
  cases value? with
  | none => exact .nil
  | some value => exact .cons ⟨rfl, rfl⟩ .nil

theorem gives_mapM {ν : Type} (field : Field) {write : ν → Except Error Bytes} {value? : Option ν}
    {written : Option Bytes} (h : value?.mapM write = .ok written) :
    field.Gives write value? (single field.type written) := by
  cases value? with
  | none =>
    cases h
    exact .nil
  | some value =>
    obtain ⟨bytes, wrote, h⟩ := bind_ok h
    cases h
    exact .cons ⟨rfl, wrote⟩ .nil

theorem gives_witness (field : Field) {items : List Bytes} {written : Option Bytes}
    (h : encodeWitness items = .ok written) :
    field.Gives writeWitness (witness? items) (single field.type written) := by
  rw [encodeWitness] at h
  by_cases nothing : items = []
  · rw [if_pos nothing] at h
    cases h
    rw [witness?, if_pos nothing]
    exact .nil
  · rw [if_neg nothing] at h
    obtain ⟨count, counted, h⟩ := bind_ok h
    obtain ⟨frames, framed, h⟩ := bind_ok h
    cases h
    rw [witness?, if_neg nothing]
    refine .cons ⟨rfl, ?_⟩ .nil
    rw [writeWitness, counted, ok_bind, framed]
    rfl

end Field

theorem knownPairs_layout {input : Input} {pairs : List Pair} (h : input.knownPairs = .ok pairs) :
    ∃ known : Field → List Pair, (∀ field : Field, field.Holds input (known field)) ∧
      pairs = Field.all.flatMap known := by
  rw [knownPairs] at h
  obtain ⟨previousOutput, output, h⟩ := bind_ok h
  obtain ⟨partialSignatures, signatures, h⟩ := bind_ok h
  obtain ⟨sighashType, sighash, h⟩ := bind_ok h
  obtain ⟨redeemScript, redeem, h⟩ := bind_ok h
  obtain ⟨witnessScript, witness, h⟩ := bind_ok h
  obtain ⟨keyOrigins, origins, h⟩ := bind_ok h
  obtain ⟨finalScriptSig, scriptSig, h⟩ := bind_ok h
  obtain ⟨finalWitness, final, h⟩ := bind_ok h
  obtain ⟨tapScriptSignatures, scriptSignatures, h⟩ := bind_ok h
  obtain ⟨tapScripts, scripts, h⟩ := bind_ok h
  obtain ⟨tapKeyOrigins, tapOrigins, h⟩ := bind_ok h
  cases h
  refine ⟨fun
    | .previousTransaction => single 0x00 input.previousTransaction
    | .previousOutput => single 0x01 previousOutput
    | .partialSignature => partialSignatures
    | .sighashType => single 0x03 sighashType
    | .redeemScript => single 0x04 redeemScript
    | .witnessScript => single 0x05 witnessScript
    | .keyOrigin => keyOrigins
    | .finalScriptSig => single 0x07 finalScriptSig
    | .finalWitness => single 0x08 finalWitness
    | .tapKeySignature => single 0x13 input.tapKeySignature
    | .tapScriptSignature => tapScriptSignatures
    | .tapScript => tapScripts
    | .tapKeyOrigin => tapKeyOrigins
    | .tapInternalKey => single 0x17 input.tapInternalKey
    | .tapMerkleRoot => single 0x18 input.tapMerkleRoot, ?_, ?_⟩
  · intro field
    cases field with
    | previousTransaction => exact Field.gives_single .previousTransaction _
    | previousOutput => exact Field.gives_mapM .previousOutput output
    | partialSignature => exact Field.lists_encodeTable .partialSignature signatures
    | sighashType => exact Field.gives_mapM .sighashType sighash
    | redeemScript => exact Field.gives_mapM .redeemScript redeem
    | witnessScript => exact Field.gives_mapM .witnessScript witness
    | keyOrigin => exact Field.lists_encodeTable .keyOrigin origins
    | finalScriptSig => exact Field.gives_mapM .finalScriptSig scriptSig
    | finalWitness => exact Field.gives_witness .finalWitness final
    | tapKeySignature => exact Field.gives_single .tapKeySignature _
    | tapScriptSignature => exact Field.lists_encodeTable .tapScriptSignature scriptSignatures
    | tapScript => exact Field.lists_encodeTable .tapScript scripts
    | tapKeyOrigin => exact Field.lists_encodeTable .tapKeyOrigin tapOrigins
    | tapInternalKey => exact Field.gives_single .tapInternalKey _
    | tapMerkleRoot => exact Field.gives_single .tapMerkleRoot _
  · simp only [Field.all, List.flatMap_cons, List.flatMap_nil, List.append_assoc, List.append_nil]

end SpendingPlan.Input

import SpendingPlan.Origin
import SpendingPlan.Table
import SpendingPlan.Taproot.ControlBlock

namespace SpendingPlan

structure LeafScript where
  block : ControlBlock
  script : Script
  version : Int
deriving DecidableEq

/-- Leaf scripts under the encodings of their control blocks. -/
structure LeafScripts where
  table : Table Bytes LeafScript
  keyed : ∀ entry ∈ table.entries, entry.2.block.encode = .ok entry.1
deriving DecidableEq

namespace LeafScripts

def empty : LeafScripts := ⟨Table.empty, by simp [Table.empty]⟩

/-- Puts a script under a control block. Of control blocks that encode alike the first one stays. -/
def insert (scripts : LeafScripts) (block : ControlBlock) (script : Script) (version : Int) :
    Except Error LeafScripts :=
  match encoded : block.encode with
  | .error e => .error e
  | .ok key =>
    if old : key ∈ scripts.table.keys then
      .ok
        { table := scripts.table.modify key fun entry => { entry with script, version }
          keyed := by
            intro entry member
            obtain ⟨previous, held, rfl⟩ := List.mem_map.mp member
            have block := scripts.keyed previous held
            split <;> exact block }
    else
      .ok
        { table := scripts.table.insert key ⟨block, script, version⟩
          keyed := by
            intro entry member
            simp only [Table.insert, dif_neg old, List.mem_append, List.mem_singleton] at member
            rcases member with held | rfl
            · exact scripts.keyed entry held
            · exact encoded }

end LeafScripts

structure Input where
  previousTransaction : Option Bytes
  previousOutput : Option (Int × Script)
  partialSignatures : Table Bytes Bytes
  sighashType : Option Int
  redeemScript : Option Script
  witnessScript : Option Script
  keyOrigins : Table Bytes KeyOrigin
  finalScriptSig : Option Script
  finalWitness : List Bytes
  tapKeySignature : Option Bytes
  tapScriptSignatures : Table (Bytes × Bytes) Bytes
  tapScripts : LeafScripts
  tapKeyOrigins : Table Bytes (List Bytes × KeyOrigin)
  tapInternalKey : Option Bytes
  tapMerkleRoot : Option Bytes
  unknown : Table Bytes Bytes
deriving DecidableEq

def Input.empty : Input where
  previousTransaction := none
  previousOutput := none
  partialSignatures := Table.empty
  sighashType := none
  redeemScript := none
  witnessScript := none
  keyOrigins := Table.empty
  finalScriptSig := none
  finalWitness := []
  tapKeySignature := none
  tapScriptSignatures := Table.empty
  tapScripts := LeafScripts.empty
  tapKeyOrigins := Table.empty
  tapInternalKey := none
  tapMerkleRoot := none
  unknown := Table.empty

end SpendingPlan

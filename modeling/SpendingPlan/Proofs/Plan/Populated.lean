import SpendingPlan.Proofs.Origin.Range
import SpendingPlan.Proofs.Plan.Additive
import SpendingPlan.Proofs.Plan.Template
import SpendingPlan.Proofs.Script.Encoding

namespace SpendingPlan

variable {small : Prop}

namespace Script

def Writable (small : Prop) (script : Script) : Prop :=
  ∃ bytes, script.encode = .ok bytes ∧ (small → bytes.length < CompactSize.room)

theorem Writable.length_lt {script : Script} (written : script.Writable small) {bytes : Bytes}
    (encoded : script.encode = .ok bytes) (held : small) : bytes.length < CompactSize.room := by
  obtain ⟨bytes', encoded', bound⟩ := written
  cases encoded.symm.trans encoded'
  exact bound held

theorem Writable.of_short {script : Script} {bytes : Bytes} (encoded : script.encode = .ok bytes)
    (short : bytes.length < CompactSize.room) : script.Writable small :=
  ⟨bytes, encoded, fun _ => short⟩

end Script

def KeyOrigin.Writable (small : Prop) (origin : KeyOrigin) : Prop :=
  origin.path.InRange ∧ (small → origin.path.length < CompactSize.room)

def WritableLeaves (small : Prop) (value : List Bytes × KeyOrigin) : Prop :=
  (∀ hash ∈ value.1, hash.length = 32) ∧ value.2.Writable small

theorem writableLeaves_mergedEntry {leaf : Option Bytes} {origin : KeyOrigin}
    {old : Option (List Bytes × KeyOrigin)} (whole : ∀ hash, leaf = some hash → hash.length = 32)
    (written : origin.Writable small)
    (kept : ∀ value, old = some value → WritableLeaves small value) :
    WritableLeaves small (mergedEntry leaf origin old) := by
  cases old with
  | none =>
    refine ⟨?_, written⟩
    intro hash member
    rcases mem_listLeaf.mp member with held | new
    · cases held
    · exact whole hash new
  | some value =>
    obtain ⟨hashes, owned⟩ := kept value rfl
    refine ⟨?_, owned⟩
    intro hash member
    rcases mem_listLeaf.mp member with held | new
    · exact hashes hash held
    · exact whole hash new

def Fragment.inner? : Fragment → Option InnerScript
  | .descriptor (.bare script) => some script
  | .descriptor (.wsh script) => some script
  | .descriptor (.sh (.wsh script)) => some script
  | .descriptor (.sh (.script script)) => some script
  | _ => none

/-- What a plan names can be written. -/
structure Plan.Writable (small : Prop) (plan : Plan) : Prop where
  origins : ∀ item ∈ plan.template, ∀ key, item.key? = some key →
    ∀ origin ∈ key.origins, origin.Writable small
  leafHashes : ∀ item ∈ plan.template, ∀ hash, item.leafHash? = some hash → hash.length = 32
  leafScripts : ∀ script, .tapScript script ∈ plan.template → script.Writable small
  inner : ∀ inner, plan.target.inner? = some inner → inner.script.Writable small

namespace LeafScripts

theorem mem_entries_insert {scripts scripts' : LeafScripts} {block : ControlBlock} {script : Script}
    {version : Int} (h : scripts.insert block script version = .ok scripts')
    {entry : Bytes × LeafScript} (member : entry ∈ scripts'.table.entries) :
    (entry.2.script = script ∧ entry.2.version = version) ∨ entry ∈ scripts.table.entries := by
  unfold insert at h
  split at h
  · cases h
  · split at h
    · cases h
      obtain ⟨old, held, rfl⟩ := List.mem_map.mp member
      split
      · exact .inl ⟨rfl, rfl⟩
      · exact .inr held
    · cases h
      rcases Table.mem_entries_insert member with rfl | held
      · exact .inl ⟨rfl, rfl⟩
      · exact .inr held

end LeafScripts

namespace Input

def blank (input : Input) : Input :=
  { input with
    redeemScript := none
    witnessScript := none
    keyOrigins := Table.empty
    tapScripts := LeafScripts.empty
    tapKeyOrigins := Table.empty
    tapInternalKey := none
    tapMerkleRoot := none }

/-- Nothing is held but what updates write, and all of it can be encoded. -/
structure Populated (small : Prop) (input : Input) : Prop where
  blank : input.blank = Input.empty
  redeemScript : ∀ script, input.redeemScript = some script → script.Writable small
  witnessScript : ∀ script, input.witnessScript = some script → script.Writable small
  keyOrigins : ∀ entry ∈ input.keyOrigins.entries,
    (∃ key : PublicKey, entry.1 = key.compressed) ∧ entry.2.Writable small
  tapScripts : ∀ entry ∈ input.tapScripts.table.entries,
    entry.2.script.Writable small ∧ entry.2.version = Taproot.scriptLeafVersion
  tapKeyOrigins : ∀ entry ∈ input.tapKeyOrigins.entries,
    entry.1.length = 32 ∧ WritableLeaves small entry.2
  tapInternalKey : ∀ key, input.tapInternalKey = some key → key.length = 32
  tapMerkleRoot : ∀ root, input.tapMerkleRoot = some root → root.length = 32

namespace Populated

theorem empty : Populated small Input.empty := by
  refine ⟨rfl, ?_, ?_, ?_, ?_, ?_, ?_, ?_⟩
  all_goals
    intro _ none
    cases none

variable {input : Input} (populated : input.Populated small)

include populated

theorem addSigner {item : Placeholder}
    (origins : ∀ key, item.key? = some key → ∀ origin ∈ key.origins, origin.Writable small) :
    (input.addSigner item).Populated small := by
  cases item with
  | ecdsaSigPk key =>
    refine { populated with keyOrigins := ?_ }
    intro entry member
    rcases Table.mem_entries_foldl_insert member with ⟨same, origin⟩ | held
    · exact ⟨⟨key.key, same⟩, origins key rfl entry.2 origin⟩
    · exact populated.keyOrigins entry held
  | _ => exact populated

theorem foldl_addSigner {template : List Placeholder}
    (origins : ∀ item ∈ template, ∀ key, item.key? = some key →
      ∀ origin ∈ key.origins, origin.Writable small) :
    (template.foldl Input.addSigner input).Populated small := by
  induction template generalizing input with
  | nil => exact populated
  | cons item rest ih =>
    rw [List.foldl_cons]
    have here := populated.addSigner (origins item List.mem_cons_self)
    exact ih here fun other member => origins other (List.mem_cons_of_mem _ member)

theorem setWitness {script : Script} (written : script.Writable small) :
    Populated small { input with witnessScript := some script } := by
  refine { populated with witnessScript := ?_ }
  intro other same
  cases same
  exact written

theorem setRedeem {script : Script} (written : script.Writable small) :
    Populated small { input with redeemScript := some script } := by
  refine { populated with redeemScript := ?_ }
  intro other same
  cases same
  exact written

theorem writeScripts {target : Fragment}
    (inner : ∀ inner, target.inner? = some inner → inner.script.Writable small) :
    (input.writeScripts target).1.Populated small := by
  cases target with
  | inner script => exact populated
  | descriptor descriptor =>
    cases descriptor with
    | wsh script => exact populated.setWitness (inner script rfl)
    | sh wrapped =>
      cases wrapped with
      | wsh script =>
        have first := populated.setWitness (inner script rfl)
        obtain ⟨bytes, encoded, -⟩ := inner script rfl
        obtain ⟨redeem, wrapped, written⟩ := Script.payToWitnessScriptHash_of_encode encoded
        have short : bytes.witnessScriptHashOutput.length < CompactSize.room := by
          rw [Bytes.length_witnessScriptHashOutput]
          decide
        rw [Input.writeScripts, wrapped]
        exact first.setRedeem (.of_short written short)
      | wpkh key =>
        have short : key.key.compressed.witnessKeyHashOutput.length < CompactSize.room := by
          rw [Bytes.length_witnessKeyHashOutput]
          decide
        exact populated.setRedeem (.of_short (encode_payToWitnessKeyHash key) short)
      | script script => exact populated.setRedeem (inner script rfl)
    | _ => exact populated

theorem mergeOrigins {leaf : Option Bytes} {origins : Table Bytes KeyOrigin}
    (whole : ∀ hash, leaf = some hash → hash.length = 32)
    (signers : ∀ entry ∈ origins.entries, entry.1.length = 32 ∧ entry.2.Writable small) :
    ∀ entry ∈ (origins.entries.foldl (mergeTapOrigin leaf) input.tapKeyOrigins).entries,
      entry.1.length = 32 ∧ WritableLeaves small entry.2 := by
  intro entry member
  have found := Table.get?_eq_some_iff.mpr member
  rw [get?_foldl_mergeTapOrigin] at found
  cases fresh : origins.get? entry.1 with
  | none =>
    rw [fresh] at found
    exact populated.tapKeyOrigins entry (Table.get?_eq_some_iff.mp found)
  | some origin =>
    rw [fresh] at found
    obtain ⟨size, written⟩ := signers (entry.1, origin) (Table.get?_eq_some_iff.mp fresh)
    refine ⟨size, ?_⟩
    rw [← Option.some.inj found]
    apply writableLeaves_mergedEntry whole written
    intro value old
    exact (populated.tapKeyOrigins (entry.1, value) (Table.get?_eq_some_iff.mp old)).2

theorem mergeTaproot {plan : Plan} (written : plan.Writable small) {data : TaprootData}
    (named : data.NamedIn plan.template) {info : SpendInfo}
    (merkle : ∀ root, info.merkleRoot = some root → root.length = 32) :
    (input.mergeTaproot data info).Populated small := by
  refine { populated with tapKeyOrigins := ?_, tapInternalKey := ?_, tapMerkleRoot := merkle }
  · apply populated.mergeOrigins
    · intro hash leaf
      obtain ⟨item, listed, names⟩ := named.leafHash hash (Plan.leafHash?_eq_some_iff.mp leaf)
      exact written.leafHashes item listed hash names
    · intro entry member
      obtain ⟨item, listed, key, signs, bytes, origin⟩ := named.origins entry member
      constructor
      · rw [bytes]
        exact key.key.length_xOnly
      · exact written.origins item listed key signs entry.2 origin
  · intro bytes given
    rw [Input.mergeTaproot] at given
    dsimp only at given
    split at given
    · rename_i internalKey spend
      cases given
      obtain ⟨item, listed, key, signs, rfl⟩ := named.internalKey bytes spend
      exact key.key.length_xOnly
    · exact populated.tapInternalKey bytes given

theorem putLeafScript {script : Script} (written : script.Writable small) (block : ControlBlock) :
    (input.putLeafScript block script Taproot.scriptLeafVersion).1.Populated small := by
  rw [Input.putLeafScript]
  cases put : input.tapScripts.insert block script Taproot.scriptLeafVersion with
  | error e => exact populated
  | ok scripts =>
    refine { populated with tapScripts := ?_ }
    intro entry member
    rcases LeafScripts.mem_entries_insert put member with ⟨same, version⟩ | held
    · exact ⟨same ▸ written, version⟩
    · exact populated.tapScripts entry held

theorem updateTaproot {plan : Plan} (written : plan.Writable small) (key : DescriptorKey)
    (tree : Tree TreeLeaf) : (input.updateTaproot key tree plan.template).1.Populated small := by
  rcases updateTaproot_cases input key tree plan.template with ⟨e, same⟩ | merged
  · rw [same]
    exact populated
  · obtain ⟨data, info, folded, spent, outcome⟩ := merged
    have named := TaprootData.namedIn_ofTemplate folded
    have merged := populated.mergeTaproot written named
      fun root given => SpendInfo.length_merkleRoot spent given
    rcases outcome with ⟨-, same⟩ | ⟨script, block, leaf, -, same⟩
    · rw [same]
      exact merged
    · rw [same]
      have listed := written.leafScripts script (named.script script leaf)
      exact merged.putLeafScript listed block

theorem update {plan : Plan} (written : plan.Writable small) :
    (input.update plan).1.Populated small := by
  unfold Input.update
  split
  · exact populated.updateTaproot written _ _
  · have signed := populated.foldl_addSigner written.origins
    exact signed.writeScripts written.inner

theorem run {plans : List Plan} (written : ∀ plan ∈ plans, plan.Writable small) :
    (input.run plans).Populated small := by
  induction plans generalizing input with
  | nil => exact populated
  | cons plan rest ih =>
    have step := populated.update (written plan List.mem_cons_self)
    exact ih step fun other member => written other (List.mem_cons_of_mem _ member)

end Populated

end Input

end SpendingPlan

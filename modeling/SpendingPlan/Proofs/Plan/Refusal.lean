import SpendingPlan.Proofs.Plan.Additive
import SpendingPlan.Proofs.Plan.Template

namespace SpendingPlan

namespace ControlBlock

/-- The version and the parity make up one byte. -/
def Fits (block : ControlBlock) : Prop :=
  0 ≤ (if block.odd then 1 else 0) + block.version ∧
    (if block.odd then 1 else 0) + block.version ≤ 0xff

theorem encode_of_fits {block : ControlBlock} (fits : block.Fits) :
    ∃ bytes, block.encode = .ok bytes := by
  unfold Fits at fits
  rw [encode, Taproot.byte, if_pos fits]
  exact ⟨_, rfl⟩

theorem encode_of_not_fits {block : ControlBlock} (wide : ¬ block.Fits) :
    block.encode = .error .byteOutOfRange := by
  unfold Fits at wide
  rw [encode, Taproot.byte, if_neg wide]
  rfl

theorem encode_error {block : ControlBlock} {e : Error} (h : block.encode = .error e) :
    e = .byteOutOfRange ∧ ¬ block.Fits := by
  by_cases fits : block.Fits
  · obtain ⟨bytes, encoded⟩ := encode_of_fits fits
    rw [encoded] at h
    cases h
  · rw [encode_of_not_fits fits] at h
    cases h
    exact ⟨rfl, fits⟩

end ControlBlock

theorem LeafScripts.insert_error_iff {scripts : LeafScripts} {block : ControlBlock}
    {script : Script} {version : Int} {e : Error} :
    scripts.insert block script version = .error e ↔ block.encode = .error e := by
  unfold insert
  constructor
  · intro h
    split at h
    · cases h
      assumption
    · split at h <;> cases h
  · intro refused
    split
    · rename_i cause encoded
      cases encoded.symm.trans refused
      rfl
    · rename_i key encoded
      cases encoded.symm.trans refused

namespace Input

theorem putLeafScript_error {input : Input} {block : ControlBlock} {script : Script} {version : Int}
    {e : Error} (h : (input.putLeafScript block script version).2 = some e) :
    e = .byteOutOfRange ∧ ¬ block.Fits ∧ (input.putLeafScript block script version).1 = input := by
  unfold putLeafScript at h ⊢
  cases put : input.tapScripts.insert block script version with
  | ok scripts =>
    rw [put] at h
    cases h
  | error e' =>
    rw [put] at h
    cases h
    obtain ⟨refused, wide⟩ := ControlBlock.encode_error (LeafScripts.insert_error_iff.mp put)
    exact ⟨refused, wide, rfl⟩

theorem updateTaproot_error {input : Input} {key : DescriptorKey} {tree : Tree TreeLeaf}
    {template : List Placeholder} {e : Error}
    (h : (input.updateTaproot key tree template).2 = some e) :
    (input.updateTaproot key tree template).1 = input ∨
      e = .byteOutOfRange ∧ ∃ data info block, TaprootData.ofTemplate template = .ok data ∧
        Descriptor.spendInfo key tree = .ok info ∧ data.controlBlock = some block ∧ ¬ block.Fits ∧
        (input.updateTaproot key tree template).1 = input.mergeTaproot data info := by
  rcases updateTaproot_cases input key tree template with ⟨e', same⟩ | merged
  · exact .inl (congrArg Prod.fst same)
  · obtain ⟨data, info, folded, spent, ⟨-, same⟩ | put⟩ := merged
    · rw [same] at h
      cases h
    · obtain ⟨script, block, -, given, same⟩ := put
      rw [same] at h ⊢
      obtain ⟨refused, wide, kept⟩ := putLeafScript_error h
      exact .inr ⟨refused, data, info, block, folded, spent, given, wide, kept⟩

theorem updateTaproot_wide (input : Input) {key : DescriptorKey} {tree : Tree TreeLeaf}
    {template : List Placeholder} {data : TaprootData} {info : SpendInfo} {script : Script}
    {block : ControlBlock} (folded : TaprootData.ofTemplate template = .ok data)
    (spent : Descriptor.spendInfo key tree = .ok info) (leaf : data.script = some script)
    (given : data.controlBlock = some block) (wide : ¬ block.Fits) :
    input.updateTaproot key tree template =
      (input.mergeTaproot data info, some .byteOutOfRange) := by
  have put (scripts : LeafScripts) : scripts.insert block script Taproot.scriptLeafVersion =
      .error .byteOutOfRange :=
    LeafScripts.insert_error_iff.mpr (ControlBlock.encode_of_not_fits wide)
  unfold updateTaproot
  rw [folded, spent]
  dsimp only
  rw [leaf, given]
  dsimp only
  rw [putLeafScript, put]

/-- A refused taproot plan leaves the input as it was, unless what refuses it is a control block
    with a version that does not fit: that one is met only after the other fields are written. -/
theorem update_refused {input : Input} {plan : Plan} {key : DescriptorKey} {tree : Tree TreeLeaf}
    (target : plan.target = .descriptor (.tr key tree)) {e : Error}
    (refused : (input.update plan).2 = some e) :
    ((∀ block, .tapControlBlock block ∈ plan.template → block.Fits) →
      (input.update plan).1 = input) ∧
    ((input.update plan).1 = input ∨
      e = .byteOutOfRange ∧ ∃ data info block, plan.merged? = some data ∧
        Descriptor.spendInfo key tree = .ok info ∧ .tapControlBlock block ∈ plan.template ∧
        ¬ block.Fits ∧ (input.update plan).1 = input.mergeTaproot data info) := by
  have taproot : input.update plan = input.updateTaproot key tree plan.template := by
    rw [update, target]
  rw [taproot] at refused ⊢
  rcases updateTaproot_error refused with kept | late
  · exact ⟨fun _ => kept, .inl kept⟩
  · obtain ⟨cause, data, info, block, folded, spent, given, wide, written⟩ := late
    have item := (TaprootData.namedIn_ofTemplate folded).controlBlock block given
    have merged := Plan.merged?_eq_some target folded spent
    constructor
    · intro fit
      exact absurd (fit block item) wide
    · exact .inr ⟨cause, data, info, block, merged, spent, item, wide, written⟩

def mixedPlan : Plan where
  target := .descriptor (.tr signer (SpendInfo.wrappedPair.map .script))
  template :=
    [.schnorrSigPk signer (.keySpend none) 64,
      .schnorrSigPk signer (.scriptSpend (List.replicate 32 9)) 64]
  absoluteLock := none
  relativeLock := none

theorem update_refused_mixedPlan :
    (begun.update mixedPlan).2 = some .mixedSpends ∧ (begun.update mixedPlan).1 = begun := by
  have refused : (begun.update mixedPlan).2 = some .mixedSpends := rfl
  refine ⟨refused, (update_refused rfl refused).1 ?_⟩
  intro block member
  simp [mixedPlan] at member

def wideBlock : ControlBlock := ⟨SpendInfo.generatorKey, [], false, 256, rfl, by decide⟩

def widePlan : Plan where
  target := .descriptor (.tr ⟨SpendInfo.generatorKey, none, []⟩ (SpendInfo.wrappedPair.map .script))
  template := [.tapScript ⟨[.word "OP_1"]⟩, .tapControlBlock wideBlock]
  absoluteLock := none
  relativeLock := none

theorem update_widePlan :
    (empty.update widePlan).2 = some .byteOutOfRange ∧ (empty.update widePlan).1 ≠ empty := by
  obtain ⟨info, made⟩ := SpendInfo.make_wrappedPair
  have spent := (spendInfo_wrappedPair ⟨SpendInfo.generatorKey, none, []⟩).trans made
  have wide : ¬ wideBlock.Fits := by
    unfold ControlBlock.Fits
    decide
  have updated : empty.update widePlan = (empty.mergeTaproot _ info, some .byteOutOfRange) :=
    updateTaproot_wide empty rfl spent rfl rfl wide
  rw [updated]
  refine ⟨rfl, ?_⟩
  intro same
  have merkle : info.merkleRoot = none := congrArg tapMerkleRoot same
  have filled : SpendInfo.wrappedPair.Filled := .branch (.wrapper (.leaf _)) (.leaf _)
  obtain ⟨root, -, rooted, -, -, given, -⟩ := SpendInfo.make_ok made
  rw [merkle, if_neg (SpendInfo.root_ne_nil filled rooted)] at given
  cases given

end Input

end SpendingPlan

import SpendingPlan.Proofs.Plan.Exclusive
import SpendingPlan.Proofs.Plan.Frame
import SpendingPlan.Proofs.Plan.Likeness

namespace SpendingPlan

def DescriptorKey.SameOrigin (a b : DescriptorKey) : Prop :=
  a.masterFingerprint = b.masterFingerprint ∧ a.fullPaths.getLast? = b.fullPaths.getLast?

theorem DescriptorKey.SameOrigin.last {a b : DescriptorKey} (same : a.SameOrigin b) :
    a.origins.getLast? = b.origins.getLast? := by
  rw [lastOrigin, lastOrigin, same.1, same.2]

/-- Items of one kind never contradict each other, and no signature is by key hash. -/
structure Consistent (like : Likeness) (template : List Placeholder) : Prop where
  noHashes : ∀ key leafHash size, .schnorrSigPkHash key leafHash size ∉ template
  leaf : ∀ key hash size, .schnorrSigPk key (.scriptSpend hash) size ∈ template →
    ∀ key' hash' size', .schnorrSigPk key' (.scriptSpend hash') size' ∈ template → hash = hash'
  internalKey : ∀ key root size, .schnorrSigPk key (.keySpend root) size ∈ template →
    ∀ key' root' size', .schnorrSigPk key' (.keySpend root') size' ∈ template →
      key.xOnly = key'.xOnly
  script : ∀ a, .tapScript a ∈ template → ∀ b, .tapScript b ∈ template → like.script a b
  block : ∀ a, .tapControlBlock a ∈ template → ∀ b, .tapControlBlock b ∈ template → like.block a b
  schnorr : ∀ key use size, .schnorrSigPk key use size ∈ template →
    ∀ key' use' size', .schnorrSigPk key' use' size' ∈ template →
      key.xOnly = key'.xOnly → key.SameOrigin key'
  ecdsa : ∀ key, .ecdsaSigPk key ∈ template → ∀ key', .ecdsaSigPk key' ∈ template →
    key.key.compressed = key'.key.compressed → key.SameOrigin key'

namespace Placeholder

theorem lastRecorded_eq {signer? : Placeholder → Option DescriptorKey}
    {form : DescriptorKey → Bytes} {template template' : List Placeholder}
    (reordered : template.Perm template')
    (sameOrigin : ∀ item ∈ template, ∀ item' ∈ template, ∀ signer signer',
      signer? item = some signer → signer? item' = some signer' → form signer = form signer' →
        signer.SameOrigin signer')
    (key : Bytes) :
    template.reverse.findSome? (recorded? signer? form key) =
      template'.reverse.findSome? (recorded? signer? form key) := by
  apply rel_eq_iff.mp
  apply rel_findSome?_reverse reordered
  intro item member item' member' origin origin' gives gives'
  obtain ⟨signer, signs, here, last⟩ := recorded?_eq_some_iff.mp gives
  obtain ⟨signer', signs', here', last'⟩ := recorded?_eq_some_iff.mp gives'
  have same := sameOrigin item member item' member' signer signer' signs signs'
    (here.trans here'.symm)
  exact Option.some.inj (last.symm.trans (same.last.trans last'))

end Placeholder

namespace TaprootData

structure Alike (like : Likeness) (a b : TaprootData) : Prop where
  script : Option.Rel like.script a.script b.script
  controlBlock : Option.Rel like.block a.controlBlock b.controlBlock
  spend : a.spend = b.spend
  origins : Table.SameBy (· = ·) a.origins b.origins

end TaprootData

namespace Consistent

variable {like : Likeness} {template template' : List Placeholder}
  (consistent : Consistent like template) (reordered : template.Perm template')

include consistent

theorem plain : ∀ item ∈ template, item.hashSpend? = none := by
  have last := Placeholder.lastHashSpend_eq_none_iff.mpr consistent.noHashes
  rw [List.findSome?_eq_none_iff] at last
  intro item member
  exact last item (List.mem_reverse.mpr member)

theorem spend_eq {byKey : Bool}
    (kinds : ∀ item ∈ template, ∀ spend, item.spend? = some spend → spend.isKey = byKey)
    {item item' : Placeholder} (member : item ∈ template) (member' : item' ∈ template)
    {spend spend' : Spend} (gives : item.spend? = some spend)
    (gives' : item'.spend? = some spend') : spend = spend' := by
  have kind := kinds item member spend gives
  have kind' := kinds item' member' spend' gives'
  obtain ⟨key, use, size, rfl, rfl⟩ := Placeholder.spend?_eq_some_iff.mp gives
  obtain ⟨key', use', size', rfl, rfl⟩ := Placeholder.spend?_eq_some_iff.mp gives'
  cases use with
  | keySpend root =>
    cases use' with
    | keySpend root' =>
      exact congrArg Spend.key (consistent.internalKey _ _ _ member _ _ _ member')
    | scriptSpend hash' => cases kind.trans kind'.symm
  | scriptSpend hash =>
    cases use' with
    | keySpend root' => cases kind.trans kind'.symm
    | scriptSpend hash' => exact congrArg Spend.script (consistent.leaf _ _ _ member _ _ _ member')

theorem schnorr_sameOrigin {item item' : Placeholder} (member : item ∈ template)
    (member' : item' ∈ template) {signer signer' : DescriptorKey}
    (signs : item.signer? = some signer) (signs' : item'.signer? = some signer')
    (form : signer.xOnly = signer'.xOnly) : signer.SameOrigin signer' := by
  obtain ⟨use, size, rfl⟩ := Placeholder.of_signer? (consistent.plain item member) signs
  obtain ⟨use', size', rfl⟩ := Placeholder.of_signer? (consistent.plain item' member') signs'
  exact consistent.schnorr _ _ _ member _ _ _ member' form

theorem ecdsa_sameOrigin {item item' : Placeholder} (member : item ∈ template)
    (member' : item' ∈ template) {signer signer' : DescriptorKey}
    (signs : item.ecdsaSigner? = some signer) (signs' : item'.ecdsaSigner? = some signer')
    (form : signer.key.compressed = signer'.key.compressed) : signer.SameOrigin signer' := by
  rw [Placeholder.ecdsaSigner?_eq_some_iff] at signs signs'
  subst signs signs'
  exact consistent.ecdsa signer member signer' member' form

include reordered

theorem alike {data data' : TaprootData} (folded : TaprootData.ofTemplate template = .ok data)
    (folded' : TaprootData.ofTemplate template' = .ok data') : data.Alike like data' := by
  have plain := Placeholder.lastHashSpend_eq_none_iff.mpr consistent.noHashes
  have plain' := Placeholder.lastHashSpend_eq_none_iff.mpr fun key leafHash size member =>
    consistent.noHashes key leafHash size (reordered.mem_iff.mpr member)
  obtain ⟨script, controlBlock, spend⟩ := TaprootData.ofTemplate_fields folded
  obtain ⟨script', controlBlock', spend'⟩ := TaprootData.ofTemplate_fields folded'
  constructor
  case script =>
    rw [script, script']
    apply rel_findSome?_reverse reordered
    intro item member item' member' a b gives gives'
    rw [Placeholder.script?_eq_some_iff.mp gives] at member
    rw [Placeholder.script?_eq_some_iff.mp gives'] at member'
    exact consistent.script a member b member'
  case controlBlock =>
    rw [controlBlock, controlBlock']
    apply rel_findSome?_reverse reordered
    intro item member item' member' a b gives gives'
    rw [Placeholder.controlBlock?_eq_some_iff.mp gives] at member
    rw [Placeholder.controlBlock?_eq_some_iff.mp gives'] at member'
    exact consistent.block a member b member'
  case spend =>
    obtain ⟨byKey, kinds⟩ :=
      (TaprootData.ofTemplate_ok_iff consistent.plain).mp ⟨data, folded⟩
    rw [spend, spend', plain, plain', Option.none_or, Option.none_or]
    apply rel_eq_iff.mp
    apply rel_findSome? reordered
    intro item member item' member' a b gives gives'
    exact consistent.spend_eq kinds member member' gives gives'
  case origins =>
    rw [Table.sameBy_eq_iff]
    intro key
    rw [TaprootData.origins_ofTemplate folded, TaprootData.origins_ofTemplate folded']
    apply Placeholder.lastRecorded_eq reordered
    intro item member item' member' signer signer' signs signs'
    exact consistent.schnorr_sameOrigin member member' signs signs'

theorem ofTemplate_alike :
    (TaprootData.ofTemplate template = .error .mixedSpends ∧
      TaprootData.ofTemplate template' = .error .mixedSpends) ∨
    ∃ data data', TaprootData.ofTemplate template = .ok data ∧
      TaprootData.ofTemplate template' = .ok data' ∧ data.Alike like data' := by
  have plain' : ∀ item ∈ template', item.hashSpend? = none :=
    fun item member => consistent.plain item (reordered.mem_iff.mpr member)
  have taken : (∃ data, TaprootData.ofTemplate template = .ok data) ↔
      ∃ data', TaprootData.ofTemplate template' = .ok data' := by
    rw [TaprootData.ofTemplate_ok_iff consistent.plain, TaprootData.ofTemplate_ok_iff plain']
    simp only [reordered.mem_iff]
  cases folded : TaprootData.ofTemplate template with
  | ok data =>
    obtain ⟨data', folded'⟩ := taken.mp ⟨data, folded⟩
    exact .inr ⟨data, data', rfl, folded', consistent.alike reordered folded folded'⟩
  | error e =>
    cases folded' : TaprootData.ofTemplate template' with
    | ok data' =>
      obtain ⟨data, both⟩ := taken.mpr ⟨data', folded'⟩
      cases folded.symm.trans both
    | error e' =>
      cases TaprootData.ofTemplate_error folded
      cases TaprootData.ofTemplate_error folded'
      exact .inl ⟨rfl, rfl⟩

end Consistent

namespace Input

variable {like : Likeness} {template template' : List Placeholder}

theorem mergeTaproot_alike {data data' : TaprootData} (alike : data.Alike like data')
    (input : Input) (info : SpendInfo) :
    SameFields like (input.mergeTaproot data info) (input.mergeTaproot data' info) where
  others := by
    refine ⟨input.keyOrigins, input.tapScripts, (input.mergeTaproot data' info).tapKeyOrigins, ?_⟩
    rw [mergeTaproot, mergeTaproot, alike.spend]
  keyOrigins := Table.sameBy_of_perm (.refl _)
  tapScripts := Likeness.sameBy_refl input.tapScripts
  tapKeyOrigins := by
    rw [Table.sameBy_eq_iff]
    intro key
    rw [mergeTaproot, mergeTaproot, get?_foldl_mergeTapOrigin, get?_foldl_mergeTapOrigin,
      Table.sameBy_eq_iff.mp alike.origins key, alike.spend]

theorem updateTaproot_reordered (consistent : Consistent like template)
    (reordered : template.Perm template') (input : Input) (key : DescriptorKey)
    (tree : Tree TreeLeaf) :
    (input.updateTaproot key tree template).2 = (input.updateTaproot key tree template').2 ∧
      SameFields like (input.updateTaproot key tree template).1
        (input.updateTaproot key tree template').1 := by
  rw [updateTaproot, updateTaproot]
  rcases consistent.ofTemplate_alike reordered with
    ⟨mixed, mixed'⟩ | ⟨data, data', folded, folded', alike⟩
  · rw [mixed, mixed']
    exact ⟨rfl, sameFields_refl input⟩
  · rw [folded, folded']
    cases Descriptor.spendInfo key tree with
    | error e => exact ⟨rfl, sameFields_refl input⟩
    | ok info =>
      have merged := mergeTaproot_alike alike input info
      obtain ⟨scripts, blocks, -, -⟩ := alike
      dsimp only
      generalize data.script = script, data'.script = script' at scripts ⊢
      generalize data.controlBlock = block, data'.controlBlock = block' at blocks ⊢
      cases scripts with
      | none => exact ⟨rfl, merged⟩
      | some shown =>
        cases blocks with
        | none => exact ⟨rfl, merged⟩
        | some given => exact putLeafScript_alike merged given shown _

theorem keyOrigins_reordered (consistent : Consistent like template)
    (reordered : template.Perm template') (input : Input) :
    Table.SameBy (· = ·) (template.foldl addSigner input).keyOrigins
      (template'.foldl addSigner input).keyOrigins := by
  rw [Table.sameBy_eq_iff]
  intro key
  rw [keyOrigins_foldl_addSigner, keyOrigins_foldl_addSigner]
  congr 1
  apply Placeholder.lastRecorded_eq reordered
  intro item member item' member' signer signer' signs signs'
  exact consistent.ecdsa_sameOrigin member member' signs signs'

/-- The order of the items of a consistent template shows neither in the outcome of an update nor in
    the fields nor in the bytes of the input. -/
theorem update_reordered {plan : Plan} (consistent : Consistent like plan.template)
    {template : List Placeholder} (reordered : plan.template.Perm template) (input : Input) :
    (input.update plan).2 = (input.update { plan with template }).2 ∧
      SameFields like (input.update plan).1 (input.update { plan with template }).1 ∧
      (input.update plan).1.encode = (input.update { plan with template }).1.encode := by
  suffices same : (input.update plan).2 = (input.update { plan with template }).2 ∧
      SameFields like (input.update plan).1 (input.update { plan with template }).1 from
    ⟨same.1, same.2, same.2.sameContents.encode⟩
  by_cases taproot : ∃ key tree, plan.target = .descriptor (.tr key tree)
  · obtain ⟨key, tree, target⟩ := taproot
    rw [update, update, target]
    exact updateTaproot_reordered consistent reordered input key tree
  · have segwit : ∀ key tree, plan.target ≠ .descriptor (.tr key tree) :=
      fun key tree target => taproot ⟨key, tree, target⟩
    have other : ∀ key tree, { plan with template }.target ≠ .descriptor (.tr key tree) := segwit
    rw [update_segwit segwit, update_segwit other]
    refine ⟨rfl, ⟨_, _, _, rfl⟩, keyOrigins_reordered consistent reordered input, ?_, ?_⟩
    · exact Likeness.sameBy_refl _
    · exact Table.sameBy_of_perm (.refl _)

def shownTwice (script : Script) : Plan where
  target := .descriptor (.tr signer (SpendInfo.wrappedPair.map .script))
  template :=
    [.tapScript ⟨[.word "OP_1"]⟩, .schnorrSigPk signer (.scriptSpend (List.replicate 32 9)) 64,
      .tapControlBlock fittingBlock, .tapScript script]
  absoluteLock := none
  relativeLock := none

theorem consistent_shownTwice {script : Script} (there : like.script ⟨[.word "OP_1"]⟩ script)
    (back : like.script script ⟨[.word "OP_1"]⟩) :
    Consistent like (shownTwice script).template := by
  constructor
  case script =>
    intro a first b second
    simp only [shownTwice, List.mem_cons, Placeholder.tapScript.injEq, reduceCtorEq, false_or,
      List.not_mem_nil, or_false] at first second
    rcases first with rfl | rfl <;> rcases second with rfl | rfl
    · exact like.script_refl _
    · exact there
    · exact back
    · exact like.script_refl _
  case block =>
    intro a first b second
    simp [shownTwice] at first second
    rw [first, second]
    exact like.block_refl _
  case schnorr =>
    intro key use size first key' use' size' second form
    simp [shownTwice] at first second
    rw [first.1, second.1]
    exact ⟨rfl, rfl⟩
  all_goals simp +contextual [shownTwice]

theorem update_shownTwice (input : Input) (script : Script) :
    (input.update (shownTwice script)).2 = none := by
  obtain ⟨info, made⟩ := SpendInfo.make_wrappedPair
  have spent := (spendInfo_wrappedPair signer).trans made
  change (input.updateTaproot signer (SpendInfo.wrappedPair.map .script) _).2 = none
  unfold updateTaproot
  rw [spent]
  rw [Option.eq_none_iff_forall_ne_some]
  intro e refused
  obtain ⟨-, wide, -⟩ := putLeafScript_error refused
  have fits : fittingBlock.Fits := ⟨by decide, by decide⟩
  exact wide fits

theorem update_reordered_shownTwice :
    (begun.update { shownTwice ⟨[.word "OP_1"]⟩ with
        template := (shownTwice ⟨[.word "OP_1"]⟩).template.reverse }).2 = none ∧
      SameFields .literal (begun.update (shownTwice ⟨[.word "OP_1"]⟩)).1
        (begun.update { shownTwice ⟨[.word "OP_1"]⟩ with
          template := (shownTwice ⟨[.word "OP_1"]⟩).template.reverse }).1 ∧
      (begun.update (shownTwice ⟨[.number 1]⟩)).1.encode =
        (begun.update { shownTwice ⟨[.number 1]⟩ with
          template := (shownTwice ⟨[.number 1]⟩).template.reverse }).1.encode := by
  have literal : Consistent .literal (shownTwice ⟨[.word "OP_1"]⟩).template :=
    consistent_shownTwice rfl rfl
  have encoded : Consistent .encoded (shownTwice ⟨[.number 1]⟩).template :=
    consistent_shownTwice rfl rfl
  obtain ⟨outcome, fields, -⟩ := update_reordered literal (List.reverse_perm _).symm begun
  have bytes := update_reordered encoded (List.reverse_perm _).symm begun
  exact ⟨outcome.symm.trans (update_shownTwice begun _), fields, bytes.2.2⟩

end Input

end SpendingPlan

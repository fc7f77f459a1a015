import SpendingPlan.Proofs.Plan.Merging
import SpendingPlan.Proofs.Taproot.Inclusion

namespace SpendingPlan

namespace Plan

def origin? (plan : Plan) (key : Bytes) : Option KeyOrigin :=
  plan.merged?.bind fun data => data.origins.get? key

def leaf? (plan : Plan) (key : Bytes) : Option Bytes :=
  plan.merged?.bind fun data =>
    (data.origins.get? key).bind fun _ => data.spend.bind Spend.leafHash?

/-- The plan merges a script spend of a leaf, and the key signs for it. -/
def SignsLeaf (plan : Plan) (key hash : Bytes) : Prop :=
  ∃ data, plan.merged? = some data ∧ data.spend = some (.script hash) ∧
    ∃ item ∈ plan.template, item.SignsFor key

theorem leafHash?_eq_some_iff {spend : Option Spend} {hash : Bytes} :
    spend.bind Spend.leafHash? = some hash ↔ spend = some (.script hash) := by
  cases spend with
  | none => simp
  | some spend => cases spend <;> simp [Spend.leafHash?]

theorem leaf?_eq_some_iff {plan : Plan} {key hash : Bytes} :
    plan.leaf? key = some hash ↔ plan.SignsLeaf key hash := by
  rw [leaf?, SignsLeaf, Option.bind_eq_some_iff]
  constructor
  · rintro ⟨data, merged, leaf⟩
    obtain ⟨origin, held, spend⟩ := Option.bind_eq_some_iff.mp leaf
    have signs : key ∈ data.origins.keys := by
      rw [Table.mem_keys_iff, held, Option.isSome_some]
    rw [TaprootData.mem_keys_ofTemplate (ofTemplate_of_merged? merged)] at signs
    exact ⟨data, merged, leafHash?_eq_some_iff.mp spend, signs⟩
  · rintro ⟨data, merged, spend, signs⟩
    rw [← TaprootData.mem_keys_ofTemplate (ofTemplate_of_merged? merged),
      Table.mem_keys_iff] at signs
    obtain ⟨origin, held⟩ := Option.isSome_iff_exists.mp signs
    refine ⟨data, merged, ?_⟩
    rw [held]
    exact leafHash?_eq_some_iff.mpr spend

end Plan

namespace Input

def tapOrigin? (input : Input) (key : Bytes) : Option KeyOrigin :=
  (input.tapKeyOrigins.get? key).map Prod.snd

def tapHashes (input : Input) (key : Bytes) : List Bytes :=
  ((input.tapKeyOrigins.get? key).map Prod.fst).getD []

/-- The input after one update for each plan, kept as far as it came. -/
def run (input : Input) (plans : List Plan) : Input :=
  plans.foldl (fun input plan => (input.update plan).1) input

theorem tapOrigin?_update (input : Input) (plan : Plan) (key : Bytes) :
    (input.update plan).1.tapOrigin? key = (input.tapOrigin? key).or (plan.origin? key) := by
  rw [tapOrigin?, tapKeyOrigins_update, Plan.origin?, tapOrigin?]
  cases plan.merged? with
  | none => simp
  | some data =>
    rw [get?_foldl_mergeTapOrigin, Option.bind_some]
    cases data.origins.get? key with
    | none => simp
    | some origin => cases input.tapKeyOrigins.get? key <;> rfl

theorem tapHashes_update (input : Input) (plan : Plan) (key : Bytes) :
    (input.update plan).1.tapHashes key = listLeaf (plan.leaf? key) (input.tapHashes key) := by
  rw [tapHashes, tapKeyOrigins_update, Plan.leaf?, tapHashes]
  cases plan.merged? with
  | none => rfl
  | some data =>
    rw [get?_foldl_mergeTapOrigin, Option.bind_some]
    cases data.origins.get? key with
    | none => rfl
    | some origin => cases input.tapKeyOrigins.get? key <;> rfl

theorem tapOrigin?_run (input : Input) (plans : List Plan) (key : Bytes) :
    (input.run plans).tapOrigin? key =
      (input.tapOrigin? key).or (plans.findSome? fun plan => plan.origin? key) := by
  induction plans generalizing input with
  | nil => simp [run]
  | cons plan rest ih =>
    have later := ih (input.update plan).1
    rw [tapOrigin?_update, Option.or_assoc] at later
    rw [List.findSome?_cons]
    cases here : plan.origin? key with
    | none =>
      rw [here, Option.none_or] at later
      exact later
    | some origin =>
      rw [here, Option.some_or] at later
      exact later

theorem tapHashes_prefix_run (input : Input) (plans : List Plan) (key : Bytes) :
    input.tapHashes key <+: (input.run plans).tapHashes key := by
  induction plans generalizing input with
  | nil => exact List.prefix_rfl
  | cons plan rest ih =>
    have step : input.tapHashes key <+: (input.update plan).1.tapHashes key := by
      rw [tapHashes_update]
      exact prefix_listLeaf _ _
    exact step.trans (ih (input.update plan).1)

theorem nodup_tapHashes_run {input : Input} {key : Bytes} (distinct : (input.tapHashes key).Nodup)
    (plans : List Plan) : ((input.run plans).tapHashes key).Nodup := by
  induction plans generalizing input with
  | nil => exact distinct
  | cons plan rest ih =>
    have step : ((input.update plan).1.tapHashes key).Nodup := by
      rw [tapHashes_update]
      exact nodup_listLeaf distinct _
    exact ih step

theorem mem_tapHashes_run (input : Input) (plans : List Plan) {key hash : Bytes} :
    hash ∈ (input.run plans).tapHashes key ↔
      hash ∈ input.tapHashes key ∨ ∃ plan ∈ plans, plan.SignsLeaf key hash := by
  induction plans generalizing input with
  | nil => simp [run]
  | cons plan rest ih =>
    have later := ih (input.update plan).1
    rw [tapHashes_update, mem_listLeaf, Plan.leaf?_eq_some_iff, or_assoc] at later
    rw [List.exists_mem_cons_iff]
    exact later

theorem run_append (input : Input) (earlier later : List Plan) :
    input.run (earlier ++ later) = (input.run earlier).run later := List.foldl_append

/-- Whatever else is updated, with success or not, no origin is replaced and no leaf hash lost:
    leaf hashes are only added, once each, for keys that sign for a leaf. -/
theorem run_additive {start : Input} (distinct : ∀ key, (start.tapHashes key).Nodup)
    (earlier later : List Plan) (key : Bytes) :
    (∀ origin, (start.run earlier).tapOrigin? key = some origin →
      (start.run (earlier ++ later)).tapOrigin? key = some origin) ∧
    ((start.run earlier).tapOrigin? key = none →
      (start.run (earlier ++ later)).tapOrigin? key =
        later.findSome? fun plan => plan.origin? key) ∧
    (start.run earlier).tapHashes key <+: (start.run (earlier ++ later)).tapHashes key ∧
    ((start.run (earlier ++ later)).tapHashes key).Nodup ∧
    ∀ hash, hash ∈ (start.run (earlier ++ later)).tapHashes key ↔
      hash ∈ (start.run earlier).tapHashes key ∨ ∃ plan ∈ later, plan.SignsLeaf key hash := by
  have all := nodup_tapHashes_run (distinct key) (earlier ++ later)
  rw [run_append] at all ⊢
  refine ⟨?_, ?_, tapHashes_prefix_run _ later key, all, fun hash => mem_tapHashes_run _ later⟩
  · intro origin held
    rw [tapOrigin?_run, held, Option.some_or]
  · intro absent
    rw [tapOrigin?_run, absent, Option.none_or]

theorem length_fingerprint : ([1, 2, 3, 4] : Bytes).length = 4 := rfl

def signer : DescriptorKey :=
  ⟨SpendInfo.generatorKey, some ⟨⟨[1, 2, 3, 4], length_fingerprint⟩, [86]⟩, []⟩

def leafPlan : Plan where
  target := .descriptor (.tr signer (SpendInfo.wrappedPair.map .script))
  template := [.schnorrSigPk signer (.scriptSpend (List.replicate 32 9)) 64]
  absoluteLock := none
  relativeLock := none

def begun : Input :=
  { empty with
    tapKeyOrigins := Table.empty.insert signer.xOnly
      ([List.replicate 32 7], ⟨signer.masterFingerprint, []⟩) }

theorem spendInfo_wrappedPair (key : DescriptorKey) :
    Descriptor.spendInfo key (SpendInfo.wrappedPair.map .script) =
      SpendInfo.make key.key SpendInfo.wrappedPair := by
  have tree : (SpendInfo.wrappedPair.map TreeLeaf.script).map TreeLeaf.toScript =
      SpendInfo.wrappedPair := by
    simp [SpendInfo.wrappedPair, Tree.map, TreeLeaf.toScript]
  rw [Descriptor.spendInfo, tree]

theorem signsLeaf_leafPlan : leafPlan.SignsLeaf signer.xOnly (List.replicate 32 9) := by
  obtain ⟨info, made⟩ := SpendInfo.make_wrappedPair
  have spent : Descriptor.spendInfo signer (SpendInfo.wrappedPair.map .script) = .ok info :=
    (spendInfo_wrappedPair signer).trans made
  have merged := Plan.merged?_eq_some (rfl : leafPlan.target = _) rfl spent
  exact ⟨_, merged, rfl, _, List.mem_singleton_self _, signer, rfl, rfl⟩

theorem run_additive_leafPlan :
    begun.tapHashes signer.xOnly <+: (begun.run [leafPlan]).tapHashes signer.xOnly ∧
      List.replicate 32 9 ∈ (begun.run [leafPlan]).tapHashes signer.xOnly := by
  have distinct : ∀ key, (begun.tapHashes key).Nodup := by
    intro key
    rw [tapHashes, begun, Table.get?_insert]
    split
    · decide
    · exact List.nodup_nil
  obtain ⟨-, -, grows, -, members⟩ := run_additive distinct [] [leafPlan] signer.xOnly
  refine ⟨grows, (members _).mpr (.inr ⟨leafPlan, List.mem_singleton_self _, signsLeaf_leafPlan⟩)⟩

end Input

end SpendingPlan

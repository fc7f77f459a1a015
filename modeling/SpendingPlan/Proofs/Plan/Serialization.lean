import SpendingPlan.Proofs.Plan.WellFormed

namespace SpendingPlan

namespace Plan

/-- The keys in the template were read from text, the scripts of the plan encode, and the leaf
    hashes it names are whole. -/
structure Sound (plan : Plan) : Prop where
  keys : ∀ item ∈ plan.template, ∀ key, item.key? = some key →
    ∃ text suffixes, DescriptorKey.parse text suffixes = .ok key
  leafHashes : ∀ item ∈ plan.template, ∀ hash, item.leafHash? = some hash → hash.length = 32
  leafScripts : ∀ script, .tapScript script ∈ plan.template → ∃ bytes, script.encode = .ok bytes
  inner : ∀ inner, plan.target.inner? = some inner → ∃ bytes, inner.script.encode = .ok bytes

structure Small (plan : Plan) : Prop where
  paths : ∀ item ∈ plan.template, ∀ key, item.key? = some key →
    ∀ path ∈ key.fullPaths, path.length < CompactSize.room
  leafScripts : ∀ script, .tapScript script ∈ plan.template →
    ∀ bytes, script.encode = .ok bytes → bytes.length < CompactSize.room
  inner : ∀ inner, plan.target.inner? = some inner →
    ∀ bytes, inner.script.encode = .ok bytes → bytes.length < CompactSize.room

theorem Sound.writable {plan : Plan} (sound : plan.Sound) {small : Prop}
    (bounded : small → plan.Small) : plan.Writable small := by
  constructor
  case origins =>
    intro item listed key names origin given
    obtain ⟨text, suffixes, parsed⟩ := sound.keys item listed key names
    refine ⟨DescriptorKey.parse_inRange parsed origin given, fun held => ?_⟩
    obtain ⟨path, full, rfl⟩ := List.mem_map.mp given
    exact (bounded held).paths item listed key names path full
  case leafHashes => exact sound.leafHashes
  case leafScripts =>
    intro script listed
    obtain ⟨bytes, encoded⟩ := sound.leafScripts script listed
    exact ⟨bytes, encoded, fun held => (bounded held).leafScripts script listed bytes encoded⟩
  case inner =>
    intro inner wrapped
    obtain ⟨bytes, encoded⟩ := sound.inner inner wrapped
    exact ⟨bytes, encoded, fun held => (bounded held).inner inner wrapped bytes encoded⟩

end Plan

theorem length_listLeaf (leaf : Option Bytes) (hashes : List Bytes) :
    (listLeaf leaf hashes).length ≤ hashes.length + 1 := by
  cases leaf with
  | none => exact Nat.le_succ _
  | some hash =>
    rw [listLeaf]
    split
    · exact Nat.le_succ _
    · rw [List.length_append, List.length_singleton]

namespace Input

theorem length_tapHashes_run (input : Input) (plans : List Plan) (key : Bytes) :
    ((input.run plans).tapHashes key).length ≤ (input.tapHashes key).length + plans.length := by
  induction plans generalizing input with
  | nil => exact Nat.le_refl _
  | cons plan rest ih =>
    have later := ih (input.update plan).1
    have step := length_listLeaf (plan.leaf? key) (input.tapHashes key)
    rw [← tapHashes_update] at step
    rw [List.length_cons]
    change ((Input.run (input.update plan).1 rest).tapHashes key).length ≤ _
    omega

/-- Whatever plans an input is updated for, it is written as a map of pairs in strict order of
    their keys, each of the form for its type. Only a size that cannot be counted can keep it from
    being written, and there is none when the plans are few and small. -/
theorem encode_run {plans : List Plan} (sound : ∀ plan ∈ plans, plan.Sound) :
    (plans.length < CompactSize.room → (∀ plan ∈ plans, plan.Small) →
      ∃ bytes, (empty.run plans).encode = .ok bytes) ∧
    ((∃ bytes, (empty.run plans).encode = .ok bytes) ∨
      ∃ n : Nat, CompactSize.limit ≤ n ∧ (empty.run plans).encode = .error (.countTooLarge n)) ∧
    ∀ bytes, (empty.run plans).encode = .ok bytes →
      ∃ pairs, readPairs bytes = some (pairs, []) ∧
        pairs.Pairwise (fun a b => a.1.lt b.1 = true) ∧ ∀ pair ∈ pairs, WellFormed pair := by
  let small : Prop := plans.length < CompactSize.room ∧ ∀ plan ∈ plans, plan.Small
  have populated : (empty.run plans).Populated small := by
    apply Populated.empty.run
    intro plan member
    exact (sound plan member).writable fun held => held.2 plan member
  have few : small → ∀ entry ∈ (empty.run plans).tapKeyOrigins.entries,
      entry.2.1.length < CompactSize.room := by
    intro held entry member
    have found := Table.get?_eq_some_iff.mpr member
    have bound := length_tapHashes_run empty plans entry.1
    rw [tapHashes, found] at bound
    have few := held.1
    simp only [Option.map_some, Option.getD_some] at bound
    have start : (empty.tapHashes entry.1).length = 0 := rfl
    omega
  have counted := populated.counted_encode few
  refine ⟨fun number sizes => counted.of_small ⟨number, sizes⟩, ?_, ?_⟩
  · rcases counted with done | ⟨-, tooLarge⟩
    · exact .inl done
    · exact .inr tooLarge
  · intro bytes encoded
    exact populated.readPairs_encode few encoded

def signerText : String :=
  "[01020304/86]0479be667ef9dcbbac55a06295ce870b07029bfcdb2dce28d959f2815b16f81798" ++
    "483ada7726a3c4655da4fbfc0e1108a8fd17b448a68554199c47d08ffb10d4b8"

theorem parse_signerText : DescriptorKey.parse signerText [] = .ok signer := by
  decide +kernel

def wrappedPlan : Plan where
  target := .descriptor (.wsh (.miniscript ⟨⟨[.number 1]⟩, [signer]⟩))
  template := [.ecdsaSigPk signer]
  absoluteLock := none
  relativeLock := none

theorem encode_run_wrappedPlan :
    ∃ bytes pairs, (empty.run [wrappedPlan, leafPlan]).encode = .ok bytes ∧
      readPairs bytes = some (pairs, []) ∧ pairs.Pairwise (fun a b => a.1.lt b.1 = true) ∧
      ∀ pair ∈ pairs, WellFormed pair := by
  have named : ∀ plan ∈ [wrappedPlan, leafPlan], ∀ item ∈ plan.template, ∀ key,
      item.key? = some key → key = signer := by
    simp [wrappedPlan, leafPlan, Placeholder.key?]
  have hashes : ∀ plan ∈ [wrappedPlan, leafPlan], ∀ item ∈ plan.template, ∀ hash,
      item.leafHash? = some hash → hash.length = 32 := by
    simp [wrappedPlan, leafPlan, Placeholder.leafHash?]
  have noLeaf : ∀ plan ∈ [wrappedPlan, leafPlan], ∀ script,
      .tapScript script ∉ plan.template := by
    simp [wrappedPlan, leafPlan]
  have wrapped : ∀ plan ∈ [wrappedPlan, leafPlan], ∀ inner, plan.target.inner? = some inner →
      inner.script.encode = .ok [0x51] := by
    intro plan member inner given
    rcases List.mem_cons.mp member with rfl | member
    · cases given
      rfl
    · rw [List.mem_singleton.mp member] at given
      cases given
  have sound : ∀ plan ∈ [wrappedPlan, leafPlan], plan.Sound := by
    intro plan member
    constructor
    case keys =>
      intro item listed key names
      rw [named plan member item listed key names]
      exact ⟨signerText, [], parse_signerText⟩
    case leafHashes => exact hashes plan member
    case leafScripts =>
      intro script listed
      exact absurd listed (noLeaf plan member script)
    case inner =>
      intro inner given
      exact ⟨_, wrapped plan member inner given⟩
  have small : ∀ plan ∈ [wrappedPlan, leafPlan], plan.Small := by
    intro plan member
    constructor
    case paths =>
      intro item listed key names
      rw [named plan member item listed key names]
      decide
    case leafScripts =>
      intro script listed
      exact absurd listed (noLeaf plan member script)
    case inner =>
      intro inner given bytes encoded
      cases encoded.symm.trans (wrapped plan member inner given)
      decide
  obtain ⟨written, -, reads⟩ := encode_run sound
  obtain ⟨bytes, encoded⟩ := written (by decide) small
  obtain ⟨pairs, read, ordered, formed⟩ := reads bytes encoded
  exact ⟨bytes, pairs, encoded, read, ordered, formed⟩

end Input

end SpendingPlan

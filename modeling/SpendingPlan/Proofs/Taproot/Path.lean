import SpendingPlan.Proofs.Taproot.Binding
import SpendingPlan.Proofs.Taproot.Inclusion

namespace SpendingPlan.Tree

theorem LeafAt.merklePath {tree : Tree Script} {index : Nat} {leaf : Script}
    {beside : List (Tree Script)} (place : tree.LeafAt index leaf beside) (filled : tree.Filled)
    {hash : Bytes} (rooted : tree.root = .ok hash) :
    ∃ hashes, List.Forall₂ (fun other hash => root other = .ok hash) beside hashes ∧
      tree.merklePath index = .ok (some hashes.flatten) ∧
      hashes.flatten.length = 32 * beside.length := by
  obtain ⟨hashes, roots, found⟩ := place.merklePathBy filled rooted
  have even := place.length_hashes filled roots (fun _ _ => Taproot.length_leafHash)
    Taproot.length_branchHash
  exact ⟨hashes, roots, found, by rw [Bytes.length_flatten even, roots.length_eq]⟩

/-- A tree of scripts has a path for the numbers of its leaves and for no other number. The path is
    made of the roots of the trees beside the way from the leaf, one for each branch and nearest
    first. Only a leaf that is too long for a frame keeps the tree from being walked. -/
theorem merklePath_beside {tree : Tree Script} (filled : tree.Filled)
    (encodable : ∀ leaf ∈ tree.leaves, ∃ bytes, leaf.encode = .ok bytes) :
    ((∀ target : Int, target < 0 ∨ tree.leaves.length ≤ target →
        tree.merklePath target = .ok none) ∧
      ∀ (index : Nat) (leaf : Script), tree.leaves[index]? = some leaf →
        (∃ beside, tree.LeafAt index leaf beside) ∧
        ∀ beside, tree.LeafAt index leaf beside →
          ∃ hashes, List.Forall₂ (fun other hash => root other = .ok hash) beside hashes ∧
            tree.merklePath index = .ok (some hashes.flatten) ∧
            hashes.flatten.length = 32 * beside.length) ∨
      ∃ leaf ∈ tree.leaves, ∃ bytes, leaf.encode = .ok bytes ∧
        CompactSize.limit ≤ bytes.length := by
  rcases filled.rootWith_ok encodable with ⟨hash, rooted⟩ | long
  · left
    constructor
    · intro target outside
      exact filled.merklePathBy_outside rooted outside
    · intro index leaf held
      exact ⟨filled.leafAt held, fun beside place => place.merklePath filled rooted⟩
  · exact .inr long

def twiceListed : Tree Script :=
  .list [.list [.leaf ⟨[.word "OP_1"]⟩, .list [.leaf ⟨[.number 2]⟩]], .leaf ⟨[.word "OP_1"]⟩]

theorem merklePath_beside_twiceListed :
    (∃ hashes,
      List.Forall₂ (fun other hash => root other = .ok hash)
        [.leaf ⟨[.word "OP_1"]⟩, .leaf ⟨[.word "OP_1"]⟩] hashes ∧
      twiceListed.merklePath 1 = .ok (some hashes.flatten) ∧ hashes.flatten.length = 64) ∧
    twiceListed.merklePath (-1) = .ok none ∧ twiceListed.merklePath 3 = .ok none := by
  have filled : twiceListed.Filled := .branch (.branch (.leaf _) (.wrapper (.leaf _))) (.leaf _)
  have leaves : twiceListed.leaves =
      [⟨[.word "OP_1"]⟩, ⟨[.number 2]⟩, ⟨[.word "OP_1"]⟩] := by simp [twiceListed]
  have encoded : ∀ leaf ∈ twiceListed.leaves, ∃ byte : UInt8, leaf.encode = .ok [byte] := by
    simp only [leaves, List.forall_mem_cons]
    exact ⟨⟨0x51, rfl⟩, ⟨0x52, rfl⟩, ⟨0x51, rfl⟩, nofun⟩
  have place : twiceListed.LeafAt 1 ⟨[.number 2]⟩
      [.leaf ⟨[.word "OP_1"]⟩, .leaf ⟨[.word "OP_1"]⟩] := by
    have before : (leaf (⟨[.word "OP_1"]⟩ : Script)).leaves.length + 0 = 1 := by
      rw [leaves_leaf, List.length_singleton]
    have inner : LeafAt (.list [.leaf ⟨[.word "OP_1"]⟩, .list [.leaf ⟨[.number 2]⟩]]) 1
        (⟨[.number 2]⟩ : Script) [.leaf ⟨[.word "OP_1"]⟩] :=
      before ▸ .right (.wrapper (.leaf _))
    exact .left inner
  have encodable : ∀ leaf ∈ twiceListed.leaves, ∃ bytes, leaf.encode = .ok bytes := by
    intro leaf member
    obtain ⟨byte, written⟩ := encoded leaf member
    exact ⟨[byte], written⟩
  rcases merklePath_beside filled encodable with
    ⟨outside, inside⟩ | ⟨leaf, member, bytes, written, long⟩
  · rw [leaves] at outside inside
    exact ⟨(inside 1 ⟨[.number 2]⟩ rfl).2 _ place, outside (-1) (.inl (by decide)),
      outside 3 (.inr (by decide))⟩
  · obtain ⟨byte, short⟩ := encoded leaf member
    cases written.symm.trans short
    rw [List.length_singleton] at long
    exact absurd long (by decide)

end SpendingPlan.Tree

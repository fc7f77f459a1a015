import SpendingPlan.Proofs.Taproot.Binding
import SpendingPlan.Proofs.Taproot.Block
import SpendingPlan.Proofs.Taproot.Inclusion
import SpendingPlan.Proofs.Tree.Gap

namespace SpendingPlan

namespace Taproot

def climbMessages (start : Bytes) : List Bytes → List Bytes
  | [] => []
  | node :: rest =>
    taggedMessages Sha256.digest "TapBranch" (branchPreimage start node) ++
      climbMessages (branchHash start node) rest

theorem length_branchPreimage (a b : Bytes) :
    (branchPreimage a b).length = a.length + b.length := by
  rcases branchPreimage_eq a b with order | order
  · rw [order, List.length_append]
  · rw [order, List.length_append, Nat.add_comm]

/-- Two ways past the same nodes to one root start alike, unless two of the messages collide. -/
theorem eq_of_climb {messages : List Bytes} (free : CollisionFree Sha256.digest messages)
    {nodes : List Bytes} (even : ∀ node ∈ nodes, node.length = 32) {a b : Bytes}
    (left : climbMessages a nodes ⊆ messages) (right : climbMessages b nodes ⊆ messages)
    (same : nodes.foldl branchHash a = nodes.foldl branchHash b) :
    a.length = b.length ∧ (a.length = 32 → a = b) := by
  induction nodes generalizing a b with
  | nil => exact ⟨congrArg List.length same, fun _ => same⟩
  | cons node rest ih =>
    rw [climbMessages, List.append_subset] at left right
    have above := ih (fun other member => even other (List.mem_cons_of_mem _ member)) left.2 right.2
      same
    have joined := above.2 (length_branchHash a node)
    obtain ⟨-, covered⟩ := taggedHashWith_inj free Sha256.length_digest left.1 right.1 joined
    have sizes := congrArg List.length covered
    rw [length_branchPreimage, length_branchPreimage] at sizes
    have size : a.length = b.length := by omega
    refine ⟨size, fun whole => ?_⟩
    have nodeSize := even node List.mem_cons_self
    rcases branchPreimage_inj whole nodeSize (size ▸ whole) nodeSize covered with straight | crossed
    · exact straight.1
    · exact crossed.1.trans crossed.2

theorem length_climb {nodes : List Bytes} (nonempty : nodes ≠ []) (start : Bytes) :
    (nodes.foldl branchHash start).length = 32 := by
  induction nodes generalizing start with
  | nil => exact absurd rfl nonempty
  | cons node rest ih =>
    cases rest with
    | nil => exact length_branchHash start node
    | cons => exact ih (List.cons_ne_nil _ _) (branchHash start node)

end Taproot

namespace SpendInfo

theorem position_ok {script : Script} {first index : Nat} {leaves : List Script}
    (h : position script first leaves = .ok index) :
    ∃ offset leaf, index = first + offset ∧ leaves[offset]? = some leaf ∧
      leaf.same script = .ok true := by
  induction leaves generalizing first with
  | nil => cases h
  | cons leaf rest ih =>
    rw [position] at h
    obtain ⟨equal, compared, h⟩ := bind_ok h
    cases equal with
    | true =>
      cases h
      exact ⟨0, leaf, rfl, rfl, compared⟩
    | false =>
      obtain ⟨offset, other, rfl, held, same⟩ := ih h
      exact ⟨offset + 1, other, by omega, held, same⟩

theorem controlBlock_ok {key : PublicKey} {tree : Tree Script} {info : SpendInfo}
    (made : make key tree = .ok info) {script : Script} {block : ControlBlock}
    (shown : info.controlBlock script = .ok block) :
    ∃ index leaf, position script 0 info.leaves = .ok index ∧ tree.leaves[index]? = some leaf ∧
      leaf.same script = .ok true ∧ tree.merklePath index = .ok (some block.path) ∧
      ControlBlock.make key block.path info.outputKey.odd Taproot.scriptLeafVersion =
        .ok block := by
  obtain ⟨_, _, -, keyed, treed, -⟩ := make_ok made
  rw [controlBlock] at shown
  obtain ⟨index, found, rest⟩ := bind_ok shown
  obtain ⟨path?, walked, built⟩ := bind_ok rest
  cases path? with
  | none => cases built
  | some path =>
    obtain ⟨offset, leaf, rfl, held, same⟩ := position_ok found
    rw [leaves, treed] at held
    rw [Nat.zero_add] at found walked
    rw [treed] at walked
    rw [keyed] at built
    obtain rfl : block.path = path := (ControlBlock.make_eq_ok_iff.mp built).2.1
    exact ⟨offset, leaf, found, held, same, walked, built⟩

theorem filled_or_gap_of_merklePath {tree : Tree Script} {root : Bytes}
    (rooted : tree.root = .ok root) {index : Nat} {path : Bytes}
    (walked : tree.merklePath index = .ok (some path)) :
    tree.Filled ∨ ∃ beside hashes, tree.GapAt index beside ∧ path = hashes.flatten ∧
      List.Forall₂ (fun other hash => Tree.root other = .ok hash) beside hashes := by
  rw [Tree.merklePath, Tree.merklePathBy] at walked
  obtain ⟨⟨sighting, next⟩, passed, walked⟩ := bind_ok walked
  rcases Tree.filled_or_gap_of_walk rooted passed with ⟨filled, -⟩ | gap
  · exact .inl filled
  · obtain ⟨index', beside, hashes, gap, number, roots, rfl, -⟩ := gap
    obtain rfl : index = index' := by omega
    cases walked
    exact .inr ⟨beside, hashes, gap, rfl, roots⟩

/-- What the path of a gap proves: it leads to the root from nothing, and not from a leaf hash
    unless two of the messages on the two ways collide. -/
theorem climb_gap {tree : Tree Script} {root : Bytes} (rooted : tree.root = .ok root) {index : Nat}
    {beside : List (Tree Script)} (gap : tree.GapAt index beside) (nonempty : tree.leaves ≠ [])
    {hashes : List Bytes}
    (roots : List.Forall₂ (fun other hash => Tree.root other = .ok hash) beside hashes) :
    root ≠ [] ∧ Taproot.foldPath [] hashes.flatten = root ∧
      ∀ leafHash : Bytes, leafHash.length = 32 →
        CollisionFree Sha256.digest
            (Taproot.climbMessages [] (Bytes.chunks 32 hashes.flatten) ++
              Taproot.climbMessages leafHash (Bytes.chunks 32 hashes.flatten)) →
          Taproot.foldPath leafHash hashes.flatten ≠ root := by
  have even : ∀ hash ∈ hashes, hash.length = 32 := by
    intro hash member
    obtain ⟨other, side, otherRoot⟩ := exists_related roots.flip member
    exact (gap.filled_beside other side).length_root otherRoot
      (fun _ _ => Taproot.length_leafHash) Taproot.length_branchHash
  have climbed := gap.fold_beside Taproot.branchHash_comm rooted roots
  have pieces := Bytes.chunks_flatten (by decide) hashes even
  simp only [Taproot.foldPath, pieces]
  refine ⟨?_, climbed, ?_⟩
  · have some : hashes ≠ [] := by
      rintro rfl
      cases roots
      exact nonempty gap.leaves_eq_nil
    have size := Taproot.length_climb some []
    rintro rfl
    rw [climbed] at size
    cases size
  · intro leafHash size free same
    -- the first messages on the two ways differ in length
    have start := Taproot.eq_of_climb free even (List.subset_append_left _ _)
      (List.subset_append_right _ _) (climbed.trans same.symm)
    rw [size] at start
    cases start.1

theorem controlBlock_of_hash {key : PublicKey} {tree : Tree Script} {info : SpendInfo}
    (made : make key tree = .ok info) {script : Script} {index : Nat} {hash : Bytes}
    (found : position script 0 tree.leaves = .ok index)
    (walked : tree.merklePath index = .ok (some hash)) (size : hash.length = 32) :
    ∃ block, info.controlBlock script = .ok block ∧ block.path = hash ∧
      Taproot.foldPath hash block.path = Taproot.branchHash hash hash := by
  obtain ⟨_, _, -, -, treed, -⟩ := make_ok made
  have whole : hash.length % 32 = 0 := by rw [size]
  have shallow : hash.length / 32 ≤ maxPathHashes := by
    rw [size]
    decide
  have pieces : hash.chunks 32 = [hash] := by
    have alone : ∀ piece ∈ [hash], piece.length = 32 := by simpa using size
    have single := Bytes.chunks_flatten (by decide) [hash] alone
    rwa [List.flatten_singleton] at single
  refine ⟨⟨info.internalKey, hash, info.outputKey.odd, Taproot.scriptLeafVersion, whole, shallow⟩,
    ?_, rfl, ?_⟩
  · rw [controlBlock, leaves, treed, found, ok_bind, walked, ok_bind]
    exact ControlBlock.make_eq_ok_iff.mpr ⟨rfl, rfl, rfl, rfl⟩
  · rw [Taproot.foldPath]
    dsimp only
    rw [pieces]
    rfl

def single : Script := ⟨[.word "OP_1"]⟩

def singleHash : Bytes := taggedHash "TapLeaf" [0xc0, 1, 0x51]

theorem leafHash_single : Taproot.leafHash Taproot.scriptLeafVersion single = .ok singleHash :=
  Taproot.leafHash_of_encode rfl rfl

/-- The control block of a script proves that script when the tree is filled. Of a tree that is not
    filled one is handed out only for the leaf after its gap, and that one proves the gap: its path
    leads from nothing to the root, and from the script to another root unless digests collide. -/
theorem controlBlock_proves {key : PublicKey} {tree : Tree Script} {info : SpendInfo}
    (made : make key tree = .ok info) {script : Script} {block : ControlBlock}
    (shown : info.controlBlock script = .ok block) :
    ∃ leafHash root, Taproot.leafHash Taproot.scriptLeafVersion script = .ok leafHash ∧
      info.merkleRoot = some root ∧
      (tree.Filled → Taproot.foldPath leafHash block.path = root ∧
        ∃ bytes written, script.encode = .ok bytes ∧ block.encode = .ok written ∧
          Taproot.verify written bytes info.outputKey.xOnly = true) ∧
      (¬ tree.Filled →
        (∃ index beside, tree.GapAt index beside ∧ position script 0 info.leaves = .ok index) ∧
        Taproot.foldPath [] block.path = root ∧
        (CollisionFree Sha256.digest
            (Taproot.climbMessages [] (block.path.chunks 32) ++
              Taproot.climbMessages leafHash (block.path.chunks 32)) →
          Taproot.foldPath leafHash block.path ≠ root)) := by
  obtain ⟨index, leaf, found, held, same, walked, built⟩ := controlBlock_ok made shown
  obtain ⟨bytes, leafEncoded, encoded⟩ := Script.same_true_iff.mp same
  obtain ⟨root, -, rooted, -, -, merkle, -⟩ := make_ok made
  have member := List.mem_of_getElem? held
  rcases filled_or_gap_of_merklePath rooted walked with filled | ⟨beside, hashes, gap, path, roots⟩
  · obtain ⟨hash, hashed⟩ := filled.hashLeaf_ok rooted leaf member
    obtain ⟨_, framed, encodedToo, frame, rfl⟩ := Taproot.leafHash_ok hashed
    cases leafEncoded.symm.trans encodedToo
    obtain ⟨beside, place⟩ := filled.leafAt held
    obtain ⟨path, walkedToo, size, climbed⟩ := climb_beside filled rooted place hashed
    cases walked.symm.trans walkedToo
    have nonempty := root_ne_nil filled rooted
    obtain ⟨_, written, builtToo, wrote, verified⟩ := block_opens made rooted nonempty
      block.whole block.shallow frame climbed
    cases built.symm.trans builtToo
    refine ⟨_, root, Taproot.leafHash_of_encode encoded frame, ?_, ?_, absurd filled⟩
    · rw [merkle, if_neg nonempty]
    · exact fun _ => ⟨climbed, bytes, written, encoded, wrote, verified⟩
  · obtain ⟨hash, hashed⟩ := gap.hashLeaf_ok rooted leaf member
    obtain ⟨_, framed, encodedToo, frame, rfl⟩ := Taproot.leafHash_ok hashed
    cases leafEncoded.symm.trans encodedToo
    obtain ⟨nonempty, climbed, apart⟩ := climb_gap rooted gap (List.ne_nil_of_mem member) roots
    rw [path]
    refine ⟨_, root, Taproot.leafHash_of_encode encoded frame, ?_, ?_, ?_⟩
    · rw [merkle, if_neg nonempty]
    · exact fun filled => absurd filled gap.not_filled
    · intro _
      exact ⟨⟨index, beside, gap, found⟩, climbed, apart _ (Taproot.length_leafHash hashed)⟩

theorem controlBlock_proves_wrappedPair :
    ∃ info block leafHash root, make generatorKey wrappedPair = .ok info ∧
      info.controlBlock single = .ok block ∧
      Taproot.leafHash Taproot.scriptLeafVersion single = .ok leafHash ∧
      info.merkleRoot = some root ∧ Taproot.foldPath leafHash block.path = root := by
  obtain ⟨info, made⟩ := make_wrappedPair
  have encoded : (⟨[.number 2]⟩ : Script).encode = .ok [0x52] := rfl
  have hashed := Taproot.leafHash_of_encode encoded rfl
  have found : position single 0 wrappedPair.leaves = .ok 0 := by
    rw [wrappedPair, Tree.leaves_branch, Tree.leaves_wrapper, Tree.leaves_leaf, Tree.leaves_leaf]
    rfl
  have walked : wrappedPair.merklePath (0 : Nat) =
      .ok (some (taggedHash "TapLeaf" [0xc0, 1, 0x52])) := by
    simp [wrappedPair, Tree.merklePath, Tree.merklePathBy, Tree.walk, hashed]
    rfl
  obtain ⟨block, shown, -⟩ := controlBlock_of_hash made found walked
    (Taproot.length_leafHash hashed)
  have filled : wrappedPair.Filled := .branch (.wrapper (.leaf _)) (.leaf _)
  obtain ⟨leafHash, root, leaf, merkle, proves, -⟩ := controlBlock_proves made shown
  exact ⟨info, block, leafHash, root, made, shown, leaf, merkle, (proves filled).1⟩

def gapped : Tree Script := .list [.absent, .leaf single]

theorem make_gapped : ∃ info, make generatorKey gapped = .ok info :=
  exists_make rfl (by decide +kernel)

theorem controlBlock_gapped :
    ∃ info block leafHash root, make generatorKey gapped = .ok info ∧
      info.controlBlock single = .ok block ∧
      Taproot.leafHash Taproot.scriptLeafVersion single = .ok leafHash ∧
      info.merkleRoot = some root ∧ Taproot.foldPath leafHash block.path ≠ root := by
  obtain ⟨info, made⟩ := make_gapped
  have found : position single 0 gapped.leaves = .ok 0 := by
    have leafed : gapped.leaves = [single] := by simp [gapped]
    rw [leafed]
    rfl
  have walked : gapped.merklePath (0 : Nat) = .ok (some singleHash) := by
    simp [gapped, Tree.merklePath, Tree.merklePathBy, Tree.walk, leafHash_single]
    rfl
  have branch : gapped.root = .ok (Taproot.branchHash [] singleHash) := by
    have hashed := leafHash_single
    rw [Taproot.leafHash] at hashed
    rw [gapped, Tree.root, Tree.rootWith, Tree.rootBy, Tree.rootBy, Tree.rootBy, hashed]
    rfl
  obtain ⟨root, -, rooted, -, -, merkle, -⟩ := make_ok made
  cases rooted.symm.trans branch
  have nonempty : Taproot.branchHash [] singleHash ≠ [] := by
    have size := Taproot.length_branchHash [] singleHash
    rintro nothing
    rw [nothing] at size
    cases size
  rw [if_neg nonempty] at merkle
  obtain ⟨block, shown, path, climbed⟩ := controlBlock_of_hash made found walked
    (Taproot.length_leafHash leafHash_single)
  refine ⟨info, block, singleHash, _, made, shown, leafHash_single, merkle, ?_⟩
  rw [climbed]
  decide +kernel

end SpendInfo

end SpendingPlan

import SpendingPlan.CompactSize.Lemmas
import SpendingPlan.Proofs.Bytes.Chunks
import SpendingPlan.Proofs.Curve.Evaluation
import SpendingPlan.Proofs.Script.Encoding
import SpendingPlan.Proofs.Taproot.Lifting
import SpendingPlan.Proofs.Taproot.Preimage
import SpendingPlan.Proofs.Tree.Position
import SpendingPlan.Taproot.ControlBlock
import SpendingPlan.Taproot.SpendInfo

namespace SpendingPlan

namespace Taproot

theorem branchHash_comm (a b : Bytes) : branchHash a b = branchHash b a := by
  rw [branchHash, branchHash, branchHashWith, branchHashWith, branchPreimage_comm]

theorem length_branchHash (a b : Bytes) : (branchHash a b).length = 32 :=
  length_taggedHash "TapBranch" (branchPreimage a b)

theorem leafHash_ok {script : Script} {hash : Bytes}
    (h : leafHash scriptLeafVersion script = .ok hash) :
    ∃ bytes framed, script.encode = .ok bytes ∧ CompactSize.frame bytes = .ok framed ∧
      hash = taggedHash "TapLeaf" (0xc0 :: framed) := by
  rw [leafHash, leafHashWith] at h
  obtain ⟨preimage, covered, h⟩ := bind_ok h
  obtain ⟨bytes, framed, encoded, frame, rfl⟩ := leafPreimage_ok_iff.mp covered
  cases h
  exact ⟨bytes, framed, encoded, frame, rfl⟩

theorem leafHash_of_encode {script : Script} {bytes framed : Bytes}
    (encoded : script.encode = .ok bytes) (frame : CompactSize.frame bytes = .ok framed) :
    leafHash scriptLeafVersion script = .ok (taggedHash "TapLeaf" (0xc0 :: framed)) := by
  have covered := leafPreimage_ok_iff.mpr ⟨bytes, framed, encoded, frame, rfl⟩
  rw [leafHash, leafHashWith, covered]
  rfl

theorem length_leafHash {script : Script} {hash : Bytes}
    (h : leafHash scriptLeafVersion script = .ok hash) : hash.length = 32 := by
  obtain ⟨_, framed, -, -, rfl⟩ := leafHash_ok h
  exact length_taggedHash "TapLeaf" (0xc0 :: framed)

theorem isOutput_outputKey {internalKey : Bytes} {tweak : Nat} {key : OutputKey}
    (h : outputKey internalKey tweak = .ok key) :
    (tweakedPoint internalKey tweak).any (isOutput key.xOnly key.odd) = true := by
  unfold outputKey at h
  cases ordinate : Curve.evenOrdinate? internalKey.toNatBE with
  | none =>
    simp only [ordinate] at h
    cases h
  | some y =>
    simp only [ordinate] at h
    obtain ⟨_, -, h⟩ := bind_ok h
    obtain ⟨lifted, coordinates, h⟩ := bind_ok h
    unfold PublicKey.ofCoordinates at coordinates
    split at coordinates
    · rename_i holds
      cases coordinates
      rw [tweakedPoint, if_pos holds.1, ordinate]
      simp only [Option.map_some, Option.any_some]
      split at h
      · cases h
      · rename_i x y' sum
        cases h
        simp [sum, isOutput]
    · cases coordinates

theorem tweak_ok {internalKey : Bytes} {root : Option Bytes} {value : Nat}
    (h : tweak internalKey root = .ok value) :
    Bytes.toNatBE (taggedHash "TapTweak" (internalKey ++ root.getD [])) = value ∧
      value < Curve.order := by
  rw [tweak] at h
  by_cases large : Curve.order ≤ Bytes.toNatBE (taggedHash "TapTweak" (internalKey ++ root.getD []))
  · rw [if_pos large] at h
    cases h
  · rw [if_neg large] at h
    cases h
    exact ⟨rfl, Nat.lt_of_not_le large⟩

theorem exists_outputKey {key : PublicKey} {tweak : Nat} (small : tweak < Curve.order)
    (even : key.isOdd = false)
    (finite : (Curve.Point.affine key.x key.y).addBy Curve.quickInverse
      (Curve.Point.mulWithin Curve.order tweak Curve.generator) ≠ .infinity) :
    ∃ output, outputKey key.xOnly tweak = .ok output := by
  have reduced : ((tweak : Int) % Curve.order).toNat = tweak := by
    rw [Int.emod_eq_of_lt (by omega) (by omega), Int.toNat_natCast]
  rw [key.outputKey_xOnly, PublicKey.evenOrdinate, even, if_neg Bool.false_ne_true,
    Curve.mulGenerator_eq_mulWithin, reduced, Curve.Point.add_eq]
  cases sum : (Curve.Point.affine key.x key.y).addBy Curve.quickInverse
      (Curve.Point.mulWithin Curve.order tweak Curve.generator) with
  | infinity => exact absurd sum finite
  | affine x y => exact ⟨_, rfl⟩

/-- A control block opens an output when its parts do: the version byte and the framed script hash
    to the leaf, the path leads to the root, and the root ties the internal key to the output. -/
theorem verify_of_parts {first : UInt8} {internalKey path script framed root : Bytes} {tweak : Nat}
    {key : OutputKey} (version : first &&& 0xfe = 0xc0)
    (parity : decide (first &&& 1 = 1) = key.odd)
    (keyLength : internalKey.length = 32) (whole : path.length % 32 = 0)
    (shallow : path.length / 32 ≤ maxPathHashes) (frame : CompactSize.frame script = .ok framed)
    (climbed : foldPath (taggedHash "TapLeaf" (0xc0 :: framed)) path = root)
    (tied : Taproot.tweak internalKey (some root) = .ok tweak)
    (made : outputKey internalKey tweak = .ok key) :
    verify (first :: (internalKey ++ path)) script key.xOnly = true := by
  obtain ⟨value, small⟩ := tweak_ok tied
  rw [Option.getD_some] at value
  have opened := isOutput_outputKey made
  have long : 32 ≤ (internalKey ++ path).length := by
    rw [List.length_append, keyLength]
    exact Nat.le_add_right 32 path.length
  unfold verify
  simp only [frame, List.take_left' keyLength, List.drop_left' keyLength, version, climbed, value,
    parity, opened, whole, shallow, small, long, decide_true, Bool.and_self]

end Taproot

theorem ControlBlock.encode_script (block : ControlBlock)
    (version : block.version = Taproot.scriptLeafVersion) :
    ∃ first : UInt8, block.encode = .ok (first :: (block.key.xOnly ++ block.path)) ∧
      first &&& 0xfe = 0xc0 ∧ decide (first &&& 1 = 1) = block.odd := by
  rw [ControlBlock.encode, version]
  cases block.odd with
  | false => exact ⟨0xc0, rfl, by decide, by decide⟩
  | true => exact ⟨0xc1, rfl, by decide, by decide⟩

namespace SpendInfo

theorem make_ok {key : PublicKey} {tree : Tree Script} {info : SpendInfo}
    (h : make key tree = .ok info) :
    ∃ root tweak, tree.root = .ok root ∧ info.internalKey = key ∧ info.tree = tree ∧
      info.merkleRoot = (if root = [] then none else some root) ∧
      Taproot.tweak key.xOnly info.merkleRoot = .ok tweak ∧
      Taproot.outputKey key.xOnly tweak = .ok info.outputKey := by
  rw [make] at h
  obtain ⟨root, rooted, h⟩ := bind_ok h
  obtain ⟨tweak, tied, h⟩ := bind_ok h
  obtain ⟨output, made, h⟩ := bind_ok h
  cases h
  exact ⟨root, tweak, rooted, rfl, rfl, rfl, tied, made⟩

theorem length_merkleRoot {key : PublicKey} {tree : Tree Script} {info : SpendInfo}
    (made : make key tree = .ok info) {root : Bytes} (given : info.merkleRoot = some root) :
    root.length = 32 := by
  obtain ⟨hash, -, rooted, -, -, merkle, -⟩ := make_ok made
  rw [merkle] at given
  split at given
  · cases given
  · rename_i nonempty
    cases given
    have size := Tree.length_root_or_nil rooted (fun _ _ => Taproot.length_leafHash)
      Taproot.length_branchHash
    exact size.resolve_left nonempty

theorem root_ne_nil {tree : Tree Script} (filled : tree.Filled) {root : Bytes}
    (rooted : tree.root = .ok root) : root ≠ [] := by
  have size := filled.length_root rooted (fun _ _ => Taproot.length_leafHash)
    Taproot.length_branchHash
  rintro rfl
  cases size

theorem climb_beside {tree : Tree Script} (filled : tree.Filled) {root : Bytes}
    (rooted : tree.root = .ok root) {index : Nat} {leaf : Script} {beside : List (Tree Script)}
    (place : tree.LeafAt index leaf beside) {leafHash : Bytes}
    (hashed : Taproot.leafHash Taproot.scriptLeafVersion leaf = .ok leafHash) :
    ∃ path, tree.merklePath index = .ok (some path) ∧ path.length = 32 * beside.length ∧
      Taproot.foldPath leafHash path = root := by
  obtain ⟨hashes, roots, found⟩ := place.merklePathBy filled rooted
  have even := place.length_hashes filled roots (fun _ _ => Taproot.length_leafHash)
    Taproot.length_branchHash
  refine ⟨hashes.flatten, found, ?_, ?_⟩
  · rw [Bytes.length_flatten even, roots.length_eq]
  · rw [Taproot.foldPath, Bytes.chunks_flatten (by decide) hashes even]
    exact place.fold_beside Taproot.branchHash_comm rooted hashed roots

theorem block_opens {key : PublicKey} {tree : Tree Script} {info : SpendInfo}
    (made : make key tree = .ok info) {root path bytes framed : Bytes}
    (rooted : tree.root = .ok root) (nonempty : root ≠ []) (whole : path.length % 32 = 0)
    (few : path.length / 32 ≤ maxPathHashes) (frame : CompactSize.frame bytes = .ok framed)
    (climbed : Taproot.foldPath (taggedHash "TapLeaf" (0xc0 :: framed)) path = root) :
    ∃ block written,
      ControlBlock.make key path info.outputKey.odd Taproot.scriptLeafVersion = .ok block ∧
        block.encode = .ok written ∧ Taproot.verify written bytes info.outputKey.xOnly = true := by
  obtain ⟨root', tweak, rooted', -, -, merkle, tied, output⟩ := make_ok made
  cases rooted.symm.trans rooted'
  rw [merkle, if_neg nonempty] at tied
  obtain ⟨first, written, version, parity⟩ := ControlBlock.encode_script
    ⟨key, path, info.outputKey.odd, Taproot.scriptLeafVersion, whole, few⟩ rfl
  refine ⟨_, _, ?_, written, ?_⟩
  · rw [ControlBlock.make, dif_pos whole, dif_pos few]
  · exact Taproot.verify_of_parts version parity key.length_xOnly whole few frame climbed tied
      output

/-- Whether a tree has an output key, in a form that is meant to be evaluated. -/
def hasOutput (key : PublicKey) (tree : Tree Script) : Except Error Bool := do
  let root ← tree.root
  let tweak ← Taproot.tweak key.xOnly (if root = [] then none else some root)
  return decide ((Curve.Point.affine key.x key.y).addBy Curve.quickInverse
    (Curve.Point.mulWithin Curve.order tweak Curve.generator) ≠ .infinity)

theorem exists_make {key : PublicKey} {tree : Tree Script} (even : key.isOdd = false)
    (given : hasOutput key tree = .ok true) : ∃ info, make key tree = .ok info := by
  obtain ⟨root, rooted, given⟩ := bind_ok given
  obtain ⟨tweak, tied, given⟩ := bind_ok given
  have finite := of_decide_eq_true (Except.ok.inj given)
  obtain ⟨-, small⟩ := Taproot.tweak_ok tied
  obtain ⟨output, made⟩ := Taproot.exists_outputKey small even finite
  rw [make, rooted, ok_bind]
  dsimp only
  rw [tied, ok_bind, made, ok_bind]
  exact ⟨_, rfl⟩

def generatorKey : PublicKey where
  x := 0x79be667ef9dcbbac55a06295ce870b07029bfcdb2dce28d959f2815b16f81798
  y := 0x483ada7726a3c4655da4fbfc0e1108a8fd17b448a68554199c47d08ffb10d4b8
  holds := by decide

def wrappedPair : Tree Script :=
  .list [.list [.leaf ⟨[.word "OP_1"]⟩], .leaf ⟨[.number 2]⟩]

theorem make_wrappedPair : ∃ info, make generatorKey wrappedPair = .ok info :=
  exists_make rfl (by decide +kernel)

end SpendInfo

end SpendingPlan

import SpendingPlan.Proofs.CompactSize.Limit
import SpendingPlan.Proofs.PrefixFree
import SpendingPlan.Proofs.Script.Encoding
import SpendingPlan.Proofs.Taproot.Preimage
import SpendingPlan.Proofs.Tree.Alike

namespace SpendingPlan

/-- No two of the messages have one digest. -/
def CollisionFree (sha : Bytes → Bytes) (messages : List Bytes) : Prop :=
  ∀ x ∈ messages, ∀ y ∈ messages, sha x = sha y → x = y

/-- The messages of a tagged hash: its tag, and the data after the digest of the tag. -/
def taggedMessages (sha : Bytes → Bytes) (tag : String) (data : Bytes) : List Bytes :=
  let name := tag.toUTF8.data.toList
  [name, sha name ++ sha name ++ data]

theorem taggedHashWith_inj {sha : Bytes → Bytes} {messages : List Bytes}
    (free : CollisionFree sha messages) (size : ∀ bytes, (sha bytes).length = 32)
    {tag tag' : String} {data data' : Bytes} (left : taggedMessages sha tag data ⊆ messages)
    (right : taggedMessages sha tag' data' ⊆ messages)
    (same : taggedHashWith sha tag data = taggedHashWith sha tag' data') :
    tag.toUTF8.data.toList = tag'.toUTF8.data.toList ∧ data = data' := by
  simp only [taggedMessages, List.cons_subset] at left right
  have whole := free _ left.2.1 _ right.2.1 same
  obtain ⟨digests, rest⟩ := List.append_inj whole (by simp [size])
  obtain ⟨digest, -⟩ := List.append_inj digests (by simp [size])
  exact ⟨free _ left.1 _ right.1 digest, rest⟩

namespace Tree

def hashed (sha : Bytes → Bytes) : Tree Script → List Bytes
  | .leaf script =>
    match Taproot.leafPreimage Taproot.scriptLeafVersion script with
    | .ok preimage => taggedMessages sha "TapLeaf" preimage
    | .error _ => []
  | .list [tree] => hashed sha tree
  | .list [left, right] =>
    hashed sha left ++ hashed sha right ++
      match rootWith sha left, rootWith sha right with
      | .ok a, .ok b => taggedMessages sha "TapBranch" (Taproot.branchPreimage a b)
      | _, _ => []
  | _ => []

/-- A filled tree with its root, hashed over some of the given messages. -/
structure Commits (sha : Bytes → Bytes) (messages : List Bytes) (tree : Tree Script)
    (root : Bytes) : Prop where
  filled : tree.Filled
  within : tree.hashed sha ⊆ messages
  rooted : tree.rootWith sha = .ok root

namespace Commits

variable {sha : Bytes → Bytes} {messages : List Bytes}

theorem of_leaf {script : Script} {root : Bytes} (h : Commits sha messages (.leaf script) root) :
    ∃ preimage, Taproot.leafPreimage Taproot.scriptLeafVersion script = .ok preimage ∧
      taggedMessages sha "TapLeaf" preimage ⊆ messages ∧
      root = taggedHashWith sha "TapLeaf" preimage := by
  have rooted := h.rooted
  have within := h.within
  rw [rootWith, rootBy, Taproot.leafHashWith] at rooted
  obtain ⟨preimage, covered, rooted⟩ := bind_ok rooted
  cases rooted
  rw [hashed, covered] at within
  exact ⟨preimage, covered, within, rfl⟩

theorem of_wrapper {tree : Tree Script} {root : Bytes}
    (h : Commits sha messages (.list [tree]) root) : Commits sha messages tree root := by
  obtain ⟨filled, within, rooted⟩ := h
  cases filled with
  | wrapper inner =>
    rw [hashed] at within
    rw [rootWith, rootBy] at rooted
    exact ⟨inner, within, rooted⟩

theorem of_branch {left right : Tree Script} {root : Bytes}
    (h : Commits sha messages (.list [left, right]) root) :
    ∃ first second, Commits sha messages left first ∧ Commits sha messages right second ∧
      taggedMessages sha "TapBranch" (Taproot.branchPreimage first second) ⊆ messages ∧
      root = Taproot.branchHashWith sha first second := by
  obtain ⟨filled, within, rooted⟩ := h
  obtain ⟨first, second, leftRoot, rightRoot, rfl⟩ := rootBy_branch rooted
  have leftRoot : left.rootWith sha = .ok first := leftRoot
  have rightRoot : right.rootWith sha = .ok second := rightRoot
  rw [hashed, leftRoot, rightRoot, List.append_subset, List.append_subset] at within
  cases filled with
  | branch inner other =>
    exact ⟨first, second, ⟨inner, within.1.1, leftRoot⟩, ⟨other, within.1.2, rightRoot⟩, within.2,
      rfl⟩

theorem length_root (size : ∀ bytes, (sha bytes).length = 32) {tree : Tree Script} {root : Bytes}
    (h : Commits sha messages tree root) : root.length = 32 := by
  apply h.filled.length_root h.rooted
  · intro script hash hashed
    rw [Taproot.leafHashWith] at hashed
    obtain ⟨preimage, -, hashed⟩ := bind_ok hashed
    cases hashed
    exact size _
  · intro a b
    exact size _

variable (free : CollisionFree sha messages) (size : ∀ bytes, (sha bytes).length = 32)

include free size

theorem leaf_ne_branch {preimage : Bytes} {first second : Bytes}
    (leaf : taggedMessages sha "TapLeaf" preimage ⊆ messages)
    (branch : taggedMessages sha "TapBranch" (Taproot.branchPreimage first second) ⊆ messages) :
    taggedHashWith sha "TapLeaf" preimage ≠ Taproot.branchHashWith sha first second := by
  intro same
  obtain ⟨tags, -⟩ := taggedHashWith_inj free size leaf branch same
  exact absurd tags (by decide)

theorem alike_leaf {script : Script} {tree : Tree Script} {root : Bytes}
    (h : Commits sha messages (.leaf script) root) (other : Commits sha messages tree root) :
    Alike (fun a b => a.same b = .ok true) (.leaf script) tree := by
  have filled := other.filled
  induction filled with
  | leaf script' =>
    obtain ⟨preimage, covered, within, rfl⟩ := h.of_leaf
    obtain ⟨preimage', covered', within', same⟩ := other.of_leaf
    obtain ⟨-, rfl⟩ := taggedHashWith_inj free size within within' same
    obtain ⟨bytes, framed, encoded, frame, rfl⟩ := Taproot.leafPreimage_ok_iff.mp covered
    obtain ⟨bytes', _, encoded', frame', same⟩ := Taproot.leafPreimage_ok_iff.mp covered'
    cases same
    obtain rfl := PrefixFree.frame.injective frame frame'
    exact .leaf (Script.same_true encoded encoded')
  | wrapper _ ih => exact (ih other.of_wrapper).trans (.symm (.unwrap _))
  | branch _ _ _ _ =>
    obtain ⟨preimage, -, leaf, rfl⟩ := h.of_leaf
    obtain ⟨first, second, -, -, branch, same⟩ := other.of_branch
    exact absurd same (leaf_ne_branch free size leaf branch)

/-- Two trees with one root are alike: the tags tell leaves from branches, the frame tells scripts
    apart, and a branch is hashed over the roots of its children in an order of their own. -/
theorem alike {a b : Tree Script} {root : Bytes} (h : Commits sha messages a root)
    (other : Commits sha messages b root) : Alike (fun x y => x.same y = .ok true) a b := by
  have filled := h.filled
  induction filled generalizing b root with
  | leaf script => exact alike_leaf free size h other
  | wrapper _ ih => exact .trans (.unwrap _) (ih h.of_wrapper other)
  | branch _ _ ihLeft ihRight =>
    have filled' := other.filled
    induction filled' with
    | leaf script => exact .symm (alike_leaf free size other h)
    | wrapper _ ih => exact (ih other.of_wrapper).trans (.symm (.unwrap _))
    | branch _ _ _ _ =>
      obtain ⟨first, second, left, right, within, rfl⟩ := h.of_branch
      obtain ⟨third, fourth, left', right', within', same⟩ := other.of_branch
      obtain ⟨-, children⟩ := taggedHashWith_inj free size within within' same
      have pairs := Taproot.branchPreimage_inj (left.length_root size) (right.length_root size)
        (left'.length_root size) (right'.length_root size) children
      rcases pairs with ⟨rfl, rfl⟩ | ⟨rfl, rfl⟩
      · exact .branch (ihLeft left left') (ihRight right right')
      · exact .trans (.branch (ihLeft left right') (ihRight right left')) (.swap _ _)

end Commits

theorem hashLeaf_iff_of_same {sha : Bytes → Bytes} {a b : Script} (same : a.same b = .ok true)
    (hash : Bytes) :
    Taproot.leafHashWith sha Taproot.scriptLeafVersion a = .ok hash ↔
      Taproot.leafHashWith sha Taproot.scriptLeafVersion b = .ok hash := by
  obtain ⟨bytes, first, second⟩ := Script.same_true_iff.mp same
  have preimages : Taproot.leafPreimage Taproot.scriptLeafVersion a =
      Taproot.leafPreimage Taproot.scriptLeafVersion b := by
    rw [Taproot.leafPreimage, Taproot.leafPreimage, first, second]
  rw [Taproot.leafHashWith, Taproot.leafHashWith, preimages]

theorem Filled.rootWith_ok {sha : Bytes → Bytes} {tree : Tree Script} (filled : tree.Filled)
    (encodable : ∀ leaf ∈ tree.leaves, ∃ bytes, leaf.encode = .ok bytes) :
    (∃ root, tree.rootWith sha = .ok root) ∨
      ∃ leaf ∈ tree.leaves, ∃ bytes, leaf.encode = .ok bytes ∧
        CompactSize.limit ≤ bytes.length := by
  by_cases long : ∃ leaf ∈ tree.leaves, ∃ bytes, leaf.encode = .ok bytes ∧
      CompactSize.limit ≤ bytes.length
  · exact .inr long
  · left
    apply filled.rootBy_ok
    intro leaf member
    obtain ⟨bytes, encoded⟩ := encodable leaf member
    have short : bytes.length < CompactSize.limit := by
      by_contra large
      exact long ⟨leaf, member, bytes, encoded, Nat.le_of_not_lt large⟩
    obtain ⟨framed, frame⟩ := CompactSize.frame_of_lt short
    have covered := Taproot.leafPreimage_ok_iff.mpr ⟨bytes, framed, encoded, frame, rfl⟩
    exact ⟨_, by rw [Taproot.leafHashWith, covered]; rfl⟩

/-- Trees of scripts that are alike have one root, and without a collision among the messages that
    are hashed for two roots only trees that are alike have one. -/
theorem alike_iff_rootWith {sha : Bytes → Bytes} (size : ∀ bytes, (sha bytes).length = 32)
    {a b : Tree Script} (filled : a.Filled) (filled' : b.Filled)
    (encodable : ∀ leaf ∈ a.leaves ++ b.leaves, ∃ bytes, leaf.encode = .ok bytes) :
    (Alike (fun x y => x.same y = .ok true) a b →
      (∀ root, a.rootWith sha = .ok root ↔ b.rootWith sha = .ok root) ∧
        ((∃ root, a.rootWith sha = .ok root) ∨
          ∃ leaf ∈ a.leaves, ∃ bytes, leaf.encode = .ok bytes ∧
            CompactSize.limit ≤ bytes.length)) ∧
    (CollisionFree sha (a.hashed sha ++ b.hashed sha) → ∀ root, a.rootWith sha = .ok root →
      b.rootWith sha = .ok root → Alike (fun x y => x.same y = .ok true) a b) := by
  constructor
  · intro alike
    constructor
    · apply alike.rootBy_iff
      · intro x y same
        exact hashLeaf_iff_of_same same
      · intro x y
        rw [Taproot.branchHashWith, Taproot.branchHashWith, Taproot.branchPreimage_comm]
    · apply filled.rootWith_ok
      intro leaf member
      exact encodable leaf (List.mem_append_left _ member)
  · intro free root rooted rooted'
    have first : Commits sha (a.hashed sha ++ b.hashed sha) a root :=
      ⟨filled, List.subset_append_left _ _, rooted⟩
    have second : Commits sha (a.hashed sha ++ b.hashed sha) b root :=
      ⟨filled', List.subset_append_right _ _, rooted'⟩
    exact first.alike free size second

def pair : Tree Script :=
  .list [.list [.leaf ⟨[.word "OP_1"]⟩], .leaf ⟨[.word "ac"]⟩]

def pairRespelled : Tree Script :=
  .list [.leaf ⟨[.word "AC"]⟩, .list [.leaf ⟨[.number 1]⟩]]

theorem collisionFree_pair :
    CollisionFree Sha256.digest
      (pair.hashed Sha256.digest ++ pairRespelled.hashed Sha256.digest) := by
  unfold CollisionFree
  decide +kernel

theorem alike_iff_rootWith_pair :
    ∃ root, pair.rootWith Sha256.digest = .ok root ∧
      pairRespelled.rootWith Sha256.digest = .ok root ∧
      Alike (fun x y => x.same y = .ok true) pair pairRespelled := by
  have filled : pair.Filled := .branch (.wrapper (.leaf _)) (.leaf _)
  have filled' : pairRespelled.Filled := .branch (.leaf _) (.wrapper (.leaf _))
  have leaves : pair.leaves = [⟨[.word "OP_1"]⟩, ⟨[.word "ac"]⟩] := by simp [pair]
  have leaves' : pairRespelled.leaves = [⟨[.word "AC"]⟩, ⟨[.number 1]⟩] := by simp [pairRespelled]
  have encodable : ∀ leaf ∈ pair.leaves ++ pairRespelled.leaves,
      ∃ bytes, leaf.encode = .ok bytes := by
    rw [leaves, leaves']
    intro leaf member
    exact exists_ok_of_isOk (by revert leaf; decide)
  have alike : Alike (fun x y => x.same y = .ok true) pair pairRespelled :=
    .trans (.swap _ _) (.branch (.leaf rfl) (.wrapper (.leaf rfl)))
  obtain ⟨sameRoots, binding⟩ :=
    alike_iff_rootWith Sha256.length_digest filled filled' encodable
  obtain ⟨roots, ⟨root, rooted⟩ | ⟨leaf, member, bytes, encoded, long⟩⟩ := sameRoots alike
  · have rooted' := (roots root).mp rooted
    exact ⟨root, rooted, rooted', binding collisionFree_pair root rooted rooted'⟩
  · rw [leaves] at member
    have short : ∀ leaf ∈ [(⟨[.word "OP_1"]⟩ : Script), ⟨[.word "ac"]⟩],
        leaf.encode.toOption.any (fun bytes => bytes.length < CompactSize.limit) = true := by
      decide
    have bound := short leaf member
    rw [encoded] at bound
    have small : bytes.length < CompactSize.limit := of_decide_eq_true bound
    omega

end Tree

end SpendingPlan

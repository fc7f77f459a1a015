import SpendingPlan.Proofs.Outcome
import SpendingPlan.Proofs.Related
import SpendingPlan.Taproot.Tree

namespace SpendingPlan.Tree

variable {α : Type}

/-- Leaves below wrappers and branches, with nothing absent among them. -/
inductive Filled : Tree α → Prop
  | leaf (value : α) : Filled (.leaf value)
  | wrapper {tree : Tree α} : Filled tree → Filled (.list [tree])
  | branch {left right : Tree α} : Filled left → Filled right → Filled (.list [left, right])

/-- Leaf `index` of a tree, counted depth first, holds `value`. The trees beside the way from it up
    to the root come nearest first, one for each branch on the way. -/
inductive LeafAt : Tree α → Nat → α → List (Tree α) → Prop
  | leaf (value : α) : LeafAt (.leaf value) 0 value []
  | wrapper {tree : Tree α} {index : Nat} {value : α} {beside : List (Tree α)} :
      LeafAt tree index value beside → LeafAt (.list [tree]) index value beside
  | left {left right : Tree α} {index : Nat} {value : α} {beside : List (Tree α)} :
      LeafAt left index value beside →
        LeafAt (.list [left, right]) index value (beside ++ [right])
  | right {left right : Tree α} {index : Nat} {value : α} {beside : List (Tree α)} :
      LeafAt right index value beside →
        LeafAt (.list [left, right]) (left.leaves.length + index) value (beside ++ [left])

@[simp] theorem leaves_leaf (value : α) : (leaf value).leaves = [value] := by simp [leaves]

@[simp] theorem leaves_wrapper (tree : Tree α) : (list [tree]).leaves = tree.leaves := by
  simp [leaves]

@[simp] theorem leaves_branch (left right : Tree α) :
    (list [left, right]).leaves = left.leaves ++ right.leaves := by
  simp [leaves]

theorem LeafAt.getElem? {tree : Tree α} {index : Nat} {value : α} {beside : List (Tree α)}
    (place : LeafAt tree index value beside) : tree.leaves[index]? = some value := by
  induction place with
  | leaf value => simp
  | wrapper _ ih => simpa using ih
  | left below ih =>
    rw [leaves_branch, List.getElem?_append_left]
    · exact ih
    · exact (List.getElem?_eq_some_iff.mp ih).1
  | right below ih =>
    rw [leaves_branch, List.getElem?_append_right (Nat.le_add_right _ _), Nat.add_sub_cancel_left]
    exact ih

theorem Filled.leafAt {tree : Tree α} (filled : tree.Filled) {index : Nat} {value : α}
    (held : tree.leaves[index]? = some value) : ∃ beside, LeafAt tree index value beside := by
  induction filled generalizing index with
  | leaf single =>
    rw [leaves_leaf, List.getElem?_singleton] at held
    split at held
    · rename_i first
      cases held
      exact ⟨[], first ▸ .leaf value⟩
    · cases held
  | wrapper _ ih =>
    obtain ⟨beside, below⟩ := ih (by simpa using held)
    exact ⟨beside, .wrapper below⟩
  | @branch left right _ _ ihLeft ihRight =>
    rw [leaves_branch, List.getElem?_append] at held
    split at held
    · obtain ⟨beside, below⟩ := ihLeft held
      exact ⟨_, .left below⟩
    · rename_i beyond
      obtain ⟨beside, below⟩ := ihRight held
      have shifted : left.leaves.length + (index - left.leaves.length) = index := by omega
      exact ⟨beside ++ [left], shifted ▸ LeafAt.right below⟩

theorem LeafAt.filled_beside {tree : Tree α} {index : Nat} {value : α} {beside : List (Tree α)}
    (place : LeafAt tree index value beside) (filled : tree.Filled) :
    ∀ other ∈ beside, other.Filled := by
  induction place with
  | leaf value => simp
  | wrapper _ ih =>
    cases filled with
    | wrapper inner => exact ih inner
  | left _ ih =>
    cases filled with
    | branch first second =>
      intro other member
      rcases List.mem_append.mp member with member | member
      · exact ih first other member
      · exact List.mem_singleton.mp member ▸ second
  | right _ ih =>
    cases filled with
    | branch first second =>
      intro other member
      rcases List.mem_append.mp member with member | member
      · exact ih second other member
      · exact List.mem_singleton.mp member ▸ first

section Hashing

variable {hashLeaf : α → Except Error Bytes} {join : Bytes → Bytes → Bytes}

theorem rootBy_branch {left right : Tree α} {root : Bytes}
    (h : rootBy hashLeaf join (.list [left, right]) = .ok root) :
    ∃ first second, rootBy hashLeaf join left = .ok first ∧
      rootBy hashLeaf join right = .ok second ∧ root = join first second := by
  rw [rootBy] at h
  obtain ⟨first, leftRoot, h⟩ := bind_ok h
  obtain ⟨second, rightRoot, h⟩ := bind_ok h
  cases h
  exact ⟨first, second, leftRoot, rightRoot, rfl⟩

theorem Filled.hashLeaf_ok {tree : Tree α} (filled : tree.Filled) {root : Bytes}
    (h : rootBy hashLeaf join tree = .ok root) :
    ∀ value ∈ tree.leaves, ∃ hash, hashLeaf value = .ok hash := by
  induction filled generalizing root with
  | leaf single =>
    intro value member
    rw [leaves_leaf, List.mem_singleton] at member
    rw [rootBy] at h
    exact ⟨root, member ▸ h⟩
  | wrapper _ ih =>
    rw [rootBy] at h
    simpa using ih h
  | branch _ _ ihLeft ihRight =>
    obtain ⟨first, second, leftRoot, rightRoot, -⟩ := rootBy_branch h
    intro value member
    rw [leaves_branch, List.mem_append] at member
    rcases member with member | member
    · exact ihLeft leftRoot value member
    · exact ihRight rightRoot value member

theorem Filled.length_root {size : Nat} {tree : Tree α} (filled : tree.Filled) {root : Bytes}
    (h : rootBy hashLeaf join tree = .ok root)
    (leafSize : ∀ value hash, hashLeaf value = .ok hash → hash.length = size)
    (joinSize : ∀ a b, (join a b).length = size) : root.length = size := by
  induction filled generalizing root with
  | leaf value =>
    rw [rootBy] at h
    exact leafSize value root h
  | wrapper _ ih =>
    rw [rootBy] at h
    exact ih h
  | branch _ _ _ _ =>
    obtain ⟨first, second, -, -, rfl⟩ := rootBy_branch h
    exact joinSize first second

theorem length_root_or_nil {size : Nat} {tree : Tree α} {root : Bytes}
    (h : rootBy hashLeaf join tree = .ok root)
    (leafSize : ∀ value hash, hashLeaf value = .ok hash → hash.length = size)
    (joinSize : ∀ a b, (join a b).length = size) : root = [] ∨ root.length = size := by
  induction tree using rootBy.induct generalizing root with
  | case1 =>
    rw [rootBy] at h
    cases h
    exact .inl rfl
  | case2 value =>
    rw [rootBy] at h
    exact .inr (leafSize value root h)
  | case3 =>
    rw [rootBy] at h
    cases h
    exact .inl rfl
  | case4 tree ih =>
    rw [rootBy] at h
    exact ih h
  | case5 left right _ _ =>
    obtain ⟨first, second, -, -, rfl⟩ := rootBy_branch h
    exact .inr (joinSize first second)
  | case6 =>
    rw [rootBy] at h
    cases h

theorem Filled.walk_outside {tree : Tree α} (filled : tree.Filled) {root : Bytes}
    (h : rootBy hashLeaf join tree = .ok root) {target : Int} {first : Nat}
    (outside : target < first ∨ (first + tree.leaves.length : Nat) ≤ target) :
    walk hashLeaf join target tree first = .ok (.hash root, first + tree.leaves.length) := by
  induction filled generalizing root first with
  | leaf value =>
    rw [rootBy] at h
    rw [leaves_leaf, List.length_singleton] at outside
    have other : ¬ (first : Int) = target := by omega
    rw [walk, if_neg other, h, leaves_leaf]
    rfl
  | wrapper _ ih =>
    rw [rootBy] at h
    rw [leaves_wrapper] at outside ⊢
    rw [walk]
    exact ih h outside
  | branch _ _ ihLeft ihRight =>
    obtain ⟨left, right, leftRoot, rightRoot, rfl⟩ := rootBy_branch h
    rw [leaves_branch, List.length_append] at outside
    rw [walk, ihLeft leftRoot (by omega)]
    show (walk hashLeaf join target _ _ >>= _) = _
    rw [ihRight rightRoot (by omega), leaves_branch, List.length_append, ← Nat.add_assoc]
    rfl

theorem LeafAt.walk_inside {tree : Tree α} {index : Nat} {value : α} {beside : List (Tree α)}
    (place : LeafAt tree index value beside) (filled : tree.Filled) {root : Bytes}
    (h : rootBy hashLeaf join tree = .ok root) (first : Nat) :
    ∃ hashes, List.Forall₂ (fun other hash => rootBy hashLeaf join other = .ok hash) beside hashes ∧
      walk hashLeaf join (first + index : Nat) tree first =
        .ok (.beside hashes.flatten, first + tree.leaves.length) := by
  induction place generalizing root first with
  | leaf value => exact ⟨[], .nil, by simp [walk]⟩
  | wrapper _ ih =>
    cases filled with
    | wrapper inner =>
      rw [rootBy] at h
      obtain ⟨hashes, roots, found⟩ := ih inner h first
      exact ⟨hashes, roots, by rw [walk, leaves_wrapper, found]⟩
  | @left left right index value beside below ih =>
    cases filled with
    | branch inner other =>
      obtain ⟨_, second, leftRoot, rightRoot, rfl⟩ := rootBy_branch h
      obtain ⟨hashes, roots, found⟩ := ih inner leftRoot first
      have bound := (List.getElem?_eq_some_iff.mp below.getElem?).1
      have outside : walk hashLeaf join (first + index : Nat) right (first + left.leaves.length) =
          .ok (.hash second, first + left.leaves.length + right.leaves.length) :=
        other.walk_outside rightRoot (by omega)
      refine ⟨hashes ++ [second], List.rel_append roots (.cons rightRoot .nil), ?_⟩
      rw [walk, found]
      show (walk hashLeaf join _ right _ >>= _) = _
      rw [outside, leaves_branch, List.length_append, ← Nat.add_assoc, List.flatten_append,
        List.flatten_singleton]
      rfl
  | @right left right index value beside below ih =>
    cases filled with
    | branch other inner =>
      obtain ⟨first', _, leftRoot, rightRoot, rfl⟩ := rootBy_branch h
      obtain ⟨hashes, roots, found⟩ := ih inner rightRoot (first + left.leaves.length)
      have outside : walk hashLeaf join (first + (left.leaves.length + index) : Nat) left first =
          .ok (.hash first', first + left.leaves.length) :=
        other.walk_outside leftRoot (by omega)
      refine ⟨hashes ++ [first'], List.rel_append roots (.cons leftRoot .nil), ?_⟩
      rw [walk, outside]
      show (walk hashLeaf join _ right _ >>= _) = _
      rw [← Nat.add_assoc, found, leaves_branch, List.length_append, ← Nat.add_assoc,
        List.flatten_append, List.flatten_singleton]
      rfl

/-- Joining the hashes beside the way to the hash of a leaf gives the root, on whichever side of the
    way each of them stands. -/
theorem LeafAt.fold_beside {tree : Tree α} {index : Nat} {value : α} {beside : List (Tree α)}
    (place : LeafAt tree index value beside) (comm : ∀ a b, join a b = join b a)
    {root leafHash : Bytes} (h : rootBy hashLeaf join tree = .ok root)
    (hashed : hashLeaf value = .ok leafHash) {hashes : List Bytes}
    (roots : List.Forall₂ (fun other hash => rootBy hashLeaf join other = .ok hash) beside hashes) :
    hashes.foldl join leafHash = root := by
  induction place generalizing root hashes with
  | leaf value =>
    cases roots
    rw [rootBy, hashed] at h
    cases h
    rfl
  | wrapper _ ih =>
    rw [rootBy] at h
    exact ih h hashed roots
  | left _ ih =>
    obtain ⟨first, second, leftRoot, rightRoot, rfl⟩ := rootBy_branch h
    obtain ⟨front, last, rfl, below, other⟩ := forall₂_snoc roots
    cases rightRoot.symm.trans other
    rw [List.foldl_append, ih leftRoot hashed below]
    rfl
  | right _ ih =>
    obtain ⟨first, second, leftRoot, rightRoot, rfl⟩ := rootBy_branch h
    obtain ⟨front, last, rfl, below, other⟩ := forall₂_snoc roots
    cases leftRoot.symm.trans other
    rw [List.foldl_append, ih rightRoot hashed below]
    exact comm second first

theorem LeafAt.length_hashes {size : Nat} {tree : Tree α} {index : Nat} {value : α}
    {beside : List (Tree α)} (place : LeafAt tree index value beside) (filled : tree.Filled)
    {hashes : List Bytes}
    (roots : List.Forall₂ (fun other hash => rootBy hashLeaf join other = .ok hash) beside hashes)
    (leafSize : ∀ value hash, hashLeaf value = .ok hash → hash.length = size)
    (joinSize : ∀ a b, (join a b).length = size) : ∀ hash ∈ hashes, hash.length = size := by
  intro hash member
  obtain ⟨i, bound, rfl⟩ := List.getElem_of_mem member
  have inside : i < beside.length := by rw [roots.length_eq]; exact bound
  have side := place.filled_beside filled beside[i] (List.getElem_mem inside)
  exact side.length_root (roots.get inside bound) leafSize joinSize

theorem LeafAt.merklePathBy {tree : Tree α} {index : Nat} {value : α} {beside : List (Tree α)}
    (place : LeafAt tree index value beside) (filled : tree.Filled) {root : Bytes}
    (h : rootBy hashLeaf join tree = .ok root) :
    ∃ hashes, List.Forall₂ (fun other hash => rootBy hashLeaf join other = .ok hash) beside hashes ∧
      tree.merklePathBy hashLeaf join index = .ok (some hashes.flatten) := by
  obtain ⟨hashes, roots, found⟩ := place.walk_inside filled h 0
  rw [Nat.zero_add] at found
  refine ⟨hashes, roots, ?_⟩
  rw [Tree.merklePathBy, found]
  rfl

theorem Filled.merklePathBy_outside {tree : Tree α} (filled : tree.Filled) {root : Bytes}
    (h : rootBy hashLeaf join tree = .ok root) {target : Int}
    (outside : target < 0 ∨ tree.leaves.length ≤ target) :
    tree.merklePathBy hashLeaf join target = .ok none := by
  rw [merklePathBy, filled.walk_outside h (by omega)]
  rfl

end Hashing

end SpendingPlan.Tree

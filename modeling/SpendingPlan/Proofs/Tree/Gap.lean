import SpendingPlan.Proofs.Tree.Position

namespace SpendingPlan.Tree

variable {α : Type}

/-- One entry of a tree is absent, after `index` leaves, and all else is filled. The trees beside
    the way from the gap up to the root come nearest first. -/
inductive GapAt : Tree α → Nat → List (Tree α) → Prop
  | absent : GapAt .absent 0 []
  | wrapper {tree : Tree α} {index : Nat} {beside : List (Tree α)} :
      GapAt tree index beside → GapAt (.list [tree]) index beside
  | left {left right : Tree α} {index : Nat} {beside : List (Tree α)} :
      GapAt left index beside → Filled right → GapAt (.list [left, right]) index (beside ++ [right])
  | right {left right : Tree α} {index : Nat} {beside : List (Tree α)} :
      Filled left → GapAt right index beside →
        GapAt (.list [left, right]) (left.leaves.length + index) (beside ++ [left])

@[simp] theorem leaves_absent : (absent : Tree α).leaves = [] := by simp [leaves]

namespace GapAt

variable {tree : Tree α} {index : Nat} {beside : List (Tree α)}

theorem index_le (gap : GapAt tree index beside) : index ≤ tree.leaves.length := by
  induction gap with
  | absent => exact Nat.zero_le _
  | wrapper _ ih => rwa [leaves_wrapper]
  | left _ _ ih =>
    rw [leaves_branch, List.length_append]
    omega
  | right _ _ ih =>
    rw [leaves_branch, List.length_append]
    omega

theorem not_filled (gap : GapAt tree index beside) : ¬ tree.Filled := by
  induction gap with
  | absent => exact nofun
  | wrapper _ ih =>
    rintro (_ | inner)
    exact ih inner
  | left _ _ ih =>
    rintro (_ | _ | ⟨inner, -⟩)
    exact ih inner
  | right _ _ ih =>
    rintro (_ | _ | ⟨-, inner⟩)
    exact ih inner

theorem filled_beside (gap : GapAt tree index beside) : ∀ other ∈ beside, other.Filled := by
  induction gap with
  | absent => simp
  | wrapper _ ih => exact ih
  | left _ filled ih => exact List.forall_mem_append.mpr ⟨ih, List.forall_mem_singleton.mpr filled⟩
  | right filled _ ih => exact List.forall_mem_append.mpr ⟨ih, List.forall_mem_singleton.mpr filled⟩

theorem leaves_eq_nil (gap : GapAt tree index []) : tree.leaves = [] := by
  generalize none : ([] : List (Tree α)) = beside at gap
  induction gap with
  | absent => exact leaves_absent
  | wrapper _ ih => rw [leaves_wrapper, ih none]
  | left => simp at none
  | right => simp at none

end GapAt

section Hashing

variable {hashLeaf : α → Except Error Bytes} {join : Bytes → Bytes → Bytes}

theorem GapAt.hashLeaf_ok {tree : Tree α} {index : Nat} {beside : List (Tree α)}
    (gap : GapAt tree index beside) {root : Bytes} (h : rootBy hashLeaf join tree = .ok root) :
    ∀ value ∈ tree.leaves, ∃ hash, hashLeaf value = .ok hash := by
  induction gap generalizing root with
  | absent => simp
  | wrapper _ ih =>
    rw [rootBy] at h
    simpa using ih h
  | left _ filled ih =>
    obtain ⟨first, second, leftRoot, rightRoot, -⟩ := rootBy_branch h
    rw [leaves_branch]
    exact List.forall_mem_append.mpr ⟨ih leftRoot, filled.hashLeaf_ok rightRoot⟩
  | right filled _ ih =>
    obtain ⟨first, second, leftRoot, rightRoot, -⟩ := rootBy_branch h
    rw [leaves_branch]
    exact List.forall_mem_append.mpr ⟨filled.hashLeaf_ok leftRoot, ih rightRoot⟩

/-- Nothing is joined at a gap: the way from it to the root starts with the empty hash. -/
theorem GapAt.fold_beside {tree : Tree α} {index : Nat} {beside : List (Tree α)}
    (gap : GapAt tree index beside) (comm : ∀ a b, join a b = join b a) {root : Bytes}
    (h : rootBy hashLeaf join tree = .ok root) {hashes : List Bytes}
    (roots : List.Forall₂ (fun other hash => rootBy hashLeaf join other = .ok hash) beside hashes) :
    hashes.foldl join [] = root := by
  induction gap generalizing root hashes with
  | absent =>
    cases roots
    rw [rootBy] at h
    cases h
    rfl
  | wrapper _ ih =>
    rw [rootBy] at h
    exact ih h roots
  | left _ _ ih =>
    obtain ⟨first, second, leftRoot, rightRoot, rfl⟩ := rootBy_branch h
    obtain ⟨front, last, rfl, below, other⟩ := forall₂_snoc roots
    cases rightRoot.symm.trans other
    rw [List.foldl_append, ih leftRoot below]
    rfl
  | right _ _ ih =>
    obtain ⟨first, second, leftRoot, rightRoot, rfl⟩ := rootBy_branch h
    obtain ⟨front, last, rfl, below, other⟩ := forall₂_snoc roots
    cases leftRoot.symm.trans other
    rw [List.foldl_append, ih rightRoot below]
    exact comm second first

/-- What a walk of a tree with a gap comes back with: it passes only when the gap has the number
    that is looked for, and it takes the gap for that leaf. -/
def GapFound (hashLeaf : α → Except Error Bytes) (join : Bytes → Bytes → Bytes) (target : Int)
    (tree : Tree α) (first : Nat) (sighting : Sighting) (next : Nat) : Prop :=
  ∃ index beside hashes, tree.GapAt index beside ∧ target = (first + index : Nat) ∧
    List.Forall₂ (fun other hash => rootBy hashLeaf join other = .ok hash) beside hashes ∧
    sighting = .beside hashes.flatten ∧ next = first + tree.leaves.length + 1

theorem walk_branch {target : Int} {left right : Tree α} {first next : Nat} {sighting : Sighting}
    (h : walk hashLeaf join target (.list [left, right]) first = .ok (sighting, next)) :
    ∃ a b middle, walk hashLeaf join target left first = .ok (a, middle) ∧
      walk hashLeaf join target right middle = .ok (b, next) ∧ sighting = a.merge join b := by
  rw [walk] at h
  obtain ⟨⟨a, middle⟩, leftWalk, h⟩ := bind_ok h
  obtain ⟨⟨b, last⟩, rightWalk, h⟩ := bind_ok h
  cases h
  exact ⟨a, b, middle, leftWalk, rightWalk, rfl⟩

theorem filled_or_gap_of_walk {tree : Tree α} {root : Bytes}
    (rooted : rootBy hashLeaf join tree = .ok root) {target : Int} {first next : Nat}
    {sighting : Sighting} (h : walk hashLeaf join target tree first = .ok (sighting, next)) :
    (tree.Filled ∧ next = first + tree.leaves.length) ∨
      GapFound hashLeaf join target tree first sighting next := by
  induction tree using rootBy.induct generalizing root first next sighting with
  | case1 =>
    rw [walk] at h
    split at h
    · rename_i here
      cases h
      exact .inr ⟨0, [], [], .absent, here.symm, .nil, rfl, by rw [leaves_absent, List.length_nil]⟩
    · cases h
  | case2 value =>
    refine .inl ⟨.leaf value, ?_⟩
    rw [leaves_leaf]
    rw [walk] at h
    split at h
    · cases h
      rfl
    · obtain ⟨hash, -, h⟩ := bind_ok h
      cases h
      rfl
  | case3 =>
    rw [walk] at h
    cases h
  | case4 tree ih =>
    rw [walk] at h
    rw [rootBy] at rooted
    rw [leaves_wrapper]
    rcases ih rooted h with ⟨filled, last⟩ | ⟨index, beside, hashes, gap, found⟩
    · exact .inl ⟨.wrapper filled, last⟩
    · rw [← leaves_wrapper] at found
      exact .inr ⟨index, beside, hashes, .wrapper gap, found⟩
  | case5 left right ihLeft ihRight =>
    obtain ⟨a, b, middle, leftWalk, rightWalk, rfl⟩ := walk_branch h
    obtain ⟨one, two, leftRoot, rightRoot, -⟩ := rootBy_branch rooted
    have size : (list [left, right]).leaves.length = left.leaves.length + right.leaves.length := by
      rw [leaves_branch, List.length_append]
    rcases ihLeft leftRoot leftWalk with ⟨filledLeft, rfl⟩ | leftGap
    · rcases ihRight rightRoot rightWalk with ⟨filledRight, rfl⟩ | rightGap
      · exact .inl ⟨.branch filledLeft filledRight, by omega⟩
      · obtain ⟨index, beside, hashes, gap, rfl, roots, rfl, rfl⟩ := rightGap
        -- the left side has only numbers before that of the gap
        rw [filledLeft.walk_outside leftRoot (by omega)] at leftWalk
        cases leftWalk
        refine .inr ⟨_, _, hashes ++ [one], .right filledLeft gap, by omega,
          List.rel_append roots (.cons leftRoot .nil), ?_, by omega⟩
        rw [List.flatten_append, List.flatten_singleton]
        rfl
    · obtain ⟨index, beside, hashes, gap, rfl, roots, rfl, rfl⟩ := leftGap
      have bound := gap.index_le
      rcases ihRight rightRoot rightWalk with ⟨filledRight, rfl⟩ | rightGap
      · -- the right side has only numbers after that of the gap
        rw [filledRight.walk_outside rightRoot (by omega)] at rightWalk
        cases rightWalk
        refine .inr ⟨_, _, hashes ++ [two], .left gap filledRight, rfl,
          List.rel_append roots (.cons rightRoot .nil), ?_, by omega⟩
        rw [List.flatten_append, List.flatten_singleton]
        rfl
      · -- two gaps cannot both have the number
        obtain ⟨_, _, _, _, twice, -⟩ := rightGap
        omega
  | case6 =>
    rw [walk] at h
    cases h

end Hashing

end SpendingPlan.Tree

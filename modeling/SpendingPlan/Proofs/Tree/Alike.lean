import SpendingPlan.Proofs.Tree.Position

namespace SpendingPlan.Tree

variable {α : Type}

/-- The same tree up to wrappers, the order of branches and how leaves are spelled. -/
inductive Alike (same : α → α → Prop) : Tree α → Tree α → Prop
  | leaf {a b : α} : same a b → Alike same (.leaf a) (.leaf b)
  | unwrap (tree : Tree α) : Alike same (.list [tree]) tree
  | swap (left right : Tree α) : Alike same (.list [left, right]) (.list [right, left])
  | wrapper {a b : Tree α} : Alike same a b → Alike same (.list [a]) (.list [b])
  | branch {a b c d : Tree α} : Alike same a b → Alike same c d →
      Alike same (.list [a, c]) (.list [b, d])
  | refl (tree : Tree α) : Alike same tree tree
  | symm {a b : Tree α} : Alike same a b → Alike same b a
  | trans {a b c : Tree α} : Alike same a b → Alike same b c → Alike same a c

section Hashing

variable {hashLeaf : α → Except Error Bytes} {join : Bytes → Bytes → Bytes}

theorem rootBy_branch_iff {left right : Tree α} {root : Bytes} :
    rootBy hashLeaf join (.list [left, right]) = .ok root ↔
      ∃ first second, rootBy hashLeaf join left = .ok first ∧
        rootBy hashLeaf join right = .ok second ∧ root = join first second := by
  constructor
  · exact rootBy_branch
  · rintro ⟨first, second, leftRoot, rightRoot, rfl⟩
    rw [rootBy, leftRoot, ok_bind, rightRoot]
    rfl

theorem Alike.rootBy_iff {same : α → α → Prop} {a b : Tree α} (alike : Alike same a b)
    (leaves : ∀ x y, same x y → ∀ hash, hashLeaf x = .ok hash ↔ hashLeaf y = .ok hash)
    (comm : ∀ x y, join x y = join y x) (root : Bytes) :
    rootBy hashLeaf join a = .ok root ↔ rootBy hashLeaf join b = .ok root := by
  induction alike generalizing root with
  | leaf spelled =>
    rw [rootBy, rootBy]
    exact leaves _ _ spelled root
  | unwrap tree => rw [rootBy]
  | swap left right =>
    rw [rootBy_branch_iff, rootBy_branch_iff]
    constructor
    · rintro ⟨first, second, leftRoot, rightRoot, rfl⟩
      exact ⟨second, first, rightRoot, leftRoot, comm first second⟩
    · rintro ⟨first, second, rightRoot, leftRoot, rfl⟩
      exact ⟨second, first, leftRoot, rightRoot, comm first second⟩
  | wrapper _ ih =>
    rw [rootBy, rootBy]
    exact ih root
  | branch _ _ ihLeft ihRight =>
    rw [rootBy_branch_iff, rootBy_branch_iff]
    simp only [ihLeft, ihRight]
  | refl tree => rfl
  | symm _ ih => exact (ih root).symm
  | trans _ _ ihFirst ihSecond => exact (ihFirst root).trans (ihSecond root)

theorem Filled.rootBy_ok {tree : Tree α} (filled : tree.Filled)
    (hashable : ∀ value ∈ tree.leaves, ∃ hash, hashLeaf value = .ok hash) :
    ∃ root, rootBy hashLeaf join tree = .ok root := by
  induction filled with
  | leaf value =>
    rw [rootBy]
    exact hashable value (by simp)
  | wrapper _ ih =>
    rw [rootBy]
    exact ih (by simpa using hashable)
  | branch _ _ ihLeft ihRight =>
    simp only [leaves_branch, List.mem_append] at hashable
    obtain ⟨first, leftRoot⟩ := ihLeft fun value member => hashable value (.inl member)
    obtain ⟨second, rightRoot⟩ := ihRight fun value member => hashable value (.inr member)
    exact ⟨join first second, rootBy_branch_iff.mpr ⟨first, second, leftRoot, rightRoot, rfl⟩⟩

end Hashing

end SpendingPlan.Tree

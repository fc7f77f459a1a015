import Mathlib.Data.List.Nodup
import SpendingPlan.Proofs.Bytes.Order
import SpendingPlan.Proofs.Table.Lookup

namespace SpendingPlan.Table

variable {κ ν : Type}

structure Linear (le : κ → κ → Bool) : Prop where
  trans : ∀ {a b c}, le a b = true → le b c = true → le a c = true
  total : ∀ a b, (le a b || le b a) = true
  antisymm : ∀ {a b}, le a b = true → le b a = true → a = b

theorem linear_bytes : Linear Bytes.le :=
  ⟨Bytes.le_trans, Bytes.le_total, Bytes.le_antisymm⟩

theorem pairwise_sorted {le : κ → κ → Bool} (linear : Linear le) (table : Table κ ν) :
    (table.sorted le).Pairwise fun a b => le a.1 b.1 = true ∧ a.1 ≠ b.1 := by
  have same : (table.sorted le).Perm table.entries := List.mergeSort_perm _ _
  have distinct : ((table.sorted le).map Prod.fst).Nodup :=
    (same.map Prod.fst).nodup_iff.mpr table.nodup
  have ordered : (table.sorted le).Pairwise fun a b => le a.1 b.1 = true := by
    apply List.pairwise_mergeSort
    · intro a b c
      exact linear.trans
    · intro a b
      exact linear.total a.1 b.1
  exact ordered.and (List.pairwise_map.mp distinct)

theorem pairwise_sorted_bytes (table : Table Bytes ν) :
    (table.sorted Bytes.le).Pairwise fun a b => a.1.lt b.1 = true := by
  have sorted := pairwise_sorted linear_bytes table
  apply sorted.imp
  rintro a b ⟨below, apart⟩
  exact Bytes.lt_of_le_of_ne below apart

theorem sorted_eq_of_perm {le : κ → κ → Bool} (linear : Linear le) {table : Table κ ν}
    {entries : List (κ × ν)} (same : entries.Perm table.entries)
    (ordered : entries.Pairwise fun a b => le a.1 b.1 = true) : table.sorted le = entries := by
  have held : (table.sorted le).Perm table.entries := List.mergeSort_perm _ _
  have below := (pairwise_sorted linear table).imp And.left
  apply List.Perm.eq_of_pairwise _ below ordered (held.trans same.symm)
  intro a b left right first second
  have keys := linear.antisymm first second
  exact List.inj_on_of_nodup_map table.nodup (held.subset left) (same.subset right) keys

theorem forall₂_sorted [DecidableEq κ] {le : κ → κ → Bool} (linear : Linear le)
    {same : ν → ν → Prop} {a b : Table κ ν} (alike : SameBy same a b) :
    List.Forall₂ (fun x y => x.1 = y.1 ∧ same x.2 y.2) (a.sorted le) (b.sorted le) := by
  have ordered (table : Table κ ν) : ((table.sorted le).map Prod.fst).Pairwise fun a b =>
      le a b = true := by
    rw [List.pairwise_map]
    exact (pairwise_sorted linear table).imp And.left
  have held (table : Table κ ν) : ((table.sorted le).map Prod.fst).Perm table.keys :=
    (List.mergeSort_perm _ _).map Prod.fst
  have members : a.keys.Perm b.keys := by
    apply (List.perm_ext_iff_of_nodup a.nodup b.nodup).mpr
    intro key
    exact SameBy.mem_keys alike
  -- the keys are the same and a linear order leaves one way to sort them
  have keys : (a.sorted le).map Prod.fst = (b.sorted le).map Prod.fst := by
    apply List.Perm.eq_of_pairwise (fun _ _ _ _ => linear.antisymm) (ordered a) (ordered b)
    exact (held a).trans (members.trans (held b).symm)
  have partners : List.Forall₂ (fun x y : κ × ν => x.1 = y.1) (a.sorted le) (b.sorted le) := by
    have mapped : List.Forall₂ (· = ·) ((a.sorted le).map Prod.fst)
        ((b.sorted le).map Prod.fst) := by
      rw [keys]
      exact List.forall₂_refl _
    exact List.forall₂_map_right_iff.mp (List.forall₂_map_left_iff.mp mapped)
  apply forall₂_imp_of_mem partners
  rintro ⟨key, value⟩ left ⟨other, value'⟩ right rfl
  have both := alike key
  rw [get?_eq_some_iff.mpr (mem_sorted.mp left), get?_eq_some_iff.mpr (mem_sorted.mp right)] at both
  cases both with
  | some related => exact ⟨rfl, related⟩

theorem merge_congr {α : Type} {le le' : α → α → Bool} {left right : List α}
    (same : ∀ a ∈ left, ∀ b ∈ right, le a b = le' a b) :
    left.merge right le = left.merge right le' := by
  induction left, right using List.merge.induct le with
  | case1 right => simp
  | case2 left => simp
  | case3 x left y right below ih =>
    have below' := same x List.mem_cons_self y List.mem_cons_self ▸ below
    rw [List.cons_merge_cons_pos _ _ _ below, List.cons_merge_cons_pos _ _ _ below',
      ih fun a member => same a (List.mem_cons_of_mem _ member)]
  | case4 x left y right above ih =>
    have above' := same x List.mem_cons_self y List.mem_cons_self ▸ above
    rw [List.cons_merge_cons_neg _ _ _ above, List.cons_merge_cons_neg _ _ _ above',
      ih fun a held b member => same a held b (List.mem_cons_of_mem _ member)]

theorem mergeSort_congr {α : Type} {le le' : α → α → Bool} {items : List α}
    (same : items.Pairwise fun a b => le a b = le' a b) :
    items.mergeSort le = items.mergeSort le' := by
  induction items, le using List.mergeSort.induct with
  | case1 => simp
  | case2 => simp
  | case3 a b rest le halves _ _ first second =>
    have whole := List.MergeSort.Internal.splitInTwo_fst_append_splitInTwo_snd
      ⟨a :: b :: rest, rfl⟩
    dsimp only at whole
    rw [← whole, List.pairwise_append] at same
    obtain ⟨left, right, across⟩ := same
    rw [List.mergeSort, List.mergeSort, first left, second right]
    -- only what is in one half is compared with what is in the other
    apply merge_congr
    intro x left y right
    exact across x (List.mem_mergeSort.mp left) y (List.mem_mergeSort.mp right)

/-- Sorting whole entries, by their keys and then by their values, is sorting by the keys alone,
    whatever compares the values. -/
def SortsByKeys [DecidableEq κ] (le : κ → κ → Bool) (table : Table κ ν) : Prop :=
  ∀ leValue : ν → ν → Bool,
    (table.entries.mergeSort fun a b => if a.1 = b.1 then leValue a.2 b.2 else le a.1 b.1) =
      table.sorted le

theorem sortsByKeys [DecidableEq κ] (le : κ → κ → Bool) (table : Table κ ν) :
    table.SortsByKeys le := by
  intro leValue
  -- no two keys are equal, so that no values are compared
  apply mergeSort_congr
  apply (List.pairwise_map.mp table.nodup).imp
  intro a b apart
  exact if_neg apart

end SpendingPlan.Table

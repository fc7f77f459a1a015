import SpendingPlan.CompactSize.Lemmas
import SpendingPlan.Proofs.Outcome

namespace SpendingPlan

variable {α : Type}

/-- What is written can be told from what follows it, and from what else could have been written. -/
def PrefixFree (write : α → Except Error Bytes) : Prop :=
  ∀ {a b : α} {front other rest rest' : Bytes}, write a = .ok front → write b = .ok other →
    front ++ rest = other ++ rest' → a = b ∧ rest = rest'

namespace PrefixFree

theorem injective {write : α → Except Error Bytes} (free : PrefixFree write) {a b : α}
    {bytes : Bytes} (first : write a = .ok bytes) (second : write b = .ok bytes) : a = b :=
  (free first second (rfl : bytes ++ [] = bytes ++ [])).1

theorem of_width {write : α → Except Error Bytes} (width : Nat)
    (size : ∀ a bytes, write a = .ok bytes → bytes.length = width)
    (injective : ∀ a b bytes, write a = .ok bytes → write b = .ok bytes → a = b) :
    PrefixFree write := by
  intro a b front other rest rest' first second same
  have lengths : front.length = other.length := by rw [size a front first, size b other second]
  obtain ⟨rfl, tails⟩ := List.append_inj same lengths
  exact ⟨injective a b front first second, tails⟩

theorem frame : PrefixFree CompactSize.frame := by
  intro a b front other rest rest' first second same
  have left := CompactSize.readFrame_frame first rest
  have right := CompactSize.readFrame_frame second rest'
  rw [same, right] at left
  cases left
  exact ⟨rfl, rfl⟩

theorem count : PrefixFree fun n : Nat => CompactSize.encode n := by
  intro a b front other rest rest' first second same
  have left := CompactSize.read_encode first rest
  have right := CompactSize.read_encode second rest'
  rw [same, right, Int.toNat_natCast, Int.toNat_natCast] at left
  cases left
  exact ⟨rfl, rfl⟩

theorem items {write : α → Except Error Bytes} (free : PrefixFree write) {as bs : List α}
    {fronts others : List Bytes} {rest rest' : Bytes}
    (first : List.Forall₂ (fun a front => write a = .ok front) as fronts)
    (second : List.Forall₂ (fun b other => write b = .ok other) bs others)
    (many : as.length = bs.length) (same : fronts.flatten ++ rest = others.flatten ++ rest') :
    as = bs ∧ rest = rest' := by
  induction first generalizing bs others with
  | nil =>
    rw [List.length_nil, eq_comm, List.length_eq_zero_iff] at many
    subst many
    cases second
    exact ⟨rfl, same⟩
  | cons head _ ih =>
    cases second with
    | nil => cases many
    | cons head' tail' =>
      rw [List.flatten_cons, List.flatten_cons, List.append_assoc, List.append_assoc] at same
      obtain ⟨rfl, same⟩ := free head head' same
      obtain ⟨rfl, same⟩ := ih tail' (Nat.succ.inj many) same
      exact ⟨rfl, same⟩

end PrefixFree

end SpendingPlan

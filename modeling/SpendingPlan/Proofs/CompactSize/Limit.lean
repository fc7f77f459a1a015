import SpendingPlan.CompactSize.Lemmas
import SpendingPlan.Proofs.Outcome

namespace SpendingPlan

namespace CompactSize

def limit : Nat := 0x10000000000000000

/-- So many hashes, indexes and bytes still make up a value within the limit. -/
def room : Nat := 0x400000000000000

theorem encode_of_lt {n : Nat} (small : n < limit) : ∃ bytes, encode n = .ok bytes := by
  have bound : (n : Int) < 0x10000000000000000 := by
    unfold limit at small
    omega
  unfold encode
  split
  · omega
  split
  · exact ⟨_, rfl⟩
  split
  · exact ⟨_, rfl⟩
  split
  · exact ⟨_, rfl⟩
  · exact ⟨_, rfl⟩

theorem encode_of_le {n : Nat} (large : limit ≤ n) : encode n = .error (.countTooLarge n) := by
  have bound : 0x10000000000000000 ≤ (n : Int) := by
    unfold limit at large
    omega
  unfold encode
  repeat rw [if_neg (by omega)]

theorem frame_of_lt {bytes : Bytes} (small : bytes.length < limit) :
    ∃ framed, frame bytes = .ok framed := by
  obtain ⟨count, counted⟩ := encode_of_lt small
  exact ⟨count ++ bytes, by rw [frame, counted]; rfl⟩

theorem length_of_encode {n : Nat} {bytes : Bytes} (h : encode n = .ok bytes) :
    bytes.length = 1 ∨ (bytes.length = 3 ∧ 0xfd ≤ n) ∨ (bytes.length = 5 ∧ 0x10000 ≤ n) ∨
      (bytes.length = 9 ∧ 0x100000000 ≤ n) := by
  obtain ⟨-, ⟨-, rfl⟩ | ⟨large, -, rfl⟩ | ⟨large, -, rfl⟩ | ⟨large, -, rfl⟩⟩ := encode_cases h
  · exact .inl (Bytes.length_ofNatLE 1 _)
  all_goals
    rw [List.length_cons, Bytes.length_ofNatLE]
    omega

theorem length_encode {n : Nat} {bytes : Bytes} (h : encode n = .ok bytes) :
    bytes.length ≤ 9 := by
  have forms := length_of_encode h
  omega

end CompactSize

variable {α β : Type} {small : Prop}

/-- There is a result, or else a number to be counted was beyond the limit; the latter is ruled out
    where everything is small. -/
def Counted (small : Prop) (x : Except Error α) : Prop :=
  (∃ a, x = .ok a) ∨ ¬ small ∧ ∃ n : Nat, CompactSize.limit ≤ n ∧ x = .error (.countTooLarge n)

namespace Counted

theorem ok (a : α) : Counted small (.ok a) := .inl ⟨a, rfl⟩

theorem of_small {x : Except Error α} (h : Counted small x) (held : small) : ∃ a, x = .ok a := by
  rcases h with done | ⟨large, -⟩
  · exact done
  · exact absurd held large

theorem bind {x : Except Error α} {f : α → Except Error β} (h : Counted small x)
    (next : ∀ a, x = .ok a → Counted small (f a)) : Counted small (x >>= f) := by
  rcases h with ⟨a, rfl⟩ | ⟨large, n, beyond, rfl⟩
  · exact next a rfl
  · exact .inr ⟨large, n, beyond, rfl⟩

theorem mapM {f : α → Except Error β} {items : List α}
    (h : ∀ item ∈ items, Counted small (f item)) : Counted small (items.mapM f) := by
  induction items with
  | nil => exact ok []
  | cons item items ih =>
    have later := ih fun other member => h other (List.mem_cons_of_mem _ member)
    rw [List.mapM_cons]
    apply (h item List.mem_cons_self).bind
    intro first _
    apply later.bind
    intro rest _
    exact ok (first :: rest)

theorem encode {n : Nat} (bound : small → n < CompactSize.limit) :
    Counted small (CompactSize.encode n) := by
  rcases Nat.lt_or_ge n CompactSize.limit with within | beyond
  · exact .inl (CompactSize.encode_of_lt within)
  · have large : ¬ small := fun held => Nat.not_lt.mpr beyond (bound held)
    exact .inr ⟨large, n, beyond, CompactSize.encode_of_le beyond⟩

theorem frame {bytes : Bytes} (bound : small → bytes.length < CompactSize.limit) :
    Counted small (CompactSize.frame bytes) := by
  apply (encode bound).bind
  intro count _
  exact ok (count ++ bytes)

end Counted

end SpendingPlan

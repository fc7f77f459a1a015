import SpendingPlan.Hash.Ripemd160

namespace SpendingPlan.TwosComplement

variable {w : Nat}

-- Every operation acts on each bit alone, so that it may be done before or after the high bits go.

theorem sub_and_eq (x y : BitVec w) : x - (x &&& y) = x &&& ~~~y := by
  have apart : (x &&& y) &&& (x &&& ~~~y) = 0#w := by
    ext i bound
    cases inY : y[i] <;> simp [inY]
  have whole : (x &&& y) + (x &&& ~~~y) = x := by
    rw [BitVec.add_eq_or_of_and_eq_zero _ _ apart]
    ext i bound
    cases inY : y[i] <;> simp [inY]
  rw [BitVec.sub_eq_iff_eq_add, BitVec.add_comm]
  exact whole.symm

theorem ofNat_sub {m n : Nat} (le : n ≤ m) :
    BitVec.ofNat w (m - n) = BitVec.ofNat w m - BitVec.ofNat w n := by
  rw [eq_comm, BitVec.sub_eq_iff_eq_add, BitVec.ofNat_add_ofNat, Nat.sub_add_cancel le]

theorem ofInt_complement (x : Int) : BitVec.ofInt w (complement x) = ~~~BitVec.ofInt w x := by
  cases x with
  | ofNat m =>
    have negative : complement (Int.ofNat m) = Int.negSucc m := by
      rw [complement, Int.ofNat_eq_natCast]
      omega
    rw [negative, BitVec.ofInt_negSucc_eq_not_ofNat]
    rfl
  | negSucc m =>
    have positive : complement (Int.negSucc m) = Int.ofNat m := by
      rw [complement, Int.ofNat_eq_natCast]
      omega
    rw [positive, BitVec.ofInt_negSucc_eq_not_ofNat, BitVec.not_not]
    rfl

theorem ofInt_land (x y : Int) :
    BitVec.ofInt w (land x y) = BitVec.ofInt w x &&& BitVec.ofInt w y := by
  cases x with
  | ofNat m =>
    cases y with
    | ofNat n => exact BitVec.ofNat_and
    | negSucc n =>
      have removed : BitVec.ofNat w (m - (m &&& n)) = BitVec.ofNat w m &&& ~~~BitVec.ofNat w n := by
        rw [ofNat_sub Nat.and_le_left, BitVec.ofNat_and, sub_and_eq]
      rw [land, BitVec.ofInt_negSucc_eq_not_ofNat]
      exact removed
  | negSucc m =>
    cases y with
    | ofNat n =>
      have removed : BitVec.ofNat w (n - (n &&& m)) = ~~~BitVec.ofNat w m &&& BitVec.ofNat w n := by
        rw [ofNat_sub Nat.and_le_left, BitVec.ofNat_and, sub_and_eq, BitVec.and_comm]
      rw [land, BitVec.ofInt_negSucc_eq_not_ofNat]
      exact removed
    | negSucc n =>
      simp only [land, BitVec.ofInt_negSucc_eq_not_ofNat, BitVec.ofNat_or, BitVec.not_or]

theorem ofInt_lor (x y : Int) :
    BitVec.ofInt w (lor x y) = BitVec.ofInt w x ||| BitVec.ofInt w y := by
  simp only [lor, ofInt_complement, ofInt_land, BitVec.not_and, BitVec.not_not]

theorem ofInt_lxor (x y : Int) :
    BitVec.ofInt w (lxor x y) = BitVec.ofInt w x ^^^ BitVec.ofInt w y := by
  cases x with
  | ofNat m =>
    cases y with
    | ofNat n => exact BitVec.ofNat_xor
    | negSucc n =>
      rw [lxor, BitVec.ofInt_negSucc_eq_not_ofNat, BitVec.ofInt_negSucc_eq_not_ofNat,
        BitVec.ofNat_xor, BitVec.not_xor_right]
      rfl
  | negSucc m =>
    cases y with
    | ofNat n =>
      rw [lxor, BitVec.ofInt_negSucc_eq_not_ofNat, BitVec.ofInt_negSucc_eq_not_ofNat,
        BitVec.ofNat_xor, BitVec.not_xor_left]
      rfl
    | negSucc n =>
      have both : BitVec.ofNat w (m ^^^ n) = ~~~BitVec.ofNat w m ^^^ ~~~BitVec.ofNat w n := by
        rw [BitVec.ofNat_xor, ← BitVec.not_xor_left, ← BitVec.not_xor_right, BitVec.not_not]
      rw [lxor, BitVec.ofInt_negSucc_eq_not_ofNat, BitVec.ofInt_negSucc_eq_not_ofNat]
      exact both

theorem low32_eq (x : Int) : low32 x = (BitVec.ofInt 32 x).toNat := by
  rw [BitVec.toNat_ofInt, low32]
  rfl

end SpendingPlan.TwosComplement

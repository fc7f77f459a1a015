import SpendingPlan.Bytes.Lemmas
import SpendingPlan.Hash.Ripemd160
import SpendingPlan.Proofs.Hash.Standard
import SpendingPlan.Proofs.Hash.Truncation

namespace SpendingPlan.Ripemd160

open TwosComplement
open Standard (Registers Word)

def Standard.Registers.values (r : Registers) : State :=
  ⟨r.a.toNat, r.b.toNat, r.c.toNat, r.d.toNat, r.e.toNat⟩

theorem ofInt_toNat (x : Word) : BitVec.ofInt 32 x.toNat = x := by
  rw [BitVec.ofInt_natCast, BitVec.ofNat_toNat, BitVec.setWidth_eq]

theorem toNat_add (x y : Word) : (x + y).toNat = (x.toNat + y.toNat) % 0x100000000 :=
  BitVec.toNat_add x y

theorem toNat_sum (x y z : Word) :
    (x + y + z).toNat = (x.toNat + y.toNat + z.toNat) % 0x100000000 := by
  rw [toNat_add, toNat_add, Nat.mod_add_mod]

theorem ofInt_mix (round : Nat) (x y z : Word) :
    BitVec.ofInt 32 (mix round x.toNat y.toNat z.toNat) = Standard.mix round x y z := by
  rcases round with _ | _ | _ | _ | round
  all_goals
    simp only [mix, Standard.mix, ofInt_lxor, ofInt_lor, ofInt_land, ofInt_complement, ofInt_toNat]

theorem rotateLeft_eq (value : Int) {bits : Nat} (small : bits < 32) :
    rotateLeft value bits = ((BitVec.ofInt 32 value).rotateLeft bits).toNat := by
  have low : (BitVec.ofInt 32 value).toNat >>> (32 - bits) < 2 ^ 32 :=
    Nat.lt_of_le_of_lt (Nat.shiftRight_le _ _) (BitVec.ofInt 32 value).isLt
  have masked := Nat.or_mod_two_pow (n := 32) (a := (BitVec.ofInt 32 value).toNat <<< bits)
    (b := (BitVec.ofInt 32 value).toNat >>> (32 - bits))
  rw [Nat.mod_eq_of_lt low] at masked
  rw [BitVec.toNat_rotateLeft, Nat.mod_eq_of_lt small, ← masked, rotateLeft, low32_eq]

/-- A step on numbers is the step on their words: sums and mixed words are off by multiples of the
    word size only, and the rotation takes these away. -/
theorem step_values (round message constant : Nat) {shift : Nat} (small : shift < 32)
    (r : Registers) :
    step round message constant shift r.values =
      (Standard.step round (BitVec.ofNat 32 message) (BitVec.ofNat 32 constant) shift
        r).values := by
  have sum : BitVec.ofInt 32 (r.a.toNat + mix round r.b.toNat r.c.toNat r.d.toNat + message +
      constant) =
      r.a + Standard.mix round r.b r.c r.d + BitVec.ofNat 32 message +
        BitVec.ofNat 32 constant := by
    simp only [BitVec.ofInt_add, ofInt_mix, BitVec.ofInt_natCast, BitVec.ofNat_toNat,
      BitVec.setWidth_eq]
  have turned := rotateLeft_eq r.c.toNat (show 10 < 32 by decide)
  rw [ofInt_toNat] at turned
  simp only [step, Registers.values, Standard.step, rotateLeft_eq _ small, sum, turned,
    toNat_add]

def Line.Tabulates (table : Line) (line : Standard.Line) : Prop :=
  ∀ j < 80, table.words.getD j 0 = line.word j ∧ line.word j < 16 ∧
    table.shifts.getD j 0 = Standard.rotation (j / 16) (line.word j) ∧
    Standard.rotation (j / 16) (line.word j) < 32 ∧
    BitVec.ofNat 32 (table.constants.getD (j / 16) 0) = line.constant (j / 16)

theorem leftLine_tabulates : leftLine.Tabulates Standard.left := by
  unfold Line.Tabulates
  decide +kernel

theorem rightLine_tabulates : rightLine.Tabulates Standard.right := by
  unfold Line.Tabulates
  decide +kernel

def Spells (numbers : List Nat) (message : Nat → Word) : Prop :=
  ∀ i < 16, BitVec.ofNat 32 (numbers.getD i 0) = message i

variable {numbers : List Nat} {message : Nat → Word}

theorem Line.Tabulates.step_values {table : Line} {line : Standard.Line}
    (tabulates : table.Tabulates line) (spells : Spells numbers message) {j : Nat} (bound : j < 80)
    (r : Registers) :
    step (line.mixRound (j / 16)) (numbers.getD (table.words.getD j 0) 0)
      (table.constants.getD (j / 16) 0) (table.shifts.getD j 0) r.values =
        (line.step message r j).values := by
  obtain ⟨word, inBlock, shift, small, constant⟩ := tabulates j bound
  rw [word, shift, Ripemd160.step_values _ _ _ small, spells _ inBlock, constant,
    Standard.Line.step]

theorem foldl_stepBoth (spells : Spells numbers message) (h : Registers) {steps : Nat}
    (bound : steps ≤ 80) :
    (List.range steps).foldl (stepBoth numbers) (h.values, h.values) =
      ((Standard.left.run message h steps).values,
        (Standard.right.run message h steps).values) := by
  induction steps with
  | zero => rfl
  | succ j ih =>
    have leftStep := leftLine_tabulates.step_values spells bound
    have rightStep := rightLine_tabulates.step_values spells bound
    rw [show Standard.left.mixRound (j / 16) = j / 16 from rfl] at leftStep
    rw [show Standard.right.mixRound (j / 16) = 4 - j / 16 from rfl] at rightStep
    rw [List.range_succ, List.foldl_append, ih (by omega), List.foldl_cons, List.foldl_nil,
      stepBoth, leftStep, rightStep, Standard.left.run_succ, Standard.right.run_succ]

theorem compress_values {block : Bytes}
    (spells : Spells ((block.chunks 4).map Bytes.toNatLE) message) (h : Registers) :
    compress h.values block = (Standard.compress h message).values := by
  have both := foldl_stepBoth spells h (Nat.le_refl 80)
  simp only [compress, Standard.compress]
  rw [both]
  -- what the lines come to plays no part in how their ends are added up
  generalize Standard.left.run message h 80 = l
  generalize Standard.right.run message h 80 = r
  simp only [Registers.values, toNat_sum]

end SpendingPlan.Ripemd160

import Mathlib.Algebra.Ring.Nat
import SpendingPlan.Hex
import SpendingPlan.Proofs.Text.Trim
import SpendingPlan.Text.Numeral

namespace SpendingPlan

namespace Text.Numeral

variable {text : List Char}

theorem unsignedHex_of_unmarked (mark : 'x' ∉ text) (capital : 'X' ∉ text) :
    unsignedHex text = hexDigits 0 false text := by
  unfold unsignedHex
  split
  · rw [if_neg]
    rintro ⟨-, rfl | rfl⟩
    · exact mark (by simp)
    · exact capital (by simp)
  · rfl

theorem hex_of_unsigned {inner : List Char} (trimmed : trim isNumeralBlank text = inner)
    (minus : '-' ∉ inner) (plus : '+' ∉ inner) :
    hex text = (unsignedHex inner).map Nat.cast := by
  rw [hex, trimmed]
  split
  · exact absurd List.mem_cons_self minus
  · exact absurd List.mem_cons_self plus
  · cases unsignedHex inner <;> rfl

end Text.Numeral

namespace Hex

theorem value?_cases {c : Char} {n : Nat} (h : value? c = some n) :
    (48 ≤ c.toNat ∧ c.toNat ≤ 57 ∧ n = c.toNat - 48) ∨
      (97 ≤ c.toNat ∧ c.toNat ≤ 102 ∧ n = c.toNat - 87) ∨
      (65 ≤ c.toNat ∧ c.toNat ≤ 70 ∧ n = c.toNat - 55) := by
  simp only [value?] at h
  split at h
  · cases h
    omega
  split at h
  · cases h
    omega
  split at h
  · cases h
    omega
  · cases h

theorem value?_lt {c : Char} {n : Nat} (h : value? c = some n) : n < 16 := by
  have := value?_cases h
  omega

theorem isBlank_of_value? {c : Char} {n : Nat} (h : value? c = some n) :
    Text.isBlank c = false := by
  have := value?_cases h
  simp only [Text.isBlank, Text.inRanges]
  grind

theorem isAsciiBlank_of_value? {c : Char} {n : Nat} (h : value? c = some n) :
    Text.isAsciiBlank c = false := by
  have := value?_cases h
  simp only [Text.isAsciiBlank, Text.inRanges]
  grind

theorem decimalValue?_of_digit {c : Char} (low : 48 ≤ c.toNat) (high : c.toNat ≤ 57) :
    Text.decimalValue? c = some (c.toNat - 48) := by
  have here : (decide (0x30 ≤ c.toNat) && decide (c.toNat < 0x30 + 10)) = true := by
    simp only [Bool.and_eq_true, decide_eq_true_eq]
    omega
  have first : (Text.decimalZeros.find? fun low => low ≤ c.toNat && c.toNat < low + 10) =
      some 0x30 := List.find?_cons_of_pos here
  rw [Text.decimalValue?, first]
  rfl

theorem hexValue?_of_value? {c : Char} {n : Nat} (h : value? c = some n) :
    Text.Numeral.hexValue? c = some n := by
  simp only [Text.Numeral.hexValue?]
  rcases value?_cases h with ⟨low, high, rfl⟩ | ⟨low, high, rfl⟩ | ⟨low, high, rfl⟩
  · rw [if_neg (by omega), if_neg (by omega)]
    exact decimalValue?_of_digit low high
  · rw [if_pos ⟨low, high⟩]
  · rw [if_neg (by omega), if_pos ⟨low, high⟩]

theorem hexDigits_cons {c : Char} {n : Nat} (h : value? c = some n) (value : Nat)
    (afterDigit : Bool) (rest : List Char) :
    Text.Numeral.hexDigits value afterDigit (c :: rest) =
      Text.Numeral.hexDigits (16 * value + n) true rest := by
  have solid : c ≠ '_' := by
    rintro rfl
    cases h
  rw [Text.Numeral.hexDigits, if_neg solid, hexValue?_of_value? h]

/-- The text spells the bytes: two hex digits for each, of either case, and nothing between them. -/
inductive Spells : List Char → Bytes → Prop
  | nil : Spells [] []
  | cons {c d : Char} {high low : Nat} {text : List Char} {bytes : Bytes} :
      value? c = some high → value? d = some low → Spells text bytes →
        Spells (c :: d :: text) (UInt8.ofNat (16 * high + low) :: bytes)

theorem spells_encodeChars (bytes : Bytes) : Spells (encodeChars bytes) bytes := by
  induction bytes with
  | nil => exact .nil
  | cons byte rest ih =>
    have bound := byte.toNat_lt
    have high := value?_digit (byte.toNat / 16) (by omega)
    have low := value?_digit (byte.toNat % 16) (by omega)
    have joined : UInt8.ofNat (16 * (byte.toNat / 16) + byte.toNat % 16) = byte := by
      rw [Nat.div_add_mod]
      exact UInt8.ofNat_toNat
    have spelled := Spells.cons high low ih
    rw [joined] at spelled
    exact spelled

namespace Spells

variable {text : List Char} {bytes : Bytes}

theorem value?_of_mem (spells : Spells text bytes) {c : Char} (member : c ∈ text) :
    ∃ n, value? c = some n := by
  induction spells with
  | nil => cases member
  | cons high low _ ih =>
    rcases List.mem_cons.mp member with rfl | member
    · exact ⟨_, high⟩
    rcases List.mem_cons.mp member with rfl | member
    · exact ⟨_, low⟩
    · exact ih member

theorem not_mem (spells : Spells text bytes) {c : Char} (foreign : value? c = none) : c ∉ text := by
  intro member
  obtain ⟨n, digit⟩ := spells.value?_of_mem member
  rw [foreign] at digit
  cases digit

theorem tail {first : UInt8} (spells : Spells text (first :: bytes)) :
    Spells (text.drop 2) bytes := by
  cases spells with
  | cons _ _ rest => exact rest

theorem decode (spells : Spells text bytes) : Hex.decode text = some bytes := by
  have general : ∀ read, decodeFrom read text = some (read.reverse ++ bytes) := by
    induction spells with
    | nil => simp [decodeFrom]
    | @cons c d high low text bytes first second _ ih =>
      intro read
      simp only [decodeFrom, isAsciiBlank_of_value? first, first, second, ih, Bool.false_eq_true,
        if_false]
      simp
  exact general []

theorem trim (spells : Spells text bytes) : Text.trim Text.isBlank text = text := by
  apply Text.trim_eq_self
  intro c member
  obtain ⟨n, digit⟩ := spells.value?_of_mem member
  exact isBlank_of_value? digit

theorem hexDigits (spells : Spells text bytes) (value : Nat) :
    Text.Numeral.hexDigits value true text =
      some (bytes.foldl (fun value byte => 256 * value + byte.toNat) value) := by
  induction spells generalizing value with
  | nil => simp [Text.Numeral.hexDigits]
  | @cons c d high low text bytes first second _ ih =>
    have := value?_lt first
    have := value?_lt second
    have byte : (UInt8.ofNat (16 * high + low)).toNat = 16 * high + low := by
      rw [UInt8.toNat_ofNat']
      omega
    rw [hexDigits_cons first, hexDigits_cons second, ih, List.foldl_cons, byte]
    congr 2
    omega

theorem hexDigits_start (spells : Spells text bytes) (nonempty : bytes ≠ []) :
    Text.Numeral.hexDigits 0 false text = some bytes.toNatBE := by
  have number := spells.hexDigits 0
  cases spells with
  | nil => exact absurd rfl nonempty
  | cons first _ _ =>
    rw [hexDigits_cons first] at number
    rw [hexDigits_cons first, number, Bytes.toNatBE]

theorem unsignedHex (spells : Spells text bytes) (nonempty : bytes ≠ []) :
    Text.Numeral.unsignedHex text = some bytes.toNatBE := by
  rw [Text.Numeral.unsignedHex_of_unmarked (spells.not_mem rfl) (spells.not_mem rfl),
    spells.hexDigits_start nonempty]

theorem numeral (spells : Spells text bytes) (nonempty : bytes ≠ []) :
    Text.Numeral.hex text = some (bytes.toNatBE : Int) := by
  have trimmed : Text.trim Text.isNumeralBlank text = text := by
    apply Text.trim_eq_self
    intro c member
    obtain ⟨n, digit⟩ := spells.value?_of_mem member
    rw [Text.isNumeralBlank, isBlank_of_value? digit, Bool.false_and]
  rw [Text.Numeral.hex_of_unsigned trimmed (spells.not_mem rfl) (spells.not_mem rfl),
    spells.unsignedHex nonempty, Option.map_some]

end Spells

theorem spells_encode (bytes : Bytes) : Spells (encode bytes).toList bytes := by
  rw [encode, String.toList_ofList]
  exact spells_encodeChars bytes

end Hex

namespace Text

theorem isDigit_of_ascii {c : Char} (digit : c.isDigit = true) : isDigit c = true := by
  obtain ⟨low, high⟩ := Char.isDigit_iff_toNat.mp digit
  rw [isDigit, Hex.decimalValue?_of_digit low high]
  rfl

namespace Numeral

theorem decimalDigits_of_ascii {text : List Char} (digits : ∀ c ∈ text, c.isDigit = true)
    (value : Nat) : decimalDigits value text = some (Nat.ofDigitChars 10 text value) := by
  induction text generalizing value with
  | nil => rfl
  | cons c rest ih =>
    obtain ⟨low, high⟩ := Char.isDigit_iff_toNat.mp (digits c List.mem_cons_self)
    rw [decimalDigits, Hex.decimalValue?_of_digit low high, Nat.ofDigitChars_cons]
    exact ih (fun d member => digits d (List.mem_cons_of_mem _ member)) _

theorem decimal_toDigits {n : Nat} (short : n < 10 ^ maxDecimalDigits) :
    decimal (Nat.toDigits 10 n) = some n := by
  have count : (Nat.toDigits 10 n).length ≤ maxDecimalDigits :=
    (Nat.length_toDigits_le_iff (by decide) (by decide)).mpr short
  have digits : ∀ c ∈ Nat.toDigits 10 n, c.isDigit = true :=
    fun c member => Nat.isDigit_of_mem_toDigits (by decide) (by decide) member
  rw [decimal, if_neg, decimalDigits_of_ascii digits, Nat.ofDigitChars_ten_toDigits]
  rintro (empty | long)
  · exact Nat.toDigits_ne_nil empty
  · omega

end Numeral

end Text

end SpendingPlan

import SpendingPlan.Proofs.Key.Encoding
import SpendingPlan.Proofs.Outcome
import SpendingPlan.Proofs.Text.Spacing

namespace SpendingPlan

theorem Bytes.le_foldl (bytes : Bytes) (value : Nat) : value * 256 ^ bytes.length ≤
    bytes.foldl (fun value byte => 256 * value + byte.toNat) value := by
  induction bytes generalizing value with
  | nil => simp
  | cons byte rest ih =>
    rw [List.length_cons, List.foldl_cons, pow_succ, Nat.mul_comm _ 256, ← Nat.mul_assoc]
    refine Nat.le_trans (Nat.mul_le_mul_right _ ?_) (ih _)
    omega

namespace PublicKey

open Curve Hex Text

/-- The bytes are a form of the key: uncompressed, compressed, or the abscissa alone of a point with
    even ordinate. -/
inductive DenotedBy (key : PublicKey) : Bytes → Prop
  | uncompressed {x y : Bytes} (abscissa : x.length = 32) (ordinate : y.length = 32)
      (left : key.x = x.toNatBE) (right : key.y = y.toNatBE) : DenotedBy key (4 :: (x ++ y))
  | compressed {first : UInt8} {x : Bytes} (form : first = 2 ∨ first = 3) (length : x.length = 32)
      (abscissa : key.x = x.toNatBE) (parity : key.y % 2 = first.toNat % 2) :
      DenotedBy key (first :: x)
  | xOnly {x : Bytes} (length : x.length = 32) (abscissa : key.x = x.toNatBE)
      (even : key.y % 2 = 0) : DenotedBy key x

theorem isOdd_eq_iff {key : PublicKey} {odd : Bool} : key.isOdd = odd ↔ key.y % 2 = odd.toNat := by
  cases odd with
  | false => exact isOdd_eq_false_iff
  | true => exact isOdd_eq_true_iff

theorem abscissa_eq_ok_iff {text : List Char} {x : Nat} :
    abscissa text = .ok x ↔ ∃ number, Numeral.hex text = some number ∧ number.toNat = x := by
  rw [abscissa]
  cases Numeral.hex text with
  | none => simp
  | some number => simp

def firstByte (odd : Bool) : UInt8 := if odd then 3 else 2

theorem firstByte_cases (odd : Bool) : firstByte odd = 2 ∨ firstByte odd = 3 := by
  cases odd
  · exact .inl rfl
  · exact .inr rfl

theorem firstByte_parity (odd : Bool) : (firstByte odd).toNat % 2 = odd.toNat := by
  cases odd <;> rfl

theorem parse_eq_ok {text : String} {key : PublicKey} (read : parse text = .ok key) :
    ∃ bytes, decode (body text.toList) = some bytes ∧
      ((∃ x y : Bytes, bytes = 4 :: (x ++ y) ∧ x.length = 32 ∧ y.length = 32 ∧
          ofCoordinates x.toNatBE y.toNatBE = .ok key) ∨
        (∃ rest x odd, bytes = firstByte odd :: rest ∧ rest.length = 32 ∧
          abscissa ((body text.toList).drop 2) = .ok x ∧ ofAbscissa x odd = .ok key) ∨
        (bytes.length = 32 ∧
          ∃ x, abscissa (body text.toList) = .ok x ∧ ofAbscissa x false = .ok key)) := by
  rw [parse] at read
  cases decoded : decode (body text.toList) with
  | none =>
    rw [decoded] at read
    cases read
  | some bytes =>
    refine ⟨bytes, rfl, ?_⟩
    simp only [decoded] at read
    split at read
    · rename_i length
      split at read
      · rename_i first
        obtain ⟨rest, rfl⟩ := List.head?_eq_some_iff.mp first
        rw [List.length_cons] at length
        refine .inl ⟨rest.take 32, rest.drop 32, ?_, ?_, ?_, read⟩
        · rw [List.take_append_drop]
        · rw [List.length_take]
          omega
        · rw [List.length_drop]
          omega
      · cases read
    · rename_i length
      obtain ⟨x, given, built⟩ := bind_ok read
      split at built
      · rename_i first
        obtain ⟨rest, rfl⟩ := List.head?_eq_some_iff.mp first
        exact .inr (.inl ⟨rest, x, false, rfl, Nat.succ.inj length, given, built⟩)
      · split at built
        · rename_i first
          obtain ⟨rest, rfl⟩ := List.head?_eq_some_iff.mp first
          exact .inr (.inl ⟨rest, x, true, rfl, Nat.succ.inj length, given, built⟩)
        · cases built
    · rename_i length
      obtain ⟨x, given, built⟩ := bind_ok read
      exact .inr (.inr ⟨length, x, given, built⟩)
    · cases read

theorem hexDigits_of_abscissa {text : List Char} {x : Nat} (readable : ∀ c ∈ text, Readable c)
    (read : abscissa text = .ok x) : Numeral.hexDigits 0 false (solid text) = some x := by
  obtain ⟨number, given, rfl⟩ := abscissa_eq_ok_iff.mp read
  obtain ⟨value, rfl, digits⟩ := hexDigits_of_numeral readable given
  exact digits

theorem abscissa_of_decode {text : List Char} {bytes : Bytes} {x : Nat}
    (decoded : decode text = some bytes) (nonempty : bytes ≠ []) (read : abscissa text = .ok x) :
    x = bytes.toNatBE := by
  have digits := hexDigits_of_abscissa (fun c => readable_of_decode decoded) read
  rw [(spells_of_decode decoded).hexDigits_start nonempty] at digits
  exact (Option.some.inj digits).symm

theorem wide_of_hexDigits {text : List Char} {bytes : Bytes} {value x : Nat}
    (spells : Spells text bytes) (length : bytes.length = 32) (large : 2 ≤ value)
    (digits : Numeral.hexDigits value true text = some x) : coordinateLimit ≤ x := by
  have bound := Bytes.le_foldl bytes value
  have limit : coordinateLimit = 1 * 256 ^ 32 := by decide
  rw [spells.hexDigits] at digits
  rw [length] at bound
  cases digits
  rw [limit]
  exact (Nat.mul_le_mul_right _ (by omega)).trans bound

/-- The abscissa is read behind two characters. When one of them is a blank the first byte, or the
    last digit of it, is read with the abscissa, and that makes it too wide. -/
theorem abscissa_behind_first {text : List Char} {odd : Bool} {rest : Bytes} {x : Nat}
    (decoded : decode text = some (firstByte odd :: rest)) (length : rest.length = 32)
    (read : abscissa (text.drop 2) = .ok x) : x = rest.toNatBE ∨ coordinateLimit ≤ x := by
  have nonempty := List.ne_nil_of_length_eq_add_one length
  have digits : Numeral.hexDigits 0 false (solid (text.drop 2)) = some x :=
    hexDigits_of_abscissa (fun c member => readable_of_decode decoded (List.mem_of_mem_drop member))
      read
  have spells := spells_of_decode decoded
  obtain ⟨marks, few, dropped⟩ := solid_drop 2 text
  rw [dropped] at digits
  generalize solid text = marked at spells digits
  generalize whole : firstByte odd :: rest = bytes at spells
  cases spells with
  | nil => cases whole
  | @cons c d high low marked bytes first second spells =>
    injection whole with byte tail
    subst tail
    -- the first digit is zero, so that it does not matter whether it is read as well
    have zero_or_large : high = 0 ∧ 2 ≤ low := by
      have := value?_lt first
      have := value?_lt second
      have joined := congrArg UInt8.toNat byte
      rw [UInt8.toNat_ofNat', Nat.mod_eq_of_lt (by omega)] at joined
      rcases firstByte_cases odd with two | three
      · rw [two, show (2 : UInt8).toNat = 2 from rfl] at joined
        omega
      · rw [three, show (3 : UInt8).toNat = 3 from rfl] at joined
        omega
    interval_cases marks
    · rw [List.drop_zero, hexDigits_cons first, hexDigits_cons second] at digits
      exact .inr (wide_of_hexDigits spells length (by omega) digits)
    · rw [List.drop_succ_cons, List.drop_zero, hexDigits_cons second] at digits
      exact .inr (wide_of_hexDigits spells length (by omega) digits)
    · rw [List.drop_succ_cons, List.drop_succ_cons, List.drop_zero,
        spells.hexDigits_start nonempty] at digits
      exact .inl (Option.some.inj digits).symm

theorem denotedBy_of_parse {text : String} {key : PublicKey} (read : parse text = .ok key) :
    ∃ bytes, decode (body text.toList) = some bytes ∧ key.DenotedBy bytes := by
  obtain ⟨bytes, decoded, ⟨x, y, rfl, left, right, built⟩ |
    ⟨rest, x, odd, rfl, length, given, built⟩ | ⟨length, x, given, built⟩⟩ := parse_eq_ok read
  · obtain ⟨abscissa, ordinate⟩ := ofCoordinates_eq_ok_iff.mp built
    exact ⟨_, decoded, .uncompressed left right abscissa ordinate⟩
  · obtain ⟨abscissa, parity⟩ := ofAbscissa_eq_ok_iff.mp built
    refine ⟨_, decoded, ?_⟩
    rcases abscissa_behind_first decoded length given with same | wide
    · have first : key.y % 2 = (firstByte odd).toNat % 2 := by
        rw [firstByte_parity, isOdd_eq_iff.mp parity]
      exact .compressed (firstByte_cases odd) length (abscissa.trans same) first
    · have fits := key.x_lt_coordinateLimit
      omega
  · obtain ⟨abscissa, parity⟩ := ofAbscissa_eq_ok_iff.mp built
    have nonempty := List.ne_nil_of_length_eq_add_one length
    have same := abscissa_of_decode decoded nonempty given
    exact ⟨bytes, decoded, .xOnly length (abscissa.trans same) (isOdd_eq_false_iff.mp parity)⟩

theorem parse_of_denotedBy {text : String} {key : PublicKey} {bytes : Bytes}
    (spells : Spells (body text.toList) bytes) (denoted : key.DenotedBy bytes) :
    parse text = .ok key := by
  cases denoted with
  | uncompressed left right abscissa ordinate =>
    rw [parse_uncompressed_form spells left right, if_pos rfl, ofCoordinates_eq_ok_iff]
    exact ⟨abscissa, ordinate⟩
  | compressed form length abscissa parity =>
    rw [parse_compressed_form spells length]
    rcases form with rfl | rfl
    · rw [if_pos rfl, ofAbscissa_eq_ok_iff, isOdd_eq_iff]
      exact ⟨abscissa, parity⟩
    · rw [if_neg (by decide), if_pos rfl, ofAbscissa_eq_ok_iff, isOdd_eq_iff]
      exact ⟨abscissa, parity⟩
  | xOnly length abscissa even =>
    rw [parse_xOnly_form spells length, ofAbscissa_eq_ok_iff, isOdd_eq_iff]
    exact ⟨abscissa, even⟩

theorem DenotedBy.unique {key other : PublicKey} {bytes : Bytes} (denoted : key.DenotedBy bytes)
    (denoted' : other.DenotedBy bytes) : other = key := by
  have read := parse_of_denotedBy (spells_body_encode bytes) denoted
  rw [parse_of_denotedBy (spells_body_encode bytes) denoted'] at read
  exact Except.ok.inj read

/-- A text that is read as a key is read as the one key that its bytes denote, wherever blanks
    stand in it. Hex digits that denote a key are read. The ordinate is the same whatever finds the
    square roots, as long as it finds all of them. -/
theorem parse_denoted (text : String) :
    (∀ key, parse text = .ok key →
      ∃ bytes, Hex.decode (body text.toList) = some bytes ∧ key.DenotedBy bytes ∧
        ∀ other, other.DenotedBy bytes → other = key) ∧
    (∀ bytes key, (∀ c ∈ body text.toList, (Hex.value? c).isSome) →
      Hex.decode (body text.toList) = some bytes → key.DenotedBy bytes → parse text = .ok key) ∧
    ∀ (x : Nat) (roots : List Nat),
      (∀ y, y ∈ roots ↔ y < prime ∧ y ^ 2 % prime = (x ^ 3 + 7) % prime) →
        evenOrdinate? x = roots.find? fun y => y % 2 = 0 := by
  refine ⟨?_, ?_, ?_⟩
  · intro key read
    obtain ⟨bytes, decoded, denoted⟩ := denotedBy_of_parse read
    exact ⟨bytes, decoded, denoted, fun other denoted' => denoted.unique denoted'⟩
  · intro bytes key digits decoded denoted
    simp only [Option.isSome_iff_exists] at digits
    exact parse_of_denotedBy (spells_of_digits digits decoded) denoted
  · intro x roots all
    simp only [sq, ← cubic_eq] at all
    exact evenOrdinate?_eq_find? all

def doubled : PublicKey where
  x := 0xc6047f9441ed7d6d3045406e95c07cd85c778e4b8cef3ca7abac09b95c709ee5
  y := 0x1ae168fea63dc339a3c58419466ceaeef7f632653266d0e1236431a950cfe52a
  holds := by decide

def spacedText : String :=
  " 0x02 c6047f9441ed7d6d3045406e95c07cd85c778e4b8cef3ca7abac09b95c709ee5\n"

def bareText : String := "0XC6047F9441ED7D6D3045406E95C07CD85C778E4B8CEF3CA7ABAC09B95C709EE5"

theorem parse_denoted_doubled :
    (parse spacedText = .ok doubled ∧ doubled.DenotedBy doubled.compressed) ∧
      parse bareText = .ok doubled := by
  obtain ⟨read, -, -⟩ := parse_denoted spacedText
  obtain ⟨-, denote, -⟩ := parse_denoted bareText
  have accepted : parse spacedText = .ok doubled := by decide +kernel
  obtain ⟨bytes, decoded, denoted, -⟩ := read doubled accepted
  have spaced : Hex.decode (body spacedText.toList) = some doubled.compressed := by decide +kernel
  cases decoded.symm.trans spaced
  have digits : (body bareText.toList).all (fun c => (Hex.value? c).isSome) = true := by
    decide +kernel
  have abscissa : doubled.DenotedBy doubled.xOnly := by
    refine .xOnly doubled.length_xOnly ?_ rfl
    rw [xOnly, toNatBE_coordinate doubled.x_lt_coordinateLimit]
  exact ⟨⟨accepted, denoted⟩,
    denote doubled.xOnly doubled (List.all_eq_true.mp digits) (by decide +kernel) abscissa⟩

end PublicKey

end SpendingPlan

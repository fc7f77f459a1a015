import SpendingPlan.Proofs.Path.RoundTrip

namespace SpendingPlan.Path

def elements (text : String) : List (List Char) :=
  let pieces :=
    match pieces (Text.trimEnd (· = '/') text.toList) with
    | ['m'] :: rest => rest
    | pieces => pieces
  pieces.filter (· ≠ [])

def isHardened (element : List Char) : Bool := element.getLast?.any isHardenedMark

def unmarked (element : List Char) : List Char :=
  if isHardened element then element.dropLast else element

/-- An index has room in 32 bits; the highest of them tells a hardened element, the others are its
    number. -/
structure Denotes (element : List Char) (index : Int) : Prop where
  nonneg : 0 ≤ index
  lt_limit : index < 0x100000000
  testBit : index.toNat.testBit 31 = isHardened element
  number : Text.Numeral.decimal (unmarked element) = some (index.toNat % 2 ^ 31)

theorem parseIndex_eq_ok {element : List Char} {index : Nat}
    (read : parseIndex element = .ok index) :
    ∃ number, Text.Numeral.decimal (unmarked element) = some number ∧ number < 2 ^ 31 ∧
      index = if isHardened element then 2 ^ 31 + number else number := by
  unfold parseIndex at read
  extract_lets marked digits at read
  split at read
  · cases read
  split at read
  · cases read
  rename_i number value
  split at read
  · cases read
  rename_i low
  refine ⟨number, value, Nat.lt_of_not_le low, ?_⟩
  cases read
  rw [Nat.add_comm]
  rfl

theorem denotes_of_parseIndex {element : List Char} {index : Nat}
    (read : parseIndex element = .ok index) : Denotes element index := by
  obtain ⟨number, value, low, rfl⟩ := parseIndex_eq_ok read
  have clear : number.testBit 31 = false := Nat.testBit_lt_two_pow low
  cases hardened : isHardened element with
  | false =>
    refine ⟨Int.natCast_nonneg _, by exact_mod_cast low.trans (by decide), ?_, ?_⟩
    · rw [Int.toNat_natCast, hardened]
      exact clear
    · rw [Int.toNat_natCast, value]
      exact congrArg some (Nat.mod_eq_of_lt low).symm
  | true =>
    have below : 2 ^ 31 + number < 0x100000000 := by omega
    refine ⟨Int.natCast_nonneg _, by exact_mod_cast below, ?_, ?_⟩
    · rw [Int.toNat_natCast, hardened, if_pos rfl, Nat.testBit_two_pow_add_eq, clear]
      rfl
    · rw [Int.toNat_natCast, if_pos rfl, Nat.add_mod_left, Nat.mod_eq_of_lt low, value]

theorem parse_eq (text : String) :
    parse text = (elements text).mapM parseIndex >>= fun indexes => .ok (indexes.map Int.ofNat) :=
  rfl

theorem denotes_of_parse {text : String} {path : Path} (read : parse text = .ok path) :
    List.Forall₂ Denotes (elements text) path := by
  rw [parse_eq] at read
  obtain ⟨indexes, each, read⟩ := bind_ok read
  cases read
  rw [List.forall₂_map_right_iff]
  exact (forall₂_of_mapM each).imp fun _ _ => denotes_of_parseIndex

/-- Indexes with room in 32 bits are read back from their text, whichever mark stands after the
    hardened ones. Whatever text is read, its elements are told by the indexes, which can be shown
    again, read back and written down. -/
theorem parse_lossless :
    (∀ (path : Path) (mark : Char), (∀ index ∈ path, 0 ≤ index ∧ index < 0x100000000) →
      mark ∈ ['\x27', 'h', 'H'] →
        ∃ text, render (String.singleton mark) path = .ok text ∧ parse text = .ok path) ∧
    ∀ (text : String) (path : Path), parse text = .ok path →
      List.Forall₂ Denotes (elements text) path ∧
      (∀ mark ∈ ['\x27', 'h', 'H'], ∃ text',
        render (String.singleton mark) path = .ok text' ∧ parse text' = .ok path) ∧
      ∀ fingerprint : Fingerprint, ∃ bytes, KeyOrigin.encode ⟨fingerprint, path⟩ = .ok bytes := by
  have marks : ∀ mark ∈ ['\x27', 'h', 'H'], isHardenedMark mark = true := by
    simp [isHardenedMark]
  refine ⟨?_, ?_⟩
  · intro path mark range member
    apply parse_render (marks mark member)
    intro index listed
    have := range index listed
    omega
  · intro text path read
    have range := parse_inRange read
    exact ⟨denotes_of_parse read, fun mark member => parse_render (marks mark member) range,
      fun fingerprint => KeyOrigin.encode_of_inRange range⟩

def mixedText : String := "m/00/2147483647//1h/٣\x27/0H/"

theorem parse_lossless_mixed :
    (∃ text, render "\x27" [0x7fffffff, 0xffffffff, 0x80000000] = .ok text ∧
      parse text = .ok [0x7fffffff, 0xffffffff, 0x80000000]) ∧
    parse mixedText = .ok [0, 0x7fffffff, 0x80000001, 0x80000003, 0x80000000] ∧
      render "H" [0, 0x7fffffff, 0x80000001, 0x80000003, 0x80000000] =
        .ok "m/0/2147483647/1H/3H/0H" ∧
      parse "m/0/2147483647/1H/3H/0H" =
        .ok [0, 0x7fffffff, 0x80000001, 0x80000003, 0x80000000] := by
  have read : parse mixedText = .ok [0, 0x7fffffff, 0x80000001, 0x80000003, 0x80000000] := by
    decide +kernel
  have shown : render "H" [0, 0x7fffffff, 0x80000001, 0x80000003, 0x80000000] =
      .ok "m/0/2147483647/1H/3H/0H" := by
    decide +kernel
  have bounds :=
    parse_lossless.1 [0x7fffffff, 0xffffffff, 0x80000000] '\x27' (by decide) (by decide)
  obtain ⟨-, again, -⟩ := parse_lossless.2 mixedText _ read
  obtain ⟨text, shown', back⟩ := again 'H' (by decide)
  cases shown.symm.trans shown'
  exact ⟨bounds, read, shown, back⟩

end SpendingPlan.Path

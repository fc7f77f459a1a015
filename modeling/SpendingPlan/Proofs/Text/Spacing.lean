import SpendingPlan.Proofs.Text.Spelling

namespace SpendingPlan

namespace Text

def solid (text : List Char) : List Char := text.filter fun c => !isAsciiBlank c

theorem solid_cons_of_blank {c : Char} (blank : isAsciiBlank c = true) (rest : List Char) :
    solid (c :: rest) = solid rest := by
  rw [solid, List.filter_cons_of_neg (by simp [blank]), solid]

theorem solid_cons_of_solid {c : Char} (mark : isAsciiBlank c = false) (rest : List Char) :
    solid (c :: rest) = c :: solid rest := by
  rw [solid, List.filter_cons_of_pos (by simp [mark]), solid]

theorem solid_eq_self {text : List Char} (marks : ∀ c ∈ text, isAsciiBlank c = false) :
    solid text = text := by
  rw [solid, List.filter_eq_self]
  intro c member
  rw [marks c member]
  rfl

theorem solid_eq_nil {text : List Char} (blanks : ∀ c ∈ text, isAsciiBlank c = true) :
    solid text = [] := by
  rw [solid, List.filter_eq_nil_iff]
  intro c member
  rw [blanks c member]
  exact Bool.false_ne_true

theorem solid_append (front rest : List Char) : solid (front ++ rest) = solid front ++ solid rest :=
  List.filter_append front rest

theorem solid_drop_one (text : List Char) :
    solid (text.drop 1) = solid text ∨ solid (text.drop 1) = (solid text).drop 1 := by
  cases text with
  | nil => exact .inl rfl
  | cons c rest =>
    cases blank : isAsciiBlank c with
    | true => exact .inl (solid_cons_of_blank blank rest).symm
    | false =>
      rw [solid_cons_of_solid blank]
      exact .inr rfl

theorem solid_drop (count : Nat) (text : List Char) :
    ∃ marks ≤ count, solid (text.drop count) = (solid text).drop marks := by
  induction count with
  | zero => exact ⟨0, le_rfl, rfl⟩
  | succ count ih =>
    obtain ⟨marks, few, same⟩ := ih
    rw [← List.drop_drop]
    rcases solid_drop_one (text.drop count) with kept | dropped
    · exact ⟨marks, by omega, kept.trans same⟩
    · refine ⟨marks + 1, by omega, ?_⟩
      rw [dropped, same, List.drop_drop]

theorem hexValue?_of_blank {c : Char} (blank : isAsciiBlank c = true) :
    Numeral.hexValue? c = none := by
  have low : c.toNat ≤ 0x20 := by
    simp only [isAsciiBlank, inRanges] at blank
    grind
  have lowest : ∀ first ∈ decimalZeros, 0x30 ≤ first := by decide
  have foreign : decimalValue? c = none := by
    rw [decimalValue?, Option.map_eq_none_iff, List.find?_eq_none]
    intro first listed
    have := lowest first listed
    simp only [Bool.and_eq_true, decide_eq_true_eq]
    omega
  simp only [Numeral.hexValue?]
  rw [if_neg (by omega), if_neg (by omega), foreign]

theorem mem_of_mem_trim {drop : Char → Bool} {text : List Char} {c : Char}
    (member : c ∈ trim drop text) : c ∈ text := by
  obtain ⟨front, back, parts, -, -⟩ := trim_parts drop text
  rw [parts]
  exact List.mem_append_right front (List.mem_append_left back member)

namespace Numeral

theorem hexValue?_of_hexDigits {text : List Char} {value number : Nat} {afterDigit : Bool}
    (read : hexDigits value afterDigit text = some number) :
    ∀ c ∈ text, c = '_' ∨ ∃ digit, hexValue? c = some digit := by
  fun_induction hexDigits value afterDigit text with
  | case1 => simp
  | case2 => cases read
  | case3 value rest ih => exact List.forall_mem_cons.mpr ⟨.inl rfl, ih read⟩
  | case4 => cases read
  | case5 value afterDigit c rest plain digit found ih =>
    exact List.forall_mem_cons.mpr ⟨.inr ⟨digit, found⟩, ih read⟩
  | case6 => cases read

end Numeral

end Text

namespace Hex

open Text

def Readable (c : Char) : Prop := isAsciiBlank c = true ∨ ∃ digit, value? c = some digit

theorem decodeFrom_spells {read bytes : Bytes} {text : List Char}
    (decoded : decodeFrom read text = some bytes) :
    ∃ rest, bytes = read.reverse ++ rest ∧ Spells (solid text) rest := by
  fun_induction decodeFrom read text with
  | case1 read =>
    cases decoded
    exact ⟨[], (List.append_nil _).symm, .nil⟩
  | case2 read c text blank ih =>
    rw [solid_cons_of_blank blank]
    exact ih decoded
  | case3 => cases decoded
  | case4 read c mark d text high low second first ih =>
    obtain ⟨rest, whole, spells⟩ := ih decoded
    rw [solid_cons_of_solid (isAsciiBlank_of_value? first),
      solid_cons_of_solid (isAsciiBlank_of_value? second)]
    refine ⟨_, ?_, .cons first second spells⟩
    rw [whole, List.reverse_cons, List.append_assoc]
    rfl
  | case5 => cases decoded

theorem spells_of_decode {text : List Char} {bytes : Bytes} (decoded : decode text = some bytes) :
    Spells (solid text) bytes := by
  obtain ⟨rest, whole, spells⟩ := decodeFrom_spells decoded
  rw [List.reverse_nil, List.nil_append] at whole
  exact whole ▸ spells

theorem readable_of_decode {text : List Char} {bytes : Bytes} (decoded : decode text = some bytes)
    {c : Char} (member : c ∈ text) : Readable c := by
  cases blank : isAsciiBlank c with
  | true => exact .inl blank
  | false =>
    have kept : c ∈ solid text := List.mem_filter.mpr ⟨member, by rw [blank]; rfl⟩
    exact .inr ((spells_of_decode decoded).value?_of_mem kept)

theorem Readable.mark {c : Char} (readable : Readable c) (other : value? c = none) :
    isAsciiBlank c = true := by
  rcases readable with blank | ⟨digit, found⟩
  · exact blank
  · cases other.symm.trans found

theorem Readable.around {c : Char} (readable : Readable c) (blank : isNumeralBlank c = true) :
    isAsciiBlank c = true := by
  rcases readable with here | ⟨digit, found⟩
  · exact here
  · rw [isNumeralBlank, isBlank_of_value? found] at blank
    cases blank

theorem solid_trim {text : List Char} (readable : ∀ c ∈ text, Readable c) :
    solid (Text.trim isNumeralBlank text) = solid text := by
  obtain ⟨front, back, parts, before, after⟩ := trim_parts isNumeralBlank text
  generalize Text.trim isNumeralBlank text = inner at parts ⊢
  subst parts
  have opening : solid front = [] := solid_eq_nil fun c member =>
    (readable c (by simp [member])).around (before c member)
  have closing : solid back = [] := solid_eq_nil fun c member =>
    (readable c (by simp [member])).around (after c member)
  rw [solid_append, solid_append, opening, closing, List.nil_append, List.append_nil]

/-- Blanks inside a numeral are refused and those around it are dropped, so that it is read as its
    hex digits without any blanks. -/
theorem hexDigits_of_numeral {text : List Char} (readable : ∀ c ∈ text, Readable c) {number : Int}
    (read : Numeral.hex text = some number) :
    ∃ value : Nat, number = value ∧ Numeral.hexDigits 0 false (solid text) = some value := by
  rw [← solid_trim readable]
  have inside : ∀ c ∈ Text.trim isNumeralBlank text, Readable c :=
    fun c member => readable c (mem_of_mem_trim member)
  generalize trimmed : Text.trim isNumeralBlank text = inner at inside ⊢
  have foreign {c : Char} (mark : isAsciiBlank c = false) (other : value? c = none) :
      c ∉ inner := by
    intro member
    cases mark.symm.trans ((inside c member).mark other)
  rw [Numeral.hex_of_unsigned trimmed (foreign rfl rfl) (foreign rfl rfl),
    Numeral.unsignedHex_of_unmarked (foreign rfl rfl) (foreign rfl rfl),
    Option.map_eq_some_iff] at read
  obtain ⟨value, found, rfl⟩ := read
  have unspaced : solid inner = inner := by
    apply solid_eq_self
    intro c member
    rcases Numeral.hexValue?_of_hexDigits found c member with rfl | ⟨digit, gives⟩
    · rfl
    · by_contra blank
      rw [Bool.not_eq_false] at blank
      cases gives.symm.trans (hexValue?_of_blank blank)
  rw [unspaced]
  exact ⟨value, rfl, found⟩

theorem spells_of_digits {text : List Char} {bytes : Bytes}
    (digits : ∀ c ∈ text, ∃ digit, value? c = some digit) (decoded : decode text = some bytes) :
    Spells text bytes := by
  have spells := spells_of_decode decoded
  have unspaced : solid text = text := by
    apply solid_eq_self
    intro c member
    obtain ⟨digit, found⟩ := digits c member
    exact isAsciiBlank_of_value? found
  rwa [unspaced] at spells

end Hex

end SpendingPlan

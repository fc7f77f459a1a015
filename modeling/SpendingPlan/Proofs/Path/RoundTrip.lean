import SpendingPlan.Proofs.Origin.Range
import SpendingPlan.Proofs.Text.Spelling

namespace SpendingPlan.Path

section Index

variable {n : Nat} {mark : Char}

theorem digits_ascii {c : Char} (member : c ∈ Nat.toDigits 10 n) : c.isDigit = true :=
  Nat.isDigit_of_mem_toDigits (by decide) (by decide) member

theorem digits_all : (Nat.toDigits 10 n).all Text.isDigit = true := by
  rw [List.all_eq_true]
  intro c member
  exact Text.isDigit_of_ascii (digits_ascii member)

theorem isHardenedMark_of_digit {c : Char} (digit : c.isDigit = true) :
    isHardenedMark c = false := by
  rw [← Bool.not_eq_true]
  intro marks
  simp only [isHardenedMark, Bool.or_eq_true, decide_eq_true_eq] at marks
  rcases marks with (rfl | rfl) | rfl <;> cases digit

theorem decimal_of_low (low : n < hardenedBit) :
    Text.Numeral.decimal (Nat.toDigits 10 n) = some n := by
  have room : 10 ^ 10 ≤ 10 ^ Text.Numeral.maxDecimalDigits :=
    Nat.pow_le_pow_right (by decide) (by decide)
  apply Text.Numeral.decimal_toDigits
  unfold hardenedBit at low
  omega

theorem parseIndex_digits (low : n < hardenedBit) : parseIndex (Nat.toDigits 10 n) = .ok n := by
  have unmarked : (Nat.toDigits 10 n).getLast?.any isHardenedMark = false := by
    rw [List.getLast?_eq_getLast_of_ne_nil Nat.toDigits_ne_nil, Option.any_some]
    exact isHardenedMark_of_digit (digits_ascii (List.getLast_mem _))
  simp only [parseIndex, unmarked, digits_all, decimal_of_low low, Nat.toDigits_ne_nil,
    Bool.false_eq_true, if_false, Bool.not_true, or_self, if_neg low.not_ge]

theorem parseIndex_marked (marks : isHardenedMark mark = true) (low : n < hardenedBit) :
    parseIndex (Nat.toDigits 10 n ++ [mark]) = .ok (n + hardenedBit) := by
  have marked : (Nat.toDigits 10 n ++ [mark]).getLast?.any isHardenedMark = true := by
    rw [List.getLast?_concat, Option.any_some, marks]
  simp only [parseIndex, marked, List.dropLast_concat, digits_all, decimal_of_low low,
    Nat.toDigits_ne_nil, if_true, Bool.not_true, Bool.false_eq_true, or_self, if_false,
    if_neg low.not_ge]

end Index

def shown (mark : Char) (index : Int) : List Char :=
  if (hardenedBit : Int) ≤ index then Nat.toDigits 10 (index - hardenedBit).toNat ++ [mark]
  else Nat.toDigits 10 index.toNat

def trail (mark : Char) (path : Path) : List Char :=
  path.flatMap fun index => '/' :: shown mark index

theorem shown_ne_nil (mark : Char) (index : Int) : shown mark index ≠ [] := by
  rw [shown]
  split
  · simp
  · exact Nat.toDigits_ne_nil

theorem mem_shown {mark c : Char} {index : Int} (member : c ∈ shown mark index) :
    c.isDigit = true ∨ c = mark := by
  rw [shown] at member
  split at member
  · rcases List.mem_append.mp member with digit | last
    · exact .inl (digits_ascii digit)
    · exact .inr (List.mem_singleton.mp last)
  · exact .inl (digits_ascii member)

theorem renderIndex_shown {index : Int} (range : 0 ≤ index ∧ index ≤ 0xffffffff) (mark : Char) :
    renderIndex (String.singleton mark) index = .ok (String.ofList ('/' :: shown mark index)) := by
  rw [renderIndex, if_neg (by omega), shown]
  split
  · rename_i hardened
    obtain ⟨low, above⟩ := Int.eq_ofNat_of_zero_le (Int.sub_nonneg.mpr hardened)
    rw [above, Int.toNat_natCast, Except.ok.injEq]
    apply String.toList_injective
    simp [toString, Int.repr]
  · obtain ⟨low, rfl⟩ := Int.eq_ofNat_of_zero_le range.1
    rw [Int.toNat_natCast, Except.ok.injEq]
    apply String.toList_injective
    simp [toString, Int.repr]

theorem renderElements_trail {path : Path} (range : path.InRange) (mark : Char) :
    renderElements (String.singleton mark) (path.map .index) =
      .ok (String.ofList (trail mark path)) := by
  have each : (path.map Element.index).mapM (Element.render (String.singleton mark)) =
      .ok (path.map fun index => String.ofList ('/' :: shown mark index)) := by
    rw [List.mapM_map]
    apply mapM_eq_map
    intro index member
    exact renderIndex_shown (range index member) mark
  have joined : String.join (path.map fun index => String.ofList ('/' :: shown mark index)) =
      String.ofList (trail mark path) := by
    apply String.toList_injective
    simp [String.toList_join, trail, List.flatMap_map]
  rw [renderElements, each, ok_bind, joined]
  rfl

theorem append_trail (first : List Char) (mark : Char) (path : Path) :
    first ++ trail mark path = ['/'].intercalate (first :: path.map (shown mark)) := by
  induction path generalizing first with
  | nil => simp [trail]
  | cons index rest ih =>
    rw [List.map_cons, List.intercalate_cons_cons, ← ih]
    simp [trail]

theorem filter_shown (mark : Char) (path : Path) :
    (path.map (shown mark)).filter (· ≠ []) = path.map (shown mark) := by
  rw [List.filter_eq_self]
  intro piece member
  obtain ⟨index, -, rfl⟩ := List.mem_map.mp member
  exact decide_eq_true (shown_ne_nil mark index)

theorem InRange.ofNat_toNat {path : Path} (range : path.InRange) :
    (path.map Int.toNat).map Int.ofNat = path := by
  rw [List.map_map]
  conv_rhs => rw [← List.map_id path]
  apply List.map_congr_left
  intro index member
  exact Int.toNat_of_nonneg (range index member).1

section Parsing

variable {mark : Char} (marks : isHardenedMark mark = true)

include marks

theorem not_mem_shown {index : Int} {c : Char} (foreign : c.isDigit = false)
    (unmarked : isHardenedMark c = false) : c ∉ shown mark index := by
  intro member
  rcases mem_shown member with digit | rfl
  · cases foreign.symm.trans digit
  · cases unmarked.symm.trans marks

theorem last_append_trail {path : Path} {first : List Char}
    (ends : ∀ c, first.getLast? = some c → c ≠ '/') {c : Char}
    (last : (first ++ trail mark path).getLast? = some c) : c ≠ '/' := by
  induction path generalizing first with
  | nil =>
    rw [trail, List.flatMap_nil, List.append_nil] at last
    exact ends c last
  | cons index rest ih =>
    rw [trail, List.flatMap_cons, ← List.append_assoc] at last
    apply ih _ last
    rintro d ends' rfl
    rw [List.getLast?_append_cons, List.getLast?_cons_of_ne_nil (shown_ne_nil mark index)] at ends'
    exact not_mem_shown marks rfl rfl (List.mem_of_getLast? ends')

theorem pieces_append_trail (path : Path) {first : List Char} (nonempty : first ≠ [])
    (whole : '/' ∉ first) :
    pieces (Text.trimEnd (· = '/') (first ++ trail mark path)) =
      first :: path.map (shown mark) := by
  rw [Text.trimEnd_of_last, append_trail, pieces, List.splitOn_intercalate]
  · intro piece member
    rcases List.mem_cons.mp member with rfl | member
    · exact whole
    · obtain ⟨index, -, rfl⟩ := List.mem_map.mp member
      exact not_mem_shown marks rfl rfl
  · simp
  · intro c last
    apply decide_eq_false
    apply last_append_trail marks _ last
    rintro d ends rfl
    exact whole (List.mem_of_getLast? ends)

theorem parseIndex_shown {index : Int} (range : 0 ≤ index ∧ index ≤ 0xffffffff) :
    parseIndex (shown mark index) = .ok index.toNat := by
  unfold shown
  split
  · rename_i hardened
    have bit : hardenedBit = 0x80000000 := rfl
    rw [parseIndex_marked marks (by omega)]
    congr 1
    omega
  · rename_i plain
    exact parseIndex_digits (by omega)

theorem mapM_parseIndex_shown {path : Path} (range : path.InRange) :
    (path.map (shown mark)).mapM parseIndex = .ok (path.map Int.toNat) := by
  rw [List.mapM_map]
  apply mapM_eq_map
  intro index member
  exact parseIndex_shown marks (range index member)

theorem parse_from_master {path : Path} (range : path.InRange) :
    parse (String.ofList ('m' :: trail mark path)) = .ok path := by
  have elements := pieces_append_trail marks path (List.cons_ne_nil 'm' []) (by decide)
  rw [List.singleton_append] at elements
  rw [parse, String.toList_ofList]
  simp only [elements, filter_shown, mapM_parseIndex_shown marks range, ok_bind]
  exact congrArg Except.ok range.ofNat_toNat

theorem parse_after_slash {path : Path} (range : path.InRange) :
    parse (String.ofList ((trail mark path).drop 1)) = .ok path := by
  cases path with
  | nil => rfl
  | cons index rest =>
    have elements := pieces_append_trail marks rest (shown_ne_nil mark index)
      (not_mem_shown marks rfl rfl)
    have master : ['m'] ≠ shown mark index := by
      intro same
      have member : 'm' ∈ shown mark index := same ▸ List.mem_singleton_self 'm'
      exact not_mem_shown marks rfl rfl member
    have start : (trail mark (index :: rest)).drop 1 = shown mark index ++ trail mark rest := rfl
    rw [← List.map_cons] at elements
    rw [parse, String.toList_ofList, start]
    simp only [elements]
    split
    · rename_i given
      exact absurd (List.cons.inj given).1.symm master
    · simp only [filter_shown, mapM_parseIndex_shown marks range, ok_bind]
      exact congrArg Except.ok range.ofNat_toNat

theorem parse_render {path : Path} (range : path.InRange) :
    ∃ text, render (String.singleton mark) path = .ok text ∧ parse text = .ok path := by
  refine ⟨_, ?_, parse_from_master marks range⟩
  rw [render, renderFromMaster, renderElements_trail range]
  exact congrArg Except.ok String.ofList_append.symm

end Parsing

end SpendingPlan.Path

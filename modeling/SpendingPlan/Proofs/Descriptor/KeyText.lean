import SpendingPlan.Proofs.Key.Encoding
import SpendingPlan.Proofs.Path.RoundTrip

namespace SpendingPlan

theorem Text.ne_of_not_mem {stop : Char} {text : List Char} (inside : stop ∉ text) :
    ∀ c ∈ text, decide (c ≠ stop) = true := by
  intro c member
  apply decide_eq_true
  rintro rfl
  exact inside member

namespace KeyOrigin

def chars (origin : KeyOrigin) : List Char :=
  Hex.encodeChars origin.fingerprint.bytes ++ Path.trail 'h' origin.path

theorem render_chars {origin : KeyOrigin} (range : origin.path.InRange) :
    origin.render = .ok (String.ofList origin.chars) := by
  have path := Path.renderElements_trail range 'h'
  change Path.renderElements Path.defaultMark _ = _ at path
  rw [render, path, ok_bind, chars, String.ofList_append]
  rfl

theorem isBracket_of_mem_chars {origin : KeyOrigin} {c : Char} (member : c ∈ origin.chars) :
    isBracket c = false := by
  rw [← Bool.not_eq_true]
  intro bracket
  simp only [isBracket, Bool.or_eq_true, decide_eq_true_eq] at bracket
  rcases List.mem_append.mp member with hex | path
  · have foreign : Hex.value? c = none := by rcases bracket with rfl | rfl <;> rfl
    exact (Hex.spells_encodeChars _).not_mem foreign hex
  · obtain ⟨index, -, listed⟩ := List.mem_flatMap.mp path
    rcases List.mem_cons.mp listed with rfl | listed
    · simp at bracket
    · have foreign : c.isDigit = false ∧ Path.isHardenedMark c = false := by
        rcases bracket with rfl | rfl <;> exact ⟨rfl, rfl⟩
      exact Path.not_mem_shown rfl foreign.1 foreign.2 listed

theorem parse_of_trim {origin : KeyOrigin} (range : origin.path.InRange) {text : List Char}
    (body : Text.trim isBracket text = origin.chars) :
    parse (String.ofList text) = .ok origin := by
  have hex := Hex.spells_encodeChars origin.fingerprint.bytes
  have front := Text.ne_of_not_mem (hex.not_mem (c := '/') rfl)
  have stop : (Path.trail 'h' origin.path).takeWhile (· ≠ '/') = [] ∧
      (Path.trail 'h' origin.path).dropWhile (· ≠ '/') = Path.trail 'h' origin.path := by
    cases origin.path <;> simp [Path.trail]
  have mark : Path.isHardenedMark 'h' = true := rfl
  have path := Path.parse_after_slash mark range
  have fingerprint : Fingerprint.ofBytes origin.fingerprint.bytes = .ok origin.fingerprint :=
    dif_pos origin.fingerprint.length_bytes
  rw [parse, String.toList_ofList]
  simp only [body]
  rw [chars, List.takeWhile_append_of_pos front, List.dropWhile_append_of_pos front, stop.1, stop.2,
    List.append_nil, hex.decode]
  simp only [path, fingerprint, ok_bind]
  rfl

theorem parse_chars {origin : KeyOrigin} (range : origin.path.InRange) :
    parse (String.ofList origin.chars) = .ok origin ∧
      parse (String.ofList ('[' :: (origin.chars ++ [']']))) = .ok origin := by
  have solid : ∀ c ∈ origin.chars, isBracket c = false := fun c => isBracket_of_mem_chars
  constructor
  · exact parse_of_trim range (Text.trim_eq_self solid)
  · exact parse_of_trim range (Text.trim_enclosed solid rfl rfl)

end KeyOrigin

namespace DescriptorKey

def render (key : DescriptorKey) : Except Error String := do
  let origin ←
    match key.origin with
    | some origin => do pure s!"[{← origin.render}]"
    | none => pure ""
  return origin ++ Hex.encode key.key.compressed

theorem splitOrigin_append {front : List Char} (inside : ']' ∉ front) (rest : List Char) :
    splitOrigin (front ++ ']' :: rest) = (front, rest) := by
  have solid := Text.ne_of_not_mem inside
  rw [splitOrigin, List.takeWhile_append_of_pos solid, List.dropWhile_append_of_pos solid]
  simp

theorem parse_with_origin (key : PublicKey) {origin : KeyOrigin} (range : origin.path.InRange)
    {texts : List String} {suffixes : List Path} (read : texts.mapM Path.parse = .ok suffixes) :
    ∃ text, render ⟨key, some origin, suffixes⟩ = .ok text ∧
      parse text texts = .ok ⟨key, some origin, suffixes⟩ := by
  have inside : ']' ∉ origin.chars := by
    intro member
    cases KeyOrigin.isBracket_of_mem_chars member
  have split := splitOrigin_append inside (Hex.encodeChars key.compressed)
  have originRead := (KeyOrigin.parse_chars range).1
  have keyRead := key.parse_encode_compressed
  rw [Hex.encode] at keyRead
  refine ⟨String.ofList ('[' :: (origin.chars ++ ']' :: Hex.encodeChars key.compressed)), ?_, ?_⟩
  · rw [render, Hex.encode]
    simp only [KeyOrigin.render_chars range, ok_bind]
    apply congrArg Except.ok
    apply String.toList_injective
    simp [toString]
  · rw [parse, String.toList_ofList]
    simp only [split, originRead, read, keyRead, ok_bind]
    rfl

theorem parse_without_origin (key : PublicKey) {texts : List String}
    {suffixes : List Path} (read : texts.mapM Path.parse = .ok suffixes) :
    ∃ text, render ⟨key, none, suffixes⟩ = .ok text ∧
      parse text texts = .ok ⟨key, none, suffixes⟩ := by
  have bracket : '[' ∉ (Hex.encode key.compressed).toList :=
    (Hex.spells_encode key.compressed).not_mem rfl
  refine ⟨Hex.encode key.compressed, ?_, ?_⟩
  · exact congrArg Except.ok (String.empty_append)
  · rw [parse]
    split
    · rename_i opened
      rw [opened] at bracket
      exact absurd List.mem_cons_self bracket
    · rw [read, ok_bind, key.parse_encode_compressed]
      rfl

/-- Keys, origins and paths are read back from their texts, none of which takes a character of the
    next: a key with its origin and the paths that follow it, and an origin alone, with brackets
    around it or without. -/
theorem parse_rendered :
    (∀ key : DescriptorKey, key.originPath.InRange → (∀ path ∈ key.suffixes, path.InRange) →
      ∃ text suffixes, key.render = .ok text ∧
        key.suffixes.mapM (Path.render Path.defaultMark) = .ok suffixes ∧
        parse text suffixes = .ok key) ∧
    ∀ origin : KeyOrigin, origin.path.InRange →
      ∃ text, origin.render = .ok text ∧ KeyOrigin.parse text = .ok origin ∧
        KeyOrigin.parse s!"[{text}]" = .ok origin := by
  constructor
  · rintro ⟨key, origin, suffixes⟩ range ranges
    have mark : Path.isHardenedMark 'h' = true := rfl
    obtain ⟨texts, written, read⟩ := exists_mapM_inverse fun path member =>
      Path.parse_render mark (ranges path member)
    cases origin with
    | some origin =>
      obtain ⟨text, rendered, parsed⟩ := parse_with_origin key range read
      exact ⟨text, texts, rendered, written, parsed⟩
    | none =>
      obtain ⟨text, rendered, parsed⟩ := parse_without_origin key read
      exact ⟨text, texts, rendered, written, parsed⟩
  · intro origin range
    obtain ⟨bare, bracketed⟩ := KeyOrigin.parse_chars range
    refine ⟨_, KeyOrigin.render_chars range, bare, ?_⟩
    have brackets : s!"[{String.ofList origin.chars}]" =
        String.ofList ('[' :: (origin.chars ++ [']'])) := by
      apply String.toList_injective
      simp [toString]
    rw [brackets]
    exact bracketed

def multipath : DescriptorKey where
  key :=
    { x := 0xfff97bd5755eeea420453a14355235d382f6472f8568a18b2f057a1460297556
      y := 0xae12777aacfbb620f3be96017f45c560de80f0f6518fe4a03c870c36b075f297
      holds := by decide }
  origin := some ⟨⟨[0xd3, 0x4d, 0xb3, 0x3f], rfl⟩, [0x80000054, 0x7fffffff, 0xffffffff]⟩
  suffixes := [[], [0], [0x80000000, 1]]

theorem parse_rendered_multipath :
    parse ("[d34db33f/84h/2147483647/2147483647h]" ++
        "03fff97bd5755eeea420453a14355235d382f6472f8568a18b2f057a1460297556")
      ["m", "m/0", "m/0h/1"] = .ok multipath := by
  have range : multipath.originPath.InRange ∧ ∀ path ∈ multipath.suffixes, path.InRange := by
    unfold Path.InRange
    decide
  obtain ⟨text, suffixes, rendered, written, read⟩ := parse_rendered.1 multipath range.1 range.2
  have key : multipath.render = .ok ("[d34db33f/84h/2147483647/2147483647h]" ++
      "03fff97bd5755eeea420453a14355235d382f6472f8568a18b2f057a1460297556") := by decide +kernel
  have paths : multipath.suffixes.mapM (Path.render Path.defaultMark) =
      .ok ["m", "m/0", "m/0h/1"] := by decide +kernel
  cases rendered.symm.trans key
  cases written.symm.trans paths
  exact read

end DescriptorKey

end SpendingPlan

import SpendingPlan.Bytes.Lemmas
import SpendingPlan.CompactSize.Lemmas
import SpendingPlan.Proofs.Script.Encoding
import SpendingPlan.Script

namespace SpendingPlan

/-- What a token stands for. Zero and its names push nothing, other small numbers and names are
    operations, and larger numbers and hex push bytes. -/
def Token.element? : Token → Option Script.Element
  | .number n =>
    if n < 0 then none
    else if n = 0 then some (.push [])
    else if n ≤ 16 then some (.code (UInt8.ofNat (0x50 + n.toNat)))
    else some (.push (Script.numberPayload n.toNat))
  | .word text =>
    if text = "OP_0" ∨ text = "OP_FALSE" then some (.push [])
    else
      match opcode? text with
      | some code => some (.code code)
      | none => (Hex.decode text.toList).map .push

namespace Script

/-- Names of bytes that start a push header, so that they swallow what follows them. -/
def headerNames : List String := ["OP_PUSHDATA1", "OP_PUSHDATA2", "OP_PUSHDATA4"]

inductive Header (size : Nat) : Bytes → Prop
  | direct : size < 0x4c → Header size [UInt8.ofNat size]
  | wide {marker : UInt8} {width : Nat} :
      (marker, width) ∈ [((0x4c : UInt8), 1), (0x4d, 2), (0x4e, 4)] → size < 256 ^ width →
        Header size (marker :: Bytes.ofNatLE width size)

def Element.encode : Element → Except Error Bytes
  | .push data => Script.push data
  | .code value => .ok [value]

/-- Operations that do not start a push. -/
def Element.Legible : Element → Prop
  | .push _ => True
  | .code value => 0x4e < value

/-- How an element is written: pushed data after the shortest header that announces them. -/
inductive Element.Written : Element → Bytes → Prop
  | code (value : UInt8) : Written (.code value) [value]
  | push {data header : Bytes} : Header data.length header →
      (∀ other, Header data.length other → header.length ≤ other.length) →
        Written (.push data) (header ++ data)

theorem readPush_ofNatLE {width : Nat} {data : Bytes} (fits : data.length < 256 ^ width)
    (rest : Bytes) :
    readPush width (Bytes.ofNatLE width data.length ++ data ++ rest) = some (.push data, rest) := by
  unfold readPush
  rw [List.append_assoc, CompactSize.readFixed_ofNatLE width data.length fits]
  simp [Bytes.split?_append]

theorem readElement_header {data header : Bytes} (announced : Header data.length header)
    (rest : Bytes) : readElement (header ++ data ++ rest) = some (.push data, rest) := by
  cases announced with
  | direct short =>
    have value : (UInt8.ofNat data.length).toNat = data.length := by
      rw [UInt8.toNat_ofNat']
      omega
    have small : UInt8.ofNat data.length < 0x4c := by
      rw [UInt8.lt_iff_toNat_lt, value]
      exact short
    simp [readElement, small, value, Bytes.split?_append]
  | wide listed fits =>
    have read := readPush_ofNatLE fits rest
    simp only [List.mem_cons, Prod.mk.injEq, List.not_mem_nil, or_false] at listed
    rcases listed with ⟨rfl, rfl⟩ | ⟨rfl, rfl⟩ | ⟨rfl, rfl⟩
    all_goals exact read

theorem readElement_code {value : UInt8} (beyond : 0x4e < value) (rest : Bytes) :
    readElement (value :: rest) = some (.code value, rest) := by
  rw [UInt8.lt_iff_toNat_lt] at beyond
  have other : ∀ marker : UInt8, marker.toNat ≤ 0x4e → value ≠ marker := by
    rintro marker low rfl
    exact Nat.not_lt.mpr low beyond
  have large : ¬ value < 0x4c := by
    rw [UInt8.lt_iff_toNat_lt]
    have : (0x4e : UInt8).toNat = 0x4e := rfl
    have : (0x4c : UInt8).toNat = 0x4c := rfl
    omega
  simp [readElement, large, other 0x4c (by decide), other 0x4d (by decide), other 0x4e (by decide)]

theorem length_header {size : Nat} {header : Bytes} (announced : Header size header) :
    (header.length = 1 ∧ size < 0x4c) ∨ (header.length = 2 ∧ size < 0x100) ∨
      (header.length = 3 ∧ size < 0x10000) ∨ (header.length = 5 ∧ size < 0x100000000) := by
  cases announced with
  | direct short => exact .inl ⟨rfl, short⟩
  | wide listed fits =>
    simp only [List.mem_cons, Prod.mk.injEq, List.not_mem_nil, or_false] at listed
    rcases listed with ⟨rfl, rfl⟩ | ⟨rfl, rfl⟩ | ⟨rfl, rfl⟩
    all_goals simpa using fits

theorem written_of_full {data header : Bytes} (announced : Header data.length header)
    (direct : 1 < header.length → 0x4c ≤ data.length)
    (one : 2 < header.length → 0x100 ≤ data.length)
    (two : 3 < header.length → 0x10000 ≤ data.length) :
    Element.Written (.push data) (header ++ data) := by
  refine .push announced fun other announced' => ?_
  have own := length_header announced
  have lengths := length_header announced'
  omega

theorem written_push {data bytes : Bytes} (h : push data = .ok bytes) :
    Element.Written (.push data) bytes := by
  unfold push at h
  dsimp only at h
  split at h
  · cases h
    exact written_of_full (.direct ‹_›) (by simp) (by simp) (by simp)
  split at h
  · cases h
    have fits : data.length < 256 ^ 1 := by omega
    exact written_of_full (.wide (by simp) fits) (by omega) (by simp) (by simp)
  split at h
  · cases h
    have fits : data.length < 256 ^ 2 := by omega
    exact written_of_full (.wide (by simp) fits) (by omega) (by omega) (by simp)
  split at h
  · cases h
    have fits : data.length < 256 ^ 4 := by omega
    exact written_of_full (.wide (by simp) fits) (by omega) (by omega) (by omega)
  · cases h

theorem written_encode {element : Element} {piece : Bytes} (h : element.encode = .ok piece) :
    element.Written piece := by
  cases element with
  | push data => exact written_push h
  | code value =>
    cases h
    exact .code value

theorem readElement_encode {element : Element} {piece : Bytes} (h : element.encode = .ok piece)
    (legible : element.Legible) (rest : Bytes) :
    readElement (piece ++ rest) = some (element, rest) := by
  cases element with
  | push data =>
    cases written_push h with
    | push announced _ => exact readElement_header announced rest
  | code value =>
    cases h
    exact readElement_code legible rest

theorem opcode?_cases {name : String} {code : UInt8} (h : opcode? name = some code) :
    name ∈ headerNames ∨ (name = "OP_0" ∨ name = "OP_FALSE") ∧ code = 0 ∨
      ¬ (name = "OP_0" ∨ name = "OP_FALSE") ∧ 0x4e < code := by
  have listed : ∀ entry ∈ opcodes, entry.1 ∈ headerNames ∨
      (entry.1 = "OP_0" ∨ entry.1 = "OP_FALSE") ∧ entry.2 = 0 ∨
        ¬ (entry.1 = "OP_0" ∨ entry.1 = "OP_FALSE") ∧ 0x4e < entry.2 := by
    decide
  obtain ⟨front, rest, whole, -⟩ := List.lookup_eq_some_iff.mp h
  have member : (name, code) ∈ opcodes := by simp [whole]
  exact listed (name, code) member

theorem number_element {n : Int} {piece : Bytes} (h : (Token.number n).encode = .ok piece) :
    ∃ element, (Token.number n).element? = some element ∧ element.encode = .ok piece ∧
      element.Legible := by
  rw [Token.encode] at h
  rw [Token.element?]
  by_cases negative : n < 0
  · rw [if_pos negative] at h
    cases h
  rw [if_neg negative] at h ⊢
  by_cases zero : n = 0
  · subst zero
    exact ⟨.push [], rfl, h, trivial⟩
  rw [if_neg zero]
  by_cases small : n ≤ 16
  · have apart : n.toNat ≠ 0 := by omega
    rw [if_pos small, smallNumber, if_neg apart] at h
    rw [if_pos small]
    have beyond : (0x4e : UInt8) < UInt8.ofNat (0x50 + n.toNat) := by
      rw [UInt8.lt_iff_toNat_lt, UInt8.toNat_ofNat']
      have : (0x4e : UInt8).toNat = 0x4e := rfl
      omega
    exact ⟨.code (UInt8.ofNat (0x50 + n.toNat)), rfl, h, beyond⟩
  · rw [if_neg small] at h ⊢
    exact ⟨.push (numberPayload n.toNat), rfl, h, trivial⟩

theorem word_element {text : String} {piece : Bytes} (h : (Token.word text).encode = .ok piece)
    (plain : text ∉ headerNames) :
    ∃ element, (Token.word text).element? = some element ∧ element.encode = .ok piece ∧
      element.Legible := by
  rw [Token.encode] at h
  rw [Token.element?]
  cases named : opcode? text with
  | some code =>
    rw [named] at h
    cases h
    rcases opcode?_cases named with header | ⟨zero, rfl⟩ | ⟨nonzero, beyond⟩
    · exact absurd header plain
    · rw [if_pos zero]
      exact ⟨.push [], rfl, rfl, trivial⟩
    · rw [if_neg nonzero]
      exact ⟨.code code, rfl, rfl, beyond⟩
  | none =>
    have nonzero : ¬ (text = "OP_0" ∨ text = "OP_FALSE") := by
      rintro (rfl | rfl) <;> cases named
    rw [named] at h
    rw [if_neg nonzero]
    cases spelled : Hex.decode text.toList with
    | none =>
      rw [spelled] at h
      cases h
    | some data =>
      rw [spelled] at h
      exact ⟨.push data, rfl, h, trivial⟩

def Plain (script : Script) : Prop :=
  ∀ token ∈ script.tokens, ∀ name ∈ headerNames, token ≠ .word name

theorem tokens_elements {tokens : List Token} {pieces : List Bytes}
    (written : List.Forall₂ (fun token piece => token.encode = .ok piece) tokens pieces)
    (plain : ∀ token ∈ tokens, ∀ name ∈ headerNames, token ≠ .word name) :
    ∃ elements, tokens.map Token.element? = elements.map some ∧
      List.Forall₂ (fun element piece => element.encode = .ok piece) elements pieces ∧
      ∀ element ∈ elements, element.Legible := by
  induction written with
  | nil => exact ⟨[], rfl, .nil, by simp⟩
  | @cons token piece tokens pieces head _ ih =>
    obtain ⟨elements, named, encoded, legible⟩ :=
      ih fun other member => plain other (List.mem_cons_of_mem _ member)
    have here := plain token List.mem_cons_self
    have first : ∃ element, token.element? = some element ∧ element.encode = .ok piece ∧
        element.Legible := by
      cases token with
      | number n => exact number_element head
      | word text => exact word_element head fun listed => here text listed rfl
    obtain ⟨element, stands, wrote, legible'⟩ := first
    refine ⟨element :: elements, ?_, .cons wrote encoded, ?_⟩
    · rw [List.map_cons, List.map_cons, stands, named]
    · intro other member
      rcases List.mem_cons.mp member with rfl | member
      · exact legible'
      · exact legible other member

theorem encode_elements {script : Script} (plain : script.Plain) {bytes : Bytes}
    (encoded : script.encode = .ok bytes) :
    ∃ elements pieces, script.tokens.map Token.element? = elements.map some ∧
      List.Forall₂ (fun element piece => element.encode = .ok piece) elements pieces ∧
      (∀ element ∈ elements, element.Legible) ∧ bytes = pieces.flatten := by
  rw [encode] at encoded
  obtain ⟨pieces, written, encoded⟩ := bind_ok encoded
  cases encoded
  obtain ⟨elements, named, each, legible⟩ := tokens_elements (forall₂_of_mapM written) plain
  exact ⟨elements, pieces, named, each, legible, rfl⟩

theorem readWithin_flatten {elements : List Element} {pieces : List Bytes}
    (h : List.Forall₂ (fun element piece => element.encode = .ok piece) elements pieces)
    (legible : ∀ element ∈ elements, element.Legible) {fuel : Nat}
    (enough : pieces.flatten.length ≤ fuel) : readWithin fuel pieces.flatten = some elements := by
  induction h generalizing fuel with
  | nil => rw [List.flatten_nil, readWithin]
  | @cons element piece elements pieces head _ ih =>
    have read := readElement_encode head (legible element List.mem_cons_self) pieces.flatten
    rw [List.flatten_cons] at enough ⊢
    cases piece with
    | nil =>
      have nothing := readElement_encode head (legible element List.mem_cons_self) []
      cases nothing
    | cons byte piece =>
      rw [List.cons_append] at read enough ⊢
      cases fuel with
      | zero => cases enough
      | succ fuel =>
        have room : pieces.flatten.length ≤ fuel := by
          rw [List.length_cons, List.length_append] at enough
          omega
        have later := ih (fun other member => legible other (List.mem_cons_of_mem _ member)) room
        simp only [readWithin, read, Option.bind_eq_bind, Option.bind_some, later]
        rfl

theorem flatten_eq_iff {as bs : List Element} {pieces others : List Bytes}
    (first : List.Forall₂ (fun element piece => element.encode = .ok piece) as pieces)
    (second : List.Forall₂ (fun element piece => element.encode = .ok piece) bs others)
    (legible : ∀ element ∈ as, element.Legible) (legible' : ∀ element ∈ bs, element.Legible) :
    pieces.flatten = others.flatten ↔ as = bs := by
  constructor
  · intro same
    have read := readWithin_flatten first legible (Nat.le_refl _)
    have read' := readWithin_flatten second legible' (Nat.le_refl _)
    rw [same, read'] at read
    exact (Option.some.inj read).symm
  · rintro rfl
    have unique : Relator.RightUnique fun (element : Element) (piece : Bytes) =>
        element.encode = .ok piece := by
      intro element piece other wrote wrote'
      exact Except.ok.inj (wrote.symm.trans wrote')
    rw [unique.forall₂ first second]

/-- A script is read back as what its tokens stand for, each push after the shortest header for it,
    so two scripts are the same exactly when their tokens stand for the same elements. -/
theorem read_encode_elements {a : Script} (plain : a.Plain) {bytes : Bytes}
    (encoded : a.encode = .ok bytes) :
    (∃ elements pieces, a.tokens.map Token.element? = elements.map some ∧
      List.Forall₂ Element.Written elements pieces ∧ bytes = pieces.flatten ∧
      Script.read bytes = some elements) ∧
    ∀ (b : Script) (bytes' : Bytes), b.Plain → b.encode = .ok bytes' →
      a.same b =
        .ok (decide (a.tokens.map Token.element? = b.tokens.map Token.element?)) := by
  obtain ⟨elements, pieces, named, each, legible, rfl⟩ := encode_elements plain encoded
  constructor
  · have written := each.imp fun _ _ => written_encode
    exact ⟨elements, pieces, named, written, rfl,
      readWithin_flatten each legible (Nat.le_refl _)⟩
  · intro b bytes' plain' encoded'
    obtain ⟨elements', pieces', named', each', legible', rfl⟩ := encode_elements plain' encoded'
    have bytesIff := flatten_eq_iff each each' legible legible'
    have elementsIff : elements.map some = elements'.map some ↔ elements = elements' :=
      List.map_inj_right fun _ _ => Option.some.inj
    rw [same_of_encode encoded encoded', named, named']
    congr 1
    rw [decide_eq_decide, bytesIff, elementsIff]

def spelled : Script := ⟨[.word "OP_FALSE", .number 1, .number 128, .word "AC ", .word "OP_ENDIF"]⟩

def respelled : Script := ⟨[.word "", .word "OP_TRUE", .word "8000", .word "ac", .word "OP_ENDIF"]⟩

theorem read_encode_elements_spelled :
    spelled.encode = .ok [0, 0x51, 2, 0x80, 0, 1, 0xac, 0x68] ∧
      Script.read [0, 0x51, 2, 0x80, 0, 1, 0xac, 0x68] =
        some [.push [], .code 0x51, .push [0x80, 0], .push [0xac], .code 0x68] ∧
      spelled.same respelled = .ok true := by
  have encoded : spelled.encode = .ok [0, 0x51, 2, 0x80, 0, 1, 0xac, 0x68] := by decide
  have encoded' : respelled.encode = .ok [0, 0x51, 2, 0x80, 0, 1, 0xac, 0x68] := by decide
  have plain : spelled.Plain := by
    unfold Plain
    decide
  have plain' : respelled.Plain := by
    unfold Plain
    decide
  obtain ⟨⟨elements, pieces, named, -, -, read⟩, same⟩ := read_encode_elements plain encoded
  have stands : spelled.tokens.map Token.element? =
      [Element.push [], .code 0x51, .push [0x80, 0], .push [0xac], .code 0x68].map some := by
    decide
  have listed := (List.map_inj_right fun _ _ => Option.some.inj).mp (stands.symm.trans named)
  rw [← listed] at read
  refine ⟨encoded, read, ?_⟩
  rw [same respelled _ plain' encoded']
  decide

end Script

end SpendingPlan

import SpendingPlan.Descriptor.Key
import SpendingPlan.Proofs.CompactSize.Limit
import SpendingPlan.Proofs.Input.Values

namespace SpendingPlan

namespace Path

def InRange (path : Path) : Prop := ∀ index ∈ path, 0 ≤ index ∧ index ≤ 0xffffffff

theorem InRange.append {front rest : Path} (first : InRange front) (second : InRange rest) :
    InRange (front ++ rest) := by
  intro index member
  rcases List.mem_append.mp member with member | member
  · exact first index member
  · exact second index member

theorem parseIndex_le {text : List Char} {index : Nat} (h : parseIndex text = .ok index) :
    index ≤ 0xffffffff := by
  unfold parseIndex at h
  extract_lets marked digits at h
  split at h
  · cases h
  split at h
  · cases h
  split at h
  · cases h
  · rename_i low
    unfold hardenedBit at low h
    cases h
    split <;> omega

theorem parse_inRange {text : String} {path : Path} (h : parse text = .ok path) : path.InRange := by
  unfold parse at h
  obtain ⟨indexes, parsed, h⟩ := bind_ok h
  cases h
  intro index member
  obtain ⟨value, held, rfl⟩ := List.mem_map.mp member
  obtain ⟨element, -, read⟩ := exists_related (forall₂_of_mapM parsed).flip held
  have bound := parseIndex_le read
  constructor
  · exact Int.natCast_nonneg value
  · have cast : Int.ofNat value = (value : Int) := rfl
    omega

end Path

namespace KeyOrigin

theorem parse_inRange {text : String} {origin : KeyOrigin} (h : parse text = .ok origin) :
    origin.path.InRange := by
  unfold parse at h
  dsimp only at h
  split at h
  · obtain ⟨path, parsed, h⟩ := bind_ok h
    obtain ⟨fingerprint, -, h⟩ := bind_ok h
    cases h
    exact Path.parse_inRange parsed
  · cases h

theorem encodeIndex_of_range {index : Int} (range : 0 ≤ index ∧ index ≤ 0xffffffff) :
    encodeIndex index = .ok (Bytes.ofNatLE 4 index.toNat) := by
  rw [encodeIndex, if_neg (by omega)]

theorem encode_of_inRange {origin : KeyOrigin} (range : origin.path.InRange) :
    ∃ bytes, origin.encode = .ok bytes := by
  have counted : Counted True (origin.path.mapM encodeIndex) := by
    apply Counted.mapM
    intro index member
    rw [encodeIndex_of_range (range index member)]
    exact Counted.ok _
  obtain ⟨pieces, written⟩ := counted.of_small trivial
  rw [encode, written]
  exact ⟨_, rfl⟩

theorem length_encode {origin : KeyOrigin} {bytes : Bytes} (h : origin.encode = .ok bytes) :
    bytes.length = 4 + 4 * origin.path.length := by
  obtain ⟨pieces, written, rfl⟩ := encode_ok h
  rw [List.length_append, origin.fingerprint.length_bytes, length_encodeIndex written]

end KeyOrigin

namespace DescriptorKey

theorem suffixes_inRange {suffixes : List String} {paths : List Path}
    (h : suffixes.mapM Path.parse = .ok paths) : ∀ path ∈ paths, path.InRange := by
  intro path member
  obtain ⟨text, -, read⟩ := exists_related (forall₂_of_mapM h).flip member
  exact Path.parse_inRange read

theorem parse_inRange {text : String} {suffixes : List String} {key : DescriptorKey}
    (h : parse text suffixes = .ok key) : ∀ origin ∈ key.origins, origin.path.InRange := by
  have parts : key.originPath.InRange ∧ ∀ path ∈ key.suffixes, path.InRange := by
    unfold parse at h
    split at h
    · dsimp only at h
      obtain ⟨origin, originParsed, h⟩ := bind_ok h
      obtain ⟨paths, parsed, h⟩ := bind_ok h
      obtain ⟨point, -, h⟩ := bind_ok h
      cases h
      exact ⟨KeyOrigin.parse_inRange originParsed, suffixes_inRange parsed⟩
    · obtain ⟨paths, parsed, h⟩ := bind_ok h
      obtain ⟨point, -, h⟩ := bind_ok h
      cases h
      exact ⟨by simp [originPath, Path.InRange], suffixes_inRange parsed⟩
  intro origin member
  obtain ⟨path, listed, rfl⟩ := List.mem_map.mp member
  rw [fullPaths] at listed
  split at listed
  · rw [List.mem_singleton.mp listed]
    exact parts.1
  · obtain ⟨suffix, held, rfl⟩ := List.mem_map.mp listed
    exact parts.1.append (parts.2 suffix held)

end DescriptorKey

end SpendingPlan

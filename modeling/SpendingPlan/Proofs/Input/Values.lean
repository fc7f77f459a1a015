import SpendingPlan.Input.Encode
import SpendingPlan.Proofs.Bytes.Chunks
import SpendingPlan.Proofs.Input.Layout
import SpendingPlan.Proofs.PrefixFree
import SpendingPlan.Proofs.Related
import SpendingPlan.Proofs.Script.Encoding

namespace SpendingPlan

theorem Bytes.ofNatLE_inj {width n m : Nat} (small : n < 256 ^ width) (small' : m < 256 ^ width)
    (h : ofNatLE width n = ofNatLE width m) : n = m := by
  have values := congrArg toNatLE h
  rwa [toNatLE_ofNatLE, toNatLE_ofNatLE, Nat.mod_eq_of_lt small, Nat.mod_eq_of_lt small'] at values

theorem Taproot.byte_inj {m n : Int} {value : UInt8} (first : byte m = .ok value)
    (second : byte n = .ok value) : m = n := by
  rw [byte] at first second
  split at first
  · split at second
    · have same := congrArg UInt8.toNat (Except.ok.inj (first.trans second.symm))
      rw [UInt8.toNat_ofNat', UInt8.toNat_ofNat'] at same
      omega
    · cases second
  · cases first

theorem ControlBlock.same_true {a b : ControlBlock} {bytes : Bytes} (first : a.encode = .ok bytes)
    (second : b.encode = .ok bytes) : a.same b = .ok true := by
  rw [same, first, ok_bind, second, ok_bind, decide_eq_true rfl]
  rfl

namespace KeyOrigin

theorem encodeIndex_ok {index : Int} {bytes : Bytes} (h : encodeIndex index = .ok bytes) :
    0 ≤ index ∧ index.toNat < 256 ^ 4 ∧ bytes = Bytes.ofNatLE 4 index.toNat := by
  rw [encodeIndex] at h
  split at h
  · cases h
  · cases h
    refine ⟨?_, ?_, rfl⟩ <;> omega

theorem prefixFree_encodeIndex : PrefixFree encodeIndex := by
  apply PrefixFree.of_width 4
  · intro index bytes h
    obtain ⟨-, -, rfl⟩ := encodeIndex_ok h
    exact Bytes.length_ofNatLE 4 index.toNat
  · intro a b bytes first second
    obtain ⟨positive, small, same⟩ := encodeIndex_ok first
    obtain ⟨positive', small', same'⟩ := encodeIndex_ok second
    have equal := Bytes.ofNatLE_inj small small' (same.symm.trans same')
    omega

theorem length_encodeIndex {path : Path} {pieces : List Bytes}
    (h : List.Forall₂ (fun index piece => encodeIndex index = .ok piece) path pieces) :
    pieces.flatten.length = 4 * path.length := by
  have even : ∀ piece ∈ pieces, piece.length = 4 := by
    intro piece member
    obtain ⟨index, -, wrote⟩ := exists_related h.flip member
    obtain ⟨-, -, rfl⟩ := encodeIndex_ok wrote
    exact Bytes.length_ofNatLE 4 index.toNat
  rw [Bytes.length_flatten even, h.length_eq]

theorem encode_ok {origin : KeyOrigin} {bytes : Bytes} (h : origin.encode = .ok bytes) :
    ∃ pieces, List.Forall₂ (fun index piece => encodeIndex index = .ok piece) origin.path pieces ∧
      bytes = origin.fingerprint.bytes ++ pieces.flatten := by
  rw [encode] at h
  obtain ⟨pieces, written, h⟩ := bind_ok h
  cases h
  exact ⟨pieces, forall₂_of_mapM written, rfl⟩

theorem encode_inj {a b : KeyOrigin} {bytes : Bytes} (first : a.encode = .ok bytes)
    (second : b.encode = .ok bytes) : a = b := by
  obtain ⟨pieces, written, rfl⟩ := encode_ok first
  obtain ⟨pieces', written', same⟩ := encode_ok second
  have widths : a.fingerprint.bytes.length = b.fingerprint.bytes.length := by
    rw [a.fingerprint.length_bytes, b.fingerprint.length_bytes]
  obtain ⟨fingerprints, paths⟩ := List.append_inj same widths
  -- the length of a path is not written, it follows from the width of an index
  have lengths := congrArg List.length paths
  rw [length_encodeIndex written, length_encodeIndex written'] at lengths
  have many : a.path.length = b.path.length := by omega
  obtain ⟨path, -⟩ := prefixFree_encodeIndex.items written written' many (congrArg (· ++ []) paths)
  obtain ⟨⟨_, _⟩, _⟩ := a
  obtain ⟨⟨_, _⟩, _⟩ := b
  cases fingerprints
  cases path
  rfl

end KeyOrigin

namespace Input

theorem plain_inj {a b bytes : Bytes} (first : (Except.ok a : Except Error Bytes) = .ok bytes)
    (second : (Except.ok b : Except Error Bytes) = .ok bytes) : a = b :=
  Except.ok.inj (first.trans second.symm)

theorem encodeAmount_ok {amount : Int} {bytes : Bytes} (h : encodeAmount amount = .ok bytes) :
    -0x8000000000000000 ≤ amount ∧ amount ≤ 0x7fffffffffffffff ∧
      bytes = Bytes.ofNatLE 8 (amount % 0x10000000000000000).toNat := by
  rw [encodeAmount] at h
  split at h
  · cases h
  · cases h
    refine ⟨?_, ?_, rfl⟩ <;> omega

theorem prefixFree_encodeAmount : PrefixFree encodeAmount := by
  apply PrefixFree.of_width 8
  · intro amount bytes h
    obtain ⟨-, -, rfl⟩ := encodeAmount_ok h
    exact Bytes.length_ofNatLE 8 _
  · intro a b bytes first second
    obtain ⟨low, high, same⟩ := encodeAmount_ok first
    obtain ⟨low', high', same'⟩ := encodeAmount_ok second
    have equal := Bytes.ofNatLE_inj (by omega) (by omega) (same.symm.trans same')
    omega

theorem encodeOutput_inj {a b : Int × Script} {bytes : Bytes} (first : encodeOutput a = .ok bytes)
    (second : encodeOutput b = .ok bytes) : a.1 = b.1 ∧ a.2.same b.2 = .ok true := by
  rw [encodeOutput] at first second
  obtain ⟨amount, counted, first⟩ := bind_ok first
  obtain ⟨script, encoded, first⟩ := bind_ok first
  obtain ⟨framed, frame, first⟩ := bind_ok first
  obtain ⟨amount', counted', second⟩ := bind_ok second
  obtain ⟨script', encoded', second⟩ := bind_ok second
  obtain ⟨framed', frame', second⟩ := bind_ok second
  have same := Except.ok.inj (first.trans second.symm)
  obtain ⟨amounts, rfl⟩ := prefixFree_encodeAmount counted counted' same
  have scripts := PrefixFree.frame.injective frame frame'
  subst scripts
  exact ⟨amounts, Script.same_true encoded encoded'⟩

theorem encodeSighash_inj {a b : Int} {bytes : Bytes} (first : encodeSighash a = .ok bytes)
    (second : encodeSighash b = .ok bytes) : a = b :=
  KeyOrigin.prefixFree_encodeIndex.injective first second

theorem writeWitness_inj {a b : List Bytes} {bytes : Bytes} (first : writeWitness a = .ok bytes)
    (second : writeWitness b = .ok bytes) : a = b := by
  rw [writeWitness] at first second
  obtain ⟨count, counted, first⟩ := bind_ok first
  obtain ⟨frames, framed, first⟩ := bind_ok first
  obtain ⟨count', counted', second⟩ := bind_ok second
  obtain ⟨frames', framed', second⟩ := bind_ok second
  have same := Except.ok.inj (first.trans second.symm)
  obtain ⟨many, items⟩ := PrefixFree.count counted counted' same
  obtain ⟨equal, -⟩ := PrefixFree.frame.items (forall₂_of_mapM framed) (forall₂_of_mapM framed')
    many (congrArg (· ++ []) items)
  exact equal

theorem encodeLeafScript_ok {entry : LeafScript} {bytes : Bytes}
    (h : encodeLeafScript entry = .ok bytes) :
    ∃ script version, entry.script.encode = .ok script ∧
      Taproot.byte entry.version = .ok version ∧ bytes = script ++ [version] := by
  rw [encodeLeafScript] at h
  obtain ⟨script, encoded, h⟩ := bind_ok h
  obtain ⟨version, marked, h⟩ := bind_ok h
  exact ⟨script, version, encoded, marked, (Except.ok.inj h).symm⟩

theorem encodeLeafScript_inj {a b : LeafScript} {bytes : Bytes}
    (first : encodeLeafScript a = .ok bytes) (second : encodeLeafScript b = .ok bytes) :
    a.script.same b.script = .ok true ∧ a.version = b.version := by
  obtain ⟨script, version, encoded, marked, rfl⟩ := encodeLeafScript_ok first
  obtain ⟨script', version', encoded', marked', same⟩ := encodeLeafScript_ok second
  obtain ⟨rfl, versions⟩ := List.append_inj' same rfl
  cases versions
  exact ⟨Script.same_true encoded encoded', Taproot.byte_inj marked marked'⟩

theorem encodeTapOrigin_ok {value : List Bytes × KeyOrigin} {bytes : Bytes}
    (h : encodeTapOrigin value = .ok bytes) :
    ∃ count origin, CompactSize.encode value.1.length = .ok count ∧
      value.2.encode = .ok origin ∧ bytes = count ++ value.1.flatten ++ origin := by
  rw [encodeTapOrigin] at h
  obtain ⟨count, counted, h⟩ := bind_ok h
  obtain ⟨origin, encoded, h⟩ := bind_ok h
  exact ⟨count, origin, counted, encoded, (Except.ok.inj h).symm⟩

theorem encodeTapOrigin_inj {a b : List Bytes × KeyOrigin} {bytes : Bytes}
    (whole : ∀ hash ∈ a.1, hash.length = 32) (whole' : ∀ hash ∈ b.1, hash.length = 32)
    (first : encodeTapOrigin a = .ok bytes) (second : encodeTapOrigin b = .ok bytes) : a = b := by
  obtain ⟨count, origin, counted, encoded, rfl⟩ := encodeTapOrigin_ok first
  obtain ⟨count', origin', counted', encoded', same⟩ := encodeTapOrigin_ok second
  rw [List.append_assoc, List.append_assoc] at same
  obtain ⟨many, same⟩ := PrefixFree.count counted counted' same
  -- hashes of one size show how far they go, and the origin follows them
  have lengths : a.1.flatten.length = b.1.flatten.length := by
    rw [Bytes.length_flatten whole, Bytes.length_flatten whole', many]
  obtain ⟨hashes, rfl⟩ := List.append_inj same lengths
  have chunks := congrArg (Bytes.chunks 32) hashes
  rw [Bytes.chunks_flatten (by decide) a.1 whole, Bytes.chunks_flatten (by decide) b.1 whole']
    at chunks
  exact Prod.ext chunks (KeyOrigin.encode_inj encoded encoded')

end Input

end SpendingPlan

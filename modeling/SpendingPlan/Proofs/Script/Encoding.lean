import SpendingPlan.Descriptor.Basic
import SpendingPlan.Proofs.Outcome
import SpendingPlan.Proofs.Text.Spelling
import SpendingPlan.Script

namespace SpendingPlan

namespace Script

theorem same_of_encode {a b : Script} {left right : Bytes} (first : a.encode = .ok left)
    (second : b.encode = .ok right) : a.same b = .ok (decide (left = right)) := by
  rw [same, first, ok_bind, second, ok_bind]
  rfl

theorem same_true {a b : Script} {bytes : Bytes} (first : a.encode = .ok bytes)
    (second : b.encode = .ok bytes) : a.same b = .ok true := by
  rw [same_of_encode first second, decide_eq_true rfl]

theorem same_true_iff {a b : Script} :
    a.same b = .ok true ↔ ∃ bytes, a.encode = .ok bytes ∧ b.encode = .ok bytes := by
  constructor
  · intro h
    obtain ⟨left, first, h⟩ := bind_ok h
    obtain ⟨right, second, h⟩ := bind_ok h
    have equal : left = right := of_decide_eq_true (Except.ok.inj h)
    exact ⟨left, first, equal ▸ second⟩
  · rintro ⟨bytes, first, second⟩
    exact same_true first second

end Script

def Bytes.keyHashOutput (key : Bytes) : Bytes :=
  0x76 :: 0xa9 :: 0x14 :: (hash160 key ++ [0x88, 0xac])

def Bytes.witnessKeyHashOutput (key : Bytes) : Bytes := 0x00 :: 0x14 :: hash160 key

def Bytes.scriptHashOutput (script : Bytes) : Bytes := 0xa9 :: 0x14 :: (hash160 script ++ [0x87])

def Bytes.witnessScriptHashOutput (script : Bytes) : Bytes :=
  0x00 :: 0x20 :: Sha256.digest script

@[simp] theorem Bytes.length_witnessKeyHashOutput (key : Bytes) :
    key.witnessKeyHashOutput.length = 22 := by
  simp [witnessKeyHashOutput]

@[simp] theorem Bytes.length_witnessScriptHashOutput (script : Bytes) :
    script.witnessScriptHashOutput.length = 34 := by
  simp [witnessScriptHashOutput]

namespace Script

theorem opcode?_encode (data : Bytes) : opcode? (Hex.encode data) = none := by
  -- the names of operations have a letter that is no hex digit
  have named : ∀ entry ∈ opcodes, 'O' ∈ entry.1.toList := by decide
  cases found : opcode? (Hex.encode data) with
  | none => rfl
  | some code =>
    obtain ⟨front, rest, whole, -⟩ := List.lookup_eq_some_iff.mp found
    have letter := named (Hex.encode data, code) (by simp [whole])
    exact absurd letter ((Hex.spells_encode data).not_mem rfl)

theorem encode_hexWord (data : Bytes) (short : data.length < 0x4c) :
    (hexWord data).encode = .ok (UInt8.ofNat data.length :: data) := by
  rw [hexWord, Token.encode, opcode?_encode]
  dsimp only
  rw [(Hex.spells_encode data).decode]
  dsimp only
  rw [push, if_pos short]
  rfl

theorem encode_nil : encode ⟨[]⟩ = .ok [] := rfl

theorem encode_cons {token : Token} {tokens : List Token} {head rest : Bytes}
    (first : token.encode = .ok head) (others : encode ⟨tokens⟩ = .ok rest) :
    encode ⟨token :: tokens⟩ = .ok (head ++ rest) := by
  obtain ⟨pieces, traversed, flat⟩ := bind_ok others
  cases flat
  rw [encode, List.mapM_cons, first, ok_bind, traversed]
  rfl

theorem encode_hash160_cons (data : Bytes) {tokens : List Token} {rest : Bytes}
    (others : encode ⟨tokens⟩ = .ok rest) :
    encode ⟨hexWord (hash160 data) :: tokens⟩ = .ok (0x14 :: (hash160 data ++ rest)) := by
  have word := encode_hexWord (hash160 data) (by rw [length_hash160]; decide)
  rw [length_hash160] at word
  exact encode_cons word others

theorem encode_digest (data : Bytes) :
    encode ⟨[hexWord (Sha256.digest data)]⟩ = .ok (0x20 :: Sha256.digest data) := by
  have word := encode_hexWord (Sha256.digest data) (by rw [Sha256.length_digest]; decide)
  rw [Sha256.length_digest] at word
  have whole := encode_cons word encode_nil
  rw [List.append_nil] at whole
  exact whole

variable {script : Script} {bytes : Bytes}

theorem payToScriptHash_of_encode (encoded : script.encode = .ok bytes) :
    ∃ output, script.payToScriptHash = .ok output ∧ output.encode = .ok bytes.scriptHashOutput := by
  have tail : encode ⟨[.word "OP_EQUAL"]⟩ = .ok [0x87] := rfl
  refine ⟨_, by rw [payToScriptHash, encoded]; rfl, ?_⟩
  exact encode_cons (rfl : Token.encode (.word "OP_HASH160") = .ok [0xa9])
    (encode_hash160_cons bytes tail)

theorem payToWitnessScriptHash_of_encode (encoded : script.encode = .ok bytes) :
    ∃ output, script.payToWitnessScriptHash = .ok output ∧
      output.encode = .ok bytes.witnessScriptHashOutput := by
  refine ⟨_, by rw [payToWitnessScriptHash, encoded]; rfl, ?_⟩
  exact encode_cons (rfl : Token.encode (.word "OP_0") = .ok [0x00]) (encode_digest bytes)

end Script

theorem encode_payToKeyHash (key : DescriptorKey) :
    (payToKeyHash key).encode = .ok key.key.compressed.keyHashOutput := by
  have tail : Script.encode ⟨[.word "OP_EQUALVERIFY", .word "OP_CHECKSIG"]⟩ = .ok [0x88, 0xac] :=
    rfl
  have hashed := Script.encode_hash160_cons key.key.compressed tail
  have wrapped := Script.encode_cons (rfl : Token.encode (.word "OP_HASH160") = .ok [0xa9]) hashed
  exact Script.encode_cons (rfl : Token.encode (.word "OP_DUP") = .ok [0x76]) wrapped

theorem encode_payToWitnessKeyHash (key : DescriptorKey) :
    (payToWitnessKeyHash key).encode = .ok key.key.compressed.witnessKeyHashOutput := by
  have hashed := Script.encode_hash160_cons key.key.compressed Script.encode_nil
  rw [List.append_nil] at hashed
  exact Script.encode_cons (rfl : Token.encode (.word "OP_0") = .ok [0x00]) hashed

end SpendingPlan

import SpendingPlan.Proofs.Input.Canonical
import SpendingPlan.Proofs.Plan.Refusal

namespace SpendingPlan

/-- When scripts and control blocks count as the same. This may be coarser than equality, but things
    that encode differently are never the same. -/
structure Likeness where
  script : Script → Script → Prop
  block : ControlBlock → ControlBlock → Prop
  script_refl : ∀ a, script a a
  block_refl : ∀ a, block a a
  encode_script : ∀ {a b}, script a b → a.encode = b.encode
  encode_block : ∀ {a b}, block a b → a.encode = b.encode

namespace Likeness

def literal : Likeness where
  script := (· = ·)
  block := (· = ·)
  script_refl _ := rfl
  block_refl _ := rfl
  encode_script := congrArg Script.encode
  encode_block := congrArg ControlBlock.encode

def encoded : Likeness where
  script a b := a.encode = b.encode
  block a b := a.encode = b.encode
  script_refl _ := rfl
  block_refl _ := rfl
  encode_script := id
  encode_block := id

structure Leaf (like : Likeness) (a b : LeafScript) : Prop where
  block : like.block a.block b.block
  script : like.script a.script b.script
  version : a.version = b.version

variable {like : Likeness}

theorem leaf_refl (a : LeafScript) : like.Leaf a a :=
  ⟨like.block_refl a.block, like.script_refl a.script, rfl⟩

theorem sameBy_refl (leaves : LeafScripts) :
    Table.SameBy like.Leaf leaves.table leaves.table := by
  apply (Table.sameBy_of_perm (.refl _)).imp
  rintro a b rfl
  exact leaf_refl a

end Likeness

theorem LeafScripts.get?_insert {leaves after : LeafScripts} {block : ControlBlock}
    {script : Script} {version : Int} (h : leaves.insert block script version = .ok after) :
    ∃ key, block.encode = .ok key ∧ ∀ wanted, after.table.get? wanted =
      if wanted = key then
        some ⟨((leaves.table.get? key).map LeafScript.block).getD block, script, version⟩
      else leaves.table.get? wanted := by
  unfold insert at h
  split at h
  · cases h
  · rename_i key encoded
    refine ⟨key, encoded, ?_⟩
    intro wanted
    split at h
    · rename_i old
      cases h
      obtain ⟨previous, held⟩ := Option.isSome_iff_exists.mp ((Table.mem_keys_iff _ _).mp old)
      rw [Table.get?_modify, held]
      split
      · rename_i here
        rw [here, held]
        rfl
      · rfl
    · rename_i fresh
      cases h
      rw [Table.get?_insert, Table.get?_eq_none_iff.mpr fresh]
      rfl

theorem LeafScripts.insert_alike {like : Likeness} {leaves leaves' : LeafScripts}
    (held : Table.SameBy like.Leaf leaves.table leaves'.table) {block block' : ControlBlock}
    (blocks : like.block block block') {script script' : Script}
    (scripts : like.script script script') (version : Int) :
    (∃ e, leaves.insert block script version = .error e ∧
      leaves'.insert block' script' version = .error e) ∨
    ∃ after after', leaves.insert block script version = .ok after ∧
      leaves'.insert block' script' version = .ok after' ∧
      Table.SameBy like.Leaf after.table after'.table := by
  have same := like.encode_block blocks
  cases put : leaves.insert block script version with
  | error e =>
    have refused := LeafScripts.insert_error_iff.mp put
    exact .inl ⟨e, rfl, LeafScripts.insert_error_iff.mpr (same ▸ refused)⟩
  | ok after =>
    obtain ⟨key, encoded, found⟩ := get?_insert put
    cases put' : leaves'.insert block' script' version with
    | error e =>
      rw [same, LeafScripts.insert_error_iff.mp put'] at encoded
      cases encoded
    | ok after' =>
      obtain ⟨key', encoded', found'⟩ := get?_insert put'
      cases encoded'.symm.trans (same ▸ encoded)
      refine .inr ⟨after, after', rfl, rfl, ?_⟩
      intro wanted
      rw [found, found']
      split
      · have both := held key
        generalize leaves.table.get? key = left, leaves'.table.get? key = right at both ⊢
        refine .some ⟨?_, scripts, rfl⟩
        cases both with
        | none => exact blocks
        | some leaf => exact leaf.block
      · exact held wanted

/-- The same fields after an update of one input, up to the order in which the entries of its tables
    came in. -/
structure Input.SameFields (like : Likeness) (a b : Input) : Prop where
  others : ∃ keyOrigins tapScripts tapKeyOrigins,
    b = { a with keyOrigins, tapScripts, tapKeyOrigins }
  keyOrigins : Table.SameBy (· = ·) a.keyOrigins b.keyOrigins
  tapScripts : Table.SameBy like.Leaf a.tapScripts.table b.tapScripts.table
  tapKeyOrigins : Table.SameBy (· = ·) a.tapKeyOrigins b.tapKeyOrigins

namespace Input

variable {like : Likeness}

theorem sameFields_refl (input : Input) : SameFields like input input where
  others := ⟨_, _, _, rfl⟩
  keyOrigins := Table.sameBy_of_perm (.refl _)
  tapScripts := Likeness.sameBy_refl input.tapScripts
  tapKeyOrigins := Table.sameBy_of_perm (.refl _)

theorem SameFields.sameContents {a b : Input} (same : SameFields like a b) : a.SameContents b := by
  obtain ⟨⟨_, _, _, rfl⟩, keyOrigins, tapScripts, tapKeyOrigins⟩ := same
  have script (written : Option Script) :
      Option.Rel (fun x y => x.encode = y.encode) written written := by
    apply rel_refl
    exact fun _ => rfl
  constructor
  case previousOutput => exact rel_refl (fun _ => ⟨rfl, rfl⟩) _
  case redeemScript | witnessScript | finalScriptSig => exact script _
  case keyOrigins => exact keyOrigins
  case tapKeyOrigins => exact tapKeyOrigins
  case tapScripts =>
    exact tapScripts.imp fun x y leaf => ⟨like.encode_script leaf.script, leaf.version⟩
  case partialSignatures | tapScriptSignatures | unknown => exact Table.sameBy_of_perm (.refl _)
  all_goals rfl

theorem putLeafScript_alike {a b : Input} (same : SameFields like a b)
    {block block' : ControlBlock} (blocks : like.block block block') {script script' : Script}
    (scripts : like.script script script') (version : Int) :
    (a.putLeafScript block script version).2 = (b.putLeafScript block' script' version).2 ∧
      SameFields like (a.putLeafScript block script version).1
        (b.putLeafScript block' script' version).1 := by
  rw [putLeafScript, putLeafScript]
  rcases LeafScripts.insert_alike same.tapScripts blocks scripts version with
    ⟨e, refused, refused'⟩ | ⟨after, after', put, put', leaves⟩
  · rw [refused, refused']
    exact ⟨rfl, same⟩
  · rw [put, put']
    obtain ⟨⟨_, _, _, rfl⟩, keyOrigins, -, tapKeyOrigins⟩ := same
    exact ⟨rfl, ⟨_, _, _, rfl⟩, keyOrigins, leaves, tapKeyOrigins⟩

end Input

end SpendingPlan

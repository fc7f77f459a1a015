import SpendingPlan.Proofs.Plan.Frame
import SpendingPlan.Proofs.Plan.Likeness
import SpendingPlan.Proofs.Table.Keys

namespace SpendingPlan

theorem listLeaf_listLeaf (leaf : Option Bytes) (hashes : List Bytes) :
    listLeaf leaf (listLeaf leaf hashes) = listLeaf leaf hashes := by
  cases leaf with
  | none => rfl
  | some hash =>
    exact listLeaf_of_mem (mem_listLeaf.mpr (.inr rfl))

theorem listLeaf_mergedEntry (leaf : Option Bytes) (origin : KeyOrigin)
    (held : Option (List Bytes × KeyOrigin)) :
    listLeaf leaf (mergedEntry leaf origin held).1 = (mergedEntry leaf origin held).1 := by
  cases held <;> exact listLeaf_listLeaf _ _

theorem LeafScripts.insert_again {leaves after : LeafScripts} {block : ControlBlock}
    {script : Script} {version : Int} (h : leaves.insert block script version = .ok after) :
    after.insert block script version = .ok after := by
  obtain ⟨key, encoded, found⟩ := get?_insert h
  have here := found key
  rw [if_pos rfl] at here
  have present : key ∈ after.table.keys := by
    rw [Table.mem_keys_iff, here, Option.isSome_some]
  unfold insert
  split
  · rename_i e refused
    cases encoded.symm.trans refused
  · rename_i other encoded'
    cases encoded.symm.trans encoded'
    rw [dif_pos present, Except.ok.injEq]
    have kept : after.table.modify key (fun entry => { entry with script, version }) =
        after.table := by
      apply Table.modify_eq_self
      intro entry held
      cases here.symm.trans held
      rfl
    cases after
    congr

namespace Input

variable {template : List Placeholder}

theorem mergeTapOrigin_of_listed {leaf : Option Bytes}
    {table : Table Bytes (List Bytes × KeyOrigin)} {entry : Bytes × KeyOrigin}
    {held : List Bytes × KeyOrigin}
    (present : table.get? entry.1 = some held) (listed : listLeaf leaf held.1 = held.1) :
    mergeTapOrigin leaf table entry = table := by
  rw [mergeTapOrigin, present]
  cases leaf with
  | none => rfl
  | some hash =>
    have member : hash ∈ held.1 := by
      rw [← listed]
      exact mem_listLeaf.mpr (.inr rfl)
    exact if_pos (List.contains_iff_mem.mpr member)

theorem foldl_mergeTapOrigin_of_listed {entries : List (Bytes × KeyOrigin)} {leaf : Option Bytes}
    {table : Table Bytes (List Bytes × KeyOrigin)}
    (settled : ∀ entry ∈ entries, ∃ held, table.get? entry.1 = some held ∧
      listLeaf leaf held.1 = held.1) :
    entries.foldl (mergeTapOrigin leaf) table = table := by
  induction entries with
  | nil => rfl
  | cons entry rest ih =>
    rw [List.forall_mem_cons] at settled
    obtain ⟨⟨held, present, listed⟩, settled⟩ := settled
    rw [List.foldl_cons, mergeTapOrigin_of_listed present listed, ih settled]

theorem mergeTaproot_again (input : Input) (data : TaprootData) (info : SpendInfo) :
    (input.mergeTaproot data info).mergeTaproot data info = input.mergeTaproot data info := by
  have origins : data.origins.entries.foldl (mergeTapOrigin (data.spend.bind Spend.leafHash?))
      (input.mergeTaproot data info).tapKeyOrigins =
        (input.mergeTaproot data info).tapKeyOrigins := by
    apply foldl_mergeTapOrigin_of_listed
    intro entry member
    exact ⟨_, get?_foldl_of_mem data.origins.nodup member _ _, listLeaf_mergedEntry _ _ _⟩
  rw [mergeTaproot, origins]
  rw [mergeTaproot]
  cases data.spend with
  | none => rfl
  | some spend => cases spend <;> rfl

theorem putLeafScript_again (input : Input) (block : ControlBlock) (script : Script)
    (version : Int) :
    (input.putLeafScript block script version).1.putLeafScript block script version =
      input.putLeafScript block script version := by
  rw [putLeafScript]
  rw [putLeafScript]
  cases put : input.tapScripts.insert block script version with
  | ok after => rw [LeafScripts.insert_again put]
  | error e => rw [put]

theorem mergeTaproot_putLeafScript (input : Input) (data : TaprootData) (info : SpendInfo)
    (block : ControlBlock) (script : Script) (version : Int) :
    (((input.mergeTaproot data info).putLeafScript block script version).1).mergeTaproot data info =
      ((input.mergeTaproot data info).putLeafScript block script version).1 := by
  obtain ⟨tapScripts, put⟩ :=
    putLeafScript_fields (input.mergeTaproot data info) block script version
  have apart : { input.mergeTaproot data info with tapScripts }.mergeTaproot data info =
      { (input.mergeTaproot data info).mergeTaproot data info with tapScripts } := rfl
  rw [put, apart, mergeTaproot_again]

theorem updateTaproot_again (input : Input) (key : DescriptorKey) (tree : Tree TreeLeaf)
    (template : List Placeholder) :
    (input.updateTaproot key tree template).1.updateTaproot key tree template =
      input.updateTaproot key tree template := by
  unfold updateTaproot
  cases TaprootData.ofTemplate template with
  | error e => rfl
  | ok data =>
    cases Descriptor.spendInfo key tree with
    | error e => rfl
    | ok info =>
      dsimp only
      cases data.script with
      | none => exact Prod.ext (mergeTaproot_again input data info) rfl
      | some script =>
        cases data.controlBlock with
        | none => exact Prod.ext (mergeTaproot_again input data info) rfl
        | some block =>
          dsimp only
          rw [mergeTaproot_putLeafScript, putLeafScript_again]

theorem keys_addSigner_of_mem {input : Input} {item : Placeholder}
    (present : ∀ signer, item = .ecdsaSigPk signer →
      signer.key.compressed ∈ input.keyOrigins.keys) :
    (input.addSigner item).keyOrigins.keys = input.keyOrigins.keys := by
  cases item with
  | ecdsaSigPk signer => exact Table.keys_foldl_insert_of_mem (present signer rfl) signer.origins
  | _ => rfl

theorem keys_foldl_addSigner_of_mem {input : Input}
    (present : ∀ signer, .ecdsaSigPk signer ∈ template →
      signer.key.compressed ∈ input.keyOrigins.keys) :
    (template.foldl addSigner input).keyOrigins.keys = input.keyOrigins.keys := by
  induction template generalizing input with
  | nil => rfl
  | cons item rest ih =>
    have kept : (input.addSigner item).keyOrigins.keys = input.keyOrigins.keys := by
      apply keys_addSigner_of_mem
      intro signer same
      exact present signer (same ▸ List.mem_cons_self)
    have later : ∀ signer, .ecdsaSigPk signer ∈ rest →
        signer.key.compressed ∈ (input.addSigner item).keyOrigins.keys := by
      intro signer member
      rw [kept]
      exact present signer (List.mem_cons_of_mem item member)
    rw [List.foldl_cons, ih later, kept]

theorem recorded_of_signer {signer : DescriptorKey} (signs : .ecdsaSigPk signer ∈ template) :
    (template.reverse.findSome? (Placeholder.recorded? Placeholder.ecdsaSigner? (·.key.compressed)
      signer.key.compressed)).isSome := by
  rw [List.findSome?_isSome_iff]
  refine ⟨_, List.mem_reverse.mpr signs, ?_⟩
  rw [Placeholder.recorded?]
  simp [Placeholder.ecdsaSigner?, signer.origins_ne_nil]

/-- Each signature puts an origin under its key and later ones replace it, so in between the second
    round may differ from the first one. It ends where the first one ended. -/
theorem keyOrigins_again {input other : Input}
    (after : other.keyOrigins = (template.foldl addSigner input).keyOrigins) :
    (template.foldl addSigner other).keyOrigins = other.keyOrigins := by
  apply Table.ext_of_get?
  · apply keys_foldl_addSigner_of_mem
    intro signer signs
    have recorded := recorded_of_signer signs
    rw [after, Table.mem_keys_iff, keyOrigins_foldl_addSigner, Option.isSome_or, recorded,
      Bool.true_or]
  · intro key
    rw [keyOrigins_foldl_addSigner, after, keyOrigins_foldl_addSigner, ← Option.or_assoc,
      Option.or_self]

theorem writeScripts_again (input : Input) (target : Fragment) :
    (input.writeScripts target).1.writeScripts target = input.writeScripts target := by
  cases target with
  | inner script => rfl
  | descriptor descriptor =>
    cases descriptor with
    | sh inner =>
      cases inner with
      | wsh inner =>
        rw [writeScripts]
        rw [writeScripts]
        cases inner.script.payToWitnessScriptHash <;> rfl
      | _ => rfl
    | _ => rfl

/-- A second update for the same plan changes nothing and ends like the first one, also when the
    first one was given up part-way. -/
theorem update_again (input : Input) (plan : Plan) :
    (input.update plan).1.update plan = input.update plan := by
  by_cases segwit : ∀ key tree, plan.target ≠ .descriptor (.tr key tree)
  · have origins := @keyOrigins_again plan.template input (input.update plan).1
    rw [update_segwit segwit input] at origins ⊢
    rw [update_segwit segwit, origins rfl, writeScripts_keyOrigins, writeScripts_again]
  · push Not at segwit
    obtain ⟨key, tree, target⟩ := segwit
    rw [update, update, target]
    exact updateTaproot_again input key tree plan.template

end Input

end SpendingPlan

import SpendingPlan.Plan.Update
import SpendingPlan.Proofs.Plan.Folding

namespace SpendingPlan

def listLeaf (leaf : Option Bytes) (hashes : List Bytes) : List Bytes :=
  match leaf with
  | none => hashes
  | some hash => if hashes.contains hash then hashes else hashes ++ [hash]

section Listing

variable {hash : Bytes} {hashes : List Bytes}

theorem listLeaf_of_mem (listed : hash ∈ hashes) : listLeaf (some hash) hashes = hashes :=
  if_pos (List.contains_iff_mem.mpr listed)

theorem listLeaf_of_notMem (fresh : hash ∉ hashes) :
    listLeaf (some hash) hashes = hashes ++ [hash] :=
  if_neg fun listed => fresh (List.contains_iff_mem.mp listed)

theorem prefix_listLeaf (leaf : Option Bytes) (hashes : List Bytes) :
    hashes <+: listLeaf leaf hashes := by
  cases leaf with
  | none => exact List.prefix_rfl
  | some hash =>
    by_cases listed : hash ∈ hashes
    · exact ⟨[], (List.append_nil hashes).trans (listLeaf_of_mem listed).symm⟩
    · exact ⟨[hash], (listLeaf_of_notMem listed).symm⟩

theorem nodup_listLeaf (distinct : hashes.Nodup) (leaf : Option Bytes) :
    (listLeaf leaf hashes).Nodup := by
  cases leaf with
  | none => exact distinct
  | some hash =>
    by_cases listed : hash ∈ hashes
    · rw [listLeaf_of_mem listed]
      exact distinct
    · rw [listLeaf_of_notMem listed, List.nodup_append]
      refine ⟨distinct, by simp, ?_⟩
      intro other member new last same
      rw [List.mem_singleton.mp last] at same
      exact listed (same ▸ member)

theorem mem_listLeaf {leaf : Option Bytes} :
    hash ∈ listLeaf leaf hashes ↔ hash ∈ hashes ∨ leaf = some hash := by
  cases leaf with
  | none => simp [listLeaf]
  | some added =>
    by_cases listed : added ∈ hashes
    · rw [listLeaf_of_mem listed]
      constructor
      · exact .inl
      · rintro (member | same)
        · exact member
        · cases same
          exact listed
    · rw [listLeaf_of_notMem listed]
      simp [eq_comm]

end Listing

/-- What a key has after a merge: its own origin, or the merged one if it had none. -/
def mergedEntry (leaf : Option Bytes) (origin : KeyOrigin) :
    Option (List Bytes × KeyOrigin) → List Bytes × KeyOrigin
  | none => (listLeaf leaf [], origin)
  | some (hashes, kept) => (listLeaf leaf hashes, kept)

namespace Input

theorem get?_mergeTapOrigin (leaf : Option Bytes) (table : Table Bytes (List Bytes × KeyOrigin))
    (entry : Bytes × KeyOrigin) (key : Bytes) :
    (mergeTapOrigin leaf table entry).get? key =
      if key = entry.1 then some (mergedEntry leaf entry.2 (table.get? key))
      else table.get? key := by
  rw [mergeTapOrigin]
  cases present : table.get? entry.1 with
  | none =>
    rw [Table.get?_insert]
    by_cases same : key = entry.1
    · rw [if_pos same, if_pos same, same, present]
      cases leaf <;> rfl
    · rw [if_neg same, if_neg same]
  | some value =>
    obtain ⟨hashes, kept⟩ := value
    by_cases same : key = entry.1
    · subst same
      rw [if_pos rfl, present]
      cases leaf with
      | none => exact present
      | some hash =>
        by_cases listed : hash ∈ hashes
        · simp [mergedEntry, listLeaf, listed, present]
        · simp [mergedEntry, listLeaf, listed, present, Table.get?_modify]
    · rw [if_neg same]
      cases leaf with
      | none => rfl
      | some hash =>
        by_cases listed : hash ∈ hashes
        · simp [listed]
        · simp [listed, Table.get?_modify, same]

theorem get?_foldl_of_notMem {entries : List (Bytes × KeyOrigin)} {key : Bytes}
    (absent : key ∉ entries.map Prod.fst) (leaf : Option Bytes)
    (table : Table Bytes (List Bytes × KeyOrigin)) :
    (entries.foldl (mergeTapOrigin leaf) table).get? key = table.get? key := by
  induction entries generalizing table with
  | nil => rfl
  | cons entry rest ih =>
    rw [List.map_cons, List.mem_cons, not_or] at absent
    rw [List.foldl_cons, ih absent.2, get?_mergeTapOrigin, if_neg absent.1]

theorem get?_foldl_of_mem {entries : List (Bytes × KeyOrigin)} {key : Bytes} {origin : KeyOrigin}
    (distinct : (entries.map Prod.fst).Nodup) (member : (key, origin) ∈ entries)
    (leaf : Option Bytes) (table : Table Bytes (List Bytes × KeyOrigin)) :
    (entries.foldl (mergeTapOrigin leaf) table).get? key =
      some (mergedEntry leaf origin (table.get? key)) := by
  induction entries generalizing table with
  | nil => cases member
  | cons entry rest ih =>
    rw [List.map_cons, List.nodup_cons] at distinct
    rw [List.foldl_cons]
    rcases List.mem_cons.mp member with rfl | member
    · -- the entries after this one have other keys
      rw [get?_foldl_of_notMem distinct.1, get?_mergeTapOrigin, if_pos rfl]
    · have apart : key ≠ entry.1 := by
        intro same
        exact distinct.1 (List.mem_map.mpr ⟨(key, origin), member, same⟩)
      rw [ih distinct.2 member, get?_mergeTapOrigin, if_neg apart]

theorem get?_foldl_mergeTapOrigin (leaf : Option Bytes) (origins : Table Bytes KeyOrigin)
    (table : Table Bytes (List Bytes × KeyOrigin)) (key : Bytes) :
    (origins.entries.foldl (mergeTapOrigin leaf) table).get? key =
      match origins.get? key with
      | some origin => some (mergedEntry leaf origin (table.get? key))
      | none => table.get? key := by
  cases found : origins.get? key with
  | some origin =>
    have member := Table.get?_eq_some_iff.mp found
    exact get?_foldl_of_mem origins.nodup member leaf table
  | none => exact get?_foldl_of_notMem (Table.get?_eq_none_iff.mp found) leaf table

theorem putLeafScript_fields (input : Input) (block : ControlBlock) (script : Script)
    (version : Int) :
    ∃ tapScripts, (input.putLeafScript block script version).1 = { input with tapScripts } := by
  rw [putLeafScript]
  split <;> exact ⟨_, rfl⟩

theorem tapKeyOrigins_putLeafScript (input : Input) (block : ControlBlock) (script : Script)
    (version : Int) : (input.putLeafScript block script version).1.tapKeyOrigins =
      input.tapKeyOrigins := by
  obtain ⟨tapScripts, put⟩ := putLeafScript_fields input block script version
  rw [put]

theorem foldl_addSigner_eq (template : List Placeholder) (input : Input) :
    ∃ keyOrigins, template.foldl addSigner input = { input with keyOrigins } := by
  induction template generalizing input with
  | nil => exact ⟨_, rfl⟩
  | cons item rest ih =>
    obtain ⟨keyOrigins, folded⟩ := ih (input.addSigner item)
    refine ⟨keyOrigins, ?_⟩
    rw [List.foldl_cons, folded]
    cases item <;> rfl

theorem writeScripts_fields (input : Input) (target : Fragment) :
    ∃ witnessScript redeemScript,
      (input.writeScripts target).1 = { input with witnessScript, redeemScript } := by
  cases target with
  | inner script => exact ⟨_, _, rfl⟩
  | descriptor descriptor =>
    cases descriptor with
    | sh inner =>
      cases inner with
      | wsh inner =>
        rw [writeScripts]
        cases inner.script.payToWitnessScriptHash
        all_goals exact ⟨_, _, rfl⟩
      | _ => exact ⟨_, _, rfl⟩
    | _ => exact ⟨_, _, rfl⟩

theorem update_of_segwit {plan : Plan}
    (segwit : ∀ key tree, plan.target ≠ .descriptor (.tr key tree)) (input : Input) :
    input.update plan = input.updateSegwit plan := by
  rw [update]
  split
  · rename_i key tree target
    exact absurd target (segwit key tree)
  · rfl

theorem tapKeyOrigins_updateSegwit (input : Input) (plan : Plan) :
    (input.updateSegwit plan).1.tapKeyOrigins = input.tapKeyOrigins := by
  obtain ⟨keyOrigins, signed⟩ := foldl_addSigner_eq plan.template input
  obtain ⟨witnessScript, redeemScript, written⟩ :=
    writeScripts_fields { input with keyOrigins } plan.target
  rw [updateSegwit, signed, written]

end Input

/-- What a taproot plan merges, unless its template or its tree is refused. -/
def Plan.merged? (plan : Plan) : Option TaprootData :=
  match plan.target with
  | .descriptor (.tr key tree) =>
    match TaprootData.ofTemplate plan.template, Descriptor.spendInfo key tree with
    | .ok data, .ok _ => some data
    | _, _ => none
  | _ => none

theorem Plan.merged?_eq_some {plan : Plan} {key : DescriptorKey} {tree : Tree TreeLeaf}
    {data : TaprootData} {info : SpendInfo} (target : plan.target = .descriptor (.tr key tree))
    (folded : TaprootData.ofTemplate plan.template = .ok data)
    (spent : Descriptor.spendInfo key tree = .ok info) : plan.merged? = some data := by
  rw [merged?, target]
  dsimp only
  rw [folded, spent]

theorem Plan.ofTemplate_of_merged? {plan : Plan} {data : TaprootData}
    (h : plan.merged? = some data) : TaprootData.ofTemplate plan.template = .ok data := by
  rw [merged?] at h
  split at h
  · split at h
    · cases h
      assumption
    · cases h
  · cases h

namespace Input

/-- A taproot update changes nothing, or it writes what the template and the tree give and then puts
    the leaf script under the control block, when the template has both. -/
theorem updateTaproot_cases (input : Input) (key : DescriptorKey) (tree : Tree TreeLeaf)
    (template : List Placeholder) :
    (∃ e, input.updateTaproot key tree template = (input, some e)) ∨
      ∃ data info, TaprootData.ofTemplate template = .ok data ∧
        Descriptor.spendInfo key tree = .ok info ∧
        ((data.script = none ∨ data.controlBlock = none) ∧
            input.updateTaproot key tree template = (input.mergeTaproot data info, none) ∨
          ∃ script block, data.script = some script ∧ data.controlBlock = some block ∧
            input.updateTaproot key tree template =
              (input.mergeTaproot data info).putLeafScript block script
                Taproot.scriptLeafVersion) := by
  unfold updateTaproot
  cases TaprootData.ofTemplate template with
  | error e => exact .inl ⟨e, rfl⟩
  | ok data =>
    cases Descriptor.spendInfo key tree with
    | error e => exact .inl ⟨e, rfl⟩
    | ok info =>
      refine .inr ⟨data, info, rfl, rfl, ?_⟩
      dsimp only
      split
      · rename_i script block leaf given
        exact .inr ⟨script, block, leaf, given, rfl⟩
      · rename_i absent
        refine .inl ⟨?_, rfl⟩
        cases leaf : data.script with
        | none => exact .inl rfl
        | some script =>
          cases given : data.controlBlock with
          | none => exact .inr rfl
          | some block => exact absurd given (absent script block leaf)

theorem tapKeyOrigins_update (input : Input) (plan : Plan) :
    (input.update plan).1.tapKeyOrigins =
      match plan.merged? with
      | some data =>
        data.origins.entries.foldl (mergeTapOrigin (data.spend.bind Spend.leafHash?))
          input.tapKeyOrigins
      | none => input.tapKeyOrigins := by
  obtain ⟨target, template, absoluteLock, relativeLock⟩ := plan
  cases target with
  | inner script => exact tapKeyOrigins_updateSegwit input _
  | descriptor descriptor =>
    cases descriptor with
    | tr key tree =>
      unfold update Plan.merged? updateTaproot
      dsimp only
      cases TaprootData.ofTemplate template with
      | error e => rfl
      | ok data =>
        cases Descriptor.spendInfo key tree with
        | error e => rfl
        | ok info =>
          dsimp only
          split
          · exact tapKeyOrigins_putLeafScript _ _ _ _
          · rfl
    | _ => exact tapKeyOrigins_updateSegwit input _

end Input

end SpendingPlan

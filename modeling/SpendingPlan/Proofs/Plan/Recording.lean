import SpendingPlan.Plan.Update
import SpendingPlan.Proofs.Plan.Classification

namespace SpendingPlan

theorem DescriptorKey.lastOrigin (key : DescriptorKey) :
    key.origins.getLast? =
      key.fullPaths.getLast?.map fun path => ⟨key.masterFingerprint, path⟩ := by
  rw [origins, List.getLast?_map]

theorem DescriptorKey.exists_lastOrigin (key : DescriptorKey) :
    ∃ path, key.fullPaths.getLast? = some path ∧
      key.origins.getLast? = some ⟨key.masterFingerprint, path⟩ := by
  have present := List.getLast?_isSome.mpr key.origins_ne_nil
  rw [key.lastOrigin, Option.isSome_map] at present
  obtain ⟨path, way⟩ := Option.isSome_iff_exists.mp present
  exact ⟨path, way, by rw [key.lastOrigin, way, Option.map_some]⟩

namespace Placeholder

def ecdsaSigner? : Placeholder → Option DescriptorKey
  | .ecdsaSigPk key => some key
  | _ => none

theorem ecdsaSigner?_eq_some_iff {item : Placeholder} {signer : DescriptorKey} :
    item.ecdsaSigner? = some signer ↔ item = .ecdsaSigPk signer := by
  cases item <;> simp [ecdsaSigner?]

/-- What an item records under a key, which is one form of the bytes of its signer: the origin of
    the signer, with the last way to it. -/
def recorded? (signer? : Placeholder → Option DescriptorKey) (form : DescriptorKey → Bytes)
    (key : Bytes) (item : Placeholder) : Option KeyOrigin :=
  (signer? item).bind fun signer => if form signer = key then signer.origins.getLast? else none

theorem recorded?_eq_some_iff {signer? : Placeholder → Option DescriptorKey}
    {form : DescriptorKey → Bytes} {key : Bytes} {item : Placeholder} {origin : KeyOrigin} :
    item.recorded? signer? form key = some origin ↔
      ∃ signer, signer? item = some signer ∧ form signer = key ∧
        signer.origins.getLast? = some origin := by
  rw [recorded?, Option.bind_eq_some_iff]
  constructor
  · rintro ⟨signer, signs, recorded⟩
    split at recorded
    · exact ⟨signer, signs, ‹_›, recorded⟩
    · cases recorded
  · rintro ⟨signer, signs, same, recorded⟩
    exact ⟨signer, signs, by rw [if_pos same, recorded]⟩

section Last

variable {signer? : Placeholder → Option DescriptorKey} {form : DescriptorKey → Bytes}

theorem lastRecorded_of_unsigned {template : List Placeholder} {key : Bytes}
    (unsigned : ∀ item ∈ template, ∀ signer, signer? item = some signer → form signer ≠ key) :
    template.reverse.findSome? (recorded? signer? form key) = none := by
  rw [List.findSome?_eq_none_iff]
  intro item member
  rw [Option.eq_none_iff_forall_ne_some]
  intro origin recorded
  obtain ⟨signer, signs, same, -⟩ := recorded?_eq_some_iff.mp recorded
  exact unsigned item (List.mem_reverse.mp member) signer signs same

theorem lastRecorded_of_last {before after : List Placeholder} {item : Placeholder}
    {signer : DescriptorKey} (signs : signer? item = some signer)
    (last : ∀ later ∈ after, ∀ other, signer? later = some other → form other ≠ form signer) :
    (before ++ item :: after).reverse.findSome? (recorded? signer? form (form signer)) =
      signer.origins.getLast? := by
  have here : item.recorded? signer? form (form signer) = signer.origins.getLast? := by
    rw [recorded?, signs, Option.bind_some, if_pos rfl]
  have present := List.getLast?_isSome.mpr signer.origins_ne_nil
  rw [List.reverse_append, List.findSome?_append, findSome?_reverse_cons,
    lastRecorded_of_unsigned last, Option.none_or, here, Option.or_of_isSome present]

end Last

end Placeholder

namespace Input

theorem keyOrigins_addSigner (input : Input) (item : Placeholder) (key : Bytes) :
    (input.addSigner item).keyOrigins.get? key =
      (item.recorded? Placeholder.ecdsaSigner? (·.key.compressed) key).or
        (input.keyOrigins.get? key) := by
  cases item with
  | ecdsaSigPk signer => exact Table.get?_foldl_insert signer.origins _ _ _
  | _ => rfl

theorem keyOrigins_foldl_addSigner (template : List Placeholder) (input : Input) (key : Bytes) :
    (template.foldl addSigner input).keyOrigins.get? key =
      (template.reverse.findSome?
        (Placeholder.recorded? Placeholder.ecdsaSigner? (·.key.compressed) key)).or
        (input.keyOrigins.get? key) := by
  induction template generalizing input with
  | nil => rfl
  | cons item rest ih =>
    rw [List.foldl_cons, ih, keyOrigins_addSigner, findSome?_reverse_cons, Option.or_assoc]

end Input

namespace TaprootData

theorem origins_add {data after : TaprootData} {item : Placeholder}
    (h : data.add item = (after, none)) (key : Bytes) :
    after.origins.get? key =
      (item.recorded? Placeholder.signer? DescriptorKey.xOnly key).or (data.origins.get? key) := by
  obtain ⟨-, -, -, origins⟩ := add_fields h
  rw [origins, Placeholder.recorded?]
  cases item.signer? with
  | none => rfl
  | some signer => exact Table.get?_foldl_insert signer.origins _ _ _

theorem origins_addAll {template : List Placeholder} {data after : TaprootData}
    (h : data.addAll template = (after, none)) (key : Bytes) :
    after.origins.get? key =
      (template.reverse.findSome?
        (Placeholder.recorded? Placeholder.signer? DescriptorKey.xOnly key)).or
        (data.origins.get? key) := by
  induction template generalizing data with
  | nil =>
    cases h
    rfl
  | cons item rest ih =>
    obtain ⟨next, first, later⟩ := addAll_cons_done.mp h
    rw [ih later, origins_add first, findSome?_reverse_cons, Option.or_assoc]

theorem origins_ofTemplate {template : List Placeholder} {data : TaprootData}
    (h : ofTemplate template = .ok data) (key : Bytes) :
    data.origins.get? key = template.reverse.findSome?
      (Placeholder.recorded? Placeholder.signer? DescriptorKey.xOnly key) := by
  rw [origins_addAll (ofTemplate_eq_ok_iff.mp h)]
  exact Option.or_none

end TaprootData

end SpendingPlan

import SpendingPlan.Plan.Placeholder
import SpendingPlan.Table

namespace SpendingPlan

inductive Spend
  | key (internalKey : Bytes)
  | script (leafHash : Bytes)
deriving DecidableEq, Repr

structure TaprootData where
  script : Option Script
  controlBlock : Option ControlBlock
  spend : Option Spend
  origins : Table Bytes KeyOrigin
deriving DecidableEq

def SchnorrUse.toSpend (key : DescriptorKey) : SchnorrUse → Spend
  | .keySpend _ => .key key.xOnly
  | .scriptSpend leafHash => .script leafHash

def Spend.agrees : Spend → SchnorrUse → Bool
  | .key _, .keySpend _ => true
  | .script _, .scriptSpend _ => true
  | .key _, .scriptSpend _ => false
  | .script _, .keySpend _ => false

def Spend.leafHash? : Spend → Option Bytes
  | .key _ => none
  | .script leafHash => some leafHash

namespace TaprootData

def empty : TaprootData := ⟨none, none, none, Table.empty⟩

/-- A key with several ways from its master is kept with the last of them. -/
def addKey (data : TaprootData) (key : DescriptorKey) : TaprootData :=
  { data with
    origins := key.origins.foldl (fun table origin => table.insert key.xOnly origin) data.origins }

/-- The data after an item, with the error that ended it if one did. What was written before the
    error stays written. -/
abbrev Added := TaprootData × Option Error

/-- The first signature decides how the template spends, and later ones have to agree. -/
def classify (data : TaprootData) (key : DescriptorKey) (use : SchnorrUse) : Added :=
  match data.spend with
  | none => ({ data with spend := some (use.toSpend key) }, none)
  | some spend => (data, if spend.agrees use then none else some .mixedSpends)

def add (data : TaprootData) : Placeholder → Added
  | .tapScript script => ({ data with script := some script }, none)
  | .tapControlBlock block => ({ data with controlBlock := some block }, none)
  | .schnorrSigPk key use _ =>
    match data.classify key use with
    | (data, none) => (data.addKey key, none)
    | (data, some e) => (data, some e)
  -- a signature by key hash decides anew, whatever was decided before
  | .schnorrSigPkHash key leafHash _ =>
    (addKey { data with spend := some (.script leafHash) } key, none)
  | _ => (data, none)

def addAll (data : TaprootData) : List Placeholder → Added
  | [] => (data, none)
  | item :: rest =>
    match data.add item with
    | (next, none) => next.addAll rest
    | (next, some e) => (next, some e)

def ofTemplate (template : List Placeholder) : Except Error TaprootData :=
  match empty.addAll template with
  | (data, none) => .ok data
  | (_, some e) => .error e

/-- The data after each item with its outcome, when no error keeps the next item from its turn. -/
def steps (data : TaprootData) : List Placeholder → List Added
  | [] => []
  | item :: rest => data.add item :: steps (data.add item).1 rest

end TaprootData

end SpendingPlan

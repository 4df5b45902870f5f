import PathRouting.Config.Document
import PathRouting.Config.Setting

/-!
# Changing settings

Settings are changed in place: by an assignment along a key path, and by merging a document. A
change inside of a shared mapping is made in the table.
-/
namespace PathRouting.Config

structure Settings where
  entries : Mapping Item
  shared : SharedTable

def change? (shared : SharedTable) (entries : Mapping Item) (key : Value)
    (f : SharedTable → Mapping Item → Mapping Item × SharedTable) :
    Option (Mapping Item × SharedTable) :=
  match Mapping.get? entries key with
  | some (.mapping inner) =>
    let (inner, shared) := f shared inner
    some (Mapping.insert entries key (.mapping inner), shared)
  | some (.shared n) =>
    let (inner, shared) := f shared (shared.entries n)
    some (entries, shared.set n inner)
  | _ => none

/-- Put an item at a key path. What stands on the way and is no mapping gives way to an empty
one. -/
def assignIn (shared : SharedTable) (entries : Mapping Item) :
    KeyPath → Item → Mapping Item × SharedTable
  | [], _ => (entries, shared)
  | [key], item => (Mapping.insert entries (.str key) item, shared)
  | key :: next :: rest, item =>
    match change? shared entries (.str key) fun shared inner =>
        assignIn shared inner (next :: rest) item with
    | some changed => changed
    | none =>
      let (inner, shared) := assignIn shared [] (next :: rest) item
      (Mapping.insert entries (.str key) (.mapping inner), shared)

mutual

/-- Put an item under a key: a mapping is merged into one that is there, and anything else takes
its place. How a shared mapping is merged is given by a function. -/
def overlayWith (merged : Nat → SharedTable → Mapping Item → Mapping Item × SharedTable)
    (shared : SharedTable) (target : Mapping Item) (key : Value) :
    Item → Mapping Item × SharedTable
  | .mapping source =>
    (change? shared target key fun shared inner => mergeWith merged shared inner source).getD
      (Mapping.insert target key (.mapping source), shared)
  | .shared n =>
    (change? shared target key (merged n)).getD (Mapping.insert target key (.shared n), shared)
  | item => (Mapping.insert target key item, shared)

def mergeWith (merged : Nat → SharedTable → Mapping Item → Mapping Item × SharedTable)
    (shared : SharedTable) (target : Mapping Item) :
    List (Value × Item) → Mapping Item × SharedTable
  | [] => (target, shared)
  | (key, item) :: rest =>
    let (target, shared) := overlayWith merged shared target key item
    mergeWith merged shared target rest

end

/-- Merge a shared mapping, down to a depth of shared mappings in each other. -/
def mergeShared : Nat → Nat → SharedTable → Mapping Item → Mapping Item × SharedTable
  | 0, _, shared, target => (target, shared)
  | depth + 1, n, shared, target =>
    mergeWith (mergeShared depth) shared target (shared.entries n)

namespace Settings

def ofEntries (entries : Mapping Value) : Settings := ⟨Item.ofEntries entries, []⟩

def value (s : Settings) : Mapping Value :=
  Item.entryValues (s.shared.values s.shared.length) s.entries

def assign (s : Settings) (path : KeyPath) (value : Value) : Settings :=
  let (entries, shared) := assignIn s.shared s.entries path (.ofValue value)
  ⟨entries, shared⟩

/-- The settings with a document merged into them. Its shared mappings join the table. -/
def merge (s : Settings) (d : Document) : Settings :=
  let offset := s.shared.length
  let source := Item.raiseEntries offset (d.entries?.getD [])
  let shared := s.shared ++ d.shared.map (Item.raiseEntries offset)
  let (entries, shared) := mergeWith (mergeShared shared.length) shared s.entries source
  ⟨entries, shared⟩

end Settings

end PathRouting.Config

import FolderWatch.Settings
import FolderWatch.Toml.Document

/-!
Settings files. A structure may be a table or an array of its fields in order; what is left out has
its default, and what no field is named for is passed over.
-/

namespace FolderWatch

namespace Toml

/-- The fields of a structure, by name in a table and by place in an array. A moment counts as a
table with no known field. -/
def Item.fields? (names : List String) : Item → Option (List (Option Item))
  | .table _ entries => some (names.map (Members.get? entries))
  | .array items => some ((List.range names.length).map fun index => items[index]?)
  | .tables elements =>
      some ((List.range names.length).map fun index =>
        elements[index]?.map (Item.table .header ·))
  | .moment => some (names.map fun _ => none)
  | _ => none

def Item.word? : Item → Option UInt64
  | .integer value => if 0 ≤ value then some (UInt64.ofNat value.toNat) else none
  | _ => none

def Item.boolean? : Item → Option Bool
  | .boolean value => some value
  | _ => none

def Item.isVoid : Item → Bool
  | .table _ [] => true
  | .array [] => true
  | _ => false

/-- A field that may be missing but not wrong. -/
def field? {α : Type} (read : Item → Option α) (fallback : α) : Option Item → Option α
  | none => some fallback
  | some item => read item

end Toml

open Toml in
def FirstScan.ofToml? : Item → Option FirstScan
  | .string name => ofName? name
  | .table _ [(name, item)] => if item.isVoid then ofName? name else none
  | _ => none

open Toml in
def PollSettings.ofToml? (item : Item) : Option PollSettings := do
  let defaults : PollSettings := {}
  match ← item.fields? ["delay_ms", "stop_timeout_secs", "initial_scan"] with
  | [delay, stopTimeout, firstScan] =>
      return ⟨← field? Item.word? defaults.delay delay,
        ← field? Item.word? defaults.stopTimeout stopTimeout,
        ← field? FirstScan.ofToml? defaults.firstScan firstScan⟩
  | _ => none

namespace Settings

open Toml

def deliveryOfToml? (item : Item) : Option Bool := do
  match ← item.fields? ["batch_events"] with
  | [batched] => field? Item.boolean? true batched
  | _ => none

def ofToml? (entries : Members) : Option Settings := do
  return ⟨← field? PollSettings.ofToml? {} (entries.get? "monitor"),
    ← field? deliveryOfToml? true (entries.get? "output")⟩

def ofText? (text : String) : Option Settings := do
  ofToml? (← readDocument text)

end Settings

end FolderWatch

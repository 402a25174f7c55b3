import NaturalDeduction.Number.Binary64
import NaturalDeduction.Toml.Moment

/-!
# TOML values

The values that a TOML text can give to its keys.

A table keeps its keys in the order in which they were written. No key occurs twice in it.

## Main definitions

* `Toml.Value`
* `Toml.Item`, `Toml.Origin`: a value while the text is still being read, and what
  may be added to it
* `Toml.Entries.assign`, `Toml.Entries.openTable`, `Toml.Entries.openSeries`: what the three kinds
  of lines of a TOML text do to the tables read so far
-/

namespace NaturalDeduction.Toml

/-- A value. -/
inductive Value where
  | string (s : String)
  | integer (n : Int)
  /-- A float; not-a-number is `none`. -/
  | float (x : Option Binary64)
  | moment (m : Moment)
  | boolean (b : Bool)
  | array (elements : List Value)
  | table (entries : List (String × Value))
deriving Repr

/-- How a table came about, which decides what may be added to it. -/
inductive Origin where
  /-- By a header of its own, which may not be repeated, or as a member of a series. -/
  | header
  /-- As part of a longer header; a header of its own may follow. -/
  | implied
  /-- By a dotted key; more dotted keys may follow, but no header. -/
  | dotted
deriving DecidableEq, Repr

/-- A value while the text is still being read. -/
inductive Item where
  /-- A value that is complete, inline tables and arrays included. -/
  | value (v : Value)
  /-- A table that may still grow. -/
  | table (origin : Origin) (entries : List (String × Item))
  /-- Tables under one repeated header, the last one first. Only that one may still grow. -/
  | series (tables : List (List (String × Item)))

/-- The content of a table while the text is still being read. -/
abbrev Entries := List (String × Item)

namespace Entries

/-- Puts an item at a key, in place of the one that is there or behind all others. -/
def put (entries : Entries) (key : String) (item : Item) : Entries :=
  if (entries.lookup key).isSome then
    entries.map fun entry => if entry.1 = key then (key, item) else entry
  else entries ++ [(key, item)]

/-- The line `path.key = value` in a table. The keys of the path lead through tables that only
dotted keys have made, the last one strictly so; a longer header may have implied the others. -/
def assign (key : String) (value : Value) : (path : List String) → Entries → Option Entries
  | [], entries =>
    match entries.lookup key with
    | none => some (entries.put key (.value value))
    | some _ => none
  | first :: path, entries =>
    match entries.lookup first with
    | none => (assign key value path []).map fun inner => entries.put first (.table .dotted inner)
    | some (.table origin inner) =>
      if origin = .dotted ∨ (origin = .implied ∧ path ≠ []) then
        (assign key value path inner).map fun inner => entries.put first (.table origin inner)
      else none
    | some (.series (last :: earlier)) =>
      if path = [] then none
      else (assign key value path last).map fun last =>
        entries.put first (.series (last :: earlier))
    | some _ => none

/-- Changes the table that the keys of a header lead to. A table that is not there is implied; of a
series the last member is meant. -/
def within (change : Entries → Option Entries) : (path : List String) → Entries → Option Entries
  | [], entries => change entries
  | first :: path, entries =>
    match entries.lookup first with
    | none => (within change path []).map fun inner => entries.put first (.table .implied inner)
    | some (.table origin inner) =>
      (within change path inner).map fun inner => entries.put first (.table origin inner)
    | some (.series (last :: earlier)) =>
      (within change path last).map fun last => entries.put first (.series (last :: earlier))
    | some _ => none

/-- The header `[path.key]`, which opens a table that is new or was only implied so far. -/
def openTable (path : List String) (key : String) : Entries → Option Entries :=
  within (fun entries =>
    match entries.lookup key with
    | none => some (entries.put key (.table .header []))
    | some (.table .implied inner) => some (entries.put key (.table .header inner))
    | some _ => none) path

/-- The header `[[path.key]]`, which opens the next member of a series. -/
def openSeries (path : List String) (key : String) : Entries → Option Entries :=
  within (fun entries =>
    match entries.lookup key with
    | none => some (entries.put key (.series [[]]))
    | some (.series tables) => some (entries.put key (.series ([] :: tables)))
    | some _ => none) path

end Entries

mutual

/-- The value of an item when nothing is added any more. -/
def Item.close : Item → Value
  | .value v => v
  | .table _ entries => .table (closeEntries entries)
  | .series tables => .array (closeTables tables).reverse

/-- The values of a table when nothing is added any more. -/
def closeEntries : List (String × Item) → List (String × Value)
  | [] => []
  | (key, item) :: others => (key, item.close) :: closeEntries others

/-- The values of the members of a series. -/
def closeTables : List (List (String × Item)) → List Value
  | [] => []
  | entries :: others => .table (closeEntries entries) :: closeTables others

end

end NaturalDeduction.Toml

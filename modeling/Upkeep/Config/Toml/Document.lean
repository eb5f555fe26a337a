import Upkeep.Config.Toml.Basic
import Upkeep.Config.Value

/-!
Tables of TOML while they are read.  How a table was made says what may still be put
into it: a table is made once, and one that was written as a value is closed.
-/

namespace Upkeep

namespace Toml

/-- How a table came to be: as a value, by a header, on the way to the table of a header,
or by a key with dots. -/
inductive Making where
  | written
  | header
  | passed
  | dotted
  deriving DecidableEq, Repr

/-- What a document holds under a name.  A scalar that does not fit has no value.  A list
that was made by headers can grow. -/
inductive Item where
  | scalar (start : Nat) (value? : Option Value)
  | list (grows : Bool) (items : List Item)
  | table (making : Making) (entries : List (Text × Item))

/-- The items of a table by name. -/
abbrev Entries := NameMap Item

mutual

/-- The value of an item, or where the first scalar without a value stands. -/
def Item.value : Item → Reading Value
  | .scalar _ (some value) => .ok value
  | .scalar start none => .error start
  | .list _ items => (valuesOf items).map .list
  | .table _ entries => (settingsOf entries).map .map

def valuesOf : List Item → Reading (List Value)
  | [] => .ok []
  | item :: rest => do return (← item.value) :: (← valuesOf rest)

/-- The values of a table. -/
def settingsOf : Entries → Reading (List (Text × Value))
  | [] => .ok []
  | (name, item) :: rest => do return (name, ← item.value) :: (← settingsOf rest)

end

/-- One part of a key: its name and where it starts. -/
structure Part where
  name : Text
  start : Nat
  deriving DecidableEq, Repr

/-- What is at a path, if no part of the path before the last one is in the way.  A list
that can grow stands for its last table. -/
def find? : List Part → Entries → Reading (Option Item)
  | [], _ => .ok none
  | [part], entries => .ok (NameMap.get? part.name entries)
  | part :: path, entries =>
      match NameMap.get? part.name entries with
      | none => .ok none
      | some (.table .written _) => .error part.start
      | some (.table _ inner) => find? path inner
      | some (.list true items) =>
          match items.getLast? with
          | some (.table _ inner) => find? path inner
          | _ => .error part.start
      | some _ => .error part.start

/-- Change the table that holds what a path leads to, given how the table at hand was made.
Missing tables on the way are made by the given making; a key with dots does not lead
through the table of a header. -/
def change (making : Making) (put : Making → Part → Entries → Reading Entries) :
    Making → List Part → Entries → Reading Entries
  | _, [], entries => .ok entries
  | present, [part], entries => put present part entries
  | _, part :: path, entries =>
      match NameMap.get? part.name entries with
      | none =>
          (change making put making path []).map fun inner =>
            NameMap.set part.name (.table making inner) entries
      | some (.table present inner) =>
          if present = .written ∨ (present = .header ∧ making = .dotted) then .error part.start
          else
            (change making put present path inner).map fun inner =>
              NameMap.set part.name (.table present inner) entries
      | some (.list true items) =>
          match items.getLast? with
          | some (.table present inner) =>
              (change making put present path inner).map fun inner =>
                NameMap.set part.name (.list true (items.dropLast ++ [.table present inner])) entries
          | _ => .error part.start
      | some _ => .error part.start

/-- Put an item under a key where nothing is.  A key with dots puts it into a table that
was made by such a key. -/
def putAt (key : List Part) (item : Item) (entries : Entries) : Reading Entries :=
  let put := fun (present : Making) (part : Part) (entries : Entries) =>
    if (present = .dotted) = (key.length = 1) then .error part.start
    else
      match NameMap.get? part.name entries with
      | some _ => .error part.start
      | none => .ok (NameMap.set part.name item entries)
  change .dotted put .header key entries

/-- A header: whether its table is one of a list, and its path. -/
structure Header where
  isListed : Bool
  path : List Part
  deriving DecidableEq, Repr

/-- Put the table of a header in its place.  It replaces what was made on the way to other
tables, whose entries it already has. -/
def Header.put (header : Header) (table : Entries) (entries : Entries) : Reading Entries :=
  let put := fun (_ : Making) (part : Part) (entries : Entries) =>
    if header.isListed then
      match NameMap.get? part.name entries with
      | none => .ok (NameMap.set part.name (.list true [.table .header table]) entries)
      | some (.list true items) =>
          .ok (NameMap.set part.name (.list true (items ++ [.table .header table])) entries)
      | some _ => .error part.start
    else .ok (NameMap.set part.name (.table .header table) entries)
  change .passed put .header header.path entries

/-- A document as far as it is read: what is in place, and the table at hand with its
header.  The pairs before the first header belong to the document itself. -/
structure Document where
  placed : Entries
  header? : Option Header
  table : Entries

namespace Document

def empty : Document := ⟨[], none, []⟩

/-- Put the table at hand in its place. -/
def close (document : Document) : Reading Entries :=
  match document.header? with
  | none => .ok document.table
  | some header => header.put document.table document.placed

/-- Go on with the table of a header.  It has had no header before, and one of a list
starts empty; whether there is a list is looked at when the table is put in its place. -/
def openHeader (placed : Entries) (header : Header) : Reading Document := do
  let found ← find? header.path placed
  let last := (header.path.getLast?.map Part.start).getD 0
  match header.isListed, found with
  | true, _ => return ⟨placed, some header, []⟩
  | false, none => return ⟨placed, some header, []⟩
  | false, some (.table .passed entries) => return ⟨placed, some header, entries⟩
  | false, some _ => .error last

/-- Put a pair into the table at hand. -/
def put (document : Document) (key : List Part) (item : Item) : Reading Document :=
  (putAt key item document.table).map fun table => { document with table }

end Document

end Toml

end Upkeep

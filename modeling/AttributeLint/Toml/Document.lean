import AttributeLint.Data.Basic
import AttributeLint.Toml.Fault

/-!
# Documents under construction

A document grows by statements.  Beside its fields it keeps which tables have been declared, so that
none is declared twice, and which values are frozen: what is written as a value is not added to later.
A table that a dotted key passes through counts as declared from the next header on.
-/

namespace AttributeLint.Toml

/-- A document as far as it has been read. -/
structure Document where
  fields : Fields := []
  declared : List Key := []
  frozen : List Key := []
  pending : List Key := []
  /-- The table that key/value pairs belong to. -/
  header : Key := []
  deriving Repr, Inhabited

/-- Whether a value is a table or an array, so that it is frozen with all that is in it. -/
def isNest : Data → Bool
  | .list _ => true
  | .object _ => true
  | _ => false

/-- Whether a key is frozen or lies in a frozen value. -/
def isFrozen (frozen : List Key) (key : Key) : Bool :=
  frozen.any (·.isPrefixOf key)

/-- Changes the table at a key; tables on the way there are made.  The last table of an array of
tables stands for the array where `throughArrays` says so. -/
def changeTable (throughArrays : Bool) (change : Fields → Except Cause Fields) :
    Key → Fields → Except Cause Fields
  | [], table => change table
  | part :: rest, table =>
    match table.get? part with
    | none => do
      let inner ← changeTable throughArrays change rest []
      return table.put part (.object inner)
    | some (.object inner) => do
      let inner ← changeTable throughArrays change rest inner
      return table.put part (.object inner)
    | some (.list items) =>
      match throughArrays, items.getLast? with
      | true, some (.object inner) => do
        let inner ← changeTable throughArrays change rest inner
        return table.put part (.list (items.dropLast ++ [.object inner]))
      | _, _ => .error .overwritten
    | some _ => .error .overwritten

/-- Adds a field that must not be there yet. -/
def addField (present : Cause) (key : String) (value : Data) (table : Fields) :
    Except Cause Fields :=
  if table.has key then .error present else .ok (table.put key value)

/-- Adds an empty table to an array of tables, which is made if it is not there. -/
def addTable (key : String) (table : Fields) : Except Cause Fields :=
  match table.get? key with
  | none => .ok (table.put key (.list [.object []]))
  | some (.list items) => .ok (table.put key (.list (items ++ [.object []])))
  | some _ => .error .overwritten

namespace Document

/-- At a header, the tables that dotted keys passed through count as declared. -/
def settle (d : Document) : Document :=
  { d with declared := d.pending ++ d.declared, pending := [] }

/-- Declares a table. -/
def declare (d : Document) (key : Key) : Except Cause Document := do
  if d.declared.contains key || isFrozen d.frozen key then throw (.declaredTwice key)
  let fields ← changeTable true .ok key d.fields
  return { d with fields, declared := key :: d.declared, header := key }

/-- Declares the next table of an array of tables.  What was declared or frozen in the one before it
does not concern the new one. -/
def declareNext (d : Document) (key : Key) : Except Cause Document := do
  if isFrozen d.frozen key then throw (.immutable key)
  let fields ← changeTable true (addTable (key.getLast?.getD "")) key.dropLast d.fields
  return { d with
    fields
    declared := key :: d.declared.filter fun k => !key.isPrefixOf k
    frozen := d.frozen.filter fun k => !key.isPrefixOf k
    header := key }

/-- The keys of the tables that a dotted key passes through, from the outside in. -/
def passed (header key : Key) : List Key :=
  (List.range (key.length - 1)).map fun i => header ++ key.take (i + 1)

/-- Adds a key/value pair. -/
def add (d : Document) (key : Key) (value : Data) : Except Cause Document := do
  let through := passed d.header key
  match through.find? d.declared.contains with
  | some k => throw (.redefined k)
  | none => pure ()
  let parent := d.header ++ key.dropLast
  if isFrozen d.frozen parent then throw (.immutable parent)
  let fields ← changeTable true (addField .overwritten (key.getLast?.getD "") value) parent d.fields
  return { d with
    fields
    pending := through ++ d.pending
    frozen := if isNest value then (d.header ++ key) :: d.frozen else d.frozen }

end Document

end AttributeLint.Toml

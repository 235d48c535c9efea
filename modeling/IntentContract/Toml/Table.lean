import IntentContract.Toml.Value

/-!
# Tables of a TOML document

A document builds its tables line by line: a header opens a table, and an assignment puts a value
under a key, which may name a table within a table. A table can be opened by one header only, but
the header of a table within it may have come first. A table that an assignment brought about
cannot be opened by a header, and one that a header opened cannot be entered by an assignment. Only
the tables that assignments brought about take values by a key of several parts; on the way to them
such a key may also pass through tables that have no header yet, and through the open one of a list
of tables.
-/

namespace IntentContract.Toml

/-- How a table came about. -/
inductive Origin where
  /-- By a header of its own. -/
  | header
  /-- By the header of a table within it. -/
  | within
  /-- By a key of an assignment. -/
  | key
  deriving DecidableEq

/-- **What stands under a key.** -/
inductive Item where
  /-- A finished value, which nothing can be added to. -/
  | value (v : Value)
  | table (origin : Origin) (entries : List (String × Item))
  /-- A list of tables, the last of which is open. -/
  | tables (done : List (List (String × Item))) (last : List (String × Item))

/-- The entries of a table. -/
abbrev Entries := List (String × Item)

/-- Replaces what stands under a key, if `change` agrees. -/
def alter (key : String) (change : Option Item → Option Item) : Entries → Option Entries
  | [] => (change none).map fun i => [(key, i)]
  | (k, i) :: rest =>
    if k = key then (change (some i)).map fun i => (k, i) :: rest
    else (alter key change rest).map ((k, i) :: ·)

/-- Changes the table that a header names, the last one of a list of tables. -/
def enter (change : Entries → Option Entries) : List String → Entries → Option Entries
  | [] => change
  | key :: keys => alter key fun
    | none => (enter change keys []).map (.table .within)
    | some (.table origin entries) => (enter change keys entries).map (.table origin)
    | some (.tables done last) => (enter change keys last).map (.tables done)
    | some (.value _) => none

/-- Opens a table. -/
def openTable : Option Item → Option Item
  | none => some (.table .header [])
  | some (.table .within entries) => some (.table .header entries)
  | some _ => none

/-- Opens one more table of a list. -/
def openNext : Option Item → Option Item
  | none => some (.tables [] [])
  | some (.tables done last) => some (.tables (done ++ [last]) [])
  | some _ => none

/-- Opens the table or the next table that a header names. -/
def openHeader (isList : Bool) (keys : List String) (root : Entries) : Option Entries :=
  match keys.reverse with
  | [] => none
  | key :: front =>
    enter (alter key (if isList then openNext else openTable)) front.reverse root

/-- Puts a value under a key, with the tables that a key of several parts names. -/
def assign (v : Value) : List String → Entries → Option Entries
  | [], _ => none
  | [key], entries => alter key (fun
    | none => some (.value v)
    | some _ => none) entries
  | key :: next :: keys, entries => alter key (fun
    | none => (assign v (next :: keys) []).map (.table .key)
    | some (.table .key entries) => (assign v (next :: keys) entries).map (.table .key)
    | some (.table .within entries) =>
      if keys.isEmpty then none else (assign v (next :: keys) entries).map (.table .within)
    | some (.tables done last) =>
      if keys.isEmpty then none else (assign v (next :: keys) last).map (.tables done)
    | some _ => none) entries

mutual

/-- The value of an item. -/
def Item.toValue : Item → Value
  | .value v => v
  | .table _ entries => .table (fieldsOf entries)
  | .tables done last => .list (tablesOf done ++ [.table (fieldsOf last)])

/-- The fields of a table. -/
def fieldsOf : List (String × Item) → List (String × Value)
  | [] => []
  | (k, i) :: rest => (k, i.toValue) :: fieldsOf rest

/-- The values of a list of tables. -/
def tablesOf : List (List (String × Item)) → List Value
  | [] => []
  | entries :: rest => .table (fieldsOf entries) :: tablesOf rest

end

end IntentContract.Toml

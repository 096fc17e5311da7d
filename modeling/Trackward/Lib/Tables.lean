import Trackward.Lib.Growth
import Mathlib.Data.List.Basic
import Mathlib.Logic.Function.Basic

/-!
# Tables with constraints and row triggers

A database is a list of rows for each table of a schema.  The statements that
change rows are INSERT, UPDATE and DELETE.  A statement that fires a raising
trigger, or that would leave a constraint violated, aborts and changes nothing.

A history of statements is `Persistent` if a row that is in a table at one
moment is in it at every later moment, with the values it had.  A table whose
trigger raises on every update and delete of a row never loses one; a table
without triggers that no other table references loses exactly what statements
ask it to lose.
-/

namespace Trackward.Lib.Tables

open Trackward.Lib.Growth

variable {Value : Type}

/-! ## Schemas -/

/-- The values of a row, in the order of the columns; `none` is NULL. -/
abbrev Record (Value : Type) := List (Option Value)

/-- What a column holds when an INSERT does not name it. -/
inductive Default (Value : Type) where
  | null
  | value (value : Value)
  | now

/-- A column with the values of its type. -/
structure Column (Value : Type) where
  name : String
  typed : Value → Bool
  notNull : Bool
  default : Default Value

/-- The values of a column are values of a column of another table. -/
structure Reference where
  column : String
  table : String
  target : String

/-- A condition on the values of one row. -/
structure Check (Value : Type) where
  name : String
  holds : (String → Option Value) → Bool

/-- A function run before each row an UPDATE or a DELETE matches. -/
structure Trigger where
  name : String
  onUpdate : Bool
  onDelete : Bool
  body : String → Except String Unit

structure Table (Value : Type) where
  name : String
  columns : List (Column Value)
  keys : List (List String)
  references : List Reference
  checks : List (Check Value)
  triggers : List Trigger

abbrev Schema (Value : Type) := List (Table Value)

/-- A statement that defines the schema. -/
inductive Definition (Value : Type) where
  | createTable (table : Table Value)
  | createFunction (name : String) (body : String → Except String Unit)
  | createTrigger (name : String) (onUpdate onDelete : Bool)
      (table function : String)
  | alterTable (table : String) (columns : List (Column Value))
      (checks : List (Check Value))

/-- The tables and functions defined so far. -/
structure Catalog (Value : Type) where
  functions : List (String × (String → Except String Unit))
  tables : Schema Value

abbrev Database (Value : Type) := String → List (Record Value)

/-- The table of this name. -/
def Schema.find (schema : Schema Value) (name : String) :
    Option (Table Value) :=
  schema.find? fun table => table.name = name

/-- Change the table of this name; a missing table is an error. -/
def Schema.alter (schema : Schema Value) (name : String)
    (change : Table Value → Table Value) : Option (Schema Value) :=
  if (schema.find name).isSome then
    some
      (schema.map fun table =>
        if table.name = name then change table else table)
  else none

/-- Run a definition; names that are taken or missing are errors. -/
def Catalog.define (catalog : Catalog Value) :
    Definition Value → Option (Catalog Value)
  | .createTable table =>
      if (catalog.tables.find table.name).isNone then
        some { catalog with tables := catalog.tables ++ [table] }
      else none
  | .createFunction name body =>
      some { catalog with functions := (name, body) :: catalog.functions }
  | .createTrigger name onUpdate onDelete table function => do
      let body ← catalog.functions.lookup function
      let tables ← catalog.tables.alter table fun table =>
        { table with
          triggers :=
            table.triggers ++ [⟨name, onUpdate, onDelete, body⟩] }
      return { catalog with tables := tables }
  | .alterTable table columns checks => do
      let tables ← catalog.tables.alter table fun table =>
        { table with
          columns := table.columns ++ columns
          checks := table.checks ++ checks }
      return { catalog with tables := tables }

/-- The catalog that definitions build from nothing. -/
def migrate (definitions : List (Definition Value)) :
    Option (Catalog Value) :=
  definitions.foldlM Catalog.define ⟨[], []⟩

/-- The value of a row in a column. -/
def Table.value (table : Table Value) (row : Record Value)
    (column : String) : Option Value :=
  ((table.columns.zip row).find? fun entry =>
    entry.1.name = column).bind Prod.snd

def Column.accepts (column : Column Value) : Option Value → Bool
  | none => !column.notNull
  | some value => column.typed value

/-- The constraints of a table on a single row. -/
def Table.wellFormed (table : Table Value) (row : Record Value) : Bool :=
  row.length = table.columns.length &&
    (table.columns.zip row).all (fun entry => entry.1.accepts entry.2) &&
    table.checks.all fun check => check.holds (table.value row)

section Constraints

variable [DecidableEq Value]

/-- Two rows agree in all columns of a key, and none of these is NULL. -/
def Table.clash (table : Table Value) (first second : Record Value)
    (key : List String) : Bool :=
  key.all fun column =>
    (table.value first column).isSome &&
      table.value first column = table.value second column

/-- No two rows clash in a key. -/
def Table.keyed (table : Table Value) (rows : List (Record Value)) : Bool :=
  decide
    (rows.Pairwise fun first second =>
      ∀ key ∈ table.keys, table.clash first second key = false)

/-- The row refers to an existing row, or to none. -/
def Schema.resolves (schema : Schema Value) (db : Database Value)
    (table : Table Value) (row : Record Value) (reference : Reference) :
    Bool :=
  match table.value row reference.column, schema.find reference.table with
  | none, _ => true
  | some _, none => false
  | some value, some other =>
      (db other.name).any fun target =>
        other.value target reference.target = some value

/-- All constraints of a table hold. -/
def Schema.tableValid (schema : Schema Value) (db : Database Value)
    (table : Table Value) : Bool :=
  (db table.name).all table.wellFormed && table.keyed (db table.name) &&
    (db table.name).all fun row =>
      table.references.all (schema.resolves db table row)

/-- All constraints of the schema hold. -/
def Schema.valid (schema : Schema Value) (db : Database Value) : Bool :=
  schema.all (schema.tableValid db)

/-! ## Statements -/

/-- A statement; `now` is the start of its transaction. -/
inductive Statement (Value : Type) where
  | insert (table : String) (now : Value)
      (values : List (String × Option Value))
  | update (table : String) (target : Record Value → Bool)
      (change : Record Value → Record Value)
  | delete (table : String) (target : Record Value → Bool)

inductive Abort where
  | noTable
  | noColumn
  | raised (message : String)
  | violated
  deriving DecidableEq

/-- The value an INSERT gives to a column. -/
def Column.inserted (now : Value) (values : List (String × Option Value))
    (column : Column Value) : Option Value :=
  match values.lookup column.name with
  | some value => value
  | none =>
      match column.default with
      | .null => none
      | .value value => some value
      | .now => some now

/-- Run triggers before a row. -/
def fire (table : String) : List Trigger → Except String Unit
  | [] => .ok ()
  | trigger :: triggers =>
      match trigger.body table with
      | .error message => .error message
      | .ok () => fire table triggers

/-- Run triggers before every matched row. -/
def fireAll (table : String) (triggers : List Trigger) :
    List (Record Value) → Except String Unit
  | [] => .ok ()
  | _ :: rows =>
      match fire table triggers with
      | .error message => .error message
      | .ok () => fireAll table triggers rows

namespace Statement

/-- The table a statement is addressed to. -/
def addressee : Statement Value → String
  | .insert name _ _ => name
  | .update name _ _ => name
  | .delete name _ => name

/-- The columns a statement names exist. -/
def named (table : Table Value) : Statement Value → Bool
  | .insert _ _ values =>
      values.all fun entry =>
        table.columns.any fun column => column.name = entry.1
  | _ => true

/-- The triggers a statement fires before each row it matches. -/
def fires (table : Table Value) : Statement Value → List Trigger
  | .insert _ _ _ => []
  | .update _ _ _ => table.triggers.filter Trigger.onUpdate
  | .delete _ _ => table.triggers.filter Trigger.onDelete

/-- The rows an UPDATE or a DELETE matches. -/
def matched (rows : List (Record Value)) :
    Statement Value → List (Record Value)
  | .insert _ _ _ => []
  | .update _ target _ => rows.filter target
  | .delete _ target => rows.filter target

/-- The rows of the table when the statement has taken effect. -/
def result (table : Table Value) (rows : List (Record Value)) :
    Statement Value → List (Record Value)
  | .insert _ now values =>
      rows ++ [table.columns.map (Column.inserted now values)]
  | .update _ target change =>
      rows.map fun row => if target row then change row else row
  | .delete _ target => rows.filter fun row => !target row

end Statement

/-- Run a statement. -/
def Schema.execute (schema : Schema Value) (db : Database Value)
    (statement : Statement Value) : Except Abort (Database Value) :=
  let name := statement.addressee
  match schema.find name with
  | none => .error .noTable
  | some table =>
      if statement.named table then
        match
          fireAll name (statement.fires table) (statement.matched (db name))
        with
        | .error message => .error (.raised message)
        | .ok () =>
            let after :=
              Function.update db name (statement.result table (db name))
            if schema.valid after then .ok after else .error .violated
      else .error .noColumn

/-- The database after a statement; an aborted one changes nothing. -/
def Schema.after (schema : Schema Value) (db : Database Value)
    (statement : Statement Value) : Database Value :=
  match schema.execute db statement with
  | .ok result => result
  | .error _ => db

/-- The database after statements on empty tables. -/
def Schema.replay (schema : Schema Value)
    (statements : List (Statement Value)) : Database Value :=
  statements.foldl schema.after fun _ => []

/-- No row is lost or changed in the course of the statements. -/
def Schema.Persistent (schema : Schema Value)
    (statements : List (Statement Value)) : Prop :=
  ∀ earlier later, earlier <+: later → later <+: statements →
    ∀ table ∈ schema, ∀ row ∈ schema.replay earlier table.name,
      row ∈ schema.replay later table.name

/-! ## One statement -/

variable {schema : Schema Value} {db after : Database Value}
variable {table : Table Value} {statement : Statement Value}

/-- Everything a statement that takes effect can do. -/
theorem execute_eq_ok_iff :
    schema.execute db statement = .ok after ↔
      ∃ table,
        schema.find statement.addressee = some table ∧
          statement.named table = true ∧
            fireAll statement.addressee (statement.fires table)
                (statement.matched (db statement.addressee)) = .ok () ∧
              schema.valid after = true ∧
                after =
                  Function.update db statement.addressee
                    (statement.result table (db statement.addressee)) := by
  simp only [Schema.execute]
  cases found : schema.find statement.addressee with
  | none => simp
  | some table =>
      cases fired :
          fireAll statement.addressee (statement.fires table)
            (statement.matched (db statement.addressee)) with
      | error message =>
          simp only [Option.some.injEq, exists_eq_left', fired]
          split_ifs <;> simp
      | ok _ =>
          simp only [Option.some.injEq, exists_eq_left', fired, true_and]
          constructor
          · intro executed
            split_ifs at executed with named valid
            · cases executed
              exact ⟨named, valid, rfl⟩
          · rintro ⟨named, valid, rfl⟩
            rw [if_pos named, if_pos valid]

/-- A statement either aborts or takes effect. -/
theorem after_cases (schema : Schema Value) (db : Database Value)
    (statement : Statement Value) :
    schema.after db statement = db ∨
      schema.execute db statement = .ok (schema.after db statement) := by
  unfold Schema.after
  cases schema.execute db statement with
  | error abort => exact Or.inl rfl
  | ok result => exact Or.inr rfl

/-- No statement breaks a constraint. -/
theorem valid_after (valid : schema.valid db = true) :
    schema.valid (schema.after db statement) = true := by
  rcases after_cases schema db statement with same | executed
  · rw [same]
    exact valid
  · rcases execute_eq_ok_iff.mp executed with ⟨_, _, _, _, valid, _⟩
    exact valid

theorem replay_concat (statements : List (Statement Value)) :
    schema.replay (statements ++ [statement]) =
      schema.after (schema.replay statements) statement := by
  simp [Schema.replay]

/-- What statements have built satisfies the constraints. -/
theorem valid_replay (schema : Schema Value)
    (statements : List (Statement Value)) :
    schema.valid (schema.replay statements) = true := by
  induction statements using List.reverseRecOn with
  | nil =>
      simp [Schema.replay, Schema.valid, Schema.tableValid, Table.keyed]
  | append_singleton statements statement induction =>
      rw [replay_concat]
      exact valid_after induction

/-- The rows of every table are there after the statement. -/
def Schema.Keeps (schema : Schema Value) (db : Database Value)
    (statement : Statement Value) : Prop :=
  ∀ table ∈ schema, ∀ row ∈ db table.name,
    row ∈ schema.after db statement table.name

/-- Rows persist exactly if every single statement keeps them. -/
theorem persistent_iff_grows {statements : List (Statement Value)} :
    schema.Persistent statements ↔
      Grows
        (fun before statement =>
          schema.Keeps (schema.replay before) statement)
        statements := by
  constructor
  · intro persistent before statement grown table member row inside
    have kept :=
      persistent before (before ++ [statement]) (List.prefix_append _ _)
        grown table member row inside
    rwa [replay_concat] at kept
  · intro grows earlier later between grown table member row inside
    rcases between with ⟨steps, rfl⟩
    induction steps using List.reverseRecOn with
    | nil =>
        rw [List.append_nil]
        exact inside
    | append_singleton steps statement induction =>
        rw [← List.append_assoc] at grown ⊢
        rw [replay_concat]
        exact grows _ _ grown table member row
          (induction ((List.prefix_append _ _).trans grown))

/-! ## Tables that deny mutation -/

/-- The trigger raises an exception when it runs for the table. -/
def Trigger.raises (trigger : Trigger) (table : String) : Bool :=
  match trigger.body table with
  | .error _ => true
  | .ok () => false

/-- A trigger raises before every update and every delete of a row. -/
def Table.denies (table : Table Value) : Bool :=
  table.triggers.any fun trigger =>
    trigger.onUpdate && trigger.onDelete && trigger.raises table.name

omit [DecidableEq Value] in
theorem fire_ne_ok {name : String} {triggers : List Trigger}
    {trigger : Trigger} (member : trigger ∈ triggers)
    (raises : trigger.raises name = true) :
    fire name triggers ≠ .ok () := by
  induction triggers with
  | nil => cases member
  | cons first rest induction =>
      intro fired
      simp only [fire] at fired
      rcases List.mem_cons.mp member with rfl | later
      · simp only [Trigger.raises] at raises
        cases body : trigger.body name with
        | error message => simp [body] at fired
        | ok _ => simp [body] at raises
      · split at fired
        · cases fired
        · exact induction later fired

omit [DecidableEq Value] in
/-- Where a trigger raises, only a statement that matches no row gets by. -/
theorem matched_eq_nil_of_denies
    {rows : List (Record Value)} (denies : table.denies = true)
    (fired :
      fireAll table.name (statement.fires table) (statement.matched rows) =
        .ok ()) :
    statement.matched rows = [] := by
  simp only [Table.denies, List.any_eq_true, Bool.and_eq_true] at denies
  rcases denies with ⟨trigger, member, ⟨onUpdate, onDelete⟩, raises⟩
  cases found : statement.matched rows with
  | nil => rfl
  | cons row others =>
      rw [found, fireAll] at fired
      cases statement with
      | insert name now values => cases found
      | update name target change =>
          have fires :
              trigger ∈ table.triggers.filter Trigger.onUpdate :=
            List.mem_filter.mpr ⟨member, onUpdate⟩
          split at fired
          · cases fired
          · rename_i quiet
            exact absurd quiet (fire_ne_ok fires raises)
      | delete name target =>
          have fires :
              trigger ∈ table.triggers.filter Trigger.onDelete :=
            List.mem_filter.mpr ⟨member, onDelete⟩
          split at fired
          · cases fired
          · rename_i quiet
            exact absurd quiet (fire_ne_ok fires raises)

omit [DecidableEq Value] in
/-- A statement that matches no row loses none. -/
theorem mem_result_of_matched_eq_nil
    {rows : List (Record Value)} {row : Record Value}
    (none : statement.matched rows = []) (inside : row ∈ rows) :
    row ∈ statement.result table rows := by
  cases statement with
  | insert name now values => exact List.mem_append_left _ inside
  | update name target change =>
      simp only [Statement.matched, List.filter_eq_nil_iff] at none
      refine List.mem_map.mpr ⟨row, inside, if_neg (none row inside)⟩
  | delete name target =>
      simp only [Statement.matched, List.filter_eq_nil_iff] at none
      refine List.mem_filter.mpr ⟨inside, ?_⟩
      simpa using none row inside

/-- A table that denies mutation keeps its rows. -/
theorem mem_after_of_denies
    {row : Record Value} (found : schema.find table.name = some table)
    (denies : table.denies = true) (inside : row ∈ db table.name) :
    row ∈ schema.after db statement table.name := by
  rcases after_cases schema db statement with same | executed
  · rw [same]
    exact inside
  · rcases execute_eq_ok_iff.mp executed with
      ⟨addressed, here, _, fired, _, effect⟩
    rw [effect]
    by_cases same : statement.addressee = table.name
    · rw [same] at here fired ⊢
      rw [found, Option.some.injEq] at here
      subst here
      rw [Function.update_self]
      exact mem_result_of_matched_eq_nil
        (matched_eq_nil_of_denies denies fired) inside
    · rw [Function.update_of_ne (Ne.symm same)]
      exact inside

/-! ## Tables without triggers -/

/-- No table refers to this one. -/
def Schema.unreferenced (schema : Schema Value) (name : String) : Bool :=
  schema.all fun table =>
    table.references.all fun reference => reference.table != name

omit [DecidableEq Value] in
theorem find_name {name : String} (found : schema.find name = some table) :
    table.name = name := by
  have := List.find?_some found
  simpa using this

/-- A reference does not depend on the rows of other tables. -/
theorem resolves_update
    {name : String} {rows : List (Record Value)} {row : Record Value}
    {reference : Reference} (elsewhere : reference.table ≠ name) :
    schema.resolves (Function.update db name rows) table row reference =
      schema.resolves db table row reference := by
  unfold Schema.resolves
  cases table.value row reference.column with
  | none => rfl
  | some value =>
      cases found : schema.find reference.table with
      | none => rfl
      | some other =>
          have other : other.name ≠ name := by
            rwa [find_name found]
          simp only [Function.update_of_ne other]

/-- Removing rows nobody refers to breaks no constraint. -/
theorem valid_update_of_sublist
    {name : String} {rows : List (Record Value)}
    (valid : schema.valid db = true)
    (unreferenced : schema.unreferenced name = true)
    (fewer : rows.Sublist (db name)) :
    schema.valid (Function.update db name rows) = true := by
  simp only [Schema.valid, List.all_eq_true] at valid ⊢
  intro table member
  have before := valid table member
  have sublist :
      (Function.update db name rows table.name).Sublist
        (db table.name) := by
    by_cases same : table.name = name
    · rw [same, Function.update_self]
      exact fewer
    · rw [Function.update_of_ne same]
  simp only [Schema.tableValid, Bool.and_eq_true, List.all_eq_true,
    Table.keyed, decide_eq_true_eq] at before ⊢
  refine ⟨⟨fun row inside => before.1.1 row (sublist.subset inside),
    before.1.2.sublist sublist⟩, ?_⟩
  intro row inside reference refers
  rw [resolves_update]
  · exact before.2 row (sublist.subset inside) reference refers
  · simp only [Schema.unreferenced, List.all_eq_true,
      bne_iff_ne] at unreferenced
    exact unreferenced table member reference refers

omit [DecidableEq Value] in
/-- No trigger is there to fire. -/
theorem fireAll_nil (name : String) (rows : List (Record Value)) :
    fireAll name [] rows = .ok () := by
  induction rows with
  | nil => rfl
  | cons row rows induction => exact induction

/-- What a statement must not do to a table that is free to be changed. -/
def Statement.Spares (schema : Schema Value) (db : Database Value)
    (name : String) : Statement Value → Prop
  | .insert _ _ _ => True
  | .update addressee target change =>
      addressee = name →
        schema.valid
            (Function.update db name
              ((db name).map fun row =>
                if target row then change row else row)) = false ∨
          ∀ row ∈ db name,
            row ∈ (db name).map fun row =>
              if target row then change row else row
  | .delete addressee target =>
      addressee = name → ∀ row ∈ db name, target row = false

/-- A statement leaves the tables it is not addressed to as they are. -/
theorem after_of_ne {name : String} (other : name ≠ statement.addressee) :
    schema.after db statement name = db name := by
  rcases after_cases schema db statement with same | executed
  · rw [same]
  · rcases execute_eq_ok_iff.mp executed with ⟨_, _, _, _, _, effect⟩
    rw [effect, Function.update_of_ne other]

/-- A statement to a table without triggers is stopped by constraints only. -/
theorem after_of_free
    (found : schema.find statement.addressee = some table)
    (free : table.triggers = [])
    (named : statement.named table = true) :
    schema.after db statement =
      if schema.valid
          (Function.update db statement.addressee
            (statement.result table (db statement.addressee))) then
        Function.update db statement.addressee
          (statement.result table (db statement.addressee))
      else db := by
  have fired :
      fireAll statement.addressee (statement.fires table)
          (statement.matched (db statement.addressee)) = .ok () := by
    cases statement <;> simp [Statement.fires, free, fireAll_nil]
  simp only [Schema.after, Schema.execute, found, named, fired, if_true]
  split_ifs <;> rfl

theorem spares_of_ne {name : String}
    (other : statement.addressee ≠ name) :
    statement.Spares schema db name := by
  cases statement with
  | insert _ _ _ => trivial
  | update _ _ _ => exact fun addressed => absurd addressed other
  | delete _ _ => exact fun addressed => absurd addressed other

/-- The only ways to lose a row of a table without triggers. -/
theorem kept_iff_spares
    (found : schema.find table.name = some table)
    (free : table.triggers = [])
    (unreferenced : schema.unreferenced table.name = true)
    (valid : schema.valid db = true) :
    (∀ row ∈ db table.name, row ∈ schema.after db statement table.name) ↔
      statement.Spares schema db table.name := by
  by_cases addressed : statement.addressee = table.name
  · cases statement with
    | insert name now values =>
        refine iff_of_true (fun row inside => ?_) trivial
        rcases after_cases schema db (.insert name now values) with
          same | executed
        · rw [same]
          exact inside
        · rcases execute_eq_ok_iff.mp executed with ⟨_, _, _, _, _, effect⟩
          rw [effect, ← addressed, Function.update_self]
          rw [← addressed] at inside
          exact mem_result_of_matched_eq_nil rfl inside
    | update name target change =>
        cases addressed
        rw [after_of_free found free rfl]
        simp only [Statement.Spares, Statement.addressee, Statement.result,
          true_implies]
        split_ifs with stored
        · simp [stored]
        · simp [stored]
    | delete name target =>
        cases addressed
        have stored :=
          valid_update_of_sublist valid unreferenced
            (List.filter_sublist (p := fun row => !target row))
        have effect :
            schema.after db (.delete table.name target) =
              Function.update db table.name
                ((db table.name).filter fun row => !target row) :=
          (after_of_free found free rfl).trans (if_pos stored)
        rw [effect, Function.update_self]
        simp only [Statement.Spares, true_implies]
        refine forall₂_congr fun row inside => ?_
        rw [List.mem_filter]
        simp [inside]
  · refine iff_of_true (fun row inside => ?_) (spares_of_ne addressed)
    rw [after_of_ne (Ne.symm addressed)]
    exact inside

omit [DecidableEq Value] in
/-- Tables with different names are found by their names. -/
theorem find_of_mem (names : (schema.map Table.name).Nodup)
    (member : table ∈ schema) : schema.find table.name = some table := by
  induction schema with
  | nil => cases member
  | cons first rest induction =>
      rw [List.map_cons, List.nodup_cons] at names
      rcases List.mem_cons.mp member with rfl | later
      · simp [Schema.find]
      · have other : first.name ≠ table.name := by
          intro same
          rw [same] at names
          exact names.1 (List.mem_map_of_mem later)
        simpa [Schema.find, other] using induction names.2 later

/--
If every table but one denies mutation, and nothing refers to that one, then
rows persist exactly if every statement spares it.
-/
theorem persistent_iff_spares
    {loose : Table Value} (names : (schema.map Table.name).Nodup)
    (member : loose ∈ schema) (free : loose.triggers = [])
    (unreferenced : schema.unreferenced loose.name = true)
    (denied :
      ∀ table ∈ schema, table.name ≠ loose.name → table.denies = true)
    {statements : List (Statement Value)} :
    schema.Persistent statements ↔
      Grows
        (fun before statement =>
          statement.Spares schema (schema.replay before) loose.name)
        statements := by
  rw [persistent_iff_grows]
  refine forall₃_congr fun before statement grown => ?_
  dsimp only
  rw [← kept_iff_spares (find_of_mem names member) free unreferenced
    (valid_replay schema before)]
  constructor
  · intro keeps
    exact keeps loose member
  · intro kept table inSchema row inside
    by_cases same : table.name = loose.name
    · rw [same] at inside ⊢
      exact kept row inside
    · exact mem_after_of_denies (find_of_mem names inSchema)
        (denied table inSchema same) inside

end Constraints

end Trackward.Lib.Tables

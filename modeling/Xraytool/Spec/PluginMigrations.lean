import Xraytool.Spec.Repository

/-! `runMigrations` on the namespace of one plugin: the versioned `*.up.sql` files of a directory run in one
transaction, which records each version in the table of the namespace. The SQL of a migration does not touch that table;
its effect is the list of what was executed. -/

namespace Xraytool.PluginMigrations

open Fallible

structure DirEntry where
  name : String
  isDir : Bool := false
  contents : String := ""

structure SqlMigration where
  version : Int
  name : String
  sql : String

/-- A row of `schema_migrations_…`. -/
structure VersionRow where
  version : Int
  appliedAt : Time

def VersionRow.Clash (a b : VersionRow) : Prop := a.version = b.version

instance : DecidableRel VersionRow.Clash := fun a b => inferInstanceAs (Decidable (a.version = b.version))

inductive Change where
  /-- what `applyBuiltinPluginSchema` migrates -/
  | schema (version : Int)
  | sql (version : Int) (text : String)

def Change.version : Change → Int
  | .schema version | .sql version _ => version

structure Database where
  /-- `none` before the table is created -/
  versions : Option (Table VersionRow VersionRow.Clash) := none
  changes : List Change := []

/-- The operations of a call; each may fail, and `cancelled` is the test of the context. -/
inductive Op where
  | readDir
  | readFile (name : String)
  | begin
  | createTable
  | cancelled (version : Int)
  | check (version : Int)
  | schema (version : Int)
  | exec (version : Int)
  | record (version : Int)
  | commit

structure Call where
  pluginName : String
  entries : List DirEntry
  dir : String := "."
  builtinSchema : Bool := false
  /-- the context is cancelled when the call begins -/
  cancelled : Bool := false
  fails : Op → Bool := fun _ => false
  now : Int → Time := fun _ => 0

def migrationTableName (pluginName : String) : Except Err String :=
  let name := trimSpace pluginName
  if name ≠ "" ∧ name.toList.all (fun c => c.isLower || c.isDigit || c == '_') then .ok ("schema_migrations_" ++ name)
  else .error (.text ("database: invalid plugin migration namespace " ++ quoted pluginName))

/-- `^([0-9]+)_[a-zA-Z0-9][a-zA-Z0-9_-]*\.up\.sql$`, with the digits it captures. -/
def migrationFilename (name : String) : Option String :=
  let digits := name.toList.takeWhile Char.isDigit
  match name.toList.dropWhile Char.isDigit with
  | '_' :: c :: rest =>
    if digits ≠ [] ∧ c.isAlphanum ∧ ".up.sql".toList <:+ rest ∧
        (rest.take (rest.length - 7)).all (fun c => c.isAlphanum || c == '_' || c == '-') then some (String.ofList digits)
    else none
  | _ => none

/-- The captured version of an entry that is read. -/
def DirEntry.versionText (entry : DirEntry) : Option String :=
  if entry.isDir then none else migrationFilename entry.name

/-- The loop of `readSQLMigrations`. -/
def readEntries (call : Call) : List DirEntry → List SqlMigration → Except Err (List SqlMigration)
  | [], migrations => .ok migrations
  | entry :: entries, migrations => match entry.versionText with
    | none => readEntries call entries migrations
    | some digits => match (parseInt digits).filter (0 < ·) with
      | none => .error (.text ("invalid migration version in " ++ quoted entry.name))
      | some version => match migrations.find? (·.version == version) with
        | some duplicate => .error (.text ("migration version " ++ toString version ++ " is declared by both " ++
            quoted duplicate.name ++ " and " ++ quoted entry.name))
        | none => do
          issue (call.fails (.readFile entry.name)) (.wrap ("read " ++ quoted entry.name) .storage) (.ok ())
          readEntries call entries (migrations ++ [⟨version, entry.name, entry.contents⟩])

def readSQLMigrations (call : Call) : Except Err (List SqlMigration) := do
  issue (call.fails .readDir) .storage (.ok ())
  let migrations ← readEntries call call.entries []
  if migrations = [] then .error (.text ("no versioned *.up.sql files found in " ++ quoted call.dir))
  else .ok (migrations.mergeSort fun a b => decide (a.version ≤ b.version))

def applyBuiltinPluginSchema (pluginName : String) (version : Int) : List Change :=
  if pluginName = "core" ∧ (version = 1 ∨ version = 2) ∨ pluginName = "antifraud" ∧ version = 1 then [.schema version]
  else []

/-- The version table and the changes inside the transaction. -/
structure Progress where
  versions : Table VersionRow VersionRow.Clash
  changes : List Change

def migrateSchema (call : Call) (m : SqlMigration) : Except Err (List Change) :=
  if call.builtinSchema then
    issue (call.fails (.schema m.version)) (.wrap ("apply builtin schema for migration " ++ m.name) .storage)
      (.ok (applyBuiltinPluginSchema call.pluginName m.version))
  else .ok []

def executeSQL (call : Call) (m : SqlMigration) : Except Err (List Change) :=
  if trimSpace m.sql ≠ "" then
    issue (call.fails (.exec m.version)) (.wrap ("execute migration " ++ m.name) .storage) (.ok [.sql m.version m.sql])
  else .ok []

/-- One round of the loop. -/
def applyMigration (call : Call) (s : Progress) (m : SqlMigration) : Except Err Progress := do
  issue (call.fails (.cancelled m.version)) (.wrap ("migration " ++ m.name ++ " cancelled") .storage) (.ok ())
  issue (call.fails (.check m.version)) (.wrap ("check migration " ++ m.name) .storage) (.ok ())
  if 0 < s.versions.affected (·.version == m.version) then .ok s
  else do
    let schema ← migrateSchema call m
    let sql ← executeSQL call m
    issue (call.fails (.record m.version)) (.wrap ("record migration " ++ m.name) .storage)
      (match s.versions.insert ⟨m.version, call.now m.version⟩ with
        | some versions => .ok ⟨versions, s.changes ++ schema ++ sql⟩
        | none => .error (.wrap ("record migration " ++ m.name) .duplicate))

def runMigrations (call : Call) (db : Database) : Except Err Database := do
  if call.cancelled then
    .error (.wrap ("database: plugin " ++ quoted call.pluginName ++ " migrations cancelled") .storage)
  else do
    let table ← migrationTableName call.pluginName
    let migrations ← (readSQLMigrations call).mapError
      (.wrap ("database: plugin " ++ quoted call.pluginName ++ " read migrations"))
    transaction (call.fails .begin) (call.fails .commit) .storage do
      issue (call.fails .createTable) (.wrap ("create migration version table " ++ quoted table) .storage) (.ok ())
      let s ← migrations.foldlM (applyMigration call) ⟨db.versions.getD .empty, db.changes⟩
      .ok { versions := some s.versions, changes := s.changes }

/-- The database after a call: a transaction that fails is rolled back. -/
def called (db : Database) (call : Call) : Database := attempt (runMigrations call db) db

end Xraytool.PluginMigrations

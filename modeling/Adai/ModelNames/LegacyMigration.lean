import Adai.ModelNames.RecordText

/-! # Migrating a legacy registry

Records were kept one a line before they were kept in a database. On the first start their
lines are inserted into the table of models, whose columns the insert does not name. The
table has two columns more than the insert has values, so the insert is refused for every
line (`models_migrateFromJsonl`), and a file migrates completely only if it has nothing to
migrate (`migrates_iff`).
-/

namespace Adai.ModelNames.Stored

open Tokenizer (Bytes ascii getlines)

/-! ## The database -/

inductive Value
  | text (s : Bytes)
  | integer (n : Int)
  | real (bits : Double)
  deriving DecidableEq, Repr

/-- The tables, each row with its values in the order of the columns. -/
structure Database where
  modelColumns : List String
  models : List (List Value) := []
  trainingHistory : List (List Value) := []
  roles : List (Bytes × Bytes) := []
  deriving DecidableEq, Repr

/-- The columns that the table of models is created with. -/
def createdColumns : List String :=
  ["model_id", "model_name", "role", "state", "run_id", "created_utc", "updated_utc",
    "artifact_host", "artifact_path", "artifact_checksum", "artifact_format", "d_model",
    "num_heads", "d_ff", "num_encoder_layers", "num_decoder_layers", "max_seq_length",
    "tags_json", "current_run_number", "run_started_utc", "progress_session_id",
    "progress_epoch", "progress_loss", "progress_best_loss", "progress_updated_utc",
    "run_group", "kind", "connection_json"]

/-- The columns that are added to a table from before they existed. -/
def addedColumns : List String :=
  ["current_run_number", "run_started_utc", "progress_session_id", "progress_epoch",
    "progress_loss", "progress_best_loss", "progress_updated_utc", "run_group", "kind",
    "connection_json"]

def addColumnIfMissing (columns : List String) (column : String) : List String :=
  if columns.contains column then columns else columns ++ [column]

/-- A database as it is created. -/
def freshDatabase : Database := { modelColumns := addedColumns.foldl addColumnIfMissing createdColumns }

def insertModelSql : String :=
  "INSERT OR REPLACE INTO models VALUES (?,?,?,?,?,?,?,?,?,?,?,?,?,?,?,?,?,?,?,?,?,?,?,?,?,?)"

/-- An insert that names no columns is refused unless it has a value for each. -/
def prepares (sql : String) (columns : List String) : Bool :=
  sql.toList.count '?' == columns.length

/-- A bound text ends before its first zero byte. -/
def boundText (s : Bytes) : Value := .text (s.takeWhile fun c => c != 0)

/-- A `size_t` is bound as a signed number. -/
def boundSize (n : Nat) : Value := .integer (Int.bmod n (2 ^ 64))

/-- What is bound to the placeholders, in order. -/
def modelRow (r : ModelRecord) : List Value :=
  [boundText r.modelId, boundText r.modelName, boundText r.role, boundText r.state,
    boundText r.runId, boundText r.createdUtc, boundText r.updatedUtc, boundText r.artifact.host,
    boundText r.artifact.path, boundText r.artifact.checksum, boundText r.artifact.format,
    boundSize r.arch.dModel, boundSize r.arch.numHeads, boundSize r.arch.dFf,
    boundSize r.arch.numEncoderLayers, boundSize r.arch.numDecoderLayers,
    boundSize r.arch.maxSeqLength, boundText (tagsToJson r.tags), .integer r.currentRunNumber,
    boundText r.runStartedUtc, boundText r.progressSessionId, .integer r.progressEpoch,
    .real r.progressLoss, .real r.progressBestLoss, boundText r.progressUpdatedUtc,
    boundText r.runGroup]

def historyRow (modelName : Bytes) (h : TrainingHistoryEntry) : List Value :=
  [boundText modelName, boundText h.runId, boundText h.metricsSessionKey,
    boundText h.datasetGroup, .integer h.epochs, .real h.finalLoss, boundText h.startedUtc,
    boundText h.finishedUtc, .integer (if h.incomplete then 1 else 0)]

/-- The row takes the place of those with its id or its name. -/
def insertOrReplace (rows : List (List Value)) (row : List Value) : List (List Value) :=
  (rows.filter fun old => old[0]? != row[0]? && old[1]? != row[1]?) ++ [row]

/-! ## The migration -/

section Migration

variable (stod : Bytes → Option Double)

/-- The record on a line: not on an empty one or a comment, and not without a name. -/
def importable (line : Bytes) : Option ModelRecord :=
  if line = [] ∨ line.head? = some 0x23 then none
  else if (parseRecord stod line).modelName = [] then none
  else some (parseRecord stod line)

/-- One line. When the insert is refused the rest of the line is skipped. -/
def importLine (db : Database) (line : Bytes) : Database :=
  match importable stod line with
  | none => db
  | some r =>
      if !prepares insertModelSql db.modelColumns then db
      else
        { db with
          models := insertOrReplace db.models (modelRow r)
          trainingHistory := db.trainingHistory ++ r.trainingHistory.map (historyRow r.modelName) }

def importLines (db : Database) (lines : List Bytes) : Database := lines.foldl (importLine stod) db

def importRole (db : Database) (role : Bytes × Bytes) : Database :=
  let bound := (role.1.takeWhile fun c => c != 0, role.2.takeWhile fun c => c != 0)
  { db with roles := (db.roles.filter fun old => old.1 != bound.1) ++ [bound] }

/-- Without the file of records nothing is migrated, not the roles either. -/
def migrateFromJsonl (db : Database) (modelsFile rolesFile : Option Bytes) : Database :=
  match modelsFile with
  | none => db
  | some content =>
      let imported := importLines stod db (getlines content)
      match rolesFile with
      | none => imported
      | some roles => (parseStringMap roles).entries.foldl importRole imported

/-- Each line with a name that no row has yet gives that name one row with its fields. -/
def MigratesCompletely (db : Database) (lines : List Bytes) : Prop :=
  ∀ before line later, lines = before ++ line :: later → ∀ r, importable stod line = some r →
    (∀ row ∈ (importLines stod db before).models, row[1]? ≠ some (boundText r.modelName)) →
    ((importLines stod db (before ++ [line])).models.filter
      fun row => row[1]? == some (boundText r.modelName)) = [modelRow r]

/-! ## The insert is refused -/

theorem not_prepares_fresh : prepares insertModelSql freshDatabase.modelColumns = false := by
  decide

/-- A line changes nothing. -/
theorem importLine_eq {db : Database} (columns : db.modelColumns = freshDatabase.modelColumns)
    (line : Bytes) : importLine stod db line = db := by
  unfold importLine
  cases importable stod line with
  | none => rfl
  | some r =>
      rw [columns, not_prepares_fresh]
      rfl

theorem importLines_eq {db : Database} (columns : db.modelColumns = freshDatabase.modelColumns)
    (lines : List Bytes) : importLines stod db lines = db := by
  induction lines with
  | nil => rfl
  | cons line rest ih =>
      rw [importLines, List.foldl_cons, importLine_eq stod columns]
      exact ih

end Migration

variable {stod : Bytes → Option Double}

theorem foldl_importRole_models (roles : List (Bytes × Bytes)) (db : Database) :
    (roles.foldl importRole db).models = db.models := by
  induction roles generalizing db with
  | nil => rfl
  | cons role roles ih => exact ih (importRole db role)

/-- Whatever the files hold, no model is migrated. -/
theorem models_migrateFromJsonl (modelsFile rolesFile : Option Bytes) :
    (migrateFromJsonl stod freshDatabase modelsFile rolesFile).models = [] := by
  cases modelsFile with
  | none => rfl
  | some content =>
      cases rolesFile with
      | none => exact congrArg Database.models (importLines_eq stod rfl _)
      | some roles =>
          refine (foldl_importRole_models _ _).trans ?_
          exact congrArg Database.models (importLines_eq stod rfl _)

/-- **When a legacy registry migrates.** No migration into a fresh database leaves a row of
a model, so a file migrates completely exactly when none of its lines has a record with a
name. -/
theorem migrates_iff (stod : Bytes → Option Double) (content : Bytes) :
    (∀ rolesFile, (migrateFromJsonl stod freshDatabase (some content) rolesFile).models = []) ∧
    (MigratesCompletely stod freshDatabase (getlines content) ↔
      ∀ line ∈ getlines content, importable stod line = none) := by
  refine ⟨fun rolesFile => models_migrateFromJsonl (some content) rolesFile, ?_⟩
  constructor
  · intro complete line member
    obtain ⟨before, later, split⟩ := List.append_of_mem member
    by_contra named
    obtain ⟨r, record⟩ := Option.ne_none_iff_exists'.mp named
    have rows := complete before line later split r record
    rw [importLines_eq stod rfl, importLines_eq stod rfl] at rows
    cases rows fun row member => nomatch member
  · intro nameless before line later split r record
    have none_ := nameless line (split ▸ List.mem_append_right before List.mem_cons_self)
    rw [none_] at record
    cases record

/-- A file of one record. -/
def oneRecord : Bytes := ascii "\x7b\"model_id\":\"a\",\"model_name\":\"m\"\x7d"

/-- Its record is not migrated. -/
theorem record_not_migrated :
    ¬∀ (stod : Bytes → Option Double) (content : Bytes),
      MigratesCompletely stod freshDatabase (getlines content) := by
  intro claim
  have split : getlines oneRecord = [] ++ oneRecord :: [] := by decide
  have named : importable (fun _ => none) oneRecord = some (parseRecord (fun _ => none) oneRecord) := by
    rw [importable, if_neg (by decide), if_neg (by decide)]
  have rows := claim (fun _ => none) oneRecord [] oneRecord [] split _ named
    fun row member => nomatch member
  exact absurd (congrArg List.length rows) (by decide)

end Adai.ModelNames.Stored

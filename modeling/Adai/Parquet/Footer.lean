import Mathlib.Data.List.ReduceOption
import Adai.Parquet.PageHeader

/-! # Reading the footer

The footer of a Parquet file is a `FileMetaData` struct: the schema and the row groups
with the metadata of their column chunks. Enumerations are kept as the numbers that
are read. A field the reader does not need is skipped; a file that says how it is
encrypted is refused.
-/

namespace Adai.Parquet.Footer

open Readers ByteNumbers

structure SchemaElement where
  hasType : Bool := false
  type : Int := 6
  hasRepetition : Bool := false
  repetition : Int := 0
  name : Bytes := []
  deriving DecidableEq, Repr

structure ColumnMetaData where
  type : Int := 6
  encodings : List Int := []
  pathInSchema : List Bytes := []
  codec : Int := 0
  numValues : Int := 0
  dataPageOffset : Int := -1
  hasDictionaryPageOffset : Bool := false
  dictionaryPageOffset : Int := -1
  deriving DecidableEq, Repr

structure ColumnChunk where
  hasFilePath : Bool := false
  hasCryptoMetadata : Bool := false
  hasMetaData : Bool := false
  metaData : ColumnMetaData := {}
  deriving DecidableEq, Repr

structure RowGroup where
  columns : List ColumnChunk := []
  numRows : Int := 0
  deriving DecidableEq, Repr

structure FileMetaData where
  schema : List SchemaElement := []
  rowGroups : List RowGroup := []
  deriving DecidableEq, Repr

/-! ## Lists -/

/-- An element of the type that is expected; any other is skipped. -/
def listElement {α : Type} (expected : Nat) (element : Reader UInt8 α) (elemType : Nat) :
    Reader UInt8 (Option α) :=
  if elemType = expected then some <$> element
  else (fun _ => none) <$> skipListElement skipTop elemType

/-- The elements of the type that is expected. -/
def parseList {α : Type} (expected : Nat) (element : Reader UInt8 α) : Reader UInt8 (List α) := do
  let (elemType, size) ← readListHeader
  let elements ← times (listElement expected element elemType) size
  return elements.reduceOption

/-! ## Structs -/

def schemaElementField (id : Int) (type : Nat) (out : SchemaElement) :
    Reader UInt8 SchemaElement :=
  if id = 1 then do
    let v ← readZigzagVarint
    return { out with type := toInt32 v, hasType := true }
  else if id = 3 then do
    let v ← readZigzagVarint
    return { out with repetition := toInt32 v, hasRepetition := true }
  else if id = 4 then do
    let name ← readBinary
    return { out with name }
  else do
    skipTop type
    return out

def parseSchemaElement : Reader UInt8 SchemaElement := parseStruct schemaElementField {}

def columnMetaDataField (id : Int) (type : Nat) (out : ColumnMetaData) :
    Reader UInt8 ColumnMetaData :=
  if id = 1 then do
    let v ← readZigzagVarint
    return { out with type := toInt32 v }
  else if id = 2 then do
    let encodings ← parseList 5 (toInt32 <$> readZigzagVarint)
    return { out with encodings }
  else if id = 3 then do
    let pathInSchema ← parseList 8 readBinary
    return { out with pathInSchema }
  else if id = 4 then do
    let v ← readZigzagVarint
    return { out with codec := toInt32 v }
  else if id = 5 then do
    let v ← readZigzagVarint
    return { out with numValues := v }
  else if id = 9 then do
    let v ← readZigzagVarint
    return { out with dataPageOffset := v }
  else if id = 11 then do
    let v ← readZigzagVarint
    return { out with dictionaryPageOffset := v, hasDictionaryPageOffset := true }
  else do
    skipTop type
    return out

def parseColumnMetadata (out : ColumnMetaData) : Reader UInt8 ColumnMetaData :=
  parseStruct columnMetaDataField out

/-- A chunk that repeats its metadata keeps what the later ones leave out. -/
def columnChunkField (id : Int) (type : Nat) (out : ColumnChunk) : Reader UInt8 ColumnChunk :=
  if id = 1 then do
    let _ ← readBinary
    return { out with hasFilePath := true }
  else if id = 3 then do
    let metaData ← parseColumnMetadata out.metaData
    return { out with metaData, hasMetaData := true }
  else if id = 8 then do
    skipTop type
    return { out with hasCryptoMetadata := true }
  else if id = 9 then do
    let _ ← readBinary
    return { out with hasCryptoMetadata := true }
  else do
    skipTop type
    return out

def parseColumnChunk : Reader UInt8 ColumnChunk := parseStruct columnChunkField {}

def rowGroupField (id : Int) (type : Nat) (out : RowGroup) : Reader UInt8 RowGroup :=
  if id = 1 then do
    let columns ← parseList 12 parseColumnChunk
    return { out with columns }
  else if id = 3 then do
    let v ← readZigzagVarint
    return { out with numRows := v }
  else do
    skipTop type
    return out

def parseRowGroup : Reader UInt8 RowGroup := parseStruct rowGroupField {}

def fileMetaDataField (id : Int) (type : Nat) (out : FileMetaData) : Reader UInt8 FileMetaData :=
  if id = 2 then do
    let schema ← parseList 12 parseSchemaElement
    return { out with schema }
  else if id = 4 then do
    let rowGroups ← parseList 12 parseRowGroup
    return { out with rowGroups }
  else if id = 8 then failure
  else do
    skipTop type
    return out

def parseFileMetadata : Reader UInt8 FileMetaData := parseStruct fileMetaDataField {}

end Adai.Parquet.Footer

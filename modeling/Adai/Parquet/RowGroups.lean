import Adai.Parquet.Footer
import Adai.Parquet.RowText

/-! # From the footer to the rows

The footer is checked as a whole before anything is written; then the row groups are
decoded one by one, and the rows of each are written before the next one is read. A
group that cannot be decoded ends the conversion with the rows of the earlier groups
already written (`emitGroups`).
-/

namespace Adai.Parquet

open Readers ByteNumbers
open Tokenizer (ascii)

/-! ## The footer -/

def magic : Bytes := ascii "PAR1"

/-- The metadata between the leading magic and the length before the trailing one. -/
def readFooter (file : Bytes) : Option Footer.FileMetaData :=
  if file.length < 12 then none
  else if file.take 4 ≠ magic then none
  else
    let tail := file.drop (file.length - 8)
    if tail.drop 4 ≠ magic then none
    else
      let footerLen := littleEndian (tail.take 4)
      if file.length < footerLen + 8 then none
      else
        let footer := (file.drop (file.length - 8 - footerLen)).take footerLen
        (Footer.parseFileMetadata footer).map Prod.fst

namespace Footer

def SchemaElement.optional : Int := 1

def SchemaElement.repeated : Int := 2

def SchemaElement.isOptional (se : SchemaElement) : Bool :=
  se.hasRepetition && se.repetition == optional

/-- Neither a group nor a repeated column. -/
def SchemaElement.isFlat (se : SchemaElement) : Bool :=
  se.hasType && !(se.hasRepetition && se.repetition == repeated)

/-- The columns of a flat schema: all elements but the root group. -/
def leafColumns (metadata : FileMetaData) : Option (List SchemaElement) :=
  if metadata.schema.length < 2 then none
  else if metadata.schema.tail.all SchemaElement.isFlat then some metadata.schema.tail
  else none

def kMaxRowsPerRowGroup : Int := 2 ^ 24

/-- `PLAIN`, `RLE`, `RLE_DICTIONARY` and `PLAIN_DICTIONARY`. -/
def isSupportedEncoding (encoding : Int) : Bool :=
  encoding == Encoding.plain || encoding == 3 || encoding == Encoding.rleDictionary ||
    encoding == Encoding.plainDictionary

/-- `INT96` and `FIXED_LEN_BYTE_ARRAY` are refused. -/
def isSupportedType (type : Int) : Bool := !(type == 3 || type == 7)

def chunkSupported (rg : RowGroup) (cc : ColumnChunk) : Bool :=
  !cc.hasFilePath && !cc.hasCryptoMetadata && cc.hasMetaData &&
    (0 ≤ rg.numRows && rg.numRows ≤ kMaxRowsPerRowGroup && cc.metaData.numValues == rg.numRows) &&
    (cc.metaData.codec == 0 || cc.metaData.codec == 1) && isSupportedType cc.metaData.type &&
    cc.metaData.encodings.all isSupportedEncoding

/-- What is refused before any row is written. -/
def preflight (metadata : FileMetaData) : Bool :=
  metadata.rowGroups.all fun rg => rg.columns.all (chunkSupported rg)

/-- The type with the given code; values of a type that is not listed cannot be decoded. -/
def physicalType (code : Int) : PhysicalType :=
  if code = 0 then .boolean
  else if code = 1 then .int32
  else if code = 2 then .int64
  else if code = 4 then .float
  else if code = 5 then .double
  else if code = 6 then .byteArray
  else if code = 7 then .fixedLenByteArray
  else .int96

def compressionCodec (code : Int) : CompressionCodec :=
  if code = 0 then .uncompressed else if code = 1 then .snappy else .other code

/-- What the decoder reads of a chunk's metadata. -/
def ColumnMetaData.forDecoding (md : ColumnMetaData) : Parquet.ColumnMetaData where
  type := physicalType md.type
  codec := compressionCodec md.codec
  numValues := md.numValues
  dataPageOffset := md.dataPageOffset
  dictionaryPageOffset :=
    if md.hasDictionaryPageOffset then some md.dictionaryPageOffset else none

end Footer

open Footer (RowGroup SchemaElement leafColumns preflight)

/-! ## Row groups -/

/-- The cells of one column; the chunk must be the one of the schema's column. -/
def decodeColumn (file : Bytes) (numRows : Int) (se : SchemaElement) (cc : Footer.ColumnChunk) :
    Option (List Cell) :=
  if cc.metaData.pathInSchema.getLast? ≠ some se.name then none
  else decodeColumnChunk file file.length cc.metaData.forDecoding se.isOptional numRows

def decodeColumns (file : Bytes) (numRows : Int) (leafs : List SchemaElement)
    (chunks : List Footer.ColumnChunk) : Option (List (List Cell)) :=
  (leafs.zip chunks).mapM fun (se, cc) => decodeColumn file numRows se cc

section Emission

variable (doubleText : Nat → Bytes)

/-- The lines of a row group. -/
def groupLines (file : Bytes) (leafs : List SchemaElement) (rg : RowGroup) :
    Option (List Bytes) :=
  if rg.columns.length ≠ leafs.length then none
  else (decodeColumns file rg.numRows leafs rg.columns).map fun columns =>
    (List.range rg.numRows.toNat).map fun row =>
      rowLine doubleText ((leafs.zip columns).map fun (se, cells) =>
        (se.name, cells.getD row none))

/-- The lines written for the row groups, and whether all of them were decoded. -/
def emitGroups (file : Bytes) (leafs : List SchemaElement) : List RowGroup → List Bytes × Bool
  | [] => ([], true)
  | rg :: rest =>
      match groupLines doubleText file leafs rg with
      | none => ([], false)
      | some lines =>
          let (more, complete) := emitGroups file leafs rest
          (lines ++ more, complete)

/-- The lines that `convert_to_jsonl_impl` writes for the file it opened, and whether it
comes to its end. -/
def convertToJsonlImpl (parquet : Option Bytes) : List Bytes × Bool :=
  match parquet with
  | none => ([], false)
  | some file =>
      match readFooter file with
      | none => ([], false)
      | some metadata =>
          match leafColumns metadata with
          | none => ([], false)
          | some leafs =>
              if preflight metadata then emitGroups doubleText file leafs metadata.rowGroups
              else ([], false)

end Emission

end Adai.Parquet

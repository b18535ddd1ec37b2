import Adai.Parquet.Snappy
import Adai.Parquet.Hybrid
import Adai.Parquet.PlainValues

/-! # Column chunks

A column chunk is pages that follow each other in the file: a dictionary page, if
the column has one, and data pages with the cells in order. Only the cells that
are not null have a value; where cells may be null, the values come after the
definition levels. `WritesChunk` says which bytes are a chunk of a list of cells,
with every choice of pages, encodings, runs and compressed forms.
-/

namespace Adai.Parquet

open Readers ByteNumbers

/-! ## The reader -/

inductive CompressionCodec
  | uncompressed
  | snappy
  | other (code : Int)
  deriving DecidableEq, Repr

structure ColumnMetaData where
  type : PhysicalType
  codec : CompressionCodec
  numValues : Int
  dataPageOffset : Int
  dictionaryPageOffset : Option Int := none
  deriving DecidableEq, Repr

abbrev Cell := Option ColumnValue

def kProbeSize : Nat := 8192

/-- A page header and the offset of the body after it. -/
def readPageHeaderAt (file : Bytes) (offset : Int) : Option (PageHeader × Int) :=
  if offset < 0 then none
  else
    let probe := (file.drop offset.toNat).take kProbeSize
    if probe = [] then none
    else (parsePageHeader probe).map fun parsed =>
      (parsed.1, offset + (probe.length - parsed.2.length : Nat))

def readPageBody (file : Bytes) (fileSize bodyOffset : Int) (header : PageHeader)
    (codec : CompressionCodec) : Option Bytes :=
  if header.compressedPageSize < 0 ∨ header.uncompressedPageSize < 0 ∨ bodyOffset < 0 ∨
      fileSize < bodyOffset ∨ fileSize - bodyOffset < header.compressedPageSize then none
  else
    let compressed := (file.drop bodyOffset.toNat).take header.compressedPageSize.toNat
    if compressed.length ≠ header.compressedPageSize.toNat then none
    else
      match codec with
      | .uncompressed => some compressed
      | .snappy => snappyRawUncompress compressed header.uncompressedPageSize.toNat
      | .other _ => none

def Encoding.plain : Int := 0

def Encoding.plainDictionary : Int := 2

def Encoding.rleDictionary : Int := 8

/-- The definition levels of a page and the bytes after them. -/
def decodeLevels (page : Bytes) (maxDefLevel pageNumValues : Nat) : Option (List Nat × Bytes) :=
  if maxDefLevel = 0 then some (List.replicate pageNumValues 0, page)
  else do
    let (len, rest) ← takeMany 4 page
    let (levels, rest) ← takeMany (littleEndian len) rest
    let levels ← decodeRleBitpackedHybrid levels (bitWidthForMaxLevel maxDefLevel) pageNumValues
    return (levels, rest)

def decodeValues (type : PhysicalType) (dictionary : Option (List ColumnValue)) (encoding : Int)
    (data : Bytes) (nonNullCount : Nat) : Option (List ColumnValue) :=
  if encoding = Encoding.plain then decodePlainValues data type nonNullCount
  else if encoding = Encoding.rleDictionary ∨ encoding = Encoding.plainDictionary then do
    let dictionary ← dictionary
    let (width, rest) ← next data
    let indices ← decodeRleBitpackedHybrid rest width.toNat nonNullCount
    indices.mapM fun idx => dictionary[idx]?
  else none

/-- The values go to the cells whose level is the highest, one each; there are as
many. -/
def placeValues (maxDefLevel : Nat) : List Nat → List ColumnValue → List Cell
  | [], _ => []
  | level :: levels, values =>
      if level = maxDefLevel then values.head? :: placeValues maxDefLevel levels values.tail
      else none :: placeValues maxDefLevel levels values

/-- The cells of an uncompressed data page. -/
def decodePageCells (type : PhysicalType) (maxDefLevel : Nat)
    (dictionary : Option (List ColumnValue)) (header : PageHeader) (page : Bytes) :
    Option (List Cell) := do
  let (levels, data) ← decodeLevels page maxDefLevel header.dpNumValues.toNat
  let nonNullCount := levels.countP (· = maxDefLevel)
  let values ← decodeValues type dictionary header.dpEncoding data nonNullCount
  if values.length ≠ nonNullCount then none
  return placeValues maxDefLevel levels values

section Chunk

variable (file : Bytes) (fileSize : Int) (md : ColumnMetaData) (isOptional : Bool)

def maxDefLevel : Nat := if isOptional then 1 else 0

/-- The dictionary and the offset after its page. -/
def readDictionaryPage (offset : Int) : Option (List ColumnValue × Int) := do
  let (dph, bodyOffset) ← readPageHeaderAt file offset
  if dph.type ≠ PageHeader.dictionaryPage ∨ !dph.hasDictionaryPageHeader then none
  if dph.dictNumValues < 0 then none
  let uncompressed ← readPageBody file fileSize bodyOffset dph md.codec
  let dictionary ← decodePlainValues uncompressed md.type dph.dictNumValues.toNat
  return (dictionary, bodyOffset + dph.compressedPageSize)

/-- The cells of the data page at an offset, their number as its header declares
it, and the offset after the page. -/
def readDataPage (dictionary : Option (List ColumnValue)) (valuesRead offset : Int) :
    Option (List Cell × Int × Int) := do
  let (ph, bodyOffset) ← readPageHeaderAt file offset
  if ph.hasDataPageHeaderV2 then none
  if ph.type ≠ PageHeader.dataPage ∨ !ph.hasDataPageHeader then none
  if ph.dpNumValues < 0 ∨ md.numValues - valuesRead < ph.dpNumValues then none
  let page ← readPageBody file fileSize bodyOffset ph md.codec
  let cells ← decodePageCells md.type (maxDefLevel isOptional) dictionary ph page
  return (cells, ph.dpNumValues, bodyOffset + ph.compressedPageSize)

/-- The loop over the data pages, with the number of values read and the cells so
far. A page takes at least a byte, so there are no more rounds than bytes. -/
def readDataPages (dictionary : Option (List ColumnValue)) :
    Nat → Int → Int → List Cell → Option (Int × List Cell)
  | 0, _, _, _ => none
  | fuel + 1, valuesRead, offset, out =>
      if valuesRead < md.numValues then do
        let (cells, numValues, offset) ←
          readDataPage file fileSize md isOptional dictionary valuesRead offset
        readDataPages dictionary fuel (valuesRead + numValues) offset (out ++ cells)
      else some (valuesRead, out)

def decodeColumnChunk (expectedNumRows : Int) : Option (List Cell) := do
  let (dictionary, offset) ←
    match md.dictionaryPageOffset with
    | some offset =>
        (readDictionaryPage file fileSize md offset).map fun read => (some read.1, read.2)
    | none => some (none, md.dataPageOffset)
  let (valuesRead, out) ←
    readDataPages file fileSize md isOptional dictionary (file.length + 1) 0 offset []
  if valuesRead ≠ md.numValues then none
  if (out.length : Int) ≠ expectedNumRows then none
  return out

end Chunk

/-! ## Chunks in bytes -/

/-- The second bytes are the first ones as the codec stores them. -/
def Stores : CompressionCodec → Bytes → Bytes → Prop
  | .uncompressed, plain, stored => stored = plain
  | .snappy, plain, stored => SnappyCompresses plain stored
  | .other _, _, _ => False

/-- The bytes are a page with the header and the contents. -/
inductive WritesPage (codec : CompressionCodec) (header : PageHeader) (plain : Bytes) : Bytes → Prop
  | page {head stored : Bytes} (writes : WritesPageHeader header head)
      (short : head.length ≤ kProbeSize) (stores : Stores codec plain stored)
      (compressed : header.compressedPageSize = stored.length)
      (uncompressed : header.uncompressedPageSize = plain.length) :
      WritesPage codec header plain (head ++ stored)

def definitionLevel (isOptional : Bool) (cell : Cell) : Nat :=
  if isOptional && cell.isSome then 1 else 0

/-- The bytes are the definition levels of the cells, if the column is optional. -/
inductive WritesLevels (isOptional : Bool) (cells : List Cell) : Bytes → Prop
  | levels {data : Bytes} (optional : isOptional = true)
      (writes : WritesHybrid 1 (cells.map (definitionLevel isOptional)) data)
      (fits : data.length < 2 ^ 32) :
      WritesLevels isOptional cells (toLittleEndian 4 data.length ++ data)
  | none (required : isOptional = false) (full : ∀ cell ∈ cells, cell.isSome = true) :
      WritesLevels isOptional cells []

/-- The bytes are the values, themselves or by their index in the dictionary. -/
inductive WritesValues (type : PhysicalType) (dictionary : Option (List ColumnValue))
    (values : List ColumnValue) : Int → Bytes → Prop
  | plain {data : Bytes} (writes : WritesPlainValues type values data) :
      WritesValues type dictionary values Encoding.plain data
  | indices {encoding : Int} {entries : List ColumnValue} {width : Nat} {indices : List Nat}
      {data : Bytes} (there : dictionary = some entries)
      (indexed : encoding = Encoding.rleDictionary ∨ encoding = Encoding.plainDictionary)
      (narrow : width ≤ 32) (writes : WritesHybrid width indices data)
      (entry : List.Forall₂ (fun idx value => entries[idx]? = some value) indices values) :
      WritesValues type dictionary values encoding (UInt8.ofNat width :: data)

/-- The bytes are a data page of the cells. -/
inductive WritesDataPage (md : ColumnMetaData) (isOptional : Bool)
    (dictionary : Option (List ColumnValue)) (cells : List Cell) : Bytes → Prop
  | page {header : PageHeader} {levels data bytes : Bytes} (type : header.type = PageHeader.dataPage)
      (present : header.hasDataPageHeader = true) (first : header.hasDataPageHeaderV2 = false)
      (count : header.dpNumValues = cells.length) (leveled : WritesLevels isOptional cells levels)
      (values : WritesValues md.type dictionary (cells.filterMap id) header.dpEncoding data)
      (page : WritesPage md.codec header (levels ++ data) bytes) :
      WritesDataPage md isOptional dictionary cells bytes

inductive WritesDataPages (md : ColumnMetaData) (isOptional : Bool)
    (dictionary : Option (List ColumnValue)) : List Cell → Bytes → Prop
  | done : WritesDataPages md isOptional dictionary [] []
  | more {front back : List Cell} {page pages : Bytes}
      (first : WritesDataPage md isOptional dictionary front page)
      (later : WritesDataPages md isOptional dictionary back pages) :
      WritesDataPages md isOptional dictionary (front ++ back) (page ++ pages)

/-- The bytes are a dictionary page of the entries. -/
inductive WritesDictionaryPage (md : ColumnMetaData) (entries : List ColumnValue) : Bytes → Prop
  | page {header : PageHeader} {data bytes : Bytes} (type : header.type = PageHeader.dictionaryPage)
      (present : header.hasDictionaryPageHeader = true)
      (count : header.dictNumValues = entries.length)
      (values : WritesPlainValues md.type entries data)
      (page : WritesPage md.codec header data bytes) : WritesDictionaryPage md entries bytes

/-- The bytes are a column chunk of the cells that begins at the offset. -/
inductive WritesChunk (md : ColumnMetaData) (isOptional : Bool) (cells : List Cell) (offset : Int) :
    Bytes → Prop
  | plain {bytes : Bytes} (absent : md.dictionaryPageOffset = none)
      (starts : md.dataPageOffset = offset) (count : md.numValues = cells.length)
      (each : WritesDataPages md isOptional none cells bytes) :
      WritesChunk md isOptional cells offset bytes
  | dictionary {entries : List ColumnValue} {page pages : Bytes}
      (starts : md.dictionaryPageOffset = some offset) (count : md.numValues = cells.length)
      (dictionary : WritesDictionaryPage md entries page)
      (each : WritesDataPages md isOptional (some entries) cells pages) :
      WritesChunk md isOptional cells offset (page ++ pages)

end Adai.Parquet

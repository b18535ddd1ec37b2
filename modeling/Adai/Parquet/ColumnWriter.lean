import Adai.Parquet.ColumnChunk

/-! # Writing a column chunk

One way to write each part of a chunk, among those the reader takes: page headers
with their fields in order (`writes_dataPageHeader`), a run for every level and a
literal for every block. Every column has a chunk of such parts, with a page for each
of its cells (`exists_writesChunk`).
-/

namespace Adai.Parquet

open Readers ByteNumbers

/-! ## Page headers -/

theorem inRange_of_lt {n : Nat} (small : n < 2 ^ 31) : InRange 32 n := by
  constructor <;> omega

def encodeInt (v : Int) : Bytes := toVarint (foldSign v)

theorem foldSign_lt {v : Int} (inside : InRange 32 v) : foldSign v < 2 ^ 32 := by
  obtain ⟨below, above⟩ := inside
  unfold foldSign
  split_ifs <;> omega

theorem length_encodeInt {v : Int} (inside : InRange 32 v) : (encodeInt v).length ≤ 5 :=
  length_toVarint_le (Nat.lt_trans (foldSign_lt inside) (by omega)) (by omega)

theorem writesInt_encodeInt {v : Int} (inside : InRange 32 v) : WritesInt v (encodeInt v) := by
  have short := length_encodeInt inside
  have small := foldSign_lt inside
  refine ⟨foldSign v, ⟨varint_toVarint _, ?_, ?_⟩, unfoldSign_foldSign v⟩
  · omega
  · omega

/-- A number in the field after the last one. -/
def encodeIntField (v : Int) : Bytes := UInt8.ofNat (1 * 16 + 5) :: encodeInt v

theorem length_encodeIntField {v : Int} (inside : InRange 32 v) :
    (encodeIntField v).length ≤ 6 := by
  have short := length_encodeInt inside
  rw [encodeIntField, List.length_cons]
  omega

theorem StructOf.intField {α : Type} {sets : Int → Nat → Bytes → α → α → Prop} {last v : Int}
    {rest : Bytes} {record record' record'' : α}
    (set : sets (last + (1 : Nat)) 5 (encodeInt v) record record')
    (later : StructOf sets (last + (1 : Nat)) record' rest record'') :
    StructOf sets last record (encodeIntField v ++ rest) record'' :=
  .field (.short Nat.one_pos (by omega) (by omega)) set later

/-- A struct in the field so many after the last one. -/
def encodeStructField (delta : Nat) (content : Bytes) : Bytes :=
  UInt8.ofNat (delta * 16 + 12) :: content

theorem StructOf.structField {α : Type} {sets : Int → Nat → Bytes → α → α → Prop} {last : Int}
    {delta : Nat} {content rest : Bytes} {record record' record'' : α} (some_ : 0 < delta)
    (small : delta < 16) (set : sets (last + delta) 12 content record record')
    (later : StructOf sets (last + delta) record' rest record'') :
    StructOf sets last record (encodeStructField delta content ++ rest) record'' :=
  .field (.short some_ small (by omega)) set later

def encodeDataPageHeader (uncompressed compressed numValues encoding : Int) : Bytes :=
  encodeIntField PageHeader.dataPage ++ (encodeIntField uncompressed ++ (encodeIntField compressed ++
    (encodeStructField 2 (encodeIntField numValues ++ (encodeIntField encoding ++ [0])) ++ [0])))

theorem writes_dataPageHeader {uncompressed compressed numValues encoding : Int}
    (uncompressed_inside : InRange 32 uncompressed) (compressed_inside : InRange 32 compressed)
    (count_inside : InRange 32 numValues) (encoding_inside : InRange 32 encoding) :
    WritesPageHeader
      { type := PageHeader.dataPage, uncompressedPageSize := uncompressed,
        compressedPageSize := compressed, hasDataPageHeader := true, dpNumValues := numValues,
        dpEncoding := encoding }
      (encodeDataPageHeader uncompressed compressed numValues encoding) := by
  have page : InRange 32 PageHeader.dataPage := @inRange_of_lt 0 (by omega)
  have fields : StructOf SetsDataPageHeader 0
      { type := PageHeader.dataPage, uncompressedPageSize := uncompressed,
        compressedPageSize := compressed }
      (encodeIntField numValues ++ (encodeIntField encoding ++ [0]))
      { type := PageHeader.dataPage, uncompressedPageSize := uncompressed,
        compressedPageSize := compressed, dpNumValues := numValues, dpEncoding := encoding } := by
    refine .intField (.numValues (writesInt_encodeInt count_inside) count_inside) ?_
    exact .intField (.encoding (writesInt_encodeInt encoding_inside) encoding_inside) .stop
  refine .intField (.type (writesInt_encodeInt page) page) ?_
  refine .intField (.uncompressedPageSize (writesInt_encodeInt uncompressed_inside)
    uncompressed_inside) ?_
  refine .intField (.compressedPageSize (writesInt_encodeInt compressed_inside)
    compressed_inside) ?_
  exact .structField (by omega) (by omega) (.dataPageHeader fields) .stop

def encodeDictionaryPageHeader (uncompressed compressed numValues : Int) : Bytes :=
  encodeIntField PageHeader.dictionaryPage ++ (encodeIntField uncompressed ++
    (encodeIntField compressed ++ (encodeStructField 4 (encodeIntField numValues ++ [0]) ++ [0])))

theorem writes_dictionaryPageHeader {uncompressed compressed numValues : Int}
    (uncompressed_inside : InRange 32 uncompressed) (compressed_inside : InRange 32 compressed)
    (count_inside : InRange 32 numValues) :
    WritesPageHeader
      { type := PageHeader.dictionaryPage, uncompressedPageSize := uncompressed,
        compressedPageSize := compressed, hasDictionaryPageHeader := true,
        dictNumValues := numValues }
      (encodeDictionaryPageHeader uncompressed compressed numValues) := by
  have page : InRange 32 PageHeader.dictionaryPage := @inRange_of_lt 2 (by omega)
  have fields : StructOf SetsDictionaryPageHeader 0
      { type := PageHeader.dictionaryPage, uncompressedPageSize := uncompressed,
        compressedPageSize := compressed }
      (encodeIntField numValues ++ [0])
      { type := PageHeader.dictionaryPage, uncompressedPageSize := uncompressed,
        compressedPageSize := compressed, dictNumValues := numValues } :=
    .intField (.numValues (writesInt_encodeInt count_inside) count_inside) .stop
  refine .intField (.type (writesInt_encodeInt page) page) ?_
  refine .intField (.uncompressedPageSize (writesInt_encodeInt uncompressed_inside)
    uncompressed_inside) ?_
  refine .intField (.compressedPageSize (writesInt_encodeInt compressed_inside)
    compressed_inside) ?_
  exact .structField (by omega) (by omega) (.dictionaryPageHeader fields) .stop

theorem length_encodeDataPageHeader {uncompressed compressed numValues encoding : Int}
    (uncompressed_inside : InRange 32 uncompressed) (compressed_inside : InRange 32 compressed)
    (count_inside : InRange 32 numValues) (encoding_inside : InRange 32 encoding) :
    (encodeDataPageHeader uncompressed compressed numValues encoding).length ≤ kProbeSize := by
  have page := @length_encodeIntField PageHeader.dataPage (@inRange_of_lt 0 (by omega))
  have first := length_encodeIntField uncompressed_inside
  have second := length_encodeIntField compressed_inside
  have third := length_encodeIntField count_inside
  have fourth := length_encodeIntField encoding_inside
  simp only [encodeDataPageHeader, encodeStructField, List.length_append, List.length_cons,
    List.length_nil, kProbeSize]
  omega

theorem length_encodeDictionaryPageHeader {uncompressed compressed numValues : Int}
    (uncompressed_inside : InRange 32 uncompressed) (compressed_inside : InRange 32 compressed)
    (count_inside : InRange 32 numValues) :
    (encodeDictionaryPageHeader uncompressed compressed numValues).length ≤ kProbeSize := by
  have page := @length_encodeIntField PageHeader.dictionaryPage (@inRange_of_lt 2 (by omega))
  have first := length_encodeIntField uncompressed_inside
  have second := length_encodeIntField compressed_inside
  have third := length_encodeIntField count_inside
  simp only [encodeDictionaryPageHeader, encodeStructField, List.length_append, List.length_cons,
    List.length_nil, kProbeSize]
  omega

/-! ## Blocks -/

def encodeLiteral (literal : Bytes) : Bytes :=
  if literal = [] then []
  else UInt8.ofNat ((59 + 4) * 4) :: (toLittleEndian 4 (literal.length - 1) ++ literal)

/-- A block of one literal. -/
def encodeSnappy (plain : Bytes) : Bytes := toVarint plain.length ++ encodeLiteral plain

theorem snappyCompresses_encodeSnappy {plain : Bytes} (fits : plain.length ≤ 256 ^ 4) :
    SnappyCompresses plain (encodeSnappy plain) := by
  have header : WritesVarint plain.length (toVarint plain.length) := by
    refine ⟨varint_toVarint _, length_toVarint_le (Nat.lt_of_le_of_lt fits ?_) ?_, ?_⟩
    · omega
    · omega
    · omega
  refine ⟨_, _, header, ?_, rfl⟩
  unfold encodeLiteral
  by_cases nothing : plain = []
  · rw [if_pos nothing, nothing]
    exact .done
  · have element := @SnappyElement.long [] plain 4 nothing (by omega) (by omega) fits
    have elements := SnappyElements.more element .done
    rw [List.append_nil] at elements
    rw [if_neg nothing]
    exact elements

theorem length_encodeSnappy_le {plain : Bytes} (fits : plain.length < 2 ^ 31) :
    (encodeSnappy plain).length ≤ plain.length + 10 := by
  have header : (toVarint plain.length).length ≤ 5 :=
    length_toVarint_le (Nat.lt_trans fits (by omega)) (by omega)
  rw [encodeSnappy, encodeLiteral, List.length_append]
  split_ifs
  · rw [List.length_nil]
    omega
  · rw [List.length_cons, List.length_append, length_toLittleEndian]
    omega

/-! ## Levels -/

/-- A run of each value. -/
def encodeRuns (bitWidth : Nat) : List Nat → Bytes
  | [] => []
  | value :: rest => toVarint (2 * 1) ++ toLittleEndian ((bitWidth + 7) / 8) value ++
      encodeRuns bitWidth rest

theorem writesHybrid_encodeRuns {bitWidth : Nat} {values : List Nat}
    (fit : ∀ v ∈ values, v < 2 ^ bitWidth) :
    WritesHybrid bitWidth values (encodeRuns bitWidth values) := by
  refine ⟨[], ?_⟩
  rw [List.append_nil]
  induction values with
  | nil => exact .done
  | cons value rest ih =>
      have header : WritesVarint (2 * 1) (toVarint (2 * 1)) :=
        ⟨varint_toVarint _, length_toVarint_le (by omega) (by omega), by omega⟩
      have run := HybridRun.repeated header (fit value List.mem_cons_self)
      exact .more run (ih fun v member => fit v (List.mem_cons_of_mem _ member))

/-! ## Chunks -/

/-- The cell can be in a column of the type, and its value in a page. -/
inductive Fits (type : PhysicalType) (isOptional : Bool) : Cell → Prop
  | null (optional : isOptional = true) : Fits type isOptional none
  | value {value : ColumnValue} {data : Bytes} (writes : WritesPlainValues type [value] data)
      (small : data.length < 2 ^ 31 - 16) : Fits type isOptional (some value)

theorem exists_writesLevels {type : PhysicalType} {isOptional : Bool} {cell : Cell}
    (fits : Fits type isOptional cell) :
    ∃ levels, levels.length ≤ 6 ∧ WritesLevels isOptional [cell] levels := by
  cases isOptional with
  | true =>
      have short : (encodeRuns 1 ([cell].map (definitionLevel true))).length = 2 := by
        rw [List.map_singleton, encodeRuns, encodeRuns, toVarint]
        simp
      refine ⟨_, ?_, .levels rfl (writesHybrid_encodeRuns fun level member => ?_) ?_⟩
      · rw [List.length_append, length_toLittleEndian, short]
      · rw [List.map_singleton, List.mem_singleton] at member
        rw [member, definitionLevel]
        split_ifs <;> omega
      · rw [short]
        omega
  | false =>
      refine ⟨[], Nat.zero_le 6, .none rfl fun other member => ?_⟩
      rw [List.mem_singleton] at member
      cases fits with
      | null optional => cases optional
      | value => rw [member, Option.isSome_some]

theorem exists_writesPlainValues {type : PhysicalType} {isOptional : Bool} {cell : Cell}
    (supported : type = .boolean ∨ type.inBytes = true) (fits : Fits type isOptional cell) :
    ∃ data, data.length < 2 ^ 31 - 16 ∧ WritesPlainValues type ([cell].filterMap id) data := by
  cases fits with
  | null =>
      refine ⟨[], show 0 < 2 ^ 31 - 16 by omega, ?_⟩
      rcases supported with boolean | inBytes
      · exact @WritesPlainValues.bits type [] [] boolean rfl fun i => rfl
      · exact @WritesPlainValues.bytes type [] [] inBytes .nil
  | value writes small => exact ⟨_, small, writes⟩

section Chunk

variable {md : ColumnMetaData} {isOptional : Bool}

theorem exists_stores {codec : CompressionCodec} (known : codec = .uncompressed ∨ codec = .snappy)
    {plain : Bytes} (small : plain.length < 2 ^ 31 - 10) :
    ∃ stored, stored.length < 2 ^ 31 ∧ Stores codec plain stored := by
  rcases known with rfl | rfl
  · exact ⟨plain, by omega, rfl⟩
  · have longer := @length_encodeSnappy_le plain (by omega)
    exact ⟨encodeSnappy plain, by omega, snappyCompresses_encodeSnappy (by omega)⟩

theorem exists_writesDataPage (known : md.codec = .uncompressed ∨ md.codec = .snappy)
    (supported : md.type = .boolean ∨ md.type.inBytes = true) {cell : Cell}
    (fits : Fits md.type isOptional cell) :
    ∃ page, WritesDataPage md isOptional none [cell] page := by
  obtain ⟨levels, few, leveled⟩ := exists_writesLevels fits
  obtain ⟨data, small, values⟩ := exists_writesPlainValues supported fits
  have both : (levels ++ data).length < 2 ^ 31 - 10 := by
    rw [List.length_append]
    omega
  obtain ⟨stored, short, stores⟩ := exists_stores known both
  have plain_inside := inRange_of_lt (Nat.lt_trans both (by omega))
  have stored_inside := inRange_of_lt short
  have one : InRange 32 1 := @inRange_of_lt 1 (by omega)
  have encoded : InRange 32 Encoding.plain := @inRange_of_lt 0 (by omega)
  exact ⟨_, .page rfl rfl rfl rfl leveled (.plain values)
    (.page (writes_dataPageHeader plain_inside stored_inside one encoded)
      (length_encodeDataPageHeader plain_inside stored_inside one encoded) stores rfl rfl)⟩

/-- **Columns.** Every column has a chunk, of a page for each cell. -/
theorem exists_writesChunk {cells : List Cell}
    (known : md.codec = .uncompressed ∨ md.codec = .snappy)
    (supported : md.type = .boolean ∨ md.type.inBytes = true)
    (absent : md.dictionaryPageOffset = none) (count : md.numValues = cells.length)
    (fits : ∀ cell ∈ cells, Fits md.type isOptional cell) :
    ∃ bytes, WritesChunk md isOptional cells md.dataPageOffset bytes := by
  have pages : ∃ bytes, WritesDataPages md isOptional none cells bytes := by
    clear count
    induction cells with
    | nil => exact ⟨_, .done⟩
    | cons cell rest ih =>
        obtain ⟨page, first⟩ := exists_writesDataPage known supported (fits cell List.mem_cons_self)
        obtain ⟨pages, later⟩ := ih fun other member => fits other (List.mem_cons_of_mem _ member)
        exact ⟨_, .more first later⟩
  obtain ⟨bytes, each⟩ := pages
  exact ⟨bytes, .plain absent rfl count each⟩

end Chunk

end Adai.Parquet

import Adai.Parquet.ColumnChunk
import Adai.Parquet.Footer
import Adai.Parquet.Hybrid
import Adai.Parquet.SnappyExact

/-! # Parsing ends

Whatever the bytes of a file are, the reader comes to an end. Skipping a value nests no
deeper than its limit (`skipValueAt_eq`), every round of a struct and every element of a
list takes a byte, none reads past the end (`Consumes`), and every page lies behind the
one before it (`readDataPage_advances`). `parquet_parsing_ends` collects what follows for
the loops.
-/

namespace Adai.Parquet

open Readers ByteNumbers Footer

/-! ## How deep a value is skipped -/

/-- Skipping with the depth that is passed down, while so many calls may be nested. -/
def skipValueAt : Nat → Nat → Nat → Reader UInt8 Unit
  | 0, _, _ => failure
  | calls + 1, depth, type =>
      if kMaxSkipDepth < depth then failure
      else if type = 1 ∨ type = 2 then pure ()
      else if type = 3 then (fun _ => ()) <$> next
      else if type = 4 ∨ type = 5 ∨ type = 6 then (fun _ => ()) <$> readZigzagVarint
      else if type = 7 then (fun _ => ()) <$> takeMany 8
      else if type = 8 then (fun _ => ()) <$> readBinary
      else if type = 9 ∨ type = 10 then do
        let (elemType, size) ← readListHeader
        let _ ← times (skipListElement (skipValueAt calls (depth + 1)) elemType) size
        return ()
      else if type = 12 then untilDone (skipField (skipValueAt calls (depth + 1))) ()
      else failure

/-- With calls for every depth up to the limit and one that is refused, more of them
change nothing. -/
theorem skipValueAt_eq {calls depth : Nat} (enough : kMaxSkipDepth + 1 < calls + depth)
    (type : Nat) : skipValueAt calls depth type = skipValue (kMaxSkipDepth + 1 - depth) type := by
  induction calls generalizing depth type with
  | zero =>
      rw [show kMaxSkipDepth + 1 - depth = 0 by omega]
      rfl
  | succ calls ih =>
      rw [skipValueAt]
      by_cases deep : kMaxSkipDepth < depth
      · rw [if_pos deep, show kMaxSkipDepth + 1 - depth = 0 by omega]
        rfl
      · have inner : skipValueAt calls (depth + 1) = skipValue (kMaxSkipDepth - depth) := by
          funext type
          rw [ih (by omega), Nat.add_sub_add_right]
        rw [if_neg deep, inner, show kMaxSkipDepth + 1 - depth = kMaxSkipDepth - depth + 1 by omega]
        rfl

/-! ## What each reader takes -/

theorem consumes_readZigzagVarint : Consumes readZigzagVarint 1 := consumes_readVarint.map _

theorem consumes_readBinary : Consumes readBinary 1 :=
  consumes_readVarint.bind_left fun len => (consumes_takeMany len).mono (Nat.zero_le _)

/-- The last step of a list header takes nothing. -/
def checkSize (elemType size : Nat) : Reader UInt8 (Nat × Nat) := fun rest =>
  if rest.length < size then none else some ((elemType, size), rest)

theorem checkSize_eq_some {elemType size : Nat} {input rest : Bytes} {header : Nat × Nat} :
    checkSize elemType size input = some (header, rest) ↔
      header = (elemType, size) ∧ rest = input ∧ size ≤ input.length := by
  unfold checkSize
  split
  · rename_i short
    exact iff_of_false (fun impossible => by cases impossible) fun ⟨_, _, fits⟩ => by omega
  · rename_i fits
    constructor
    · intro read
      obtain ⟨rfl, rfl⟩ := Prod.mk.inj (Option.some.inj read)
      exact ⟨rfl, rfl, Nat.not_lt.mp fits⟩
    · intro known
      obtain ⟨rfl, rfl, _⟩ := known
      rfl

theorem readListHeader_eq : readListHeader = next >>= fun h =>
    if h.toNat / 16 = 15 then readVarint >>= checkSize (h.toNat % 16)
    else checkSize (h.toNat % 16) (h.toNat / 16) :=
  rfl

theorem consumes_checkSize (elemType size : Nat) : Consumes (checkSize elemType size) 0 := by
  intro input header rest read
  obtain ⟨_, rfl, _⟩ := checkSize_eq_some.mp read
  exact ⟨[], rfl, Nat.zero_le _⟩

theorem consumes_readListHeader : Consumes readListHeader 1 := by
  rw [readListHeader_eq]
  refine consumes_next.bind_left fun h => Consumes.ite ?_ (consumes_checkSize _ _)
  exact (consumes_readVarint.mono (Nat.zero_le 1)).bind_left fun size => consumes_checkSize _ size

/-- A list has no more elements than bytes are left. -/
theorem readListHeader_bounded {input rest : Bytes} {header : Nat × Nat}
    (read : readListHeader input = some (header, rest)) : header.2 ≤ rest.length := by
  rw [readListHeader_eq] at read
  obtain ⟨h, _, _, sized⟩ := bind_eq_some.mp read
  split at sized
  · obtain ⟨size, _, _, checked⟩ := bind_eq_some.mp sized
    obtain ⟨rfl, rfl, fits⟩ := checkSize_eq_some.mp checked
    exact fits
  · obtain ⟨rfl, rfl, fits⟩ := checkSize_eq_some.mp sized
    exact fits

theorem consumes_skipField {skip : Nat → Reader UInt8 Unit}
    (skips : ∀ type, Consumes (skip type) 0) (state : Unit) :
    Consumes (skipField skip state) 1 := by
  refine consumes_next.bind_left fun b => (consumes_pure _).ite ?_
  have value : Consumes (do skip (b.toNat % 16); return (.inl () : Unit ⊕ Unit)) 0 :=
    (skips _).bind_left fun _ => consumes_pure _
  exact ((consumes_readZigzagVarint.mono (Nat.zero_le 1)).bind_left fun _ => value).ite value

/-- Only the values that are in the type itself take no byte. -/
theorem consumes_skipValue (levels type : Nat) :
    Consumes (skipValue levels type) (if type = 1 ∨ type = 2 then 0 else 1) := by
  induction levels generalizing type with
  | zero => exact consumes_failure _
  | succ levels ih =>
      have skips (type : Nat) : Consumes (skipValue levels type) 0 := (ih type).mono (Nat.zero_le _)
      have element (elemType : Nat) :
          Consumes (skipListElement (skipValue levels) elemType) 0 :=
        ((consumes_next.map _).mono (Nat.zero_le 1)).ite (skips elemType)
      rw [skipValue]
      split
      · exact consumes_pure ()
      · refine Consumes.ite (consumes_next.map _) ?_
        refine Consumes.ite (consumes_readZigzagVarint.map _) ?_
        refine Consumes.ite (((consumes_takeMany 8).map _).mono (by decide)) ?_
        refine Consumes.ite (consumes_readBinary.map _) ?_
        refine Consumes.ite (consumes_readListHeader.bind_left fun header => ?_) ?_
        · exact ((element header.1).times header.2).bind_left fun _ => consumes_pure ()
        · exact (Consumes.untilDone (consumes_skipField skips) ()).ite (consumes_failure 1)

theorem consumes_skipListElement (levels elemType : Nat) :
    Consumes (skipListElement (skipValue levels) elemType) 1 := by
  unfold skipListElement
  split
  · exact consumes_next.map _
  · rename_i other
    have taken := consumes_skipValue levels elemType
    rwa [if_neg other] at taken

/-- A value that a record keeps. -/
theorem consumes_sets {α β : Type} {read : Reader UInt8 α} {least : Nat}
    (consumes : Consumes read least) (set : α → β) :
    Consumes (do let v ← read; return set v) 0 :=
  (consumes.mono (Nat.zero_le _)).bind_left fun _ => consumes_pure _

theorem consumes_structRound {α : Type} {field : Int → Nat → α → Reader UInt8 α}
    (fields : ∀ id type record, Consumes (field id type record) 0) (state : Int × α) :
    Consumes (structRound field state) 1 := by
  have headed : Consumes (nextField state.1) 1 := by
    refine consumes_next.bind_left fun b => (consumes_pure _).ite ?_
    exact ((((consumes_readZigzagVarint.map _).mono (Nat.zero_le 1)).bind_left
      fun _ => consumes_pure _)).ite ((consumes_pure _).bind_left fun _ => consumes_pure _)
  refine headed.bind_left fun header => ?_
  cases header with
  | none => exact consumes_pure _
  | some header => exact consumes_sets (fields _ _ _) _

theorem consumes_parseStruct {α : Type} {field : Int → Nat → α → Reader UInt8 α}
    (fields : ∀ id type record, Consumes (field id type record) 0) (record : α) :
    Consumes (parseStruct field record) 1 :=
  Consumes.untilDone (consumes_structRound fields) _

theorem consumes_listElement {α : Type} {element : Reader UInt8 α} (consumes : Consumes element 1)
    (expected elemType : Nat) : Consumes (listElement expected element elemType) 1 :=
  (consumes.map some).ite ((consumes_skipListElement _ elemType).map _)

theorem consumes_parseList {α : Type} {element : Reader UInt8 α} (consumes : Consumes element 1)
    (expected : Nat) : Consumes (parseList expected element) 1 :=
  consumes_readListHeader.bind_left fun header =>
    consumes_sets ((consumes_listElement consumes expected header.1).times header.2) _

/-! ## The parsers -/

/-- The structs of the format, by what is done with a field. -/
inductive StructParser : (α : Type) → (Int → Nat → α → Reader UInt8 α) → Prop
  | schemaElement : StructParser SchemaElement schemaElementField
  | columnMetaData : StructParser Footer.ColumnMetaData columnMetaDataField
  | columnChunk : StructParser ColumnChunk columnChunkField
  | rowGroup : StructParser RowGroup rowGroupField
  | fileMetaData : StructParser FileMetaData fileMetaDataField
  | pageHeader : StructParser PageHeader pageHeaderField
  | dataPageHeader : StructParser PageHeader dataPageHeaderField
  | dictionaryPageHeader : StructParser PageHeader dictionaryPageHeaderField

/-- The lists in them, with the type of the elements that are kept. -/
inductive ListParser : (α : Type) → Nat → Reader UInt8 α → Prop
  | encodings : ListParser Int 5 (toInt32 <$> readZigzagVarint)
  | pathInSchema : ListParser Bytes 8 readBinary
  | columns : ListParser ColumnChunk 12 parseColumnChunk
  | schema : ListParser SchemaElement 12 parseSchemaElement
  | rowGroups : ListParser RowGroup 12 parseRowGroup

section Fields

variable {α : Type} (set : Int → α) (out : α)

theorem consumes_number : Consumes (do let v ← readZigzagVarint; return set v) 0 :=
  consumes_sets consumes_readZigzagVarint set

theorem consumes_skipTop (type : Nat) : Consumes (do skipTop type; return out) 0 :=
  consumes_sets (consumes_skipValue _ type) _

end Fields

theorem consumes_schemaElementField (id : Int) (type : Nat) (record : SchemaElement) :
    Consumes (schemaElementField id type record) 0 :=
  (consumes_number _).ite ((consumes_number _).ite
    ((consumes_sets consumes_readBinary _).ite (consumes_skipTop _ type)))

theorem consumes_columnMetaDataField (id : Int) (type : Nat) (record : Footer.ColumnMetaData) :
    Consumes (columnMetaDataField id type record) 0 :=
  (consumes_number _).ite
    ((consumes_sets (consumes_parseList (consumes_readZigzagVarint.map toInt32) 5) _).ite
      ((consumes_sets (consumes_parseList consumes_readBinary 8) _).ite
        ((consumes_number _).ite ((consumes_number _).ite ((consumes_number _).ite
          ((consumes_number _).ite (consumes_skipTop _ type)))))))

theorem consumes_columnChunkField (id : Int) (type : Nat) (record : ColumnChunk) :
    Consumes (columnChunkField id type record) 0 :=
  (consumes_sets consumes_readBinary _).ite
    ((consumes_sets (consumes_parseStruct consumes_columnMetaDataField record.metaData) _).ite
      ((consumes_skipTop _ type).ite
        ((consumes_sets consumes_readBinary _).ite (consumes_skipTop _ type))))

theorem consumes_rowGroupField (id : Int) (type : Nat) (record : RowGroup) :
    Consumes (rowGroupField id type record) 0 :=
  (consumes_sets (consumes_parseList (consumes_parseStruct consumes_columnChunkField {}) 12) _).ite
    ((consumes_number _).ite (consumes_skipTop _ type))

theorem consumes_fileMetaDataField (id : Int) (type : Nat) (record : FileMetaData) :
    Consumes (fileMetaDataField id type record) 0 :=
  (consumes_sets (consumes_parseList (consumes_parseStruct consumes_schemaElementField {}) 12) _).ite
    ((consumes_sets (consumes_parseList (consumes_parseStruct consumes_rowGroupField {}) 12) _).ite
      ((consumes_failure 0).ite (consumes_skipTop _ type)))

theorem consumes_dataPageHeaderField (id : Int) (type : Nat) (record : PageHeader) :
    Consumes (dataPageHeaderField id type record) 0 :=
  (consumes_number _).ite ((consumes_number _).ite (consumes_skipTop _ type))

theorem consumes_dictionaryPageHeaderField (id : Int) (type : Nat) (record : PageHeader) :
    Consumes (dictionaryPageHeaderField id type record) 0 :=
  (consumes_number _).ite (consumes_skipTop _ type)

theorem consumes_pageHeaderField (id : Int) (type : Nat) (record : PageHeader) :
    Consumes (pageHeaderField id type record) 0 :=
  (consumes_number _).ite ((consumes_number _).ite ((consumes_number _).ite
    ((consumes_sets (consumes_parseStruct consumes_dataPageHeaderField record) _).ite
      ((consumes_sets (consumes_parseStruct consumes_dictionaryPageHeaderField record) _).ite
        ((consumes_skipTop _ type).ite (consumes_skipTop _ type))))))

theorem StructParser.consumes {α : Type} {field : Int → Nat → α → Reader UInt8 α}
    (parser : StructParser α field) (id : Int) (type : Nat) (record : α) :
    Consumes (field id type record) 0 := by
  cases parser with
  | schemaElement => exact consumes_schemaElementField id type record
  | columnMetaData => exact consumes_columnMetaDataField id type record
  | columnChunk => exact consumes_columnChunkField id type record
  | rowGroup => exact consumes_rowGroupField id type record
  | fileMetaData => exact consumes_fileMetaDataField id type record
  | pageHeader => exact consumes_pageHeaderField id type record
  | dataPageHeader => exact consumes_dataPageHeaderField id type record
  | dictionaryPageHeader => exact consumes_dictionaryPageHeaderField id type record

theorem ListParser.consumes {α : Type} {expected : Nat} {element : Reader UInt8 α}
    (parser : ListParser α expected element) : Consumes element 1 := by
  cases parser with
  | encodings => exact consumes_readZigzagVarint.map toInt32
  | pathInSchema => exact consumes_readBinary
  | columns => exact consumes_parseStruct consumes_columnChunkField {}
  | schema => exact consumes_parseStruct consumes_schemaElementField {}
  | rowGroups => exact consumes_parseStruct consumes_rowGroupField {}

/-! ## Pages -/

/-- The body of a page begins behind its header's first byte, and in the file. -/
theorem readPageHeaderAt_advances {file : Bytes} {offset bodyOffset : Int} {header : PageHeader}
    (read : readPageHeaderAt file offset = some (header, bodyOffset)) :
    0 ≤ offset ∧ offset < bodyOffset ∧ bodyOffset ≤ file.length := by
  unfold readPageHeaderAt at read
  split at read
  · cases read
  · rename_i nonnegative
    dsimp only at read
    split at read
    · cases read
    · obtain ⟨⟨header', rest⟩, parsed, same⟩ := Option.map_eq_some_iff.mp read
      obtain ⟨-, rfl⟩ := Prod.mk.inj same
      obtain ⟨piece, split, taken⟩ := consumes_parseStruct consumes_pageHeaderField {} _ _ _ parsed
      have probed := congrArg List.length split
      have within : ((file.drop offset.toNat).take kProbeSize).length ≤ file.length - offset.toNat := by
        rw [List.length_take, List.length_drop]
        exact Nat.min_le_right _ _
      rw [List.length_append] at probed
      dsimp only at probed ⊢
      omega

/-- The body lies in the file. -/
theorem readPageBody_inside {file body : Bytes} {fileSize bodyOffset : Int} {header : PageHeader}
    {codec : CompressionCodec} (inside : bodyOffset ≤ file.length)
    (read : readPageBody file fileSize bodyOffset header codec = some body) :
    0 ≤ header.compressedPageSize ∧ bodyOffset + header.compressedPageSize ≤ file.length := by
  unfold readPageBody at read
  split at read
  · cases read
  · rename_i possible
    dsimp only at read
    split at read
    · cases read
    · rename_i whole
      rw [not_not, List.length_take, List.length_drop] at whole
      omega

section Chunk

variable (file : Bytes) (fileSize : Int) (md : ColumnMetaData) (isOptional : Bool)
  (dictionary : Option (List ColumnValue))

/-- **The page cursor.** A data page, of no values or no bytes too, lies in the file and
behind its offset. -/
theorem readDataPage_advances {valuesRead offset numValues offset' : Int} {cells : List Cell}
    (read : readDataPage file fileSize md isOptional dictionary valuesRead offset =
      some (cells, numValues, offset')) : 0 ≤ offset ∧ offset < offset' ∧ offset' ≤ file.length := by
  obtain ⟨⟨ph, bodyOffset⟩, headed, later⟩ := Option.bind_eq_some_iff.mp read
  obtain ⟨nonnegative, behind, inside⟩ := readPageHeaderAt_advances headed
  dsimp only at later
  split at later
  · cases later
  · split at later
    · cases later
    · split at later
      · cases later
      · obtain ⟨page, body, decoded⟩ := Option.bind_eq_some_iff.mp later
        obtain ⟨_, _, same⟩ := Option.bind_eq_some_iff.mp decoded
        obtain ⟨size, fits⟩ := readPageBody_inside inside body
        obtain ⟨-, -, rfl⟩ := Prod.mk.injEq .. ▸ Option.some.inj same
        omega

theorem readDictionaryPage_advances {offset offset' : Int} {entries : List ColumnValue}
    (read : readDictionaryPage file fileSize md offset = some (entries, offset')) :
    0 ≤ offset ∧ offset < offset' ∧ offset' ≤ file.length := by
  obtain ⟨⟨dph, bodyOffset⟩, headed, later⟩ := Option.bind_eq_some_iff.mp read
  obtain ⟨nonnegative, behind, inside⟩ := readPageHeaderAt_advances headed
  dsimp only at later
  split at later
  · cases later
  · split at later
    · cases later
    · obtain ⟨_, body, decoded⟩ := Option.bind_eq_some_iff.mp later
      obtain ⟨_, _, same⟩ := Option.bind_eq_some_iff.mp decoded
      obtain ⟨size, fits⟩ := readPageBody_inside inside body
      obtain ⟨-, rfl⟩ := Prod.mk.inj (Option.some.inj same)
      omega

/-- One round of the loop over the pages, on the number of values read, the offset and
the cells so far. -/
def dataPageRound (s : Int × Int × List Cell) :
    Option ((Int × Int × List Cell) ⊕ (Int × List Cell)) :=
  if s.1 < md.numValues then
    (readDataPage file fileSize md isOptional dictionary s.1 s.2.1).map fun read =>
      .inl (s.1 + read.2.1, read.2.2, s.2.2 ++ read.1)
  else some (.inr (s.1, s.2.2))

theorem readDataPages_eq_run (fuel : Nat) (valuesRead offset : Int) (out : List Cell) :
    readDataPages file fileSize md isOptional dictionary fuel valuesRead offset out =
      Loops.run (dataPageRound file fileSize md isOptional dictionary) fuel
        (valuesRead, offset, out) := by
  induction fuel generalizing valuesRead offset out with
  | zero => rfl
  | succ fuel ih =>
      rw [readDataPages, Loops.run, dataPageRound]
      dsimp only
      by_cases unread : valuesRead < md.numValues
      · rw [if_pos unread, if_pos unread]
        cases readDataPage file fileSize md isOptional dictionary valuesRead offset with
        | none => rfl
        | some read => exact ih _ _ _
      · rw [if_neg unread, if_neg unread]

/-- The bytes from the offset on get fewer. -/
theorem dataPageRound_decreases :
    Loops.Decreases (dataPageRound file fileSize md isOptional dictionary)
      fun s => if s.2.1 < 0 then 0 else (file.length - s.2.1).toNat := by
  intro s s' continues
  unfold dataPageRound at continues
  split at continues
  · obtain ⟨⟨cells, numValues, offset'⟩, read, same⟩ := Option.map_eq_some_iff.mp continues
    obtain rfl := Sum.inl.inj same
    obtain ⟨nonnegative, behind, inside⟩ := readDataPage_advances file fileSize md isOptional
      dictionary read
    dsimp only
    rw [if_neg (by omega), if_neg (by omega)]
    omega
  · cases continues

theorem readDataPages_ends (offset : Int) :
    Loops.Ends (dataPageRound file fileSize md isOptional dictionary) (0, offset, [])
      (readDataPages file fileSize md isOptional dictionary (file.length + 1) 0 offset []) := by
  rw [readDataPages_eq_run]
  apply Loops.ends_run (dataPageRound_decreases file fileSize md isOptional dictionary)
  dsimp only
  split <;> omega

end Chunk

theorem progresses_snappyRound (uncompressedLen : Nat) : Progresses (snappyRound uncompressedLen) := by
  refine progresses_of_accepts fun out => ?_
  refine (snappyRound_accepts uncompressedLen out).imp fun piece outcome took continues => ?_
  cases outcome with
  | inr result => cases continues
  | inl out' =>
      rintro rfl
      cases took.1

/-- **Termination.** On every input each loop ends as the model with fuel says, values
are skipped to the limit of depth and no deeper, lists have no more elements than bytes
are left and each takes one, nothing is read past the end, and pages lie in the file one
behind the other. -/
theorem parquet_parsing_ends :
    (∀ calls, kMaxSkipDepth + 1 < calls → ∀ type, skipValueAt calls 0 type = skipTop type) ∧
    (∀ levels input, Ends (skipField (skipValue levels)) () input
      (untilDone (skipField (skipValue levels)) () input)) ∧
    (∀ levels type, Consumes (skipValue levels type) 0) ∧
    (∀ α field, StructParser α field → ∀ record,
      Consumes (parseStruct field record) 1 ∧
      ∀ input, Ends (structRound field) (0, record) input (parseStruct field record input)) ∧
    (∀ input rest header, readListHeader input = some (header, rest) → header.2 ≤ rest.length) ∧
    (∀ levels elemType, Consumes (skipListElement (skipValue levels) elemType) 1) ∧
    (∀ α expected element, ListParser α expected element →
      ∀ elemType, Consumes (listElement expected element elemType) 1) ∧
    ∀ file fileSize md isOptional dictionary,
      (∀ offset entries offset', readDictionaryPage file fileSize md offset =
        some (entries, offset') → offset < offset' ∧ offset' ≤ file.length) ∧
      (∀ valuesRead offset cells numValues offset',
        readDataPage file fileSize md isOptional dictionary valuesRead offset =
          some (cells, numValues, offset') → offset < offset' ∧ offset' ≤ file.length) ∧
      (∀ offset, Loops.Ends (dataPageRound file fileSize md isOptional dictionary) (0, offset, [])
        (readDataPages file fileSize md isOptional dictionary (file.length + 1) 0 offset [])) ∧
      (∀ uncompressedLen data, Ends (snappyRound uncompressedLen) [] data
        (untilDone (snappyRound uncompressedLen) [] data)) ∧
      ∀ bitWidth numValues data, Ends (hybridRound bitWidth numValues) [] data
        (untilDone (hybridRound bitWidth numValues) [] data) := by
  refine ⟨fun calls enough type => skipValueAt_eq enough type, fun levels input => ?_,
    fun levels type => (consumes_skipValue levels type).mono (Nat.zero_le _),
    fun α field parser record => ⟨consumes_parseStruct parser.consumes record, fun input => ?_⟩,
    fun input rest header read => readListHeader_bounded read, consumes_skipListElement,
    fun α expected element parser => consumes_listElement parser.consumes expected,
    fun file fileSize md isOptional dictionary => ⟨?_, ?_, ?_, ?_, ?_⟩⟩
  · have skips (type : Nat) : Consumes (skipValue levels type) 0 :=
      (consumes_skipValue levels type).mono (Nat.zero_le _)
    exact ends_untilDone (Consumes.progresses (consumes_skipField skips)) () input
  · exact ends_untilDone (Consumes.progresses (consumes_structRound parser.consumes)) _ input
  · intro offset entries offset' read
    exact (readDictionaryPage_advances file fileSize md read).2
  · intro valuesRead offset cells numValues offset' read
    exact (readDataPage_advances file fileSize md isOptional dictionary read).2
  · exact readDataPages_ends file fileSize md isOptional dictionary
  · exact fun uncompressedLen => ends_untilDone (progresses_snappyRound uncompressedLen) []
  · exact fun bitWidth numValues => ends_untilDone (progresses_hybridRound bitWidth numValues) []

end Adai.Parquet

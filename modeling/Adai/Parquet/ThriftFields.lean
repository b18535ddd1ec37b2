import Adai.Parquet.Footer
import Adai.Parquet.HeaderEncoding

/-! # Fields the reader does not know

Two structs may have the same known fields, spelled in any way, and each any unknown
ones between them: of any type and nesting that is skipped, after a short or a long
header (`SameFields`). The parsers read such structs alike, down to the structs nested
in them (`thrift_fields_ignored`), as skipping takes exactly the bytes of a value.
-/

namespace Adai.Parquet

open Readers ByteNumbers

/-! ## Structs with the same known fields -/

/-- The structs have the same known fields after those with the ids `last` and `last'`,
which one may be ahead of the other in unknown ones. -/
inductive SameFields (same : Int → Nat → Bytes → Bytes → Prop) (unknown : Int → Prop) :
    Int → Int → Bytes → Bytes → Prop
  | stop {last last' : Int} : SameFields same unknown last last' [0] [0]
  | known {last last' id : Int} {type : Nat} {header header' content content' rest rest' : Bytes}
      (headed : FieldHeader last id type header) (headed' : FieldHeader last' id type header')
      (field : same id type content content') (later : SameFields same unknown id id rest rest') :
      SameFields same unknown last last' (header ++ (content ++ rest))
        (header' ++ (content' ++ rest'))
  | dropped {last last' id : Int} {type : Nat} {header content rest bytes' : Bytes}
      (headed : FieldHeader last id type header) (ignored : unknown id)
      (skipped : Skipped type content) (later : SameFields same unknown id last' rest bytes') :
      SameFields same unknown last last' (header ++ (content ++ rest)) bytes'
  | inserted {last last' id : Int} {type : Nat} {header content bytes rest' : Bytes}
      (headed : FieldHeader last' id type header) (ignored : unknown id)
      (skipped : Skipped type content) (later : SameFields same unknown last id bytes rest') :
      SameFields same unknown last last' bytes (header ++ (content ++ rest'))

/-- Two spellings of one number. -/
def SameInt (content content' : Bytes) : Prop :=
  ∃ v, WritesInt v content ∧ WritesInt v content'

inductive SameBinary : Bytes → Bytes → Prop
  | binary {len len' value : Bytes} (writes : WritesVarint value.length len)
      (writes' : WritesVarint value.length len') : SameBinary (len ++ value) (len' ++ value)

inductive SameList (elemType : Nat) (same : Bytes → Bytes → Prop) : Bytes → Bytes → Prop
  | list {header header' : Bytes} {elements elements' : List Bytes}
      (headed : ListHeader elemType elements.length header)
      (headed' : ListHeader elemType elements.length header')
      (each : List.Forall₂ same elements elements') :
      SameList elemType same (header ++ elements.flatten) (header' ++ elements'.flatten)

/-! ## The structs of the format -/

inductive SameSchemaElementField : Int → Nat → Bytes → Bytes → Prop
  | number {id : Int} {content content' : Bytes} (known : id = 1 ∨ id = 3)
      (same : SameInt content content') : SameSchemaElementField id 5 content content'
  | name {content content' : Bytes} (same : SameBinary content content') :
      SameSchemaElementField 4 8 content content'

def SameSchemaElement : Bytes → Bytes → Prop :=
  SameFields SameSchemaElementField (· ∉ [1, 3, 4]) 0 0

inductive SameColumnMetaDataField : Int → Nat → Bytes → Bytes → Prop
  | enumeration {id : Int} {content content' : Bytes} (known : id = 1 ∨ id = 4)
      (same : SameInt content content') : SameColumnMetaDataField id 5 content content'
  | encodings {content content' : Bytes} (same : SameList 5 SameInt content content') :
      SameColumnMetaDataField 2 9 content content'
  | pathInSchema {content content' : Bytes} (same : SameList 8 SameBinary content content') :
      SameColumnMetaDataField 3 9 content content'
  | number {id : Int} {content content' : Bytes} (known : id = 5 ∨ id = 9 ∨ id = 11)
      (same : SameInt content content') : SameColumnMetaDataField id 6 content content'

def SameColumnMetaData : Bytes → Bytes → Prop :=
  SameFields SameColumnMetaDataField (· ∉ [1, 2, 3, 4, 5, 9, 11]) 0 0

inductive SameColumnChunkField : Int → Nat → Bytes → Bytes → Prop
  | binary {id : Int} {content content' : Bytes} (known : id = 1 ∨ id = 9)
      (same : SameBinary content content') : SameColumnChunkField id 8 content content'
  | metaData {content content' : Bytes} (same : SameColumnMetaData content content') :
      SameColumnChunkField 3 12 content content'
  | cryptoMetadata {type : Nat} {content content' : Bytes} (skipped : Skipped type content)
      (skipped' : Skipped type content') : SameColumnChunkField 8 type content content'

def SameColumnChunk : Bytes → Bytes → Prop :=
  SameFields SameColumnChunkField (· ∉ [1, 3, 8, 9]) 0 0

inductive SameRowGroupField : Int → Nat → Bytes → Bytes → Prop
  | columns {content content' : Bytes} (same : SameList 12 SameColumnChunk content content') :
      SameRowGroupField 1 9 content content'
  | numRows {content content' : Bytes} (same : SameInt content content') :
      SameRowGroupField 3 6 content content'

def SameRowGroup : Bytes → Bytes → Prop := SameFields SameRowGroupField (· ∉ [1, 3]) 0 0

inductive SameFileMetaDataField : Int → Nat → Bytes → Bytes → Prop
  | schema {content content' : Bytes} (same : SameList 12 SameSchemaElement content content') :
      SameFileMetaDataField 2 9 content content'
  | rowGroups {content content' : Bytes} (same : SameList 12 SameRowGroup content content') :
      SameFileMetaDataField 4 9 content content'
  | encryptionAlgorithm {type : Nat} {content content' : Bytes} :
      SameFileMetaDataField 8 type content content'

def SameFileMetaData : Bytes → Bytes → Prop :=
  SameFields SameFileMetaDataField (· ∉ [2, 4, 8]) 0 0

inductive SameDataPageHeaderField : Int → Nat → Bytes → Bytes → Prop
  | number {id : Int} {content content' : Bytes} (known : id = 1 ∨ id = 2)
      (same : SameInt content content') : SameDataPageHeaderField id 5 content content'

inductive SameDictionaryPageHeaderField : Int → Nat → Bytes → Bytes → Prop
  | numValues {content content' : Bytes} (same : SameInt content content') :
      SameDictionaryPageHeaderField 1 5 content content'

inductive SamePageHeaderField : Int → Nat → Bytes → Bytes → Prop
  | number {id : Int} {content content' : Bytes} (known : id = 1 ∨ id = 2 ∨ id = 3)
      (same : SameInt content content') : SamePageHeaderField id 5 content content'
  | dataPageHeader {content content' : Bytes}
      (same : SameFields SameDataPageHeaderField (· ∉ [1, 2]) 0 0 content content') :
      SamePageHeaderField 5 12 content content'
  | dictionaryPageHeader {content content' : Bytes}
      (same : SameFields SameDictionaryPageHeaderField (· ∉ [1]) 0 0 content content') :
      SamePageHeaderField 7 12 content content'
  | dataPageHeaderV2 {type : Nat} {content content' : Bytes} (skipped : Skipped type content)
      (skipped' : Skipped type content') : SamePageHeaderField 8 type content content'

def SamePageHeader : Bytes → Bytes → Prop :=
  SameFields SamePageHeaderField (· ∉ [1, 2, 3, 5, 7, 8]) 0 0

/-! ## Reading them -/

theorem SameInt.alike {content content' : Bytes} (same : SameInt content content') :
    Alike readZigzagVarint content content' := by
  obtain ⟨v, writes, writes'⟩ := same
  exact writes.reads.alike writes'.reads

theorem SameInt.ne_nil {content content' : Bytes} (same : SameInt content content') :
    content ≠ [] ∧ content' ≠ [] := by
  obtain ⟨v, writes, writes'⟩ := same
  exact ⟨writes.ne_nil, writes'.ne_nil⟩

/-- A number that a record keeps. -/
theorem SameInt.sets {α : Type} {content content' : Bytes} (same : SameInt content content')
    (set : Int → α) : Alike (do let v ← readZigzagVarint; return set v) content content' :=
  same.alike.bind_nil fun v => alike_pure (set v)

theorem SameBinary.alike {content content' : Bytes} (same : SameBinary content content') :
    Alike readBinary content content' := by
  cases same with
  | binary writes writes' =>
      exact (writes.reads.bind (reads_takeMany _)).alike (writes'.reads.bind (reads_takeMany _))

theorem SameBinary.ne_nil {content content' : Bytes} (same : SameBinary content content') :
    content ≠ [] ∧ content' ≠ [] := by
  cases same with
  | binary writes writes' =>
      exact ⟨List.append_ne_nil_of_left_ne_nil writes.ne_nil _,
        List.append_ne_nil_of_left_ne_nil writes'.ne_nil _⟩

theorem Skipped.alike {α : Type} {type : Nat} {content content' : Bytes}
    (skipped : Skipped type content) (skipped' : Skipped type content') (out : α) :
    Alike (do skipTop type; return out) content content' :=
  ((WritesValue.reads skipped).alike (WritesValue.reads skipped')).bind_nil fun _ => alike_pure out

theorem ne_nil_of_forall₂ {same : Bytes → Bytes → Prop}
    (some_ : ∀ e e', same e e' → e ≠ [] ∧ e' ≠ []) {elements elements' : List Bytes}
    (pairs : List.Forall₂ same elements elements') :
    (∀ e ∈ elements, e ≠ []) ∧ ∀ e ∈ elements', e ≠ [] := by
  induction pairs with
  | nil => simp
  | cons first _ ih =>
      obtain ⟨left, right⟩ := some_ _ _ first
      exact ⟨List.forall_mem_cons.mpr ⟨left, ih.1⟩, List.forall_mem_cons.mpr ⟨right, ih.2⟩⟩

/-- A list whose elements give an outcome. -/
theorem gives_parseList {α : Type} {elemType : Nat} {element : Reader UInt8 α}
    (typed : elemType < 16) {header : Bytes} {elements : List Bytes}
    (headed : ListHeader elemType elements.length header) (some_ : ∀ e ∈ elements, e ≠ [])
    {outcome : Option (List (Option α))}
    (gives : Gives (times (Footer.listElement elemType element elemType) elements.length)
      elements.flatten outcome) :
    Gives (Footer.parseList elemType element) (header ++ elements.flatten)
      (outcome.map List.reduceOption) := by
  intro rest
  have enough : elements.length ≤ (elements.flatten ++ rest).length := by
    have least := length_flatten_le some_
    rw [List.length_append]
    omega
  rw [List.append_assoc]
  refine (bind_of_read (headed.read typed enough)).trans ?_
  change (times _ elements.length (elements.flatten ++ rest)).bind
    (fun p => some (p.1.reduceOption, p.2)) = _
  rw [gives]
  cases outcome <;> rfl

/-- Lists whose elements are read alike. -/
theorem SameList.alike {α : Type} {elemType : Nat} {same : Bytes → Bytes → Prop}
    {element : Reader UInt8 α} (typed : elemType < 16)
    (some_ : ∀ e e', same e e' → e ≠ [] ∧ e' ≠ [])
    (each : ∀ e e', same e e' → Alike element e e') {content content' : Bytes}
    (list : SameList elemType same content content') :
    Alike (Footer.parseList elemType element) content content' := by
  cases list with
  | @list header header' elements elements' headed headed' pairs =>
      have alike : List.Forall₂ (Alike (Footer.listElement elemType element elemType)) elements
          elements' := by
        refine pairs.imp fun e e' paired => ?_
        rw [Footer.listElement, if_pos rfl]
        exact (each e e' paired).map some
      obtain ⟨outcome, gives, gives'⟩ := Alike.times alike
      obtain ⟨left, right⟩ := ne_nil_of_forall₂ some_ pairs
      rw [pairs.length_eq] at headed' gives'
      exact ⟨_, gives_parseList typed headed left gives, gives_parseList typed headed' right gives'⟩

namespace SameFields

variable {same : Int → Nat → Bytes → Bytes → Prop} {unknown : Int → Prop} {last last' : Int}
  {bytes bytes' : Bytes}

theorem ne_nil (fields : SameFields same unknown last last' bytes bytes') :
    bytes ≠ [] ∧ bytes' ≠ [] := by
  induction fields with
  | stop => exact ⟨List.cons_ne_nil _ _, List.cons_ne_nil _ _⟩
  | known headed headed' _ _ _ =>
      exact ⟨List.append_ne_nil_of_left_ne_nil headed.ne_nil _,
        List.append_ne_nil_of_left_ne_nil headed'.ne_nil _⟩
  | dropped headed _ _ _ ih => exact ⟨List.append_ne_nil_of_left_ne_nil headed.ne_nil _, ih.2⟩
  | inserted headed _ _ _ ih => exact ⟨ih.1, List.append_ne_nil_of_left_ne_nil headed.ne_nil _⟩

end SameFields

section Rounds

variable {α : Type} {field : Int → Nat → α → Reader UInt8 α}

/-- With any fuel for the bytes, the rounds after a field give the outcome. -/
def RoundsGive (field : Int → Nat → α → Reader UInt8 α) (last : Int) (record : α) (bytes : Bytes)
    (outcome : Option α) : Prop :=
  ∀ fuel, bytes.length < fuel → Gives (loop (structRound field) fuel (last, record)) bytes outcome

theorem roundsGive_stop (last : Int) (record : α) :
    RoundsGive field last record [0] (some record) := by
  intro fuel enough
  obtain ⟨fuel, rfl⟩ := Nat.exists_eq_succ_of_ne_zero (Nat.ne_zero_of_lt enough)
  have stops : Reads (structRound field (last, record)) [0] (.inr record) :=
    (reads_nextField_stop last).bind_nil (reads_pure _)
  exact stops.bind_nil (reads_pure record)

/-- A field, and the rounds after it. -/
theorem roundsGive_field {last id : Int} {type : Nat} {header content rest : Bytes} {record : α}
    (headed : FieldHeader last id type header) {outcome : Option α} {later : α → Option α}
    (gives : Gives (field id type record) content outcome)
    (rounds : ∀ record', outcome = some record' → RoundsGive field id record' rest (later record')) :
    RoundsGive field last record (header ++ (content ++ rest)) (outcome.bind later) := by
  intro fuel enough
  obtain ⟨fuel, rfl⟩ := Nat.exists_eq_succ_of_ne_zero (Nat.ne_zero_of_lt enough)
  have positive := List.length_pos_iff.mpr headed.ne_nil
  rw [List.length_append, List.length_append] at enough
  have round : Gives (structRound field (last, record)) (header ++ content)
      ((outcome.map fun record' => (id, record')).map .inl) := by
    intro rest
    rw [List.append_assoc]
    refine (bind_of_read (headed.reads (content ++ rest))).trans ?_
    change (field id type record (content ++ rest)).bind
      (fun p => some (Sum.inl (id, p.1), p.2)) = _
    rw [gives]
    cases outcome <;> rfl
  have all := @Gives.loop _ _ _ _ fuel _ _ rest _ (fun s => later s.2) round fun s continues => by
    obtain ⟨record', given, rfl⟩ := Option.map_eq_some_iff.mp continues
    exact rounds record' given fuel (by omega)
  rw [List.append_assoc, Option.bind_map] at all
  exact all

/-- Structs with the same known fields are read alike. -/
theorem SameFields.rounds {same : Int → Nat → Bytes → Bytes → Prop} {unknown : Int → Prop}
    (reads : ∀ id type content content', same id type content content' →
      ∀ record, Alike (field id type record) content content')
    (skips : ∀ id, unknown id → ∀ type record,
      field id type record = do skipTop type; return record)
    {last last' : Int} {bytes bytes' : Bytes}
    (fields : SameFields same unknown last last' bytes bytes') (record : α) :
    ∃ outcome, RoundsGive field last record bytes outcome ∧
      RoundsGive field last' record bytes' outcome := by
  have keeps {id : Int} {type : Nat} {content : Bytes} (ignored : unknown id)
      (skipped : Skipped type content) (record : α) :
      Gives (field id type record) content (some record) := by
    rw [skips id ignored type record]
    exact (WritesValue.reads skipped).bind_nil (reads_pure record)
  induction fields generalizing record with
  | stop => exact ⟨some record, roundsGive_stop _ record, roundsGive_stop _ record⟩
  | known headed headed' known _ ih =>
      obtain ⟨outcome, gives, gives'⟩ := reads _ _ _ _ known record
      have later := fun record' => (ih record').choose_spec
      exact ⟨_, roundsGive_field headed gives fun record' _ => (later record').1,
        roundsGive_field headed' gives' fun record' _ => (later record').2⟩
  | dropped headed ignored skipped _ ih =>
      obtain ⟨outcome, rounds, rounds'⟩ := ih record
      refine ⟨outcome, @roundsGive_field _ _ _ _ _ _ _ _ _ headed _ (fun _ => outcome)
        (keeps ignored skipped record) ?_, rounds'⟩
      intro record' given
      cases given
      exact rounds
  | inserted headed ignored skipped _ ih =>
      obtain ⟨outcome, rounds, rounds'⟩ := ih record
      refine ⟨outcome, rounds, @roundsGive_field _ _ _ _ _ _ _ _ _ headed _ (fun _ => outcome)
        (keeps ignored skipped record) ?_⟩
      intro record' given
      cases given
      exact rounds'

theorem SameFields.alike {same : Int → Nat → Bytes → Bytes → Prop} {unknown : Int → Prop}
    (reads : ∀ id type content content', same id type content content' →
      ∀ record, Alike (field id type record) content content')
    (skips : ∀ id, unknown id → ∀ type record,
      field id type record = do skipTop type; return record)
    {bytes bytes' : Bytes} (fields : SameFields same unknown 0 0 bytes bytes') (record : α) :
    Alike (parseStruct field record) bytes bytes' := by
  obtain ⟨outcome, rounds, rounds'⟩ := fields.rounds reads skips record
  refine ⟨outcome, fun rest => ?_, fun rest => ?_⟩
  · exact rounds _ (by rw [List.length_append]; omega) rest
  · exact rounds' _ (by rw [List.length_append]; omega) rest

end Rounds

/-! ## Each struct -/

theorem SameSchemaElement.alike {bytes bytes' : Bytes} (same : SameSchemaElement bytes bytes') :
    Alike Footer.parseSchemaElement bytes bytes' := by
  refine SameFields.alike (fun id type content content' known record => ?_)
    (fun id unknown type record => ?_) same ({} : Footer.SchemaElement)
  · cases known with
    | number known same =>
        rcases known with rfl | rfl
        · exact same.sets fun v => { record with type := toInt32 v, hasType := true }
        · exact same.sets fun v => { record with repetition := toInt32 v, hasRepetition := true }
    | name same => exact same.alike.bind_nil fun name => alike_pure { record with name }
  · simp only [List.mem_cons, List.not_mem_nil, or_false, not_or] at unknown
    obtain ⟨first, third, fourth⟩ := unknown
    rw [Footer.schemaElementField, if_neg first, if_neg third, if_neg fourth]

theorem SameColumnMetaData.alike {bytes bytes' : Bytes} (same : SameColumnMetaData bytes bytes')
    (out : Footer.ColumnMetaData) : Alike (Footer.parseColumnMetadata out) bytes bytes' := by
  refine SameFields.alike (fun id type content content' known record => ?_)
    (fun id unknown type record => ?_) same out
  · cases known with
    | enumeration known same =>
        rcases known with rfl | rfl
        · exact same.sets fun v => { record with type := toInt32 v }
        · exact same.sets fun v => { record with codec := toInt32 v }
    | encodings same =>
        refine Alike.bind_nil ?_ fun encodings => alike_pure { record with encodings }
        exact same.alike (by decide) (fun _ _ => SameInt.ne_nil) fun _ _ same => same.alike.map toInt32
    | pathInSchema same =>
        refine Alike.bind_nil ?_ fun pathInSchema => alike_pure { record with pathInSchema }
        exact same.alike (by decide) (fun _ _ => SameBinary.ne_nil) fun _ _ => SameBinary.alike
    | number known same =>
        rcases known with rfl | rfl | rfl
        · exact same.sets fun v => { record with numValues := v }
        · exact same.sets fun v => { record with dataPageOffset := v }
        · exact same.sets fun v =>
            { record with dictionaryPageOffset := v, hasDictionaryPageOffset := true }
  · simp only [List.mem_cons, List.not_mem_nil, or_false, not_or] at unknown
    obtain ⟨first, second, third, fourth, fifth, ninth, eleventh⟩ := unknown
    rw [Footer.columnMetaDataField, if_neg first, if_neg second, if_neg third, if_neg fourth,
      if_neg fifth, if_neg ninth, if_neg eleventh]

theorem SameColumnChunk.alike {bytes bytes' : Bytes} (same : SameColumnChunk bytes bytes') :
    Alike Footer.parseColumnChunk bytes bytes' := by
  refine SameFields.alike (fun id type content content' known record => ?_)
    (fun id unknown type record => ?_) same ({} : Footer.ColumnChunk)
  · cases known with
    | binary known same =>
        rcases known with rfl | rfl
        · exact same.alike.bind_nil fun _ => alike_pure { record with hasFilePath := true }
        · exact same.alike.bind_nil fun _ => alike_pure { record with hasCryptoMetadata := true }
    | metaData same =>
        exact (same.alike record.metaData).bind_nil fun metaData =>
          alike_pure { record with metaData, hasMetaData := true }
    | cryptoMetadata skipped skipped' =>
        exact skipped.alike skipped' { record with hasCryptoMetadata := true }
  · simp only [List.mem_cons, List.not_mem_nil, or_false, not_or] at unknown
    obtain ⟨first, third, eighth, ninth⟩ := unknown
    rw [Footer.columnChunkField, if_neg first, if_neg third, if_neg eighth, if_neg ninth]

theorem SameRowGroup.alike {bytes bytes' : Bytes} (same : SameRowGroup bytes bytes') :
    Alike Footer.parseRowGroup bytes bytes' := by
  refine SameFields.alike (fun id type content content' known record => ?_)
    (fun id unknown type record => ?_) same ({} : Footer.RowGroup)
  · cases known with
    | columns same =>
        refine Alike.bind_nil ?_ fun columns => alike_pure { record with columns }
        exact same.alike (by decide) (fun _ _ => SameFields.ne_nil) fun _ _ => SameColumnChunk.alike
    | numRows same => exact same.sets fun v => { record with numRows := v }
  · simp only [List.mem_cons, List.not_mem_nil, or_false, not_or] at unknown
    obtain ⟨first, third⟩ := unknown
    rw [Footer.rowGroupField, if_neg first, if_neg third]

theorem SameFileMetaData.alike {bytes bytes' : Bytes} (same : SameFileMetaData bytes bytes') :
    Alike Footer.parseFileMetadata bytes bytes' := by
  refine SameFields.alike (fun id type content content' known record => ?_)
    (fun id unknown type record => ?_) same ({} : Footer.FileMetaData)
  · cases known with
    | schema same =>
        refine Alike.bind_nil ?_ fun schema => alike_pure { record with schema }
        exact same.alike (by decide) (fun _ _ => SameFields.ne_nil) fun _ _ => SameSchemaElement.alike
    | rowGroups same =>
        refine Alike.bind_nil ?_ fun rowGroups => alike_pure { record with rowGroups }
        exact same.alike (by decide) (fun _ _ => SameFields.ne_nil) fun _ _ => SameRowGroup.alike
    | encryptionAlgorithm => exact alike_failure _ _
  · simp only [List.mem_cons, List.not_mem_nil, or_false, not_or] at unknown
    obtain ⟨second, fourth, eighth⟩ := unknown
    rw [Footer.fileMetaDataField, if_neg second, if_neg fourth, if_neg eighth]

theorem SamePageHeader.alike {bytes bytes' : Bytes} (same : SamePageHeader bytes bytes') :
    Alike parsePageHeader bytes bytes' := by
  refine SameFields.alike (fun id type content content' known record => ?_)
    (fun id unknown type record => ?_) same ({} : PageHeader)
  · cases known with
    | number known same =>
        rcases known with rfl | rfl | rfl
        · exact same.sets fun v => { record with type := toInt32 v }
        · exact same.sets fun v => { record with uncompressedPageSize := toInt32 v }
        · exact same.sets fun v => { record with compressedPageSize := toInt32 v }
    | dataPageHeader same =>
        refine Alike.bind_nil ?_ fun out => alike_pure { out with hasDataPageHeader := true }
        refine SameFields.alike (fun id type content content' known record => ?_)
          (fun id unknown type record => ?_) same record
        · cases known with
          | number known same =>
              rcases known with rfl | rfl
              · exact same.sets fun v => { record with dpNumValues := toInt32 v }
              · exact same.sets fun v => { record with dpEncoding := toInt32 v }
        · simp only [List.mem_cons, List.not_mem_nil, or_false, not_or] at unknown
          rw [dataPageHeaderField, if_neg unknown.1, if_neg unknown.2]
    | dictionaryPageHeader same =>
        refine Alike.bind_nil ?_ fun out => alike_pure { out with hasDictionaryPageHeader := true }
        refine SameFields.alike (fun id type content content' known record => ?_)
          (fun id unknown type record => ?_) same record
        · cases known with
          | numValues same => exact same.sets fun v => { record with dictNumValues := toInt32 v }
        · rw [dictionaryPageHeaderField, if_neg (List.mem_singleton.not.mp unknown)]
    | dataPageHeaderV2 skipped skipped' =>
        exact skipped.alike skipped' { record with hasDataPageHeaderV2 := true }
  · simp only [List.mem_cons, List.not_mem_nil, or_false, not_or] at unknown
    obtain ⟨first, second, third, fifth, seventh, eighth⟩ := unknown
    rw [pageHeaderField, if_neg first, if_neg second, if_neg third, if_neg fifth, if_neg seventh,
      if_neg eighth]

/-- **Unknown fields.** A value, however it is nested within the levels left, is
skipped to its end; and structs that differ in unknown fields only are read alike. -/
theorem thrift_fields_ignored :
    (∀ (levels type : Nat) (bytes rest : Bytes), WritesValue levels type bytes →
      skipValue levels type (bytes ++ rest) = some ((), rest)) ∧
    (∀ bytes bytes', SameFileMetaData bytes bytes' → Alike Footer.parseFileMetadata bytes bytes') ∧
    (∀ bytes bytes', SameColumnMetaData bytes bytes' →
      ∀ out, Alike (Footer.parseColumnMetadata out) bytes bytes') ∧
    ∀ bytes bytes', SamePageHeader bytes bytes' → Alike parsePageHeader bytes bytes' :=
  ⟨fun _ _ _ rest writes => writes.reads rest, fun _ _ => SameFileMetaData.alike,
    fun _ _ => SameColumnMetaData.alike, fun _ _ => SamePageHeader.alike⟩

end Adai.Parquet

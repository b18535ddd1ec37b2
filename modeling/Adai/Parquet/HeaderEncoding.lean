import Mathlib.Data.List.Forall2
import Adai.Parquet.PageHeader

/-! # What page headers look like

The compact protocol as a relation between values and bytes, with every freedom a
writer has: short and long field and list headers, fields in any order, fields of
later versions of the format, and any spelling of a number within its ten bytes.
Only what the reader acts on has a value; of the rest the relation says that it is
well formed. The reader reads every header written so (`WritesPageHeader.reads`).
-/

namespace Adai.Parquet

open Readers ByteNumbers

/-! ## The relation -/

def WritesVarint (n : Nat) (bytes : Bytes) : Prop :=
  Varint n bytes ∧ bytes.length ≤ 10 ∧ n < 2 ^ 64

def WritesInt (v : Int) (bytes : Bytes) : Prop :=
  ∃ n, WritesVarint n bytes ∧ unfoldSign n = v

inductive ListHeader (elemType size : Nat) : Bytes → Prop
  | short (small : size < 15) : ListHeader elemType size [UInt8.ofNat (size * 16 + elemType)]
  | long {bytes : Bytes} (writes : WritesVarint size bytes) :
      ListHeader elemType size (UInt8.ofNat (15 * 16 + elemType) :: bytes)

/-- The header of a field after the one with the id `last`. -/
inductive FieldHeader (last : Int) : Int → Nat → Bytes → Prop
  | short {type delta : Nat} (some_ : 0 < delta) (small : delta < 16) (typed : type < 16) :
      FieldHeader last (last + delta) type [UInt8.ofNat (delta * 16 + type)]
  | long {id : Int} {type : Nat} {bytes : Bytes} (writes : WritesInt id bytes)
      (inside : InRange 32 id) (some_ : 0 < type) (typed : type < 16) :
      FieldHeader last id type (UInt8.ofNat type :: bytes)

/-- The bytes are a struct whose fields turn the first record into the last. -/
inductive StructOf {α : Type} (sets : Int → Nat → Bytes → α → α → Prop) :
    Int → α → Bytes → α → Prop
  | stop {last : Int} {record : α} : StructOf sets last record [0] record
  | field {last id : Int} {type : Nat} {header content rest : Bytes} {record record' record'' : α}
      (headed : FieldHeader last id type header) (set : sets id type content record record')
      (later : StructOf sets id record' rest record'') :
      StructOf sets last record (header ++ (content ++ rest)) record''

inductive ElementOf (inner : Nat → Bytes → Prop) (elemType : Nat) : Bytes → Prop
  | bool {b : UInt8} (bool : elemType = 1 ∨ elemType = 2) : ElementOf inner elemType [b]
  | value {bytes : Bytes} (other : ¬ (elemType = 1 ∨ elemType = 2)) (value : inner elemType bytes) :
      ElementOf inner elemType bytes

/-- The bytes are a value of the type, given what the values inside it look like. -/
inductive ValueOf (inner : Nat → Bytes → Prop) : Nat → Bytes → Prop
  | bool {type : Nat} (bool : type = 1 ∨ type = 2) : ValueOf inner type []
  | byte {b : UInt8} : ValueOf inner 3 [b]
  | int {type : Nat} {v : Int} {bytes : Bytes} (int : type = 4 ∨ type = 5 ∨ type = 6)
      (writes : WritesInt v bytes) : ValueOf inner type bytes
  | double {bytes : Bytes} (eight : bytes.length = 8) : ValueOf inner 7 bytes
  | binary {len content : Bytes} (writes : WritesVarint content.length len) :
      ValueOf inner 8 (len ++ content)
  | list {type elemType : Nat} {header : Bytes} {elements : List Bytes} (list : type = 9 ∨ type = 10)
      (typed : elemType < 16) (headed : ListHeader elemType elements.length header)
      (each : ∀ e ∈ elements, ElementOf inner elemType e) :
      ValueOf inner type (header ++ elements.flatten)
  | struct {bytes : Bytes}
      (fields : StructOf (fun _ type content _ _ => inner type content) 0 () bytes ()) :
      ValueOf inner 12 bytes

/-- The bytes are a value of the type that is nested less deep than the levels. -/
def WritesValue : Nat → Nat → Bytes → Prop
  | 0 => fun _ _ => False
  | levels + 1 => ValueOf (WritesValue levels)

/-- A field the reader skips. -/
def Skipped : Nat → Bytes → Prop := WritesValue (kMaxSkipDepth + 1)

inductive SetsDataPageHeader : Int → Nat → Bytes → PageHeader → PageHeader → Prop
  | numValues {v : Int} {content : Bytes} {out : PageHeader} (writes : WritesInt v content)
      (inside : InRange 32 v) : SetsDataPageHeader 1 5 content out { out with dpNumValues := v }
  | encoding {v : Int} {content : Bytes} {out : PageHeader} (writes : WritesInt v content)
      (inside : InRange 32 v) : SetsDataPageHeader 2 5 content out { out with dpEncoding := v }
  | other {id : Int} {type : Nat} {content : Bytes} {out : PageHeader} (first : id ≠ 1)
      (second : id ≠ 2) (skipped : Skipped type content) : SetsDataPageHeader id type content out out

inductive SetsDictionaryPageHeader : Int → Nat → Bytes → PageHeader → PageHeader → Prop
  | numValues {v : Int} {content : Bytes} {out : PageHeader} (writes : WritesInt v content)
      (inside : InRange 32 v) :
      SetsDictionaryPageHeader 1 5 content out { out with dictNumValues := v }
  | other {id : Int} {type : Nat} {content : Bytes} {out : PageHeader} (first : id ≠ 1)
      (skipped : Skipped type content) : SetsDictionaryPageHeader id type content out out

inductive SetsPageHeader : Int → Nat → Bytes → PageHeader → PageHeader → Prop
  | type {v : Int} {content : Bytes} {out : PageHeader} (writes : WritesInt v content)
      (inside : InRange 32 v) : SetsPageHeader 1 5 content out { out with type := v }
  | uncompressedPageSize {v : Int} {content : Bytes} {out : PageHeader}
      (writes : WritesInt v content) (inside : InRange 32 v) :
      SetsPageHeader 2 5 content out { out with uncompressedPageSize := v }
  | compressedPageSize {v : Int} {content : Bytes} {out : PageHeader}
      (writes : WritesInt v content) (inside : InRange 32 v) :
      SetsPageHeader 3 5 content out { out with compressedPageSize := v }
  | dataPageHeader {content : Bytes} {out out' : PageHeader}
      (fields : StructOf SetsDataPageHeader 0 out content out') :
      SetsPageHeader 5 12 content out { out' with hasDataPageHeader := true }
  | dictionaryPageHeader {content : Bytes} {out out' : PageHeader}
      (fields : StructOf SetsDictionaryPageHeader 0 out content out') :
      SetsPageHeader 7 12 content out { out' with hasDictionaryPageHeader := true }
  | other {id : Int} {type : Nat} {content : Bytes} {out : PageHeader}
      (unknown : id ∉ [1, 2, 3, 5, 7, 8]) (skipped : Skipped type content) :
      SetsPageHeader id type content out out

/-- The bytes are a page header with these contents. -/
def WritesPageHeader (header : PageHeader) (bytes : Bytes) : Prop :=
  StructOf SetsPageHeader 0 {} bytes header

/-! ## Numbers -/

/-- Bits put above a number are added to it. -/
theorem or_shifted {out shift digits : Nat} (low : out < 2 ^ shift)
    (fits : digits * 2 ^ shift < 2 ^ 64) :
    out ||| (digits <<< shift) % 2 ^ 64 = out + digits * 2 ^ shift := by
  have placed := Nat.shiftLeft_add_eq_or_of_lt low digits
  rw [Nat.shiftLeft_eq] at placed ⊢
  rw [Nat.mod_eq_of_lt fits, Nat.or_comm, ← placed, Nat.add_comm]

theorem reads_varintLoop {n : Nat} {bytes : Bytes} (varint : Varint n bytes)
    {rounds shift out : Nat} (short : bytes.length ≤ rounds) (low : out < 2 ^ shift)
    (fits : n * 2 ^ shift < 2 ^ 64) :
    Reads (varintLoop rounds shift out) bytes (out + n * 2 ^ shift) := by
  induction varint generalizing rounds shift out with
  | @last byte small =>
      obtain ⟨rounds, rfl⟩ := Nat.exists_eq_succ_of_ne_zero (Nat.ne_zero_of_lt short)
      refine (reads_next byte).bind_nil ?_
      dsimp only
      rw [Nat.mod_eq_of_lt small, or_shifted low fits, if_pos small]
      exact reads_pure _
  | @more byte n rest large later ih =>
      obtain ⟨rounds, rfl⟩ := Nat.exists_eq_succ_of_ne_zero (Nat.ne_zero_of_lt short)
      have bounded := byte.toNat_lt
      have digits : byte.toNat % 128 = byte.toNat - 128 := by omega
      have split : (byte.toNat - 128 + 128 * n) * 2 ^ shift =
          (byte.toNat - 128) * 2 ^ shift + n * 2 ^ (shift + 7) := by
        rw [pow_add]
        ring
      have below : (byte.toNat - 128) * 2 ^ shift ≤ 127 * 2 ^ shift :=
        Nat.mul_le_mul_right _ (by omega)
      have higher : 2 ^ (shift + 7) = 128 * 2 ^ shift := by
        rw [pow_add]
        ring
      rw [split] at fits ⊢
      refine (reads_next byte).bind ?_
      dsimp only
      rw [digits, or_shifted low (by omega), if_neg (by omega), ← Nat.add_assoc]
      refine ih ?_ ?_ (by omega)
      · exact Nat.le_of_succ_le_succ short
      · omega

theorem WritesVarint.reads {n : Nat} {bytes : Bytes} (writes : WritesVarint n bytes) :
    Reads readVarint bytes n := by
  obtain ⟨varint, short, fits⟩ := writes
  have read := reads_varintLoop varint short (Nat.two_pow_pos 0) (by omega)
  rwa [pow_zero, Nat.mul_one, Nat.zero_add] at read

theorem WritesInt.reads {v : Int} {bytes : Bytes} (writes : WritesInt v bytes) :
    Reads readZigzagVarint bytes v := by
  obtain ⟨n, writes, rfl⟩ := writes
  exact writes.reads.map unfoldSign

theorem toInt32_eq {v : Int} (inside : InRange 32 v) : toInt32 v = v := by
  obtain ⟨below, above⟩ := inside
  unfold toInt32
  exact Int.bmod_eq_of_le (by omega) (by omega)

/-! ## Skipped values -/

theorem length_flatten_le {elements : List Bytes} (each : ∀ e ∈ elements, e ≠ []) :
    elements.length ≤ elements.flatten.length := by
  induction elements with
  | nil => exact Nat.le_refl 0
  | cons e rest ih =>
      have first := List.length_pos_iff.mpr (each e List.mem_cons_self)
      have later := ih fun e member => each e (List.mem_cons_of_mem _ member)
      rw [List.flatten_cons, List.length_append, List.length_cons]
      omega

theorem WritesVarint.ne_nil {n : Nat} {bytes : Bytes} (writes : WritesVarint n bytes) :
    bytes ≠ [] :=
  writes.1.ne_nil

theorem WritesInt.ne_nil {v : Int} {bytes : Bytes} (writes : WritesInt v bytes) : bytes ≠ [] := by
  obtain ⟨n, writes, -⟩ := writes
  exact writes.ne_nil

theorem ListHeader.ne_nil {elemType size : Nat} {bytes : Bytes}
    (header : ListHeader elemType size bytes) : bytes ≠ [] := by
  cases header <;> exact List.cons_ne_nil _ _

theorem FieldHeader.ne_nil {last id : Int} {type : Nat} {bytes : Bytes}
    (header : FieldHeader last id type bytes) : bytes ≠ [] := by
  cases header <;> exact List.cons_ne_nil _ _

/-- Only the values kept in the type itself take no bytes. -/
theorem ValueOf.ne_nil {inner : Nat → Bytes → Prop} {type : Nat} {bytes : Bytes}
    (value : ValueOf inner type bytes) (other : ¬ (type = 1 ∨ type = 2)) : bytes ≠ [] := by
  cases value with
  | bool bool => exact absurd bool other
  | byte => exact List.cons_ne_nil _ _
  | int _ writes => exact writes.ne_nil
  | double eight =>
      rintro rfl
      cases eight
  | binary writes => exact List.append_ne_nil_of_left_ne_nil writes.ne_nil _
  | list _ _ headed _ => exact List.append_ne_nil_of_left_ne_nil headed.ne_nil _
  | struct fields =>
      cases fields with
      | stop => exact List.cons_ne_nil _ _
      | field headed _ _ => exact List.append_ne_nil_of_left_ne_nil headed.ne_nil _

theorem ElementOf.ne_nil {levels elemType : Nat} {bytes : Bytes}
    (element : ElementOf (WritesValue levels) elemType bytes) : bytes ≠ [] := by
  cases element with
  | bool => exact List.cons_ne_nil _ _
  | value other value =>
      cases levels with
      | zero => exact value.elim
      | succ levels => exact ValueOf.ne_nil value other

theorem toNat_headerByte {high low : Nat} (small : high < 16) (typed : low < 16) :
    (UInt8.ofNat (high * 16 + low)).toNat = high * 16 + low :=
  UInt8.toNat_ofNat_of_lt' (show _ < 256 by omega)

/-- A list's header is read when its elements follow. -/
theorem ListHeader.read {elemType size : Nat} {header rest : Bytes}
    (headed : ListHeader elemType size header) (typed : elemType < 16)
    (enough : size ≤ rest.length) :
    readListHeader (header ++ rest) = some ((elemType, size), rest) := by
  unfold readListHeader
  cases headed with
  | short small =>
      refine (bind_of_read (reads_next _ rest)).trans ?_
      rw [toNat_headerByte (by omega) typed, if_neg (by omega),
        show (size * 16 + elemType) / 16 = size by omega,
        show (size * 16 + elemType) % 16 = elemType by omega]
      exact if_neg (by omega)
  | @long bytes writes =>
      refine (bind_of_read (reads_next _ (bytes ++ rest))).trans ?_
      rw [toNat_headerByte (by omega) typed, if_pos (by omega),
        show (15 * 16 + elemType) % 16 = elemType by omega]
      refine (bind_of_read (writes.reads rest)).trans ?_
      exact if_neg (by omega)

theorem ElementOf.reads {levels elemType : Nat} {bytes : Bytes}
    (inner : ∀ {type bytes}, WritesValue levels type bytes → Reads (skipValue levels type) bytes ())
    (element : ElementOf (WritesValue levels) elemType bytes) :
    Reads (skipListElement (skipValue levels) elemType) bytes () := by
  unfold skipListElement
  cases element with
  | bool bool =>
      rw [if_pos bool]
      exact (reads_next _).map _
  | value other value =>
      rw [if_neg other]
      exact inner value

/-- A field's header is a byte with the type in its low half; where the other half is
zero, the id follows. -/
theorem FieldHeader.byte {last id : Int} {type : Nat} {header : Bytes}
    (headed : FieldHeader last id type header) :
    ∃ b bytes, header = b :: bytes ∧ b ≠ 0 ∧ b.toNat % 16 = type ∧
      (b.toNat / 16 = 0 ∧ WritesInt id bytes ∧ InRange 32 id ∨
        b.toNat / 16 ≠ 0 ∧ bytes = [] ∧ id = last + (b.toNat / 16 : Nat)) := by
  have nonzero : ∀ b : UInt8, 0 < b.toNat → b ≠ 0 := by
    rintro _ positive rfl
    exact Nat.lt_irrefl 0 positive
  cases headed with
  | @short _ delta some_ small typed =>
      have value := toNat_headerByte small typed
      refine ⟨_, _, rfl, nonzero _ (by omega), by omega, .inr ⟨by omega, rfl, ?_⟩⟩
      rw [value, show (delta * 16 + type) / 16 = delta by omega]
  | long writes inside some_ typed =>
      have value := toNat_headerByte Nat.ofNat_pos typed
      rw [Nat.zero_mul, Nat.zero_add] at value
      exact ⟨_, _, rfl, nonzero _ (by omega), by omega, .inl ⟨by omega, writes, inside⟩⟩

/-- A field of a skipped struct: its header, then its value. -/
theorem FieldHeader.skips {levels : Nat} {last id : Int} {type : Nat} {header content : Bytes}
    (headed : FieldHeader last id type header) (skips : Reads (skipValue levels type) content ()) :
    Reads (skipField (skipValue levels) ()) (header ++ content) (.inl ()) := by
  obtain ⟨b, bytes, rfl, nonzero, rfl, ⟨zero, writes, -⟩ | ⟨some_, rfl, -⟩⟩ := headed.byte
  · refine (reads_next b).bind ?_
    rw [if_neg nonzero, if_pos zero]
    exact writes.reads.bind (skips.bind_nil (reads_pure _))
  · refine (reads_next b).bind ?_
    rw [if_neg nonzero, if_neg some_]
    exact skips.bind_nil (reads_pure _)

/-- The fields of a struct are skipped one by one. -/
theorem StructOf.rounds {levels : Nat}
    (inner : ∀ {type bytes}, WritesValue levels type bytes → Reads (skipValue levels type) bytes ())
    {last : Int} {record : Unit} {bytes : Bytes} {record' : Unit}
    (fields : StructOf (fun _ type content _ _ => WritesValue levels type content) last record bytes
      record') : Rounds (skipField (skipValue levels)) () bytes () := by
  induction fields with
  | stop => exact .stop ((reads_next 0).bind_nil (reads_pure _))
  | field headed set _ ih =>
      rw [← List.append_assoc]
      exact .more (headed.skips (inner set)) (List.append_ne_nil_of_left_ne_nil headed.ne_nil _) ih

theorem WritesValue.reads {levels type : Nat} {bytes : Bytes}
    (writes : WritesValue levels type bytes) : Reads (skipValue levels type) bytes () := by
  induction levels generalizing type bytes with
  | zero => exact writes.elim
  | succ levels ih =>
      cases writes with
      | bool bool =>
          rw [skipValue, if_pos bool]
          exact reads_pure ()
      | byte => exact (reads_next _).map _
      | int int writes =>
          rw [skipValue, if_neg (by omega), if_neg (by omega), if_pos int]
          exact writes.reads.map _
      | double eight =>
          have read := (reads_takeMany bytes).map fun _ => ()
          rwa [eight] at read
      | binary writes => exact (writes.reads.bind (reads_takeMany _)).map _
      | list list typed headed each =>
          rw [skipValue, if_neg (by omega), if_neg (by omega), if_neg (by omega),
            if_neg (by omega), if_neg (by omega), if_pos list]
          intro rest
          rename_i elemType header elements
          have enough : elements.length ≤ (elements.flatten ++ rest).length := by
            have nonempty := length_flatten_le fun e member => (each e member).ne_nil
            rw [List.length_append]
            omega
          rw [List.append_assoc]
          refine (bind_of_read (headed.read typed enough)).trans ?_
          have skips : List.Forall₂ (Reads (skipListElement (skipValue levels) elemType)) elements
              (elements.map fun _ => ()) := by
            rw [List.forall₂_map_right_iff, List.forall₂_same]
            exact fun e member => (each e member).reads ih
          have read := reads_times skips
          rw [List.length_map] at read
          exact (read.bind_nil (reads_pure ())) rest
      | struct fields => exact (fields.rounds ih).reads

/-! ## Page headers -/

theorem reads_nextField_stop (last : Int) : Reads (nextField last) [0] none :=
  (reads_next 0).bind_nil (reads_pure none)

theorem FieldHeader.reads {last id : Int} {type : Nat} {header : Bytes}
    (headed : FieldHeader last id type header) :
    Reads (nextField last) header (some (id, type)) := by
  obtain ⟨b, bytes, rfl, nonzero, rfl, ⟨zero, writes, inside⟩ | ⟨some_, rfl, rfl⟩⟩ := headed.byte
  · have read := writes.reads.map toInt32
    rw [toInt32_eq inside] at read
    refine (reads_next b).bind ?_
    rw [if_neg nonzero, if_pos zero]
    exact read.bind_nil (reads_pure _)
  · refine (reads_next b).bind_nil ?_
    rw [if_neg nonzero, if_neg some_]
    exact reads_pure _

theorem StructOf.reads {α : Type} {sets : Int → Nat → Bytes → α → α → Prop}
    {field : Int → Nat → α → Reader UInt8 α}
    (reads : ∀ id type content record record', sets id type content record record' →
      Reads (field id type record) content record')
    {record record' : α} {bytes : Bytes} (struct : StructOf sets 0 record bytes record') :
    Reads (parseStruct field record) bytes record' := by
  refine Rounds.reads ?_
  generalize (0 : Int) = last at struct ⊢
  induction struct with
  | stop => exact .stop ((reads_nextField_stop _).bind_nil (reads_pure _))
  | field headed set later ih =>
      rw [← List.append_assoc]
      refine .more (headed.reads.bind ((reads _ _ _ _ _ set).bind_nil (reads_pure _)))
        (List.append_ne_nil_of_left_ne_nil headed.ne_nil _) ih

theorem WritesInt.sets {v : Int} {content : Bytes} (writes : WritesInt v content)
    (inside : InRange 32 v) (set : Int → PageHeader) :
    Reads (do let v ← readZigzagVarint; return set (toInt32 v)) content (set v) := by
  refine writes.reads.bind_nil ?_
  rw [toInt32_eq inside]
  exact reads_pure _

theorem Skipped.keeps {type : Nat} {content : Bytes} (skipped : Skipped type content)
    (out : PageHeader) : Reads (do skipTop type; return out) content out :=
  (WritesValue.reads skipped).bind_nil (reads_pure out)

theorem SetsDataPageHeader.reads {id : Int} {type : Nat} {content : Bytes} {out out' : PageHeader}
    (sets : SetsDataPageHeader id type content out out') :
    Reads (dataPageHeaderField id type out) content out' := by
  cases sets with
  | numValues writes inside => exact writes.sets inside fun v => { out with dpNumValues := v }
  | encoding writes inside => exact writes.sets inside fun v => { out with dpEncoding := v }
  | other first second skipped =>
      rw [dataPageHeaderField, if_neg first, if_neg second]
      exact skipped.keeps out

theorem SetsDictionaryPageHeader.reads {id : Int} {type : Nat} {content : Bytes}
    {out out' : PageHeader} (sets : SetsDictionaryPageHeader id type content out out') :
    Reads (dictionaryPageHeaderField id type out) content out' := by
  cases sets with
  | numValues writes inside => exact writes.sets inside fun v => { out with dictNumValues := v }
  | other first skipped =>
      rw [dictionaryPageHeaderField, if_neg first]
      exact skipped.keeps out

theorem SetsPageHeader.reads {id : Int} {type : Nat} {content : Bytes} {out out' : PageHeader}
    (sets : SetsPageHeader id type content out out') :
    Reads (pageHeaderField id type out) content out' := by
  cases sets with
  | type writes inside => exact writes.sets inside fun v => { out with type := v }
  | uncompressedPageSize writes inside =>
      exact writes.sets inside fun v => { out with uncompressedPageSize := v }
  | compressedPageSize writes inside =>
      exact writes.sets inside fun v => { out with compressedPageSize := v }
  | dataPageHeader fields =>
      exact (fields.reads fun _ _ _ _ _ set => set.reads).bind_nil (reads_pure _)
  | dictionaryPageHeader fields =>
      exact (fields.reads fun _ _ _ _ _ set => set.reads).bind_nil (reads_pure _)
  | other unknown skipped =>
      simp only [List.mem_cons, List.not_mem_nil, or_false, not_or] at unknown
      obtain ⟨first, second, third, fifth, seventh, eighth⟩ := unknown
      rw [pageHeaderField, if_neg first, if_neg second, if_neg third, if_neg fifth, if_neg seventh,
        if_neg eighth]
      exact skipped.keeps out

/-- **Headers.** Every page header is read back, and nothing after it. -/
theorem WritesPageHeader.reads {header : PageHeader} {bytes : Bytes}
    (writes : WritesPageHeader header bytes) : Reads parsePageHeader bytes header :=
  StructOf.reads (fun _ _ _ _ _ set => set.reads) writes

end Adai.Parquet

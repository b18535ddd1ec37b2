import Adai.Parquet.ColumnWriter

/-! # Column chunks are read back

Decoding a column chunk gives the cells it was written from, whatever choices were
made in writing it and whatever else the file holds before and after it
(`decodeColumnChunk_writes`). Each page's header and body are found where the page
before it ends (`WritesPage.header_read`, `WritesPage.body_read`), its values are
read back and put in the cells that are not null (`WritesDataPage.read`), and the
pages are read one after the other (`WritesDataPages.read`).
-/

namespace Adai.Parquet

open Readers ByteNumbers

/-! ## Pages in a file -/

theorem WritesPageHeader.ne_nil {header : PageHeader} {bytes : Bytes}
    (writes : WritesPageHeader header bytes) : bytes ≠ [] := by
  cases writes with
  | stop => exact List.cons_ne_nil _ _
  | field headed => exact List.append_ne_nil_of_left_ne_nil headed.ne_nil _

/-- The header of a page is read where the page begins. -/
theorem WritesPageHeader.read_at {header : PageHeader} {head : Bytes}
    (writes : WritesPageHeader header head) (short : head.length ≤ kProbeSize)
    (before after : Bytes) :
    readPageHeaderAt (before ++ (head ++ after)) before.length =
      some (header, ((before.length + head.length : Nat) : Int)) := by
  have probe : (head ++ after).take kProbeSize = head ++ after.take (kProbeSize - head.length) := by
    rw [List.take_append, List.take_of_length_le short]
  have nonempty : head ++ after.take (kProbeSize - head.length) ≠ [] :=
    List.append_ne_nil_of_left_ne_nil writes.ne_nil _
  unfold readPageHeaderAt
  rw [if_neg (by omega), Int.toNat_natCast, List.drop_left]
  dsimp only
  rw [probe, if_neg nonempty, writes.reads, Option.map_some, List.length_append]
  dsimp only
  rw [Nat.add_sub_cancel, Nat.cast_add]

/-- The body of a page is read after its header. -/
theorem Stores.read {codec : CompressionCodec} {header : PageHeader} {plain stored : Bytes}
    (stores : Stores codec plain stored) (compressed : header.compressedPageSize = stored.length)
    (uncompressed : header.uncompressedPageSize = plain.length) (before after : Bytes) :
    readPageBody (before ++ (stored ++ after)) (before ++ (stored ++ after)).length before.length
      header codec = some plain := by
  have possible : ¬ (header.compressedPageSize < 0 ∨ header.uncompressedPageSize < 0 ∨
      (before.length : Int) < 0 ∨
      ((before ++ (stored ++ after)).length : Int) < before.length ∨
      ((before ++ (stored ++ after)).length : Int) - before.length < header.compressedPageSize) := by
    simp only [List.length_append, Nat.cast_add]
    omega
  unfold readPageBody
  rw [if_neg possible, compressed, uncompressed, Int.toNat_natCast, Int.toNat_natCast,
    Int.toNat_natCast, List.drop_left, List.take_left]
  dsimp only
  rw [if_neg (not_not.mpr rfl)]
  cases codec with
  | uncompressed => exact congrArg some stores
  | snappy => exact SnappyCompresses.uncompresses stores (Nat.le_refl _)
  | other code => exact stores.elim

/-! ## The cells of a page -/

theorem placeValues_map {maxDefLevel : Nat} {level : Cell → Nat} {cells : List Cell}
    (highest : ∀ cell ∈ cells, level cell = maxDefLevel ↔ cell.isSome = true) :
    placeValues maxDefLevel (cells.map level) (cells.filterMap id) = cells := by
  induction cells with
  | nil => rfl
  | cons cell rest ih =>
      have first := highest cell List.mem_cons_self
      have later := ih fun cell member => highest cell (List.mem_cons_of_mem _ member)
      rw [List.map_cons, placeValues]
      cases cell with
      | none =>
          rw [if_neg fun same => absurd (first.mp same) Bool.false_ne_true]
          exact congrArg (none :: ·) later
      | some value =>
          rw [if_pos (first.mpr rfl)]
          exact congrArg (some value :: ·) later

theorem countP_map_level {maxDefLevel : Nat} {level : Cell → Nat} {cells : List Cell}
    (highest : ∀ cell ∈ cells, level cell = maxDefLevel ↔ cell.isSome = true) :
    (cells.map level).countP (· = maxDefLevel) = (cells.filterMap id).length := by
  induction cells with
  | nil => rfl
  | cons cell rest ih =>
      have first := highest cell List.mem_cons_self
      have later := ih fun cell member => highest cell (List.mem_cons_of_mem _ member)
      rw [List.map_cons]
      cases cell with
      | none =>
          have other : ¬ level none = maxDefLevel :=
            fun same => absurd (first.mp same) Bool.false_ne_true
          rw [List.countP_cons_of_neg (by simpa using other), later]
          rfl
      | some value =>
          rw [List.countP_cons_of_pos (by simpa using first.mpr rfl), later]
          rfl

theorem mapM_eq_some {α β : Type} {f : α → Option β} {items : List α} {values : List β}
    (each : List.Forall₂ (fun a b => f a = some b) items values) :
    items.mapM f = some values := by
  induction each with
  | nil => rfl
  | cons first _ ih => simp [List.mapM_cons, first, ih]

theorem WritesLevels.read {isOptional : Bool} {cells : List Cell} {levels : Bytes}
    (writes : WritesLevels isOptional cells levels) (data : Bytes) :
    decodeLevels (levels ++ data) (maxDefLevel isOptional) cells.length =
      some (cells.map (definitionLevel isOptional), data) := by
  cases writes with
  | @levels stream optional writes fits =>
      have decoded := writes.decodes (by decide)
      have len := reads_takeMany (toLittleEndian 4 stream.length) (stream ++ data)
      rw [List.length_map] at decoded
      rw [length_toLittleEndian] at len
      subst optional
      unfold decodeLevels
      rw [maxDefLevel, if_pos rfl, if_neg (by decide), List.append_assoc, len]
      dsimp only [Option.bind_eq_bind, Option.bind_some]
      rw [littleEndian_toLittleEndian fits, reads_takeMany stream data]
      dsimp only [Option.bind_eq_bind, Option.bind_some]
      rw [show bitWidthForMaxLevel 1 = 1 from rfl, decoded]
      rfl
  | none required full =>
      subst required
      have zeros : List.replicate cells.length 0 = cells.map (definitionLevel false) := by
        refine (List.eq_replicate_iff.mpr ⟨List.length_map _, fun level member => ?_⟩).symm
        obtain ⟨cell, -, rfl⟩ := List.mem_map.mp member
        rfl
      rw [decodeLevels, maxDefLevel, if_neg Bool.false_ne_true, if_pos rfl, zeros]
      rfl

theorem WritesValues.read {type : PhysicalType} {dictionary : Option (List ColumnValue)}
    {values : List ColumnValue} {encoding : Int} {data : Bytes}
    (writes : WritesValues type dictionary values encoding data) :
    decodeValues type dictionary encoding data values.length = some values := by
  cases writes with
  | plain writes =>
      rw [decodeValues, if_pos rfl]
      exact writes.decodes
  | @indices _ entries width indices stream there indexed narrow writes entry =>
      have other : encoding ≠ Encoding.plain := by
        rcases indexed with rfl | rfl <;> decide
      have byte : (UInt8.ofNat width).toNat = width :=
        UInt8.toNat_ofNat_of_lt' (show _ < 256 by omega)
      have decoded := writes.decodes narrow
      rw [entry.length_eq] at decoded
      subst there
      rw [decodeValues, if_neg other, if_pos indexed]
      dsimp only [next, Option.bind_eq_bind, Option.bind_some]
      rw [byte, decoded]
      exact mapM_eq_some entry

/-- The level of a cell is the highest one exactly when the cell is not null. -/
theorem WritesLevels.highest {isOptional : Bool} {cells : List Cell} {levels : Bytes}
    (writes : WritesLevels isOptional cells levels) :
    ∀ cell ∈ cells, definitionLevel isOptional cell = maxDefLevel isOptional ↔
      cell.isSome = true := by
  intro cell member
  cases writes with
  | levels optional =>
      subst optional
      cases cell with
      | none => decide
      | some value => exact ⟨fun _ => rfl, fun _ => rfl⟩
  | none required full =>
      subst required
      exact ⟨fun _ => full cell member, fun _ => rfl⟩

/-- **Pages.** The cells of a page are read from its contents. -/
theorem decodePageCells_writes {type : PhysicalType} {isOptional : Bool}
    {dictionary : Option (List ColumnValue)} {cells : List Cell} {header : PageHeader}
    {levels data : Bytes} (count : header.dpNumValues = cells.length)
    (leveled : WritesLevels isOptional cells levels)
    (values : WritesValues type dictionary (cells.filterMap id) header.dpEncoding data) :
    decodePageCells type (maxDefLevel isOptional) dictionary header (levels ++ data) =
      some cells := by
  unfold decodePageCells
  rw [count, Int.toNat_natCast, leveled.read data]
  dsimp only [Option.bind_eq_bind, Option.bind_some]
  rw [countP_map_level leveled.highest, values.read]
  dsimp only [Option.bind_eq_bind, Option.bind_some]
  rw [if_neg (not_not.mpr rfl), placeValues_map leveled.highest]
  rfl

/-! ## Chunks -/

section Chunk

variable {md : ColumnMetaData} {isOptional : Bool} {dictionary : Option (List ColumnValue)}

theorem WritesDataPage.read {cells : List Cell} {page : Bytes}
    (writes : WritesDataPage md isOptional dictionary cells page) (before after : Bytes)
    {valuesRead : Int} (left : (cells.length : Int) ≤ md.numValues - valuesRead) :
    readDataPage (before ++ (page ++ after)) (before ++ (page ++ after)).length md isOptional
      dictionary valuesRead before.length =
      some (cells, (cells.length : Int), ((before ++ page).length : Int)) := by
  cases writes with
  | @page header levels data _ type present first count leveled values page =>
      cases page with
      | @page head stored writes short stores compressed uncompressed =>
          have header_read := writes.read_at short before (stored ++ after)
          have body_read := stores.read compressed uncompressed (before ++ head) after
          rw [List.append_assoc, @List.length_append _ before head] at body_read
          have typed : ¬ (header.type ≠ PageHeader.dataPage ∨ (!header.hasDataPageHeader) = true) := by
            rw [type, present]
            decide
          have fits : ¬ (header.dpNumValues < 0 ∨
              md.numValues - valuesRead < header.dpNumValues) := by
            omega
          unfold readDataPage
          rw [List.append_assoc head, header_read]
          simp only [Option.bind_eq_bind, Option.bind_some, first, if_neg Bool.false_ne_true,
            if_neg typed, if_neg fits, body_read, decodePageCells_writes count leveled values]
          rw [count, compressed]
          simp only [List.length_append, Nat.cast_add, add_assoc]
          rfl

theorem WritesDictionaryPage.read {entries : List ColumnValue} {page : Bytes}
    (writes : WritesDictionaryPage md entries page) (before after : Bytes) :
    readDictionaryPage (before ++ (page ++ after)) (before ++ (page ++ after)).length md
      before.length = some (entries, ((before ++ page).length : Int)) := by
  cases writes with
  | @page header data _ type present count values page =>
      cases page with
      | @page head stored writes short stores compressed uncompressed =>
          have header_read := writes.read_at short before (stored ++ after)
          have body_read := stores.read compressed uncompressed (before ++ head) after
          rw [List.append_assoc, @List.length_append _ before head] at body_read
          have typed : ¬ (header.type ≠ PageHeader.dictionaryPage ∨
              (!header.hasDictionaryPageHeader) = true) := by
            rw [type, present]
            decide
          have counted : ¬ header.dictNumValues < 0 := by omega
          have decoded := values.decodes
          rw [← Int.toNat_natCast entries.length, ← count] at decoded
          unfold readDictionaryPage
          rw [List.append_assoc head, header_read]
          simp only [Option.bind_eq_bind, Option.bind_some, if_neg typed, if_neg counted, body_read,
            decoded]
          rw [compressed]
          simp only [List.length_append, Nat.cast_add, add_assoc]
          rfl

theorem WritesDataPage.ne_nil {cells : List Cell} {page : Bytes}
    (writes : WritesDataPage md isOptional dictionary cells page) : page ≠ [] := by
  cases writes with
  | page _ _ _ _ _ _ page =>
      cases page with
      | page writes => exact List.append_ne_nil_of_left_ne_nil writes.ne_nil _

/-- The pages are read one after the other, until all values are. -/
theorem WritesDataPages.read {cells : List Cell} {pages : Bytes}
    (writes : WritesDataPages md isOptional dictionary cells pages) (before after : Bytes)
    (out : List Cell) {valuesRead : Int} (left : md.numValues = valuesRead + cells.length)
    {fuel : Nat} (enough : pages.length < fuel) :
    readDataPages (before ++ (pages ++ after)) (before ++ (pages ++ after)).length md isOptional
      dictionary fuel valuesRead before.length out = some (md.numValues, out ++ cells) := by
  induction writes generalizing before out valuesRead fuel with
  | done =>
      obtain ⟨fuel, rfl⟩ := Nat.exists_eq_succ_of_ne_zero (Nat.ne_zero_of_lt enough)
      rw [List.length_nil, Nat.cast_zero, add_zero] at left
      rw [readDataPages, if_neg (by omega), List.append_nil, left]
  | @more front back page pages first later ih =>
      obtain ⟨fuel, rfl⟩ := Nat.exists_eq_succ_of_ne_zero (Nat.ne_zero_of_lt enough)
      have nonempty := List.length_pos_iff.mpr first.ne_nil
      rw [List.length_append, Nat.cast_add] at left
      rw [List.length_append] at enough
      by_cases unread : valuesRead < md.numValues
      · have fits : (front.length : Int) ≤ md.numValues - valuesRead := by omega
        have left_back : md.numValues = valuesRead + front.length + back.length := by omega
        have enough_back : pages.length < fuel := by omega
        have rest_read := ih (before ++ page) (out ++ front) left_back enough_back
        rw [List.append_assoc before page] at rest_read
        rw [readDataPages, if_pos unread, List.append_assoc page,
          first.read before (pages ++ after) fits, ← List.append_assoc out]
        exact rest_read
      · -- the pages that are left have no cells
        have done : front ++ back = [] := by
          apply List.length_eq_zero_iff.mp
          rw [List.length_append]
          omega
        rw [readDataPages, if_neg unread, done, List.append_nil,
          show valuesRead = md.numValues by omega]

/-- **Column chunks.** A chunk of the cells, wherever it is in the file, is decoded
to the cells. -/
theorem decodeColumnChunk_writes {cells : List Cell} {bytes before : Bytes}
    (writes : WritesChunk md isOptional cells before.length bytes) (after : Bytes) :
    decodeColumnChunk (before ++ (bytes ++ after)) (before ++ (bytes ++ after)).length md isOptional
      cells.length = some cells := by
  cases writes with
  | plain absent starts count each =>
      have unread : md.numValues = 0 + (cells.length : Int) := by omega
      have enough : bytes.length < (before ++ (bytes ++ after)).length + 1 := by
        simp only [List.length_append]
        omega
      have pages_read := each.read before after [] unread enough
      unfold decodeColumnChunk
      rw [absent, starts]
      dsimp only [Option.bind_eq_bind, Option.bind_some]
      rw [pages_read]
      dsimp only [Option.bind_eq_bind, Option.bind_some, List.nil_append]
      rw [if_neg (not_not.mpr rfl), if_neg (not_not.mpr rfl)]
      rfl
  | @dictionary entries page pages starts count dictionary each =>
      have unread : md.numValues = 0 + (cells.length : Int) := by omega
      have enough : pages.length < (before ++ (page ++ (pages ++ after))).length + 1 := by
        simp only [List.length_append]
        omega
      have pages_read := each.read (before ++ page) after [] unread enough
      rw [List.append_assoc before page] at pages_read
      unfold decodeColumnChunk
      rw [starts, List.append_assoc page]
      dsimp only
      rw [dictionary.read before (pages ++ after)]
      dsimp only [Option.map_some, Option.bind_eq_bind, Option.bind_some]
      rw [pages_read]
      dsimp only [Option.bind_eq_bind, Option.bind_some, List.nil_append]
      rw [if_neg (not_not.mpr rfl), if_neg (not_not.mpr rfl)]
      rfl

end Chunk

/-- A compressed column of a dictionary page and two pages, the first one of indices
and with a null, the second one of values. -/
theorem decodeColumnChunk_writes_dictionary :
    let ab := ColumnValue.string [97, 98]
    let dictionary := encodeDictionaryPageHeader 6 12 1 ++ encodeSnappy [2, 0, 0, 0, 97, 98]
    let first := encodeDataPageHeader 11 17 2 8 ++ encodeSnappy [4, 0, 0, 0, 2, 1, 2, 0, 1, 2, 0]
    let second := encodeDataPageHeader 12 18 1 0 ++
      encodeSnappy [2, 0, 0, 0, 2, 1, 2, 0, 0, 0, 97, 98]
    let file := [80, 65, 82, 49] ++ ((dictionary ++ (first ++ second)) ++ [80, 65, 82, 49])
    let md : ColumnMetaData :=
      { type := .byteArray, codec := .snappy, numValues := 3, dataPageOffset := 27,
        dictionaryPageOffset := some 4 }
    decodeColumnChunk file file.length md true 3 = some [some ab, none, some ab] := by
  intro ab dictionary first second file md
  have string : WritesPlainValues .byteArray [ab] [2, 0, 0, 0, 97, 98] :=
    @WritesPlainValues.bytes .byteArray _ [[2, 0, 0, 0, 97, 98]] rfl
      (.cons (@WritesPlain.byteArray [97, 98] (by decide)) .nil)
  have stored : ∀ plain : Bytes, plain.length ≤ 60 → Stores md.codec plain (encodeSnappy plain) :=
    fun plain short => snappyCompresses_encodeSnappy (Nat.le_trans short (by omega))
  have entry : WritesDictionaryPage md [ab] dictionary := by
    have page := @inRange_of_lt 6 (by omega)
    have block := @inRange_of_lt 12 (by omega)
    have one := @inRange_of_lt 1 (by omega)
    refine .page rfl rfl rfl string (.page (writes_dictionaryPageHeader page block one)
      (length_encodeDictionaryPageHeader page block one) (stored _ (by decide)) ?_ rfl)
    simp [encodeSnappy, encodeLiteral, toVarint]
  have indices : WritesDataPage md true (some [ab]) [some ab, none] first := by
    have page := @inRange_of_lt 11 (by omega)
    have block := @inRange_of_lt 17 (by omega)
    have two := @inRange_of_lt 2 (by omega)
    have encoding := @inRange_of_lt 8 (by omega)
    have levels : WritesHybrid 1 [1, 0] [2, 1, 2, 0] := by
      have runs := @writesHybrid_encodeRuns 1 [1, 0] (by decide)
      simpa [encodeRuns, toVarint, toLittleEndian] using runs
    have index : WritesHybrid 1 [0] [2, 0] := by
      have runs := @writesHybrid_encodeRuns 1 [0] (by decide)
      simpa [encodeRuns, toVarint, toLittleEndian] using runs
    refine .page rfl rfl rfl rfl (.levels rfl levels (by decide))
      (@WritesValues.indices _ _ _ _ [ab] 1 [0] [2, 0] rfl (.inl rfl) (by decide) index
        (.cons rfl .nil))
      (.page (writes_dataPageHeader page block two encoding)
      (length_encodeDataPageHeader page block two encoding) (stored _ (by decide)) ?_ rfl)
    simp [encodeSnappy, encodeLiteral, toVarint]
  have values : WritesDataPage md true (some [ab]) [some ab] second := by
    have page := @inRange_of_lt 12 (by omega)
    have block := @inRange_of_lt 18 (by omega)
    have one := @inRange_of_lt 1 (by omega)
    have encoding := @inRange_of_lt 0 (by omega)
    have levels : WritesHybrid 1 [1] [2, 1] := by
      have runs := @writesHybrid_encodeRuns 1 [1] (by decide)
      simpa [encodeRuns, toVarint, toLittleEndian] using runs
    refine .page rfl rfl rfl rfl (.levels rfl levels (by decide)) (.plain string)
      (.page (writes_dataPageHeader page block one encoding)
      (length_encodeDataPageHeader page block one encoding) (stored _ (by decide)) ?_ rfl)
    simp [encodeSnappy, encodeLiteral, toVarint]
  have pages : WritesDataPages md true (some [ab]) [some ab, none, some ab] (first ++ second) := by
    have last := WritesDataPages.more values .done
    rw [List.append_nil second] at last
    exact .more indices last
  have chunk : WritesChunk md true [some ab, none, some ab] ([80, 65, 82, 49] : Bytes).length
      (dictionary ++ (first ++ second)) := .dictionary rfl rfl entry pages
  exact decodeColumnChunk_writes chunk [80, 65, 82, 49]

end Adai.Parquet

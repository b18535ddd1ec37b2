import Adai.Checkpoint.BinaryIO
import Adai.Math.SortedMap
import Adai.Sessions.Requests

/-! # Safetensors files

A file is the length of its header, the header as a padded JSON text, and the elements of
the tensors one after the other. The header gives each tensor its type, its shape and its
place behind the header. What was written is read back, tensor by tensor, whatever the
tensors and the metadata are (`safetensors_read_back`); the reader skips the metadata.
The JSON library is a parameter.
-/

namespace Adai.Checkpoint

open Tokenizer ByteNumbers
open Sessions (Json)

structure TensorDescriptor where
  name : Bytes
  dtype : Bytes
  shape : List Int64
  data : List Word
  deriving DecidableEq

/-- The library's `dump` throws on a string that is not UTF-8, its `parse` on a text that
is not JSON. -/
structure JsonLibrary where
  dump : Json → Option Bytes
  parse : Bytes → Option Json

inductive SafetensorsError
  | runtime (text : String)
  /-- Thrown by the JSON library. -/
  | json
  /-- Thrown when the elements are allocated. -/
  | length
  deriving DecidableEq, Repr

def metadataKey : Bytes := ascii "__metadata__"

namespace TensorDescriptor

def bytes (t : TensorDescriptor) : Bytes := t.data.flatMap wordBytes

def byteSize (t : TensorDescriptor) : Nat := t.data.length * 4

theorem length_bytes (t : TensorDescriptor) : t.bytes.length = t.byteSize := by
  rw [bytes, length_flatMap_wordBytes, byteSize, Nat.mul_comm]

end TensorDescriptor

/-! ## Writing -/

/-- An object is null until its first member is set. -/
def metadataJson (metadata : SortedMap Bytes Bytes) : Json :=
  if metadata.entries = [] then .null
  else .object (SortedMap.ofList (metadata.entries.map fun kv => (kv.1, Json.string kv.2))).entries

def entryJson (t : TensorDescriptor) (offset : Nat) : Json :=
  .object (SortedMap.ofList
    [(ascii "dtype", Json.string t.dtype),
      (ascii "shape", .array (t.shape.map fun s => .integer s.toInt)),
      (ascii "data_offsets", .array [.integer offset, .integer (offset + t.byteSize : Nat)])]).entries

/-- The tensors with their offsets in the data region. -/
def placed : Nat → List TensorDescriptor → List (Nat × TensorDescriptor)
  | _, [] => []
  | offset, t :: rest => (offset, t) :: placed (offset + t.byteSize) rest

def headerEntries (tensors : List TensorDescriptor) (metadata : SortedMap Bytes Bytes) :
    List (Bytes × Json) :=
  (metadataKey, metadataJson metadata) ::
    (placed 0 tensors).map fun p => (p.2.name, entryJson p.2 p.1)

def headerJson (tensors : List TensorDescriptor) (metadata : SortedMap Bytes Bytes) : Json :=
  .object (SortedMap.ofList (headerEntries tensors metadata)).entries

/-- Spaces up to an 8-byte boundary. -/
def padHeader (text : Bytes) : Bytes :=
  text ++ List.replicate ((8 - text.length % 8) % 8) 0x20

def safetensorsBytes (header : Bytes) (tensors : List TensorDescriptor) : Bytes :=
  toLittleEndian 8 header.length ++ (header ++ tensors.flatMap TensorDescriptor.bytes)

def writeSafetensors (library : JsonLibrary) (path : String) (tensors : List TensorDescriptor)
    (metadata : SortedMap Bytes Bytes) (disk : Disk) : Except SafetensorsError Disk :=
  match library.dump (headerJson tensors metadata) with
  | none => .error .json
  | some text =>
      if !disk.opens path then
        .error (.runtime ("ModelSerializer: cannot open for writing: " ++ path))
      else if !disk.writes path then .error (.runtime ("ModelSerializer: write error: " ++ path))
      else
        .ok { disk with
          files := disk.files.insert path (safetensorsBytes (padHeader text) tensors) }

/-! ## Reading -/

/-- The member that `at` finds. -/
def memberAt (entry : Json) (key : String) : Option Json :=
  match entry with
  | .object members => members.lookup (ascii key)
  | _ => none

def dtypeOf : Json → Option Bytes
  | .object members =>
      match members.lookup (ascii "dtype") with
      | none => some (ascii "F32")
      | some (.string dtype) => some dtype
      | some _ => none
  | _ => none

/-- The values that a loop over a document visits. -/
def rangeElements : Json → List Json
  | .null => []
  | .array elements => elements
  | .object members => members.map Prod.snd
  | value => [value]

def asInt64 : Json → Option Int64
  | .integer v => some (Int64.ofInt v)
  | .real v => some (Int64.ofInt (v.num.tdiv v.den))
  | _ => none

def asUInt64 : Json → Option Nat
  | .integer v => some (if 0 ≤ v then v.toNat else (v % 2 ^ 64).toNat)
  | .real v => some (v.num.tdiv v.den % 2 ^ 64).toNat
  | _ => none

def shapeOf (entry : Json) : Option (List Int64) :=
  (memberAt entry "shape").bind fun shape => (rangeElements shape).mapM asInt64

def offsetsOf (entry : Json) : Option (Nat × Nat) :=
  match memberAt entry "data_offsets" with
  | some (.array elements) =>
      (elements[0]?.bind asUInt64).bind fun start =>
        (elements[1]?.bind asUInt64).map fun stop => (start, stop)
  | _ => none

/-- One tensor; the region is what follows the header. -/
def readTensor (path : String) (region key : Bytes) (entry : Json) :
    Except SafetensorsError TensorDescriptor :=
  match dtypeOf entry, shapeOf entry, offsetsOf entry with
  | some dtype, some shape, some (start, stop) =>
      -- the difference wraps around
      if stop < start then .error .length
      else if stop - start ≠ 0 ∧ region.length < stop then
        .error (.runtime ("ModelSerializer: failed to read tensor '" ++ shown key ++ "' from " ++
          path))
      else
        .ok ⟨key, dtype, shape,
          wordsOf ((stop - start) / 4) ((region.drop start).take (stop - start))⟩
  | _, _, _ => .error .json

abbrev TensorMap := SortedMap Bytes TensorDescriptor

def readEntries (path : String) (region : Bytes) :
    List (Bytes × Json) → TensorMap → Except SafetensorsError TensorMap
  | [], result => .ok result
  | (key, entry) :: rest, result =>
      if key = metadataKey then readEntries path region rest result
      else
        match readTensor path region key entry with
        | .error error => .error error
        | .ok t => readEntries path region rest (result.insert key t)

def readSafetensors (library : JsonLibrary) (path : String) (disk : Disk) :
    Except SafetensorsError TensorMap :=
  match disk.files.lookup path with
  | none => .error (.runtime ("ModelSerializer: cannot open for reading: " ++ path))
  | some content =>
      let headerSize := littleEndian (content.take 8)
      let rest := content.drop 8
      if content.length < 8 ∨ headerSize = 0 then
        .error (.runtime ("ModelSerializer: invalid SafeTensors header size in " ++ path))
      else if rest.length < headerSize then
        .error (.runtime ("ModelSerializer: failed to read header from " ++ path))
      else
        match library.parse (rest.take headerSize) with
        | none => .error .json
        | some (.object members) => readEntries path (rest.drop headerSize) members SortedMap.empty
        | some .null | some (.array []) => .ok SortedMap.empty
        | some _ => .error .json

/-! ## Tensors in the data region -/

variable {tensors : List TensorDescriptor} {metadata : SortedMap Bytes Bytes}

theorem map_placed (offset : Nat) (tensors : List TensorDescriptor) :
    (placed offset tensors).map Prod.snd = tensors := by
  induction tensors generalizing offset with
  | nil => rfl
  | cons t rest ih => rw [placed, List.map_cons, ih]

/-- A tensor's bytes are at its offset. -/
theorem placed_bytes {front : Bytes} {offset : Nat} {t : TensorDescriptor}
    (member : (offset, t) ∈ placed front.length tensors) :
    ∃ before after, front ++ tensors.flatMap TensorDescriptor.bytes = before ++ (t.bytes ++ after) ∧
      before.length = offset := by
  induction tensors generalizing front with
  | nil => cases member
  | cons first rest ih =>
      rw [List.flatMap_cons]
      rcases List.mem_cons.mp member with here | later
      · obtain ⟨rfl, rfl⟩ := Prod.mk.inj here
        exact ⟨front, _, rfl, rfl⟩
      · rw [← List.append_assoc]
        apply ih
        rwa [List.length_append, first.length_bytes]

/-! ## One tensor -/

theorem shapeOf_entryJson (t : TensorDescriptor) (offset : Nat) :
    shapeOf (entryJson t offset) = some t.shape := by
  have shape : memberAt (entryJson t offset) "shape" =
      some (.array (t.shape.map fun s => .integer s.toInt)) := rfl
  rw [shapeOf, shape, Option.bind_some, rangeElements]
  induction t.shape with
  | nil => rfl
  | cons s rest ih =>
      rw [List.map_cons, List.mapM_cons, ih, asInt64, Int64.ofInt_toInt]
      rfl

theorem offsetsOf_entryJson (t : TensorDescriptor) (offset : Nat) :
    offsetsOf (entryJson t offset) = some (offset, offset + t.byteSize) := by
  have offsets : offsetsOf (entryJson t offset) =
      some ((if (0 : Int) ≤ offset then (offset : Int).toNat else ((offset : Int) % 2 ^ 64).toNat),
        if (0 : Int) ≤ (offset + t.byteSize : Nat) then ((offset + t.byteSize : Nat) : Int).toNat
        else (((offset + t.byteSize : Nat) : Int) % 2 ^ 64).toNat) := rfl
  rw [offsets, if_pos (Int.natCast_nonneg _), if_pos (Int.natCast_nonneg _), Int.toNat_natCast,
    Int.toNat_natCast]

/-- A tensor is read back from its entry and its bytes. -/
theorem readTensor_entryJson (path : String) (t : TensorDescriptor) (before after : Bytes) :
    readTensor path (before ++ (t.bytes ++ after)) t.name (entryJson t before.length) = .ok t := by
  have dtype : dtypeOf (entryJson t before.length) = some t.dtype := rfl
  have size : before.length + t.byteSize - before.length = t.bytes.length := by
    rw [t.length_bytes]
    omega
  have inside : ¬ (before.length + t.byteSize - before.length ≠ 0 ∧
      (before ++ (t.bytes ++ after)).length < before.length + t.byteSize) := by
    rintro ⟨-, short⟩
    rw [List.length_append, List.length_append, t.length_bytes] at short
    omega
  have count : t.bytes.length / 4 = t.data.length := by
    rw [t.length_bytes, TensorDescriptor.byteSize, Nat.mul_div_cancel _ (by decide)]
  rw [readTensor, dtype, shapeOf_entryJson, offsetsOf_entryJson]
  dsimp only
  rw [if_neg (by omega), if_neg inside, size, List.drop_left, List.take_left, count,
    TensorDescriptor.bytes, wordsOf_flatMap]

/-! ## All tensors -/

/-- What the members of a header are read as. -/
def readMembers (path : String) (region : Bytes) (members : List (Bytes × Json)) :
    List (Bytes × TensorDescriptor) :=
  members.filterMap fun member =>
    if member.1 = metadataKey then none
    else (readTensor path region member.1 member.2).toOption.map fun t => (member.1, t)

theorem readEntries_eq {path : String} {region : Bytes} {members : List (Bytes × Json)}
    (reads : ∀ member ∈ members, member.1 ≠ metadataKey →
      ∃ t, readTensor path region member.1 member.2 = .ok t) (result : TensorMap) :
    readEntries path region members result =
      .ok ((readMembers path region members).foldl (fun m entry => m.insert entry.1 entry.2)
        result) := by
  induction members generalizing result with
  | nil => rfl
  | cons member rest ih =>
      obtain ⟨key, entry⟩ := member
      have later := ih fun other inside => reads other (List.mem_cons_of_mem _ inside)
      rw [readEntries, readMembers, List.filterMap_cons]
      by_cases isMetadata : key = metadataKey
      · rw [if_pos isMetadata, if_pos isMetadata, later]
        rfl
      · obtain ⟨t, read⟩ := reads (key, entry) List.mem_cons_self isMetadata
        rw [if_neg isMetadata, if_neg isMetadata, read]
        exact later _

theorem keys_readMembers (path : String) (region : Bytes) (members : List (Bytes × Json)) :
    ((readMembers path region members).map Prod.fst).Sublist (members.map Prod.fst) := by
  induction members with
  | nil => exact List.Sublist.slnil
  | cons member rest ih =>
      rw [readMembers, List.filterMap_cons, List.map_cons]
      split
      · exact ih.cons _
      · rename_i entry read
        split at read
        · cases read
        · obtain ⟨t, -, rfl⟩ := Option.map_eq_some_iff.mp read
          exact ih.cons_cons _

theorem mem_readMembers {path : String} {region : Bytes} {members : List (Bytes × Json)}
    {name : Bytes} {t : TensorDescriptor} :
    (name, t) ∈ readMembers path region members ↔
      name ≠ metadataKey ∧ ∃ entry, (name, entry) ∈ members ∧
        readTensor path region name entry = .ok t := by
  rw [readMembers, List.mem_filterMap]
  constructor
  · rintro ⟨⟨key, entry⟩, member, read⟩
    obtain ⟨notMetadata, read⟩ := Option.ite_none_left_eq_some.mp read
    obtain ⟨t', ok, same⟩ := Option.map_eq_some_iff.mp read
    obtain ⟨rfl, rfl⟩ := Prod.mk.inj same
    refine ⟨notMetadata, entry, member, ?_⟩
    cases result : readTensor path region key entry with
    | error error =>
        rw [result] at ok
        cases ok
    | ok t'' =>
        rw [result] at ok
        rw [Option.some.inj ok]
  · rintro ⟨notMetadata, entry, member, read⟩
    refine ⟨(name, entry), member, ?_⟩
    rw [if_neg notMetadata, read]
    rfl

/-! ## Files -/

/-- The library gives the document back from the text that it dumped, with spaces
behind it. -/
def JsonLibrary.RoundTrips (library : JsonLibrary) (document : Json) : Prop :=
  ∃ text, library.dump document = some text ∧ text ≠ [] ∧ text.length < 2 ^ 63 ∧
    ∀ spaces, library.parse (text ++ List.replicate spaces 0x20) = some document

theorem keys_headerEntries (tensors : List TensorDescriptor) (metadata : SortedMap Bytes Bytes) :
    (headerEntries tensors metadata).map Prod.fst =
      metadataKey :: tensors.map TensorDescriptor.name := by
  rw [headerEntries, List.map_cons, List.map_map, ← congrArg (List.map _) (map_placed 0 tensors),
    List.map_map]
  rfl

theorem nodup_headerEntries (distinct : (tensors.map TensorDescriptor.name).Nodup)
    (named : ∀ t ∈ tensors, t.name ≠ metadataKey) :
    ((headerEntries tensors metadata).map Prod.fst).Nodup := by
  rw [keys_headerEntries, List.nodup_cons]
  refine ⟨fun member => ?_, distinct⟩
  obtain ⟨t, inside, same⟩ := List.mem_map.mp member
  exact named t inside same

theorem readTensor_placed (path : String) {p : Nat × TensorDescriptor}
    (member : p ∈ placed 0 tensors) :
    readTensor path (tensors.flatMap TensorDescriptor.bytes) p.2.name (entryJson p.2 p.1) =
      .ok p.2 := by
  have inside : (p.1, p.2) ∈ placed (List.length ([] : Bytes)) tensors := member
  obtain ⟨before, after, region, offset⟩ := placed_bytes inside
  rw [List.nil_append] at region
  rw [region, ← offset]
  exact readTensor_entryJson path p.2 before after

/-- A member of the header other than the metadata is a tensor's. -/
theorem exists_placed (distinct : ((headerEntries tensors metadata).map Prod.fst).Nodup)
    {key : Bytes} {entry : Json}
    (member : (key, entry) ∈ (SortedMap.ofList (headerEntries tensors metadata)).entries)
    (other : key ≠ metadataKey) :
    ∃ p ∈ placed 0 tensors, key = p.2.name ∧ entry = entryJson p.2 p.1 := by
  rcases List.mem_cons.mp ((SortedMap.mem_ofList distinct).mp member) with isMetadata | later
  · exact absurd (Prod.mk.inj isMetadata).1 other
  · obtain ⟨p, inside, same⟩ := List.mem_map.mp later
    obtain ⟨rfl, rfl⟩ := Prod.mk.inj same
    exact ⟨p, inside, rfl, rfl⟩

/-- The members of the header are read as the tensors. -/
theorem mem_readMembers_header {path : String} {name : Bytes} {t : TensorDescriptor}
    (distinct : ((headerEntries tensors metadata).map Prod.fst).Nodup)
    (named : ∀ t ∈ tensors, t.name ≠ metadataKey) :
    (name, t) ∈ readMembers path (tensors.flatMap TensorDescriptor.bytes)
        (SortedMap.ofList (headerEntries tensors metadata)).entries ↔
      t ∈ tensors ∧ t.name = name := by
  rw [mem_readMembers]
  constructor
  · rintro ⟨notMetadata, entry, member, read⟩
    obtain ⟨p, inside, rfl, rfl⟩ := exists_placed distinct member notMetadata
    rw [readTensor_placed path inside] at read
    obtain rfl := Except.ok.inj read
    have listed : p.2 ∈ (placed 0 tensors).map Prod.snd := List.mem_map_of_mem inside
    rw [map_placed] at listed
    exact ⟨listed, rfl⟩
  · rintro ⟨inside, rfl⟩
    have listed : t ∈ (placed 0 tensors).map Prod.snd := by
      rw [map_placed]
      exact inside
    obtain ⟨p, there, rfl⟩ := List.mem_map.mp listed
    refine ⟨named p.2 inside, entryJson p.2 p.1, ?_, readTensor_placed path there⟩
    rw [SortedMap.mem_ofList distinct]
    exact List.mem_cons_of_mem _ (List.mem_map.mpr ⟨p, there, rfl⟩)

/-- The reader finds the header and the data region of a file that was written. -/
theorem readSafetensors_bytes {library : JsonLibrary} {path : String} {disk : Disk}
    {header : Bytes} {members : List (Bytes × Json)}
    (stored : disk.files.lookup path = some (safetensorsBytes header tensors))
    (some_ : header ≠ []) (short : header.length < 2 ^ 64)
    (parsed : library.parse header = some (.object members)) :
    readSafetensors library path disk =
      readEntries path (tensors.flatMap TensorDescriptor.bytes) members SortedMap.empty := by
  have eight : (toLittleEndian 8 header.length).length = 8 := length_toLittleEndian 8 _
  have size : littleEndian ((safetensorsBytes header tensors).take 8) = header.length := by
    rw [safetensorsBytes, List.take_left' eight, littleEndian_toLittleEndian]
    exact short.trans_le (by decide)
  have rest : (safetensorsBytes header tensors).drop 8 =
      header ++ tensors.flatMap TensorDescriptor.bytes := by
    rw [safetensorsBytes, List.drop_left' eight]
  have long : ¬ ((safetensorsBytes header tensors).length < 8 ∨ header.length = 0) := by
    rintro (less | empty)
    · rw [safetensorsBytes, List.length_append, eight] at less
      omega
    · exact some_ (List.length_eq_zero_iff.mp empty)
  have whole : ¬ (header ++ tensors.flatMap TensorDescriptor.bytes).length < header.length := by
    rw [List.length_append]
    omega
  rw [readSafetensors, stored]
  dsimp only
  rw [size, rest, if_neg long, if_neg whole, List.take_left, List.drop_left, parsed]

theorem length_padHeader_le (text : Bytes) : (padHeader text).length ≤ text.length + 7 := by
  rw [padHeader, List.length_append, List.length_replicate]
  omega

/-- **Safetensors.** A file that was written is read as the tensors it was written for,
and holds the metadata in its header. -/
theorem safetensors_read_back (library : JsonLibrary) (path : String) (disk : Disk)
    (distinct : (tensors.map TensorDescriptor.name).Nodup)
    (named : ∀ t ∈ tensors, t.name ≠ metadataKey)
    (trips : library.RoundTrips (headerJson tensors metadata))
    (opens : disk.opens path = true) (writes : disk.writes path = true) :
    ∃ disk' result, writeSafetensors library path tensors metadata disk = .ok disk' ∧
      readSafetensors library path disk' = .ok result ∧
      (∀ name t, (name, t) ∈ result.entries ↔ t ∈ tensors ∧ t.name = name) ∧
      ∃ header members, disk'.files.lookup path = some (safetensorsBytes header tensors) ∧
        library.parse header = some (.object members) ∧
        (metadataKey, metadataJson metadata) ∈ members := by
  obtain ⟨text, dumped, some_, short, parses⟩ := trips
  have keys : ((headerEntries tensors metadata).map Prod.fst).Nodup :=
    nodup_headerEntries distinct named
  have stored : (disk.files.insert path (safetensorsBytes (padHeader text) tensors)).lookup path =
      some (safetensorsBytes (padHeader text) tensors) := AList.lookup_insert _
  have parsed : library.parse (padHeader text) = some (headerJson tensors metadata) := parses _
  have padded : padHeader text ≠ [] := List.append_ne_nil_of_left_ne_nil some_ _
  refine ⟨{ disk with files := disk.files.insert path (safetensorsBytes (padHeader text) tensors) },
    SortedMap.ofList (readMembers path (tensors.flatMap TensorDescriptor.bytes)
      (SortedMap.ofList (headerEntries tensors metadata)).entries),
    ?_, ?_, fun name t => ?_, padHeader text, _, stored, parsed, ?_⟩
  · rw [writeSafetensors, dumped]
    dsimp only
    rw [opens, writes]
    rfl
  · have bound := length_padHeader_le text
    rw [readSafetensors_bytes stored padded (by omega) parsed]
    refine readEntries_eq (fun member inside notMetadata => ?_) SortedMap.empty
    obtain ⟨p, there, key, entry⟩ := exists_placed keys inside notMetadata
    rw [key, entry]
    exact ⟨p.2, readTensor_placed path there⟩
  · have sorted := (SortedMap.ofList (headerEntries tensors metadata)).sorted
    have nodup : ((SortedMap.ofList (headerEntries tensors metadata)).entries.map Prod.fst).Nodup := by
      refine List.pairwise_map.mpr (sorted.imp ?_)
      intro first second before same
      rw [same] at before
      exact irrefl_of (· < ·) second.1 before
    refine (SortedMap.mem_ofList ((keys_readMembers ..).nodup nodup)).trans ?_
    exact mem_readMembers_header keys named
  · exact (SortedMap.mem_ofList keys).mpr List.mem_cons_self

/-! ## A file -/

/-- The JSON library at one document and its text. -/
def JsonLibrary.at (text : Bytes) (document : Json) : JsonLibrary :=
  ⟨fun _ => some text, fun _ => some document⟩

theorem JsonLibrary.at_roundTrips {text : Bytes} (document : Json) (some_ : text ≠ [])
    (short : text.length < 2 ^ 63) : (JsonLibrary.at text document).RoundTrips document :=
  ⟨text, rfl, some_, short, fun _ => rfl⟩

def smallTensors : List TensorDescriptor :=
  [⟨ascii "weight", ascii "F32", [2], [0x3F800000, 0x40000000]⟩,
    ⟨ascii "bias", ascii "F32", [0], []⟩]

def smallMetadata : SortedMap Bytes Bytes := .ofList [(ascii "format", ascii "pt")]

def smallText : Bytes :=
  ascii ("\x7b\"__metadata__\":\x7b\"format\":\"pt\"\x7d," ++
    "\"bias\":\x7b\"data_offsets\":[8,8],\"dtype\":\"F32\",\"shape\":[0]\x7d," ++
    "\"weight\":\x7b\"data_offsets\":[0,8],\"dtype\":\"F32\",\"shape\":[2]\x7d\x7d")

set_option maxRecDepth 2000 in
theorem safetensors_read_back_small :
    let library := JsonLibrary.at smallText (headerJson smallTensors smallMetadata)
    ∃ disk result,
      writeSafetensors library "model.safetensors" smallTensors smallMetadata Disk.empty = .ok disk ∧
      readSafetensors library "model.safetensors" disk = .ok result ∧
      ∀ name t, (name, t) ∈ result.entries ↔ t ∈ smallTensors ∧ t.name = name := by
  intro library
  obtain ⟨disk, result, written, read, same, -⟩ :=
    safetensors_read_back library "model.safetensors" Disk.empty (by decide) (by decide)
      (JsonLibrary.at_roundTrips _ (by decide) (by decide)) rfl rfl
  exact ⟨disk, result, written, read, same⟩

/-- Nothing that is read tells an empty metadata map from another one. -/
theorem safetensors_metadata_lost :
    ¬ ∃ metadataOf : TensorMap → SortedMap Bytes Bytes,
      ∀ (library : JsonLibrary) (path : String) (disk disk' : Disk)
        (tensors : List TensorDescriptor) (metadata : SortedMap Bytes Bytes) (result : TensorMap),
        (tensors.map TensorDescriptor.name).Nodup → (∀ t ∈ tensors, t.name ≠ metadataKey) →
        library.RoundTrips (headerJson tensors metadata) →
        writeSafetensors library path tensors metadata disk = .ok disk' →
        readSafetensors library path disk' = .ok result → metadataOf result = metadata := by
  rintro ⟨metadataOf, recovers⟩
  have empty := recovers
    (JsonLibrary.at (ascii "\x7b\"__metadata__\":null\x7d") (headerJson [] SortedMap.empty))
    "model.safetensors" Disk.empty _ [] SortedMap.empty _ (by decide) (by decide)
    (JsonLibrary.at_roundTrips _ (by decide) (by decide)) rfl rfl
  have filled := recovers
    (JsonLibrary.at (ascii "\x7b\"__metadata__\":\x7b\"format\":\"pt\"\x7d\x7d")
      (headerJson [] smallMetadata))
    "model.safetensors" Disk.empty _ [] smallMetadata _ (by decide) (by decide)
    (JsonLibrary.at_roundTrips _ (by decide) (by decide)) rfl rfl
  have same := congrArg SortedMap.entries (empty.symm.trans filled)
  revert same
  decide

end Adai.Checkpoint

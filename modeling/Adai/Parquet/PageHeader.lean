import Adai.Math.Readers
import Adai.Math.ByteNumbers

/-! # Reading page headers

Page headers are Thrift structs in the compact protocol. A cursor is the list of
the bytes from its position on. Fields the reader does not need are skipped,
whatever their type; a value nested too deeply is refused.
-/

namespace Adai.Parquet

open Readers ByteNumbers

abbrev Bytes := List UInt8

/-! ## Primitives -/

/-- The rounds of `read_varint`, from the given shift on. -/
def varintLoop : Nat → Nat → Nat → Reader UInt8 Nat
  | 0, _, _ => failure
  | rounds + 1, shift, out => do
      let b ← next
      let out := out ||| ((b.toNat % 128) <<< shift) % 2 ^ 64
      if b.toNat < 128 then return out
      varintLoop rounds (shift + 7) out

def readVarint : Reader UInt8 Nat := varintLoop 10 0 0

def readZigzagVarint : Reader UInt8 Int := unfoldSign <$> readVarint

def readBinary : Reader UInt8 Bytes := do
  let len ← readVarint
  takeMany len

/-- The element type and the size of a list, if that many bytes are left. -/
def readListHeader : Reader UInt8 (Nat × Nat) := do
  let h ← next
  let size ← if h.toNat / 16 = 15 then readVarint else pure (h.toNat / 16)
  fun rest => if rest.length < size then none else some ((h.toNat % 16, size), rest)

/-! ## Skipping values -/

def skipListElement (skip : Nat → Reader UInt8 Unit) (elemType : Nat) : Reader UInt8 Unit :=
  if elemType = 1 ∨ elemType = 2 then (fun _ => ()) <$> next else skip elemType

/-- One round of the loop over the fields of a skipped struct. The field id, kept
by the source, is not used. -/
def skipField (skip : Nat → Reader UInt8 Unit) (_ : Unit) : Reader UInt8 (Unit ⊕ Unit) := do
  let b ← next
  if b = 0 then return .inr ()
  if b.toNat / 16 = 0 then
    let _ ← readZigzagVarint
  skip (b.toNat % 16)
  return .inl ()

/-- The value of a compact-protocol type, while nested no deeper than the levels
left. -/
def skipValue : Nat → Nat → Reader UInt8 Unit
  | 0, _ => failure
  | levels + 1, type =>
      if type = 1 ∨ type = 2 then pure ()
      else if type = 3 then (fun _ => ()) <$> next
      else if type = 4 ∨ type = 5 ∨ type = 6 then (fun _ => ()) <$> readZigzagVarint
      else if type = 7 then (fun _ => ()) <$> takeMany 8
      else if type = 8 then (fun _ => ()) <$> readBinary
      else if type = 9 ∨ type = 10 then do
        let (elemType, size) ← readListHeader
        let _ ← times (skipListElement (skipValue levels) elemType) size
        return ()
      else if type = 12 then untilDone (skipField (skipValue levels)) ()
      else failure

def kMaxSkipDepth : Nat := 64

/-- The levels of a value that is not nested: depths 0 to `kMaxSkipDepth`. -/
def skipTop : Nat → Reader UInt8 Unit := skipValue (kMaxSkipDepth + 1)

/-! ## Structs -/

/-- A 64-bit number cast to 32 bits. -/
def toInt32 (v : Int) : Int := v.bmod (2 ^ 32)

/-- The id and type of the next field, or the end of the struct. -/
def nextField (lastFieldId : Int) : Reader UInt8 (Option (Int × Nat)) := do
  let b ← next
  if b = 0 then return none
  let id ←
    if b.toNat / 16 = 0 then toInt32 <$> readZigzagVarint
    else pure (lastFieldId + (b.toNat / 16 : Nat))
  return some (id, b.toNat % 16)

/-- One round of the loop over the fields of a struct, which each change a record. -/
def structRound {α : Type} (field : Int → Nat → α → Reader UInt8 α) (state : Int × α) :
    Reader UInt8 ((Int × α) ⊕ α) := do
  match ← nextField state.1 with
  | none => return .inr state.2
  | some (id, type) =>
      let record ← field id type state.2
      return .inl (id, record)

def parseStruct {α : Type} (field : Int → Nat → α → Reader UInt8 α) (record : α) :
    Reader UInt8 α :=
  untilDone (structRound field) (0, record)

/-! ## The page header -/

structure PageHeader where
  type : Int := 0
  uncompressedPageSize : Int := 0
  compressedPageSize : Int := 0
  hasDataPageHeader : Bool := false
  dpNumValues : Int := 0
  dpEncoding : Int := 0
  hasDictionaryPageHeader : Bool := false
  dictNumValues : Int := 0
  hasDataPageHeaderV2 : Bool := false
  deriving DecidableEq, Repr

def PageHeader.dataPage : Int := 0

def PageHeader.dictionaryPage : Int := 2

def dataPageHeaderField (id : Int) (type : Nat) (out : PageHeader) : Reader UInt8 PageHeader :=
  if id = 1 then do
    let v ← readZigzagVarint
    return { out with dpNumValues := toInt32 v }
  else if id = 2 then do
    let v ← readZigzagVarint
    return { out with dpEncoding := toInt32 v }
  else do
    skipTop type
    return out

def dictionaryPageHeaderField (id : Int) (type : Nat) (out : PageHeader) :
    Reader UInt8 PageHeader :=
  if id = 1 then do
    let v ← readZigzagVarint
    return { out with dictNumValues := toInt32 v }
  else do
    skipTop type
    return out

def pageHeaderField (id : Int) (type : Nat) (out : PageHeader) : Reader UInt8 PageHeader :=
  if id = 1 then do
    let v ← readZigzagVarint
    return { out with type := toInt32 v }
  else if id = 2 then do
    let v ← readZigzagVarint
    return { out with uncompressedPageSize := toInt32 v }
  else if id = 3 then do
    let v ← readZigzagVarint
    return { out with compressedPageSize := toInt32 v }
  else if id = 5 then do
    let out ← parseStruct dataPageHeaderField out
    return { out with hasDataPageHeader := true }
  else if id = 7 then do
    let out ← parseStruct dictionaryPageHeaderField out
    return { out with hasDictionaryPageHeader := true }
  else if id = 8 then do
    skipTop type
    return { out with hasDataPageHeaderV2 := true }
  else do
    skipTop type
    return out

def parsePageHeader : Reader UInt8 PageHeader := parseStruct pageHeaderField {}

end Adai.Parquet

import Adai.Tokenizer.Training
import Adai.Tokenizer.VocabText

/-! # Saving and loading a vocabulary

`BPETokenizer.saveVocab` writes the vocabulary to a temporary file and renames it
into place; a save that fails leaves the other files as they are
(`saveVocab_failed`). `BPETokenizer.loadVocab` empties the tokenizer and then reads
the file line by line: comment and header lines are recognised by how they begin,
whatever section they stand in, and every other line belongs to the section that
was opened last. An error leaves what was read up to then.
-/

namespace Adai.Tokenizer

open Tables

/-- Files by name, and what goes wrong when one is written. -/
structure Disk where
  files : Table String Bytes
  opens : String → Bool
  writes : String → Bool
  renames : String → Option String

/-- A disk without files on which every write succeeds. -/
def Disk.empty : Disk := ⟨∅, fun _ => true, fun _ => true, fun _ => none⟩

/-- Bytes as they stand in a message. -/
def shown (s : Bytes) : String := String.ofList (s.map fun c => Char.ofNat c.toNat)

namespace BPETokenizer

/-! ## Saving -/

def modeName : TokenizerMode → Bytes
  | .unicode => ascii "UNICODE"
  | .ascii => ascii "ASCII"

def normalizationName : TextNormalization → Bytes
  | .cased => ascii "CASED"
  | .lowercase => ascii "LOWERCASE"

def headerLines (t : BPETokenizer) : List Bytes :=
  [ascii "# BPE Tokenizer Vocabulary v2.0",
    ascii "TOKENIZER_MODE " ++ modeName t.mode,
    ascii "NORMALIZATION " ++ normalizationName t.normalization,
    ascii "VOCAB_SIZE " ++ digits (size t.vocab),
    ascii "SPECIAL_TOKENS",
    ascii "pad_token_id " ++ decimal t.padTokenId,
    ascii "unk_token_id " ++ decimal t.unkTokenId,
    ascii "bos_token_id " ++ decimal t.bosTokenId,
    ascii "eos_token_id " ++ decimal t.eosTokenId,
    ascii "VOCAB"]

def vocabLine (entry : Σ _ : Bytes, Int) : Bytes := escape entry.1 ++ 0x09 :: decimal entry.2

def mergeLine (merge : Bytes × Bytes) : Bytes := escape merge.1 ++ 0x09 :: escape merge.2

def vocabLines (t : BPETokenizer) (order : HashOrder) : List Bytes :=
  t.headerLines ++ (order.walk t.vocab.entries).map vocabLine ++
    (ascii "BPE_MERGES " ++ digits t.bpeMerges.length) :: t.bpeMerges.map mergeLine

def saveVocab (t : BPETokenizer) (order : HashOrder) (filename : String) (disk : Disk) :
    Option TokenizerError × Disk :=
  let tmp := filename ++ ".tmp"
  let cleaned := { disk with files := disk.files.erase tmp }
  if filename = "" then (some (.vocabularyFile "Vocabulary filename is empty"), disk)
  else if !disk.opens tmp then
    (some (.vocabularyFile ("Could not open vocabulary file for writing: " ++ tmp)), disk)
  else if !disk.writes tmp then
    (some (.vocabularyFile ("Failed writing vocabulary file: " ++ tmp)), cleaned)
  else
    match disk.renames filename with
    | some reason =>
        (some (.vocabularyFile ("Could not move vocabulary file into place: " ++ filename ++ " (" ++
          reason ++ ")")), cleaned)
    | none =>
        (none, { cleaned with
          files := cleaned.files.insert filename (fileText (t.vocabLines order)) })

/-! ## Loading -/

def formatComment : Bytes := ascii "# BPE Tokenizer Vocabulary v"

/-- The section that was opened last; `none_` before the first one. -/
inductive FileSection
  | none_
  | specialTokens
  | vocab
  | bpeMerges
  deriving DecidableEq, Repr

structure LoadState where
  tokenizer : BPETokenizer
  part : FileSection

/-- A line of the special tokens; a key that is not known is passed over. -/
def loadSpecial (filename : String) (t : BPETokenizer) (line : Bytes) :
    Except TokenizerError BPETokenizer :=
  match breakAt 0x20 line with
  | none => .error (.vocabularyFile
      ("Malformed SPECIAL_TOKENS line in " ++ filename ++ ": " ++ shown line))
  | some (key, value) =>
      match stoi value with
      | .error .invalidArgument => .error (.vocabularyFile
          ("Invalid integer value for special token in " ++ filename ++ ": " ++ shown value))
      | .error .outOfRange => .error (.vocabularyFile
          ("Special token ID out of range in " ++ filename ++ ": " ++ shown value))
      | .ok id =>
          if key = ascii "pad_token_id" then .ok { t with padTokenId := id }
          else if key = ascii "unk_token_id" then .ok { t with unkTokenId := id }
          else if key = ascii "bos_token_id" then .ok { t with bosTokenId := id }
          else if key = ascii "eos_token_id" then .ok { t with eosTokenId := id }
          else .ok t

def isSpecialId (t : BPETokenizer) (id : Int) : Bool :=
  id = t.padTokenId || id = t.unkTokenId || id = t.bosTokenId || id = t.eosTokenId

/-- The token gets the id, and is special if the id is. -/
def addEntry (t : BPETokenizer) (token : Bytes) (id : Int) : BPETokenizer :=
  if t.isSpecialId id then
    { t.assign token id with specialTokens := insert token t.specialTokens }
  else t.assign token id

def loadEntry (filename : String) (t : BPETokenizer) (line : Bytes) :
    Except TokenizerError BPETokenizer :=
  match breakAt 0x09 line with
  | none => .error (.vocabularyFile
      ("Malformed VOCAB line (missing tab separator) in " ++ filename ++ ": " ++ shown line))
  | some (token, value) =>
      match stoi value with
      | .error .invalidArgument => .error (.vocabularyFile
          ("Invalid token ID in " ++ filename ++ ": " ++ shown value))
      | .error .outOfRange => .error (.vocabularyFile
          ("Token ID out of range in " ++ filename ++ ": " ++ shown value))
      | .ok id =>
          if id < 0 then .error (.vocabularyFile
            ("Negative token ID in " ++ filename ++ ": " ++ toString id))
          else .ok (t.addEntry (unescape token) id)

def loadMerge (filename : String) (t : BPETokenizer) (line : Bytes) :
    Except TokenizerError BPETokenizer :=
  match breakAt 0x09 line with
  | none => .error (.vocabularyFile
      ("Malformed BPE_MERGES line (missing tab separator) in " ++ filename ++ ": " ++ shown line))
  | some (first, second) =>
      if unescape first = [] ∨ unescape second = [] then
        .error (.vocabularyFile ("Empty merge token in " ++ filename))
      else .ok { t with bpeMerges := t.bpeMerges ++ [(unescape first, unescape second)] }

/-- A line that is neither a comment nor a header belongs to the section. -/
def loadInSection (filename : String) (s : LoadState) (line : Bytes) :
    Except TokenizerError BPETokenizer :=
  match s.part with
  | .none_ => .error (.vocabularyFile
      ("Unknown vocabulary header line in " ++ filename ++ ": " ++ shown line))
  | .specialTokens => loadSpecial filename s.tokenizer line
  | .vocab => loadEntry filename s.tokenizer line
  | .bpeMerges => loadMerge filename s.tokenizer line

def loadNormalization (filename : String) (t : BPETokenizer) (value : Bytes) :
    Except TokenizerError BPETokenizer :=
  if value = ascii "CASED" then .ok { t with normalization := .cased }
  else if value = ascii "LOWERCASE" then .ok { t with normalization := .lowercase }
  else .error (.vocabularyFile ("Unknown NORMALIZATION '" ++ shown value ++ "' in " ++ filename))

/-- One line: comments first, then the headers in this order, then the section. -/
def loadLine (filename : String) (s : LoadState) (line : Bytes) :
    Except TokenizerError LoadState :=
  if formatComment <+: line then
    if atoi (line.drop formatComment.length) > 2 then
      .error (.vocabularyFile (filename ++ " is vocabulary format v" ++
        shown (line.drop formatComment.length) ++
        ", newer than this build reads (v2); update the binary"))
    else .ok s
  else if line = [] ∨ line.head? = some 0x23 then .ok s
  else if ascii "NORMALIZATION" <+: line then
    (loadNormalization filename s.tokenizer (line.drop 14)).map fun t => { s with tokenizer := t }
  else if ascii "TOKENIZER_MODE" <+: line then
    if line.length < 15 then .error (.outOfRange "basic_string::substr")
    else
      let mode := if line.drop 15 = ascii "UNICODE" then .unicode else .ascii
      .ok { s with tokenizer := { s.tokenizer with mode := mode } }
  else if ascii "VOCAB_SIZE" <+: line then .ok s
  else if line = ascii "SPECIAL_TOKENS" then .ok { s with part := .specialTokens }
  else if line = ascii "VOCAB" then .ok { s with part := .vocab }
  else if ascii "BPE_MERGES" <+: line then .ok { s with part := .bpeMerges }
  else (loadInSection filename s line).map fun t => { s with tokenizer := t }

/-- An error ends the loop where it is. -/
def loadLines (filename : String) (s : LoadState) : List Bytes → Option TokenizerError × LoadState
  | [] => (none, s)
  | line :: rest =>
      match loadLine filename s line with
      | .error e => (some e, s)
      | .ok s' => loadLines filename s' rest

/-- The tables are emptied before anything is read; without a header the text is
lowercased and cut in ASCII mode. -/
def cleared (t : BPETokenizer) : BPETokenizer :=
  { t with
    mode := .ascii
    normalization := .lowercase
    vocab := ∅
    inverseVocab := ∅
    bpeMerges := []
    specialTokens := ∅ }

/-- The special tokens' names are written once more. -/
def withSpecials (t : BPETokenizer) : BPETokenizer :=
  { t with
    specialTokens := insert eosToken (insert bosToken (insert unkToken (insert padToken
      t.specialTokens)))
    inverseVocab := (((t.inverseVocab.insert t.padTokenId padToken).insert t.unkTokenId
      unkToken).insert t.bosTokenId bosToken).insert t.eosTokenId eosToken }

/-- The special tokens must be there. -/
def finishLoad (filename : String) (t : BPETokenizer) : Option TokenizerError × BPETokenizer :=
  if t.vocab.entries = [] then
    (some (.vocabularyFile ("Loaded vocabulary is empty from file: " ++ filename)), t)
  else if padToken ∉ t.vocab ∨ unkToken ∉ t.vocab ∨ bosToken ∉ t.vocab ∨ eosToken ∉ t.vocab then
    (some (.vocabularyFile ("Missing required special tokens in " ++ filename)), t)
  else (none, t.withSpecials)

/-- The lines of the file, read into an emptied tokenizer. -/
def loadText (t : BPETokenizer) (filename : String) (lines : List Bytes) :
    Option TokenizerError × BPETokenizer :=
  match loadLines filename ⟨t.cleared, .none_⟩ lines with
  | (some e, s) => (some e, s.tokenizer)
  | (none, s) => finishLoad filename s.tokenizer

def loadVocab (t : BPETokenizer) (filename : String) (disk : Disk) :
    Option TokenizerError × BPETokenizer :=
  if filename = "" then (some (.vocabularyFile "Vocabulary filename is empty"), t)
  else
    match disk.files.lookup filename with
    | none => (some (.vocabularyFile ("Could not open vocabulary file: " ++ filename)), t)
    | some content => t.loadText filename (getlines content)

/-! ## What a save leaves -/

/-- A save that succeeds leaves the vocabulary under its name. -/
theorem saveVocab_saved {t : BPETokenizer} {order : HashOrder} {filename : String}
    {disk disk' : Disk} (saved : t.saveVocab order filename disk = (none, disk')) :
    filename ≠ "" ∧ disk'.files.lookup filename = some (fileText (t.vocabLines order)) := by
  simp only [saveVocab] at saved
  split at saved
  · cases saved
  · rename_i named
    refine ⟨named, ?_⟩
    split at saved
    · cases saved
    · split at saved
      · cases saved
      · split at saved
        · cases saved
        · obtain rfl := (Prod.mk.inj saved).2
          exact AList.lookup_insert _

/-- A save that succeeds leaves the other files as they were. -/
theorem saveVocab_other {t : BPETokenizer} {order : HashOrder} {filename other : String}
    {disk disk' : Disk} (saved : t.saveVocab order filename disk = (none, disk'))
    (apart : other ≠ filename) (kept : other ≠ filename ++ ".tmp") :
    disk'.files.lookup other = disk.files.lookup other := by
  simp only [saveVocab] at saved
  split at saved
  · cases saved
  · split at saved
    · cases saved
    · split at saved
      · cases saved
      · split at saved
        · cases saved
        · rw [← (Prod.mk.inj saved).2]
          exact (AList.lookup_insert_ne apart).trans (AList.lookup_erase_ne kept)

/-- A save that fails leaves every file but the temporary one as it was. -/
theorem saveVocab_failed {t : BPETokenizer} {order : HashOrder} {filename other : String}
    {disk disk' : Disk} {e : TokenizerError}
    (failed : t.saveVocab order filename disk = (some e, disk'))
    (kept : other ≠ filename ++ ".tmp") : disk'.files.lookup other = disk.files.lookup other := by
  simp only [saveVocab] at failed
  split at failed
  · rw [← (Prod.mk.inj failed).2]
  · split at failed
    · rw [← (Prod.mk.inj failed).2]
    · split at failed
      · rw [← (Prod.mk.inj failed).2]
        exact AList.lookup_erase_ne kept
      · split at failed
        · rw [← (Prod.mk.inj failed).2]
          exact AList.lookup_erase_ne kept
        · cases failed

end BPETokenizer

end Adai.Tokenizer

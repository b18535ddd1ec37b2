import Adai.Checkpoint.BinaryIO
import Adai.Math.ItemFormat
import Adai.Samples.SplitData
import Adai.Tokenizer.Coding

/-! # The tokenized-data cache

`preprocess_data` tokenizes the training and the validation pairs, writes them to a cache, and
then drops the pairs that it skipped. A later run that loads this cache restores the token
counts from it and drops the same pairs.
-/

namespace Adai.Samples

open Tokenizer Checkpoint Readers

/-! ## Tokenizers -/

/-- What the preprocessing calls of a tokenizer; the special tokens are put around the ids. -/
structure Encoder where
  encode : Bytes → Bool → Except TokenizerError (List Int32)
  bosTokenId : Int32
  eosTokenId : Int32
  special : ∀ text ids, encode text true = .ok ids →
    ∃ content, ids = bosTokenId :: (content ++ [eosTokenId])

theorem BPETokenizer.encode_special {t : BPETokenizer} {text : Bytes} {ids : List Int32}
    (encoded : (t.encode text true).map (List.map Int32.ofInt) = .ok ids) :
    ∃ content, ids = Int32.ofInt t.bosTokenId :: (content ++ [Int32.ofInt t.eosTokenId]) := by
  unfold BPETokenizer.encode at encoded
  split at encoded
  · cases encoded
  · split at encoded
    · cases encoded
    · next tokens _ =>
        obtain rfl := Except.ok.inj encoded
        refine ⟨(tokens.map t.tokenId).map Int32.ofInt, ?_⟩
        rw [if_pos rfl, List.map_cons, List.map_append]
        rfl

/-- The ids of the tokenizer as the machine's integers. -/
def BPETokenizer.encoder (t : BPETokenizer) : Encoder where
  encode := fun text addSpecialTokens =>
    (t.encode text addSpecialTokens).map (List.map Int32.ofInt)
  bosTokenId := Int32.ofInt t.bosTokenId
  eosTokenId := Int32.ofInt t.eosTokenId
  special := fun _ _ => BPETokenizer.encode_special

/-! ## Truncation -/

/-- The tail of a text, from the next character boundary on. -/
def truncateTextTail (s : Bytes) (maxChars : Nat) : Bytes :=
  if s.length ≤ maxChars then s
  else (s.drop (s.length - maxChars)).dropWhile isContinuation

/-- The start of the character at an index. -/
def characterStart (s : Bytes) : Nat → Nat
  | 0 => 0
  | i + 1 => if isContinuation (s.getD (i + 1) 0) then characterStart s i else i + 1

/-- `clip_text`: the head of a text, up to a character boundary. -/
def clipText (maxChars : Nat) (s : Bytes) : Bytes :=
  if s.length ≤ maxChars then s else s.take (characterStart s maxChars)

/-- The size is cast to an `int`. What a negative length does is undefined. -/
def truncateTokensTail (ids : List Int32) (maxLen : Int32) : List Int32 :=
  if maxLen < Int32.ofNat ids.length then ids.drop (ids.length - maxLen.toInt.toNat) else ids

def truncateTargetKeepEos (ids : List Int32) (maxLen eosId : Int32) : List Int32 :=
  if 0 < maxLen ∧ maxLen < Int32.ofNat ids.length then
    (ids.take maxLen.toInt.toNat).dropLast ++ [eosId]
  else ids

def stripLeadingBos (ids : List Int32) (bosId : Int32) : List Int32 :=
  match ids with
  | [] => []
  | id :: rest => if id = bosId then rest else id :: rest

/-! ## Tokenizing -/

structure TokenizedPair where
  inputTokens : List Int32 := []
  targetTokens : List Int32 := []
  inputText : Bytes := []
  targetText : Bytes := []
  deriving DecidableEq, Repr

/-- The length limit, whether a cache is used and can be written, and which of the two
arguments of a tokenized pair the compiler evaluates first. -/
structure Settings where
  maxSeqLength : Int32
  cached : Bool := true
  writable : Bool := true
  inputFirst : Bool := true
  deriving DecidableEq, Repr

/-- The product as a `size_t`. -/
def Settings.maxChars (settings : Settings) : Nat :=
  ((settings.maxSeqLength.toInt * 5) % 18446744073709551616).toNat

section Tokenizing

variable (enc : Encoder) (settings : Settings)

def inputTokens (pair : ConversationPair) : Except TokenizerError (List Int32) :=
  (enc.encode (truncateTextTail pair.input settings.maxChars) false).map fun ids =>
    truncateTokensTail ids settings.maxSeqLength

def targetTokens (pair : ConversationPair) : Except TokenizerError (List Int32) :=
  (enc.encode (clipText settings.maxChars pair.response) true).map fun ids =>
    truncateTargetKeepEos (stripLeadingBos ids enc.bosTokenId) settings.maxSeqLength
      enc.eosTokenId

def tokenizedPair (pair : ConversationPair) : Except TokenizerError TokenizedPair :=
  if settings.inputFirst then do
    let input ← inputTokens enc settings pair
    let target ← targetTokens enc settings pair
    return ⟨input, target, pair.input, pair.response⟩
  else do
    let target ← targetTokens enc settings pair
    let input ← inputTokens enc settings pair
    return ⟨input, target, pair.input, pair.response⟩

/-- The pair with the number of its tokens. -/
def withTokenCount (pair : ConversationPair) (tokens : TokenizedPair) : ConversationPair :=
  { pair with info := { pair.info with
      tokenCount := Int32.ofNat (tokens.inputTokens.length + tokens.targetTokens.length) } }

/-- A pair that is skipped keeps empty tokens. An error other than that of an encoding is not
caught. -/
def tokenizePair (pair : ConversationPair) : Option (ConversationPair × TokenizedPair) :=
  if pair.input = [] ∨ pair.response = [] then some (pair, {})
  else
    match tokenizedPair enc settings pair with
    | .ok tokens => some (withTokenCount pair tokens, tokens)
    | .error (.encoding _) => some (pair, {})
    | .error _ => none

/-- The pairs of one set. The number of pairs is cast to an `int`, which must not be negative;
pairs from there on get no tokens. -/
def tokenizeSet (raw : List ConversationPair) :
    Option (List ConversationPair × List TokenizedPair) :=
  let count := (Int32.ofNat raw.length).toInt
  if count < 0 then none
  else
    match (raw.take count.toNat).mapM (tokenizePair enc settings) with
    | none => none
    | some done => some (done.map Prod.fst ++ raw.drop count.toNat, done.map Prod.snd)

end Tokenizing

/-! ## The cache file -/

def tokenizedCacheMagic : Nat := 0x544B4331

/-- Ids as 32-bit words. -/
def idItems : CellItems UInt8 Int32 where
  width := 4
  cell := fun id => wordBytes id.toUInt32
  uncell := fun piece => (wordOf piece).toInt32
  length_cell := fun id => length_wordBytes id.toUInt32
  uncell_cell := fun id => congrArg UInt32.toInt32 (wordOf_wordBytes id.toUInt32)

def writeU32 (n : Nat) : Bytes := ByteItems.plain.writeNat 4 n

def readU32 : Reader UInt8 Nat := ByteItems.plain.readNat 4

/-- The size of a list is written in 32 bits. -/
def writeIds (ids : List Int32) : Bytes := writeU32 ids.length ++ ids.flatMap idItems.cell

def writeText (text : Bytes) : Bytes := writeU32 text.length ++ text

def writeTokenizedPair (p : TokenizedPair) : Bytes :=
  writeIds p.inputTokens ++ (writeIds p.targetTokens ++
    (writeText p.inputText ++ writeText p.targetText))

def readIds : Reader UInt8 (List Int32) := do
  let n ← readU32
  times idItems.readCell n

def readText : Reader UInt8 Bytes := do
  let n ← readU32
  takeMany n

def readTokenizedPair : Reader UInt8 TokenizedPair := do
  let inputTokens ← readIds
  let targetTokens ← readIds
  let inputText ← readText
  let targetText ← readText
  return ⟨inputTokens, targetTokens, inputText, targetText⟩

def saveTokenizedCache (training validation : List TokenizedPair) : Bytes :=
  writeU32 tokenizedCacheMagic ++ (ByteItems.plain.writeNat 8 training.length ++
    (ByteItems.plain.writeNat 8 validation.length ++
      ((training.map writeTokenizedPair).flatten ++ (validation.map writeTokenizedPair).flatten)))

def readCache (data : TrainerData) :
    Reader UInt8 (List TokenizedPair × List TokenizedPair) := do
  let magic ← readU32
  let nTrain ← ByteItems.plain.readNat 8
  let nVal ← ByteItems.plain.readNat 8
  if magic = tokenizedCacheMagic ∧ nTrain = data.trainingData.length ∧
      nVal = data.validationData.length then do
    let training ← times readTokenizedPair nTrain
    let validation ← times readTokenizedPair nVal
    return (training, validation)
  else failure

/-- What a skipped pair leaves. -/
def TokenizedPair.placeholder (p : TokenizedPair) : Bool :=
  p.inputTokens.isEmpty && p.targetTokens.isEmpty && p.inputText.isEmpty && p.targetText.isEmpty

/-- The tokens are those of the pair, by its texts, or of a skipped pair. -/
def belongs (raw : ConversationPair) (p : TokenizedPair) : Bool :=
  p.placeholder || (p.inputText == raw.input && p.targetText == raw.response)

def aligned (raw : List ConversationPair) (tokens : List TokenizedPair) : Bool :=
  (raw.zip tokens).all fun entry => belongs entry.1 entry.2

/-- What a trainer holds of its data. -/
structure Prepared where
  data : TrainerData
  tokenizedTraining : List TokenizedPair := []
  tokenizedValidation : List TokenizedPair := []
  trainingIndices : List Nat := []
  deriving DecidableEq, Repr

def loadTokenizedCache (file : Bytes) (trainer : Prepared) : Bool × Prepared :=
  match readCache trainer.data file with
  | none => (false, trainer)
  | some ((training, validation), _) =>
      if aligned trainer.data.trainingData training &&
          aligned trainer.data.validationData validation then
        (true, { trainer with tokenizedTraining := training, tokenizedValidation := validation })
      else (false, trainer)

/-! ## Preprocessing -/

/-- Whether both sides of a pair have tokens. -/
def TokenizedPair.kept (p : TokenizedPair) : Bool :=
  !(p.inputTokens.isEmpty || p.targetTokens.isEmpty)

def keptPairs (raw : List ConversationPair) (tokens : List TokenizedPair) :
    List (ConversationPair × TokenizedPair) :=
  (raw.zip tokens).filter fun entry => entry.2.kept

/-- `drop_skipped_pairs` and the indices after it. -/
def finish (trainer : Prepared) : Prepared :=
  let training := keptPairs trainer.data.trainingData trainer.tokenizedTraining
  let validation := keptPairs trainer.data.validationData trainer.tokenizedValidation
  { data := ⟨training.map Prod.fst, validation.map Prod.fst⟩
    tokenizedTraining := training.map Prod.snd
    tokenizedValidation := validation.map Prod.snd
    trainingIndices := List.range training.length }

/-- The counts of the tokens that were loaded. -/
def restoreCounts (trainer : Prepared) : Prepared :=
  { trainer with
    data := ⟨List.zipWith withTokenCount trainer.data.trainingData trainer.tokenizedTraining,
      List.zipWith withTokenCount trainer.data.validationData trainer.tokenizedValidation⟩ }

/-- Tokenizing both sets, before the skipped pairs are dropped. -/
def tokenizeData (enc : Encoder) (settings : Settings) (data : TrainerData) : Option Prepared :=
  match tokenizeSet enc settings data.trainingData with
  | none => none
  | some (training, tokenizedTraining) =>
      match tokenizeSet enc settings data.validationData with
      | none => none
      | some (validation, tokenizedValidation) =>
          some
            { data := ⟨training, validation⟩
              tokenizedTraining := tokenizedTraining
              tokenizedValidation := tokenizedValidation }

/-- The cache that is used: none without a key or a file. -/
def cacheHit (settings : Settings) (file : Option Bytes) (trainer : Prepared) :
    Option Prepared :=
  match file with
  | none => none
  | some content =>
      let (loaded, after) := loadTokenizedCache content trainer
      if settings.cached && loaded then some after else none

/-- What the trainer holds after a run, and the cache file; nothing if an error is thrown. -/
def preprocessData (enc : Encoder) (settings : Settings) (file : Option Bytes)
    (trainer : Prepared) : Option (Prepared × Option Bytes) :=
  match cacheHit settings file trainer with
  | some loaded => some (finish (restoreCounts loaded), file)
  | none =>
      match tokenizeData enc settings trainer.data with
      | none => none
      | some tokenized =>
          let written := if settings.cached && settings.writable then
              some (saveTokenizedCache tokenized.tokenizedTraining tokenized.tokenizedValidation)
            else file
          some (finish tokenized, written)

end Adai.Samples

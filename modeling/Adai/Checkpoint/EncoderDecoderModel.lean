import Adai.Checkpoint.Blocks

/-! # The files of a model

A checkpoint is a set of files that share a base path: the architecture and the special
tokens, the vocabulary, and the files of the encoder, the decoder and the language model
head, whose names are derived from the base path. `EncoderDecoderModel.loadModel` reads
them in that order and sets each component as soon as its file has been read; the
vocabulary empties the tokenizer before it is read. At the end the special tokens are
those of the tokenizer.
-/

namespace Adai.Checkpoint

open Tokenizer Tables Sections FileReader

variable {arch : Architecture}

/-! ## Headers -/

/-- The dimensions an encoder or a decoder writes. -/
def headerContent (arch : Architecture) (layers : Size) : Bytes :=
  wordBytes (sizeWord arch.vocabSize) ++ (wordBytes (sizeWord arch.dModel) ++
    (wordBytes (sizeWord layers) ++ (wordBytes (sizeWord arch.numHeads) ++
      (wordBytes (sizeWord arch.dFf) ++ (wordBytes (sizeWord arch.maxSeqLength) ++ [])))))

/-- The maximum sequence length is read and passed over. -/
def readHeader (arch : Architecture) (component : String) (layers : Size) (filename : String) :
    FileReader Unit := do
  let loadedVocabSize ← value filename "vocab_size"
  let loadedDModel ← value filename "d_model"
  let loadedNumLayers ← value filename "num_layers"
  let loadedNumHeads ← value filename "num_heads"
  let loadedDFf ← value filename "d_ff"
  let _ ← value filename "max_seq_length"
  expectEnd filename
  require (loadedVocabSize = sizeWord arch.vocabSize ∧ loadedDModel = sizeWord arch.dModel ∧
      loadedNumLayers = sizeWord layers ∧ loadedNumHeads = sizeWord arch.numHeads ∧
      loadedDFf = sizeWord arch.dFf)
    (component ++ " architecture mismatch: saved (vocab=" ++ shownWord loadedVocabSize ++
      ", d_model=" ++ shownWord loadedDModel ++ ", layers=" ++ shownWord loadedNumLayers ++
      ", heads=" ++ shownWord loadedNumHeads ++ ", d_ff=" ++ shownWord loadedDFf ++
      ") vs current (vocab=" ++ shownSize arch.vocabSize ++ ", d_model=" ++ shownSize arch.dModel ++
      ", layers=" ++ shownSize layers ++ ", heads=" ++ shownSize arch.numHeads ++ ", d_ff=" ++
      shownSize arch.dFf ++ ")")

/-- A header holds no weights. -/
def headerOnDisk (arch : Architecture) (component : String) (layers : Size) (filename : String)
    (disk : Disk) : Option (List Word) :=
  readSection disk filename (readHeader arch component layers filename) fun _ => []

theorem headerOnDisk_of_stored {component : String} {layers : Size} {filename : String} {disk : Disk}
    (stored : disk.files.lookup filename = some (headerContent arch layers)) :
    headerOnDisk arch component layers filename disk = some [] := by
  refine readSection_of_reads () stored ?_
  simp only [readHeader, headerContent, value_bind, expectEnd_bind, and_self]
  rfl

/-! ## The encoder -/

structure LLMEncoder (arch : Architecture) where
  tokenEmbedding : TokenEmbedding arch
  encoderBlocks : List.Vector (EncoderBlock arch) arch.encoderLayers
  finalNorm : LayerNorm arch

namespace LLMEncoder

def weights (e : LLMEncoder arch) : List (List Word) :=
  [] :: ([e.tokenEmbedding.words] ++
    (e.encoderBlocks.1.flatMap EncoderBlock.weights ++ [e.finalNorm.words]))

def blockFile (base : String) (i : Nat) : String := base ++ "_encoder_block_" ++ toString i ++ ".bin"

def saveWeights (e : LLMEncoder arch) (filename : String) : Saving :=
  let base := beforeLastDot filename
  Saving.andThen (writeFile filename (headerContent arch arch.encoderLayers))
    ((e.tokenEmbedding.saveEmbeddings (base ++ "_encoder_token_emb.bin")).andThen
      ((Saving.each (fun i b => EncoderBlock.saveWeights b (blockFile base i)) 0
          e.encoderBlocks.1).andThen
        (e.finalNorm.saveWeights (base ++ "_encoder_final_norm.bin"))))

def files (e : LLMEncoder arch) (filename : String) : List (String × Bytes) :=
  let base := beforeLastDot filename
  [(filename, headerContent arch arch.encoderLayers)] ++
    ([(base ++ "_encoder_token_emb.bin", e.tokenEmbedding.content)] ++
      ((e.encoderBlocks.1.mapIdx fun i b => b.files (blockFile base (0 + i))).flatten ++
        [(base ++ "_encoder_final_norm.bin", e.finalNorm.content)]))

theorem writes (e : LLMEncoder arch) (filename : String) :
    Writes (e.saveWeights filename) (e.files filename) :=
  (Writes.file _ _).andThen ((Writes.file _ _).andThen
    ((Writes.each (fun _ b => EncoderBlock.writes b _) 0 _).andThen (Writes.file _ _)))

/-- Checkpoints from before the encoder had files of its own have only the shared ones. -/
def componentPath (base name : String) (disk : Disk) : String :=
  if (disk.files.lookup (base ++ "_encoder_" ++ name)).isSome then base ++ "_encoder_" ++ name
  else base ++ "_" ++ name

def loadWeights (filename : String) (disk : Disk) : Loading LoadError (LLMEncoder arch) :=
  let base := beforeLastDot filename
  Loading.fileThen (readFile disk filename (readHeader arch "Encoder" arch.encoderLayers filename))
    (fun e _ => e) fun _ =>
      Loading.inside (fun e => (e.tokenEmbedding, e.encoderBlocks, e.finalNorm))
        (fun e parts => { e with
          tokenEmbedding := parts.1
          encoderBlocks := parts.2.1
          finalNorm := parts.2.2 })
        ((TokenEmbedding.loadPretrained (componentPath base "token_emb.bin" disk) disk).both
          ((Loading.all fun i => EncoderBlock.loadWeights (blockFile base i) disk).both
            (LayerNorm.loadWeights (componentPath base "final_norm.bin" disk) disk)))

def onDisk (e : LLMEncoder arch) (filename : String) (disk : Disk) : List (Option (List Word)) :=
  let base := beforeLastDot filename
  headerOnDisk arch "Encoder" arch.encoderLayers filename disk ::
    ([TokenEmbedding.onDisk arch (componentPath base "token_emb.bin" disk) disk] ++
      ((e.encoderBlocks.1.mapIdx fun i _ => EncoderBlock.onDisk arch (blockFile base i) disk).flatten ++
        [LayerNorm.onDisk arch (componentPath base "final_norm.bin" disk) disk]))

theorem loads (filename : String) (disk : Disk) (e : LLMEncoder arch) :
    Loads (loadWeights filename disk) weights (e.onDisk filename disk) e := by
  have parts := Loads.inside (fun e : LLMEncoder arch =>
      (e.tokenEmbedding, e.encoderBlocks, e.finalNorm))
    (fun e parts => { e with
      tokenEmbedding := parts.1
      encoderBlocks := parts.2.1
      finalNorm := parts.2.2 })
    ((TokenEmbedding.loads (componentPath (beforeLastDot filename) "token_emb.bin" disk) disk _).both
      ((Loads.all fun i b _ => EncoderBlock.loads (blockFile (beforeLastDot filename) i) disk b).both
        (LayerNorm.loads (componentPath (beforeLastDot filename) "final_norm.bin" disk) disk _)))
    (s := e) fun _ => rfl
  exact Loads.fileThen (fun _ => []) (fun _ => []) parts.length fun _ _ => ⟨parts, rfl, rfl⟩

end LLMEncoder

/-! ## The decoder -/

structure LLMDecoder (arch : Architecture) where
  tokenEmbedding : TokenEmbedding arch
  decoderBlocks : List.Vector (DecoderBlock arch) arch.decoderLayers
  finalNorm : LayerNorm arch

namespace LLMDecoder

def weights (d : LLMDecoder arch) : List (List Word) :=
  [] :: ([d.tokenEmbedding.words] ++
    (d.decoderBlocks.1.flatMap DecoderBlock.weights ++ [d.finalNorm.words]))

def blockFile (base : String) (i : Nat) : String := base ++ "_decoder_block_" ++ toString i ++ ".bin"

def saveWeights (d : LLMDecoder arch) (filepath : String) : Saving :=
  let base := beforeLastDot filepath
  Saving.andThen (writeFile filepath (headerContent arch arch.decoderLayers))
    ((d.tokenEmbedding.saveEmbeddings (base ++ "_token_emb.bin")).andThen
      ((Saving.each (fun i b => DecoderBlock.save b (blockFile base i)) 0
          d.decoderBlocks.1).andThen
        (d.finalNorm.saveWeights (base ++ "_final_norm.bin"))))

def files (d : LLMDecoder arch) (filepath : String) : List (String × Bytes) :=
  let base := beforeLastDot filepath
  [(filepath, headerContent arch arch.decoderLayers)] ++
    ([(base ++ "_token_emb.bin", d.tokenEmbedding.content)] ++
      ((d.decoderBlocks.1.mapIdx fun i b => b.files (blockFile base (0 + i))).flatten ++
        [(base ++ "_final_norm.bin", d.finalNorm.content)]))

theorem writes (d : LLMDecoder arch) (filepath : String) :
    Writes (d.saveWeights filepath) (d.files filepath) :=
  (Writes.file _ _).andThen ((Writes.file _ _).andThen
    ((Writes.each (fun _ b => DecoderBlock.writes b _) 0 _).andThen (Writes.file _ _)))

def loadWeights (filepath : String) (disk : Disk) : Loading LoadError (LLMDecoder arch) :=
  let base := beforeLastDot filepath
  Loading.fileThen (readFile disk filepath (readHeader arch "Decoder" arch.decoderLayers filepath))
    (fun d _ => d) fun _ =>
      Loading.inside (fun d => (d.tokenEmbedding, d.decoderBlocks, d.finalNorm))
        (fun d parts => { d with
          tokenEmbedding := parts.1
          decoderBlocks := parts.2.1
          finalNorm := parts.2.2 })
        ((TokenEmbedding.loadPretrained (base ++ "_token_emb.bin") disk).both
          ((Loading.all fun i => DecoderBlock.load (blockFile base i) disk).both
            (LayerNorm.loadWeights (base ++ "_final_norm.bin") disk)))

def onDisk (d : LLMDecoder arch) (filepath : String) (disk : Disk) : List (Option (List Word)) :=
  let base := beforeLastDot filepath
  headerOnDisk arch "Decoder" arch.decoderLayers filepath disk ::
    ([TokenEmbedding.onDisk arch (base ++ "_token_emb.bin") disk] ++
      ((d.decoderBlocks.1.mapIdx fun i b => b.onDisk (blockFile base i) disk).flatten ++
        [LayerNorm.onDisk arch (base ++ "_final_norm.bin") disk]))

theorem loads (filepath : String) (disk : Disk) (d : LLMDecoder arch) :
    Loads (loadWeights filepath disk) weights (d.onDisk filepath disk) d := by
  have parts := Loads.inside (fun d : LLMDecoder arch =>
      (d.tokenEmbedding, d.decoderBlocks, d.finalNorm))
    (fun d parts => { d with
      tokenEmbedding := parts.1
      decoderBlocks := parts.2.1
      finalNorm := parts.2.2 })
    ((TokenEmbedding.loads (beforeLastDot filepath ++ "_token_emb.bin") disk _).both
      ((Loads.all fun i b _ => DecoderBlock.loads (blockFile (beforeLastDot filepath) i) disk b).both
        (LayerNorm.loads (beforeLastDot filepath ++ "_final_norm.bin") disk _)))
    (s := d) fun _ => rfl
  exact Loads.fileThen (fun _ => []) (fun _ => []) parts.length fun _ _ => ⟨parts, rfl, rfl⟩

end LLMDecoder

/-! ## The model -/

structure SpecialTokens where
  bosTokenId : Int
  eosTokenId : Int
  padTokenId : Int
  deriving DecidableEq, Repr

/-- The special tokens stand in the model and in its generator's configuration. -/
structure EncoderDecoderModel (arch : Architecture) where
  tokenizer : BPETokenizer
  encoder : LLMEncoder arch
  decoder : LLMDecoder arch
  lmHead : LanguageModelHead arch
  specialTokens : SpecialTokens
  generatorTokens : SpecialTokens

/-- The `.config` file, as it is read. -/
structure CheckpointArchitecture where
  vocabSize : Word
  dModel : Word
  encoderLayers : Word
  decoderLayers : Word
  numHeads : Word
  dFf : Word
  maxSeqLength : Word
  bosTokenId : Word
  eosTokenId : Word
  padTokenId : Word
  deriving DecidableEq, Repr

/-- The dimensions are the model's. -/
def CheckpointArchitecture.Matches (loaded : CheckpointArchitecture) (arch : Architecture) : Prop :=
  loaded.vocabSize = sizeWord arch.vocabSize ∧ loaded.dModel = sizeWord arch.dModel ∧
    loaded.encoderLayers = sizeWord arch.encoderLayers ∧
    loaded.decoderLayers = sizeWord arch.decoderLayers ∧
    loaded.numHeads = sizeWord arch.numHeads ∧ loaded.dFf = sizeWord arch.dFf ∧
    loaded.maxSeqLength = sizeWord arch.maxSeqLength

instance (loaded : CheckpointArchitecture) (arch : Architecture) :
    Decidable (loaded.Matches arch) :=
  inferInstanceAs (Decidable (_ ∧ _))

def CheckpointArchitecture.mismatch (loaded : CheckpointArchitecture) (arch : Architecture) : String :=
  "Model architecture mismatch: saved (vocab=" ++ shownWord loaded.vocabSize ++ ", d_model=" ++
    shownWord loaded.dModel ++ ", enc_layers=" ++ shownWord loaded.encoderLayers ++
    ", dec_layers=" ++ shownWord loaded.decoderLayers ++ ", num_heads=" ++
    shownWord loaded.numHeads ++ ", d_ff=" ++ shownWord loaded.dFf ++ ", max_seq=" ++
    shownWord loaded.maxSeqLength ++ ") vs current (vocab=" ++ shownSize arch.vocabSize ++
    ", d_model=" ++ shownSize arch.dModel ++ ", enc_layers=" ++ shownSize arch.encoderLayers ++
    ", dec_layers=" ++ shownSize arch.decoderLayers ++ ", num_heads=" ++
    shownSize arch.numHeads ++ ", d_ff=" ++ shownSize arch.dFf ++ ", max_seq=" ++
    shownSize arch.maxSeqLength ++ ")"

def configMagic : Int := -20260721

def configFormatVersion : Int := 2

def readCheckpointArchitecture (filepath : String) : FileReader CheckpointArchitecture := do
  let path := filepath ++ ".config"
  let magic ← value path "format marker"
  require (magic = intWord configMagic) ("Checkpoint format marker missing/invalid — this looks " ++
    "like a pre-Pre-LN (Post-LN) checkpoint saved before the architecture change and is not " ++
    "compatible with the current Pre-LN EncoderBlock/DecoderBlock math (same weight shapes, " ++
    "different meaning — loading it would silently produce garbage). Retrain from scratch.")
  let formatVersion ← value path "format version"
  require (configFormatVersion ≤ wordInt formatVersion)
    ("Unsupported older checkpoint format_version " ++ shownWord formatVersion ++ " (current: " ++
      toString configFormatVersion ++ "). Retrain from scratch.")
  let vocabSize ← value path "architecture"
  let dModel ← value path "architecture"
  let encoderLayers ← value path "architecture"
  let decoderLayers ← value path "architecture"
  let numHeads ← value path "architecture"
  let dFf ← value path "architecture"
  let maxSeqLength ← value path "architecture"
  let bosTokenId ← value path "architecture"
  let eosTokenId ← value path "architecture"
  let padTokenId ← value path "architecture"
  expectEnd path
  return ⟨vocabSize, dModel, encoderLayers, decoderLayers, numHeads, dFf, maxSeqLength, bosTokenId,
    eosTokenId, padTokenId⟩

namespace EncoderDecoderModel

def tokensOf (t : BPETokenizer) : SpecialTokens := ⟨t.bosTokenId, t.eosTokenId, t.padTokenId⟩

def setGenerationConfig (m : EncoderDecoderModel arch) (tokens : SpecialTokens) :
    EncoderDecoderModel arch :=
  { m with generatorTokens := tokens, specialTokens := tokens }

def syncSpecialTokens (m : EncoderDecoderModel arch) : EncoderDecoderModel arch :=
  m.setGenerationConfig (tokensOf m.tokenizer)

/-- Every weight and gate, file by file. -/
def weights (m : EncoderDecoderModel arch) : List (List Word) :=
  m.encoder.weights ++ (m.decoder.weights ++ [m.lmHead.words])

/-! ### Saving -/

def configContent (m : EncoderDecoderModel arch) : Bytes :=
  wordBytes (intWord configMagic) ++ (wordBytes (intWord configFormatVersion) ++
    (wordBytes (sizeWord arch.vocabSize) ++ (wordBytes (sizeWord arch.dModel) ++
      (wordBytes (sizeWord arch.encoderLayers) ++ (wordBytes (sizeWord arch.decoderLayers) ++
        (wordBytes (sizeWord arch.numHeads) ++ (wordBytes (sizeWord arch.dFf) ++
          (wordBytes (sizeWord arch.maxSeqLength) ++
            (wordBytes (intWord m.specialTokens.bosTokenId) ++
              (wordBytes (intWord m.specialTokens.eosTokenId) ++
                (wordBytes (intWord m.specialTokens.padTokenId) ++ [])))))))))))

def saveVocabulary (t : BPETokenizer) (order : HashOrder) (filename : String) : Saving := fun disk =>
  match t.saveVocab order filename disk with
  | (some e, _) => .error (.vocabulary e)
  | (none, disk') => .ok disk'

def saveModel (m : EncoderDecoderModel arch) (order : HashOrder) (filepath : String) : Saving :=
  Saving.andThen (writeFile (filepath ++ ".config") m.configContent)
    ((saveVocabulary m.tokenizer order (filepath ++ ".vocab")).andThen
      ((m.encoder.saveWeights (filepath ++ ".encoder")).andThen
        ((m.decoder.saveWeights (filepath ++ ".decoder")).andThen
          (m.lmHead.save (filepath ++ ".lm_head")))))

/-! ### Loading -/

def loadComponents (filepath : String) (disk : Disk) : Loading LoadError (EncoderDecoderModel arch) :=
  Loading.inside (fun m => (m.encoder, m.decoder, m.lmHead))
    (fun m parts => { m with encoder := parts.1, decoder := parts.2.1, lmHead := parts.2.2 })
    ((LLMEncoder.loadWeights (filepath ++ ".encoder") disk).both
      ((LLMDecoder.loadWeights (filepath ++ ".decoder") disk).both
        (LanguageModelHead.load (filepath ++ ".lm_head") disk)))

/-- The saved ids are set, and then those of the tokenizer. -/
def finishLoad (loaded : CheckpointArchitecture) (m : EncoderDecoderModel arch) :
    EncoderDecoderModel arch :=
  { m with specialTokens :=
      ⟨wordInt loaded.bosTokenId, wordInt loaded.eosTokenId, wordInt loaded.padTokenId⟩ }.syncSpecialTokens

def loadModel (filepath : String) (disk : Disk) : Loading LoadError (EncoderDecoderModel arch) :=
  fun m =>
    match readFile disk (filepath ++ ".config") (readCheckpointArchitecture filepath) with
    | .error e => (some e, m)
    | .ok loaded =>
        if ¬ loaded.Matches arch then (some (.runtime (loaded.mismatch arch)), m)
        else
          match m.tokenizer.loadVocab (filepath ++ ".vocab") disk with
          | (some e, tokenizer) => (some (.vocabulary e), { m with tokenizer })
          | (none, tokenizer) =>
              (loadComponents filepath disk).thenSet (finishLoad loaded) { m with tokenizer }

/-- What the component files say, in the order in which they are read. -/
def onDisk (m : EncoderDecoderModel arch) (filepath : String) (disk : Disk) :
    List (Option (List Word)) :=
  m.encoder.onDisk (filepath ++ ".encoder") disk ++
    (m.decoder.onDisk (filepath ++ ".decoder") disk ++
      [LanguageModelHead.onDisk arch (filepath ++ ".lm_head") disk])

theorem loads (filepath : String) (disk : Disk) (m : EncoderDecoderModel arch) :
    Loads (loadComponents filepath disk) weights (m.onDisk filepath disk) m :=
  Loads.inside (fun m : EncoderDecoderModel arch => (m.encoder, m.decoder, m.lmHead)) _
    ((LLMEncoder.loads _ disk _).both
      ((LLMDecoder.loads _ disk _).both (LanguageModelHead.loads _ disk _))) fun _ => rfl

end EncoderDecoderModel

/-! ## Models whose weights are all alike -/

section Alike

variable (arch) (w : Word)

def LayerNorm.alike : LayerNorm arch := ⟨w, .constant _ _ w, .constant _ _ w⟩

def Projections.alike : Projections arch :=
  ⟨.constant _ _ w, .constant _ _ w, .constant _ _ w, .constant _ _ w⟩

def FeedForward.alike : FeedForward arch :=
  ⟨.constant _ _ w, .constant _ _ w, .constant _ _ w, .constant _ _ w⟩

def EncoderBlock.alike : EncoderBlock arch :=
  ⟨w, ⟨.alike arch w⟩, .alike arch w, .alike arch w, .alike arch w⟩

def GatedPath.alike : GatedPath arch := ⟨w, ⟨w, .alike arch w⟩, .alike arch w⟩

/-- With a world-model path and without a hippocampal one. -/
def DecoderBlock.alike : DecoderBlock arch where
  dropoutRate := w
  learningRate := w
  selfAttention := ⟨.alike arch w⟩
  crossAttention := ⟨w, .alike arch w⟩
  feedForward := .alike arch w
  norm1 := .alike arch w
  norm2 := .alike arch w
  norm3 := .alike arch w
  worldModel := some (.alike arch w)
  hippocampal := none

def EncoderDecoderModel.alike (tokenizer : BPETokenizer) (specialTokens : SpecialTokens) :
    EncoderDecoderModel arch where
  tokenizer := tokenizer
  encoder := ⟨⟨.constant _ _ w⟩, .replicate _ (.alike arch w), .alike arch w⟩
  decoder := ⟨⟨.constant _ _ w⟩, .replicate _ (.alike arch w), .alike arch w⟩
  lmHead := ⟨.constant _ _ w, .constant _ _ w⟩
  specialTokens := specialTokens
  generatorTokens := specialTokens

end Alike

/-- One layer and one dimension of everything. -/
def tiny : Architecture := ⟨1, 1, 1, 1, 1, 1, 1⟩

/-- A tokenizer that knows the special tokens only. -/
def bare : BPETokenizer := BPETokenizer.new .ascii

/-- What saving a model leaves on an empty disk. -/
def savedFiles (m : EncoderDecoderModel arch) (filepath : String) : Disk :=
  (m.saveModel .inserted filepath .empty).toOption.getD .empty

theorem savedFiles_eq {m : EncoderDecoderModel arch} {filepath : String}
    (succeeds : (m.saveModel .inserted filepath .empty).toOption.isSome = true) :
    m.saveModel .inserted filepath .empty = .ok (savedFiles m filepath) := by
  unfold savedFiles
  cases saved : m.saveModel .inserted filepath .empty with
  | error e =>
      rw [saved] at succeeds
      cases succeeds
  | ok disk => rfl

end Adai.Checkpoint

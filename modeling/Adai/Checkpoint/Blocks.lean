import Adai.Checkpoint.Layers

/-! # The files of a block

A block writes its norms, and a decoder block its gates, to the file it is given, and
each of its layers to a file whose name is derived from that. A decoder block's file
says which gated paths were there when it was saved; a block that was constructed with
others refuses it. The norms are set before the layers' files are read, and each gate
just before the files of its path.
-/

namespace Adai.Checkpoint

open Tokenizer Sections FileReader

/-- `substr(0, find_last_of('.'))`, all of it where there is no dot. -/
def beforeLastDot (path : String) : String :=
  match path.toList.reverse.dropWhile (· ≠ '.') with
  | [] => path
  | _ :: rest => String.ofList rest.reverse

theorem beforeLastDot_append (base extension : String) {rest : List Char}
    (dotted : extension.toList = '.' :: rest) (last : '.' ∉ rest) :
    beforeLastDot (base ++ extension) = base := by
  have front : rest.reverse.dropWhile (· ≠ '.') = [] := by
    refine List.dropWhile_eq_nil_iff.mpr fun c member => decide_eq_true ?_
    rintro rfl
    exact last (List.mem_reverse.mp member)
  have dropped : (base ++ extension).toList.reverse.dropWhile (· ≠ '.') =
      '.' :: base.toList.reverse := by
    rw [String.toList_append, dotted, List.reverse_append, List.reverse_cons, List.append_assoc,
      List.dropWhile_append, front]
    rfl
  rw [beforeLastDot, dropped]
  dsimp only
  rw [List.reverse_reverse, String.ofList_toList]

/-- The files hold what was written. -/
def Stored (disk : Disk) (files : List (String × Bytes)) : Prop :=
  ∀ file ∈ files, disk.files.lookup file.1 = some file.2

theorem stored_append {disk : Disk} {files files' : List (String × Bytes)} :
    Stored disk (files ++ files') ↔ Stored disk files ∧ Stored disk files' :=
  List.forall_mem_append

theorem stored_cons {disk : Disk} {file : String × Bytes} {files : List (String × Bytes)} :
    Stored disk (file :: files) ↔
      disk.files.lookup file.1 = some file.2 ∧ Stored disk files :=
  List.forall_mem_cons

variable {arch : Architecture}

/-! ## Encoder blocks -/

structure EncoderBlock (arch : Architecture) where
  dropoutRate : Word
  attention : MultiHeadAttention arch
  feedForward : FeedForward arch
  norm1 : LayerNorm arch
  norm2 : LayerNorm arch

namespace EncoderBlock

def normWords (b : EncoderBlock arch) : List Word := b.norm1.words ++ b.norm2.words

def weights (b : EncoderBlock arch) : List (List Word) :=
  [b.normWords, b.attention.words, b.feedForward.words]

def content (b : EncoderBlock arch) : Bytes :=
  wordBytes (sizeWord arch.dModel) ++ (wordBytes (sizeWord arch.numHeads) ++
    (wordBytes (sizeWord arch.dFf) ++ (wordBytes b.dropoutRate ++
      (b.norm1.gamma.bytes ++ (b.norm1.beta.bytes ++
        (b.norm2.gamma.bytes ++ (b.norm2.beta.bytes ++ [])))))))

def saveWeights (b : EncoderBlock arch) (filename : String) : Saving :=
  Saving.andThen (writeFile filename b.content)
    ((b.attention.saveWeights (beforeLastDot filename ++ "_attention.bin")).andThen
      (b.feedForward.saveWeights (beforeLastDot filename ++ "_feedforward.bin")))

def files (b : EncoderBlock arch) (filename : String) : List (String × Bytes) :=
  [(filename, b.content), (beforeLastDot filename ++ "_attention.bin", b.attention.content),
    (beforeLastDot filename ++ "_feedforward.bin", b.feedForward.content)]

theorem writes (b : EncoderBlock arch) (filename : String) :
    Writes (b.saveWeights filename) (b.files filename) :=
  (Writes.file filename b.content).andThen ((Writes.file _ _).andThen (Writes.file _ _))

structure LoadedNorms (arch : Architecture) where
  gamma1 : Matrix 1 arch.dModel
  beta1 : Matrix 1 arch.dModel
  gamma2 : Matrix 1 arch.dModel
  beta2 : Matrix 1 arch.dModel

def LoadedNorms.words (loaded : LoadedNorms arch) : List Word :=
  (loaded.gamma1.words ++ loaded.beta1.words) ++ (loaded.gamma2.words ++ loaded.beta2.words)

/-- The saved dropout rate is passed over. -/
def readNorms (arch : Architecture) (filename : String) : FileReader (LoadedNorms arch) := do
  let savedDModel ← value filename "d_model"
  let savedNumHeads ← value filename "num_heads"
  let savedDFf ← value filename "d_ff"
  let _ ← value filename "dropout_rate"
  require (savedDModel = sizeWord arch.dModel ∧ savedNumHeads = sizeWord arch.numHeads ∧
      savedDFf = sizeWord arch.dFf)
    ("Dimension mismatch: saved (" ++ shownWord savedDModel ++ "," ++ shownWord savedNumHeads ++
      "," ++ shownWord savedDFf ++ ") vs current (" ++ shownSize arch.dModel ++ "," ++
      shownSize arch.numHeads ++ "," ++ shownSize arch.dFf ++ ")")
  let gamma1 ← matrix filename "norm1 gamma" 1 arch.dModel
  let beta1 ← matrix filename "norm1 beta" 1 arch.dModel
  let gamma2 ← matrix filename "norm2 gamma" 1 arch.dModel
  let beta2 ← matrix filename "norm2 beta" 1 arch.dModel
  expectEnd filename
  return ⟨gamma1, beta1, gamma2, beta2⟩

def setNorms (b : EncoderBlock arch) (loaded : LoadedNorms arch) : EncoderBlock arch :=
  { b with
    norm1 := b.norm1.setParameters (loaded.gamma1, loaded.beta1)
    norm2 := b.norm2.setParameters (loaded.gamma2, loaded.beta2) }

def loadWeights (filename : String) (disk : Disk) : Loading LoadError (EncoderBlock arch) :=
  Loading.fileThen (readFile disk filename (readNorms arch filename)) setNorms fun _ =>
    Loading.inside (fun b => (b.attention, b.feedForward))
      (fun b parts => { b with attention := parts.1, feedForward := parts.2 })
      ((MultiHeadAttention.loadWeights (beforeLastDot filename ++ "_attention.bin") disk).both
        (FeedForward.loadWeights (beforeLastDot filename ++ "_feedforward.bin") disk))

def onDisk (arch : Architecture) (filename : String) (disk : Disk) : List (Option (List Word)) :=
  [readSection disk filename (readNorms arch filename) LoadedNorms.words,
    MultiHeadAttention.onDisk arch (beforeLastDot filename ++ "_attention.bin") disk,
    FeedForward.onDisk arch (beforeLastDot filename ++ "_feedforward.bin") disk]

theorem loads (filename : String) (disk : Disk) (b : EncoderBlock arch) :
    Loads (loadWeights filename disk) weights (onDisk arch filename disk) b := by
  refine Loads.fileThen LoadedNorms.words normWords rfl fun loaded _ => ⟨?_, rfl, rfl⟩
  exact Loads.inside (fun b : EncoderBlock arch => (b.attention, b.feedForward)) _
    ((MultiHeadAttention.loads _ disk _).both (FeedForward.loads _ disk _)) fun _ => rfl

theorem onDisk_of_stored {b : EncoderBlock arch} {filename : String} {disk : Disk}
    (stored : Stored disk (b.files filename)) :
    onDisk arch filename disk = b.weights.map some := by
  obtain ⟨norms, stored⟩ := stored_cons.mp stored
  obtain ⟨attention, stored⟩ := stored_cons.mp stored
  obtain ⟨feedForward, _⟩ := stored_cons.mp stored
  have own : readSection disk filename (readNorms arch filename) LoadedNorms.words =
      some b.normWords := by
    refine readSection_of_reads
      (LoadedNorms.mk b.norm1.gamma b.norm1.beta b.norm2.gamma b.norm2.beta) norms ?_
    simp only [readNorms, content, value_bind, matrix_bind, and_self, require_bind, expectEnd_bind,
      pure_apply]
  rw [onDisk, own, MultiHeadAttention.onDisk_of_stored attention,
    FeedForward.onDisk_of_stored feedForward]
  rfl

end EncoderBlock

/-! ## Gated paths -/

/-- A gate with the cross-attention and the norm behind it. -/
structure GatedPath (arch : Architecture) where
  gate : Word
  crossAttention : CrossAttention arch
  norm : LayerNorm arch

namespace GatedPath

def weights (p : GatedPath arch) : List (List Word) :=
  [[p.gate], p.crossAttention.words, p.norm.words]

/-- The flag of a path, and its gate if it is there. -/
def gateContent (path : Option (GatedPath arch)) : Bytes :=
  (if path.isSome then 1 else 0) :: path.toList.flatMap fun p => wordBytes p.gate

/-- The flag must say what this block was constructed with. -/
def readGate (filepath name option : String) (current : Bool) : FileReader Word := do
  let present ← flag filepath (name ++ " flag")
  let gate ← if present then value filepath (name ++ " gate") else pure 0
  require (present = current) ("DecoderBlock::load(): saved " ++ name ++ " gated path is " ++
    (if present then "present" else "absent") ++ " but this instance was constructed with " ++
    option ++ "=" ++ (if current then "true" else "false") ++
    " — construct with a matching flag before loading")
  return gate

def saveWeights (attentionFile normFile : String) (p : GatedPath arch) : Saving :=
  (p.crossAttention.save attentionFile).andThen (p.norm.saveWeights normFile)

def files (attentionFile normFile : String) (p : GatedPath arch) : List (String × Bytes) :=
  [(attentionFile, p.crossAttention.content), (normFile, p.norm.content)]

/-- The gate was read from the block's own file. -/
def loadWeights (attentionFile normFile : String) (disk : Disk) (gate learningRate : Word) :
    Loading LoadError (GatedPath arch) :=
  (Loading.fileThen (.ok gate) (fun p gate => { p with gate }) fun _ =>
    Loading.inside (fun p => (p.crossAttention, p.norm))
      (fun p parts => { p with crossAttention := parts.1, norm := parts.2 })
      ((CrossAttention.load attentionFile disk).both
        (LayerNorm.loadWeights normFile disk))).thenSet fun p =>
    { p with crossAttention := { p.crossAttention with learningRate } }

def onDisk (arch : Architecture) (attentionFile normFile : String) (disk : Disk)
    (gate : Option (List Word)) : List (Option (List Word)) :=
  [gate, CrossAttention.onDisk arch attentionFile disk, LayerNorm.onDisk arch normFile disk]

theorem writes (attentionFile normFile : String) (p : GatedPath arch) :
    Writes (saveWeights attentionFile normFile p) (files attentionFile normFile p) :=
  (Writes.file _ _).andThen (Writes.file _ _)

theorem loads (attentionFile normFile : String) (disk : Disk) (gate learningRate : Word)
    (p : GatedPath arch) :
    Loads (loadWeights attentionFile normFile disk gate learningRate) weights
      (onDisk arch attentionFile normFile disk (some [gate])) p := by
  refine Loads.thenSet ?_ fun _ => rfl
  refine Loads.fileThen (fun gate => [gate]) (fun p : GatedPath arch => [p.gate]) rfl
    fun loaded _ => ⟨?_, rfl, rfl⟩
  exact Loads.inside (fun p : GatedPath arch => (p.crossAttention, p.norm)) _
    ((CrossAttention.loads _ disk _).both (LayerNorm.loads _ disk _)) fun _ => rfl

theorem onDisk_of_stored {p : GatedPath arch} {attentionFile normFile : String} {disk : Disk}
    (stored : Stored disk (files attentionFile normFile p)) :
    onDisk arch attentionFile normFile disk (some [p.gate]) = p.weights.map some := by
  obtain ⟨attention, stored⟩ := stored_cons.mp stored
  obtain ⟨norm, _⟩ := stored_cons.mp stored
  rw [onDisk, CrossAttention.onDisk_of_stored attention, LayerNorm.onDisk_of_stored norm]
  rfl

/-- The gate that stands in the file, zero without a path. -/
def savedGate (path : Option (GatedPath arch)) : Word := (path.map gate).getD 0

@[simp] theorem readGate_bind {β : Type} (filepath name option : String)
    (path : Option (GatedPath arch)) {current : Bool} (same : path.isSome = current)
    (next : Word → FileReader β) (rest : Bytes) :
    (readGate filepath name option current >>= next) (gateContent path ++ rest) =
      next (savedGate path) rest := by
  apply bind_of_read
  cases path with
  | none =>
      cases same
      rfl
  | some p =>
      cases same
      have flag := flag_bind filepath (name ++ " flag") true
        (fun present => do
          let gate ← if present then value filepath (name ++ " gate") else pure 0
          require (present = true) ("DecoderBlock::load(): saved " ++ name ++ " gated path is " ++
            (if present then "present" else "absent") ++
            " but this instance was constructed with " ++ option ++ "=" ++
            (if true then "true" else "false") ++
            " — construct with a matching flag before loading")
          return gate) (wordBytes p.gate ++ rest)
      refine flag.trans ?_
      simp only [if_true, value_bind, require_bind, pure_apply]
      rfl

/-- A path is read back where there is one. -/
theorem onDisk_of_stored_optional {path path' : Option (GatedPath arch)}
    {attentionFile normFile : String} {disk : Disk}
    (stored : Stored disk (path.toList.flatMap (files attentionFile normFile)))
    (same : path'.isSome = path.isSome) :
    (path'.toList.flatMap fun _ => onDisk arch attentionFile normFile disk
      (some [savedGate path])) = (path.toList.flatMap weights).map some := by
  cases path with
  | none =>
      obtain rfl := Option.isNone_iff_eq_none.mp (Option.isSome_eq_false_iff.mp same)
      rfl
  | some p =>
      obtain ⟨p', rfl⟩ := Option.isSome_iff_exists.mp same
      have files_ : (some p).toList.flatMap (files attentionFile normFile) =
          files attentionFile normFile p := List.flatMap_singleton ..
      rw [files_] at stored
      refine (List.flatMap_singleton ..).trans ((onDisk_of_stored stored).trans ?_)
      exact congrArg _ (List.flatMap_singleton ..).symm

end GatedPath

/-! ## Decoder blocks -/

structure DecoderBlock (arch : Architecture) where
  dropoutRate : Word
  learningRate : Word
  selfAttention : MultiHeadAttention arch
  crossAttention : CrossAttention arch
  feedForward : FeedForward arch
  norm1 : LayerNorm arch
  norm2 : LayerNorm arch
  norm3 : LayerNorm arch
  worldModel : Option (GatedPath arch)
  hippocampal : Option (GatedPath arch)

namespace DecoderBlock

def normWords (b : DecoderBlock arch) : List Word :=
  b.norm1.words ++ b.norm2.words ++ b.norm3.words

def layerWords (b : DecoderBlock arch) : List (List Word) :=
  [b.selfAttention.words, b.crossAttention.words, b.feedForward.words]

def pathWords (b : DecoderBlock arch) : List (List Word) :=
  b.worldModel.toList.flatMap GatedPath.weights ++ b.hippocampal.toList.flatMap GatedPath.weights

/-- The sections in the order in which they are set. -/
def weights (b : DecoderBlock arch) : List (List Word) :=
  b.normWords :: (b.layerWords ++ b.pathWords)

def content (b : DecoderBlock arch) : Bytes :=
  wordBytes (sizeWord arch.dModel) ++ (wordBytes (sizeWord arch.numHeads) ++
    (wordBytes (sizeWord arch.dFf) ++ (wordBytes b.dropoutRate ++ (wordBytes b.learningRate ++
      (b.norm1.gamma.bytes ++ (b.norm1.beta.bytes ++
        (b.norm2.gamma.bytes ++ (b.norm2.beta.bytes ++
          (b.norm3.gamma.bytes ++ (b.norm3.beta.bytes ++
            (GatedPath.gateContent b.worldModel ++
              (GatedPath.gateContent b.hippocampal ++ []))))))))))))

def save (b : DecoderBlock arch) (filepath : String) : Saving :=
  Saving.andThen (writeFile filepath b.content)
    ((b.selfAttention.saveWeights (filepath ++ ".self_attn")).andThen
      ((b.crossAttention.save (filepath ++ ".cross_attn")).andThen
        ((b.feedForward.saveWeights (filepath ++ ".ff")).andThen
          ((Saving.optional (GatedPath.saveWeights (filepath ++ ".world_model_cross_attn")
              (filepath ++ ".norm_world")) b.worldModel).andThen
            (Saving.optional (GatedPath.saveWeights (filepath ++ ".hippocampal_cross_attn")
              (filepath ++ ".norm_hippocampal")) b.hippocampal)))))

def files (b : DecoderBlock arch) (filepath : String) : List (String × Bytes) :=
  [(filepath, b.content)] ++ ([(filepath ++ ".self_attn", b.selfAttention.content)] ++
    ([(filepath ++ ".cross_attn", b.crossAttention.content)] ++
      ([(filepath ++ ".ff", b.feedForward.content)] ++
        (b.worldModel.toList.flatMap (GatedPath.files (filepath ++ ".world_model_cross_attn")
            (filepath ++ ".norm_world")) ++
          b.hippocampal.toList.flatMap (GatedPath.files (filepath ++ ".hippocampal_cross_attn")
            (filepath ++ ".norm_hippocampal"))))))

theorem writes (b : DecoderBlock arch) (filepath : String) :
    Writes (b.save filepath) (b.files filepath) :=
  (Writes.file _ _).andThen ((Writes.file _ _).andThen ((Writes.file _ _).andThen
    ((Writes.file _ _).andThen ((Writes.optional (GatedPath.writes _ _) _).andThen
      (Writes.optional (GatedPath.writes _ _) _)))))

/-- What the block's own file says. -/
structure LoadedBlock (arch : Architecture) where
  dropoutRate : Word
  learningRate : Word
  gamma1 : Matrix 1 arch.dModel
  beta1 : Matrix 1 arch.dModel
  gamma2 : Matrix 1 arch.dModel
  beta2 : Matrix 1 arch.dModel
  gamma3 : Matrix 1 arch.dModel
  beta3 : Matrix 1 arch.dModel
  gate : Word
  gateH : Word

def LoadedBlock.words (loaded : LoadedBlock arch) : List Word :=
  (loaded.gamma1.words ++ loaded.beta1.words) ++ (loaded.gamma2.words ++ loaded.beta2.words) ++
    (loaded.gamma3.words ++ loaded.beta3.words)

def readBlock (arch : Architecture) (filepath : String) (worldModel hippocampal : Bool) :
    FileReader (LoadedBlock arch) := do
  let loadedDModel ← value filepath "d_model"
  let loadedNumHeads ← value filepath "num_heads"
  let loadedDFf ← value filepath "d_ff"
  let dropoutRate ← value filepath "dropout_rate"
  let learningRate ← value filepath "learning_rate"
  require (loadedDModel = sizeWord arch.dModel ∧ loadedNumHeads = sizeWord arch.numHeads ∧
    loadedDFf = sizeWord arch.dFf) "Dimension mismatch in saved model"
  let gamma1 ← matrix filepath "norm1 gamma" 1 arch.dModel
  let beta1 ← matrix filepath "norm1 beta" 1 arch.dModel
  let gamma2 ← matrix filepath "norm2 gamma" 1 arch.dModel
  let beta2 ← matrix filepath "norm2 beta" 1 arch.dModel
  let gamma3 ← matrix filepath "norm3 gamma" 1 arch.dModel
  let beta3 ← matrix filepath "norm3 beta" 1 arch.dModel
  let gate ← GatedPath.readGate filepath "world-model" "enable_world_model" worldModel
  let gateH ← GatedPath.readGate filepath "hippocampal" "enable_hippocampal" hippocampal
  expectEnd filepath
  return ⟨dropoutRate, learningRate, gamma1, beta1, gamma2, beta2, gamma3, beta3, gate, gateH⟩

def setLoaded (b : DecoderBlock arch) (loaded : LoadedBlock arch) : DecoderBlock arch :=
  { b with
    dropoutRate := loaded.dropoutRate
    learningRate := loaded.learningRate
    norm1 := b.norm1.setParameters (loaded.gamma1, loaded.beta1)
    norm2 := b.norm2.setParameters (loaded.gamma2, loaded.beta2)
    norm3 := b.norm3.setParameters (loaded.gamma3, loaded.beta3) }

/-- The layers take over the block's learning rate. -/
def loadLayers (filepath : String) (disk : Disk) : Loading LoadError (DecoderBlock arch) :=
  (Loading.inside (fun b => (b.selfAttention, b.crossAttention, b.feedForward))
    (fun b parts => { b with
      selfAttention := parts.1
      crossAttention := parts.2.1
      feedForward := parts.2.2 })
    ((MultiHeadAttention.loadWeights (filepath ++ ".self_attn") disk).both
      ((CrossAttention.load (filepath ++ ".cross_attn") disk).both
        (FeedForward.loadWeights (filepath ++ ".ff") disk)))).thenSet fun b =>
    { b with crossAttention := { b.crossAttention with learningRate := b.learningRate } }

def loadPaths (filepath : String) (disk : Disk) (loaded : LoadedBlock arch) :
    Loading LoadError (DecoderBlock arch) :=
  Loading.inside (fun b => (b.worldModel, b.hippocampal))
    (fun b parts => { b with worldModel := parts.1, hippocampal := parts.2 })
    ((Loading.optional (GatedPath.loadWeights (filepath ++ ".world_model_cross_attn")
        (filepath ++ ".norm_world") disk loaded.gate loaded.learningRate)).both
      (Loading.optional (GatedPath.loadWeights (filepath ++ ".hippocampal_cross_attn")
        (filepath ++ ".norm_hippocampal") disk loaded.gateH loaded.learningRate)))

def load (filepath : String) (disk : Disk) : Loading LoadError (DecoderBlock arch) := fun b =>
  Loading.fileThen
    (readFile disk filepath (readBlock arch filepath b.worldModel.isSome b.hippocampal.isSome))
    setLoaded
    (fun loaded => (loadLayers filepath disk).andThen (loadPaths filepath disk loaded)) b

def onDisk (b : DecoderBlock arch) (filepath : String) (disk : Disk) : List (Option (List Word)) :=
  let own := fun words => readSection disk filepath
    (readBlock arch filepath b.worldModel.isSome b.hippocampal.isSome) words
  own LoadedBlock.words ::
    ([MultiHeadAttention.onDisk arch (filepath ++ ".self_attn") disk,
        CrossAttention.onDisk arch (filepath ++ ".cross_attn") disk,
        FeedForward.onDisk arch (filepath ++ ".ff") disk] ++
      (b.worldModel.toList.flatMap (fun _ => GatedPath.onDisk arch
          (filepath ++ ".world_model_cross_attn") (filepath ++ ".norm_world") disk
          (own fun loaded => [loaded.gate])) ++
        b.hippocampal.toList.flatMap fun _ => GatedPath.onDisk arch
          (filepath ++ ".hippocampal_cross_attn") (filepath ++ ".norm_hippocampal") disk
          (own fun loaded => [loaded.gateH])))

/-! ### The load of a decoder block -/

section Load

variable (filepath : String) (disk : Disk) (b : DecoderBlock arch)

theorem loads_layers : Loads (loadLayers filepath disk) layerWords
    [MultiHeadAttention.onDisk arch (filepath ++ ".self_attn") disk,
      CrossAttention.onDisk arch (filepath ++ ".cross_attn") disk,
      FeedForward.onDisk arch (filepath ++ ".ff") disk] b := by
  refine Loads.thenSet ?_ fun _ => rfl
  exact Loads.inside (fun b : DecoderBlock arch =>
      (b.selfAttention, b.crossAttention, b.feedForward)) _
    ((MultiHeadAttention.loads _ disk _).both
      ((CrossAttention.loads _ disk _).both (FeedForward.loads _ disk _))) fun _ => rfl

theorem loads_paths (loaded : LoadedBlock arch) : Loads (loadPaths filepath disk loaded) pathWords
    (b.worldModel.toList.flatMap (fun _ => GatedPath.onDisk arch
        (filepath ++ ".world_model_cross_attn") (filepath ++ ".norm_world") disk
        (some [loaded.gate])) ++
      b.hippocampal.toList.flatMap fun _ => GatedPath.onDisk arch
        (filepath ++ ".hippocampal_cross_attn") (filepath ++ ".norm_hippocampal") disk
        (some [loaded.gateH])) b :=
  Loads.inside (fun b : DecoderBlock arch => (b.worldModel, b.hippocampal)) _
    ((Loads.optional fun p _ => GatedPath.loads _ _ disk loaded.gate loaded.learningRate p).both
      (Loads.optional fun p _ => GatedPath.loads _ _ disk loaded.gateH loaded.learningRate p))
    fun _ => rfl

/-- The layers' files set neither norms nor paths. -/
theorem loadLayers_snd : (loadLayers filepath disk b).2.normWords = b.normWords ∧
    (loadLayers filepath disk b).2.worldModel = b.worldModel ∧
    (loadLayers filepath disk b).2.hippocampal = b.hippocampal := by
  unfold loadLayers Loading.thenSet Loading.inside
  dsimp only
  split <;> rename_i left <;> obtain rfl := (Prod.mk.inj left).2 <;> exact ⟨rfl, rfl, rfl⟩

theorem loads : Loads (load filepath disk) weights (b.onDisk filepath disk) b := by
  have sections_ : Loads
      (Loading.fileThen
        (readFile disk filepath (readBlock arch filepath b.worldModel.isSome b.hippocampal.isSome))
        setLoaded
        (fun loaded => (loadLayers filepath disk).andThen (loadPaths filepath disk loaded)))
      (fun b => b.normWords :: (b.layerWords ++ b.pathWords)) (b.onDisk filepath disk) b := by
    refine Loads.fileThen LoadedBlock.words normWords ?_ fun loaded read => ?_
    · rw [List.length_append, List.length_append, layerWords, pathWords, List.length_append]
      cases b.worldModel <;> cases b.hippocampal <;> rfl
    · have own : ∀ words : LoadedBlock arch → List Word, readSection disk filepath (readBlock arch
          filepath b.worldModel.isSome b.hippocampal.isSome) words = some (words loaded) := by
        intro words
        rw [readSection, read]
        rfl
      obtain ⟨norms, worldModel, hippocampal⟩ := loadLayers_snd filepath disk (b.setLoaded loaded)
      have paths := loads_paths filepath disk (loadLayers filepath disk (b.setLoaded loaded)).2 loaded
      rw [worldModel, hippocampal] at paths
      simp only [own]
      refine ⟨(loads_layers filepath disk _).andThen paths ?_ rfl, rfl, ?_⟩
      · rw [pathWords, pathWords, worldModel, hippocampal]
      · exact (Loading.view_andThen (fun _ => rfl) _).trans norms
  exact sections_.congr rfl

end Load

/-- A block with the same gated paths reads back what was written. -/
theorem onDisk_of_stored {b b' : DecoderBlock arch} {filepath : String} {disk : Disk}
    (stored : Stored disk (b.files filepath))
    (worldModel : b'.worldModel.isSome = b.worldModel.isSome)
    (hippocampal : b'.hippocampal.isSome = b.hippocampal.isSome) :
    b'.onDisk filepath disk = b.weights.map some := by
  obtain ⟨file, stored⟩ := stored_append.mp stored
  obtain ⟨selfAttention, stored⟩ := stored_append.mp stored
  obtain ⟨crossAttention, stored⟩ := stored_append.mp stored
  obtain ⟨feedForward, stored⟩ := stored_append.mp stored
  obtain ⟨worldFiles, hippocampalFiles⟩ := stored_append.mp stored
  have own : ∀ words : LoadedBlock arch → List Word, readSection disk filepath (readBlock arch
      filepath b.worldModel.isSome b.hippocampal.isSome) words = some (words (LoadedBlock.mk
        b.dropoutRate b.learningRate b.norm1.gamma b.norm1.beta b.norm2.gamma b.norm2.beta
        b.norm3.gamma b.norm3.beta (GatedPath.savedGate b.worldModel)
        (GatedPath.savedGate b.hippocampal))) := by
    intro words
    refine readSection_of_reads _ (stored_cons.mp file).1 ?_
    simp only [readBlock, content, value_bind, matrix_bind, and_self, require_bind,
      GatedPath.readGate_bind, expectEnd_bind, pure_apply]
  rw [onDisk, worldModel, hippocampal]
  simp only [own, MultiHeadAttention.onDisk_of_stored (stored_cons.mp selfAttention).1,
    CrossAttention.onDisk_of_stored (stored_cons.mp crossAttention).1,
    FeedForward.onDisk_of_stored (stored_cons.mp feedForward).1]
  rw [weights, List.map_cons, List.map_append, pathWords, List.map_append]
  refine congrArg₂ List.cons rfl (congrArg₂ (· ++ ·) rfl (congrArg₂ (· ++ ·) ?_ ?_))
  · exact GatedPath.onDisk_of_stored_optional worldFiles worldModel
  · exact GatedPath.onDisk_of_stored_optional hippocampalFiles hippocampal

end DecoderBlock

end Adai.Checkpoint

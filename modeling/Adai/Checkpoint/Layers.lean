import Adai.Checkpoint.BinaryIO
import Adai.Math.SectionLoads

/-! # The files of a layer

Every layer that owns weights writes them to a file of its own, behind its dimensions,
and reads them back whole: the dimensions are compared, the matrices read and the end of
the file checked before anything is set. For each layer the weights it holds are one
section (`words`), its load does what `Sections.loadAll` does to that section, and
reading what it wrote gives the section back.
-/

namespace Adai.Checkpoint

open Tokenizer Sections FileReader

/-- What an `int` holds that counts something. -/
abbrev Size := Fin 2147483648

/-- The numbers a model is constructed with. -/
structure Architecture where
  vocabSize : Size
  dModel : Size
  encoderLayers : Size
  decoderLayers : Size
  numHeads : Size
  dFf : Size
  maxSeqLength : Size
  deriving DecidableEq

def sizeWord (s : Size) : Word := intWord s.val

def shownWord (w : Word) : String := toString (wordInt w)

def shownSize (s : Size) : String := toString s.val

/-- What a file says, if it can be read. -/
def readSection {α : Type} (disk : Disk) (path : String) (read : FileReader α) (words : α → List Word) :
    Option (List Word) :=
  (readFile disk path read).toOption.map words

theorem readSection_of_reads {α : Type} {disk : Disk} {path : String} {read : FileReader α}
    {content : Bytes} (value : α) {words : α → List Word}
    (stored : disk.files.lookup path = some content) (reads : read content = .ok (value, [])) :
    readSection disk path read words = some (words value) := by
  rw [readSection, readFile_of_reads stored reads]
  rfl

variable {arch : Architecture}

/-! ## Layer norms -/

structure LayerNorm (arch : Architecture) where
  eps : Word
  gamma : Matrix 1 arch.dModel
  beta : Matrix 1 arch.dModel

namespace LayerNorm

def words (n : LayerNorm arch) : List Word := n.gamma.words ++ n.beta.words

def content (n : LayerNorm arch) : Bytes :=
  wordBytes (sizeWord arch.dModel) ++ (wordBytes n.eps ++ (n.gamma.bytes ++ (n.beta.bytes ++ [])))

def saveWeights (n : LayerNorm arch) (filename : String) : Saving :=
  writeFile filename n.content

/-- The saved epsilon is passed over. -/
def readWeights (arch : Architecture) (filename : String) :
    FileReader (Matrix 1 arch.dModel × Matrix 1 arch.dModel) := do
  let loadedDim ← value filename "dim"
  let _ ← value filename "eps"
  require (loadedDim = sizeWord arch.dModel) ("Dimension mismatch: file has " ++
    shownWord loadedDim ++ ", expected " ++ shownSize arch.dModel)
  let gamma ← matrix filename "gamma" 1 arch.dModel
  let beta ← matrix filename "beta" 1 arch.dModel
  expectEnd filename
  return (gamma, beta)

def setParameters (n : LayerNorm arch) (loaded : Matrix 1 arch.dModel × Matrix 1 arch.dModel) :
    LayerNorm arch :=
  { n with gamma := loaded.1, beta := loaded.2 }

def loadWeights (filename : String) (disk : Disk) : Loading LoadError (LayerNorm arch) :=
  Loading.file (readFile disk filename (readWeights arch filename)) setParameters

/-- The section of a layer norm's file. -/
def onDisk (arch : Architecture) (filename : String) (disk : Disk) : Option (List Word) :=
  readSection disk filename (readWeights arch filename) fun loaded =>
    loaded.1.words ++ loaded.2.words

theorem loads (filename : String) (disk : Disk) (n : LayerNorm arch) :
    Loads (loadWeights filename disk) (fun n => [n.words]) [onDisk arch filename disk] n :=
  Loads.file fun _ => rfl

theorem onDisk_of_stored {n : LayerNorm arch} {filename : String} {disk : Disk}
    (stored : disk.files.lookup filename = some n.content) :
    onDisk arch filename disk = some n.words := by
  refine readSection_of_reads (n.gamma, n.beta) stored ?_
  simp only [readWeights, content, value_bind, matrix_bind, require_bind, expectEnd_bind, pure_apply]

end LayerNorm

/-! ## Attention -/

/-- The four projections of an attention layer. -/
structure Projections (arch : Architecture) where
  wQ : Matrix arch.dModel arch.dModel
  wK : Matrix arch.dModel arch.dModel
  wV : Matrix arch.dModel arch.dModel
  wO : Matrix arch.dModel arch.dModel

namespace Projections

def words (p : Projections arch) : List Word := p.wQ.words ++ p.wK.words ++ p.wV.words ++ p.wO.words

def bytes (p : Projections arch) : Bytes :=
  p.wQ.bytes ++ (p.wK.bytes ++ (p.wV.bytes ++ (p.wO.bytes ++ [])))

/-- The rest of the file. -/
def read (arch : Architecture) (filename : String) : FileReader (Projections arch) := do
  let wQ ← matrix filename "W_q" arch.dModel arch.dModel
  let wK ← matrix filename "W_k" arch.dModel arch.dModel
  let wV ← matrix filename "W_v" arch.dModel arch.dModel
  let wO ← matrix filename "W_o" arch.dModel arch.dModel
  expectEnd filename
  return ⟨wQ, wK, wV, wO⟩

@[simp] theorem read_bytes (p : Projections arch) (filename : String) :
    read arch filename p.bytes = .ok (p, []) := by
  simp only [read, bytes, matrix_bind, expectEnd_bind, pure_apply]

end Projections

structure MultiHeadAttention (arch : Architecture) where
  projections : Projections arch

namespace MultiHeadAttention

def words (a : MultiHeadAttention arch) : List Word := a.projections.words

def content (a : MultiHeadAttention arch) : Bytes :=
  wordBytes (sizeWord arch.dModel) ++ (wordBytes (sizeWord arch.numHeads) ++ a.projections.bytes)

def saveWeights (a : MultiHeadAttention arch) (filename : String) : Saving :=
  writeFile filename a.content

def readWeights (arch : Architecture) (filename : String) : FileReader (Projections arch) := do
  let savedDModel ← value filename "d_model"
  let savedNumHeads ← value filename "num_heads"
  require (savedDModel = sizeWord arch.dModel ∧ savedNumHeads = sizeWord arch.numHeads)
    ("Dimension mismatch: file has d_model=" ++ shownWord savedDModel ++ ", num_heads=" ++
      shownWord savedNumHeads ++ ", expected d_model=" ++ shownSize arch.dModel ++
      ", num_heads=" ++ shownSize arch.numHeads)
  Projections.read arch filename

def loadWeights (filename : String) (disk : Disk) : Loading LoadError (MultiHeadAttention arch) :=
  Loading.file (readFile disk filename (readWeights arch filename)) fun _ loaded => ⟨loaded⟩

def onDisk (arch : Architecture) (filename : String) (disk : Disk) : Option (List Word) :=
  readSection disk filename (readWeights arch filename) Projections.words

theorem loads (filename : String) (disk : Disk) (a : MultiHeadAttention arch) :
    Loads (loadWeights filename disk) (fun a => [a.words]) [onDisk arch filename disk] a :=
  Loads.file fun _ => rfl

theorem onDisk_of_stored {a : MultiHeadAttention arch} {filename : String} {disk : Disk}
    (stored : disk.files.lookup filename = some a.content) :
    onDisk arch filename disk = some a.words := by
  refine readSection_of_reads a.projections stored ?_
  simp only [readWeights, content, value_bind, and_self, require_bind, Projections.read_bytes]

end MultiHeadAttention

/-- Without adapters. -/
structure CrossAttention (arch : Architecture) where
  learningRate : Word
  projections : Projections arch

namespace CrossAttention

def words (a : CrossAttention arch) : List Word := a.projections.words

def content (a : CrossAttention arch) : Bytes :=
  wordBytes (sizeWord arch.dModel) ++ (wordBytes (sizeWord arch.numHeads) ++
    (wordBytes a.learningRate ++ a.projections.bytes))

def save (a : CrossAttention arch) (filepath : String) : Saving := writeFile filepath a.content

def read (arch : Architecture) (filepath : String) : FileReader (CrossAttention arch) := do
  let loadedDModel ← value filepath "d_model"
  let loadedNumHeads ← value filepath "num_heads"
  let loadedLearningRate ← value filepath "learning_rate"
  require (loadedDModel = sizeWord arch.dModel ∧ loadedNumHeads = sizeWord arch.numHeads)
    ("Dimension mismatch: expected d_model=" ++ shownSize arch.dModel ++ ", num_heads=" ++
      shownSize arch.numHeads ++ " but got d_model=" ++ shownWord loadedDModel ++
      ", num_heads=" ++ shownWord loadedNumHeads)
  let projections ← Projections.read arch filepath
  return ⟨loadedLearningRate, projections⟩

def load (filepath : String) (disk : Disk) : Loading LoadError (CrossAttention arch) :=
  Loading.file (readFile disk filepath (read arch filepath)) fun _ loaded => loaded

def onDisk (arch : Architecture) (filepath : String) (disk : Disk) : Option (List Word) :=
  readSection disk filepath (read arch filepath) words

theorem loads (filepath : String) (disk : Disk) (a : CrossAttention arch) :
    Loads (load filepath disk) (fun a => [a.words]) [onDisk arch filepath disk] a :=
  Loads.file fun _ => rfl

theorem onDisk_of_stored {a : CrossAttention arch} {filepath : String} {disk : Disk}
    (stored : disk.files.lookup filepath = some a.content) :
    onDisk arch filepath disk = some a.words := by
  refine readSection_of_reads a stored ?_
  simp only [read, content, value_bind, and_self, require_bind]
  rw [bind_of_read (Projections.read_bytes a.projections filepath)]
  rfl

end CrossAttention

/-! ## Feed-forward layers -/

structure FeedForward (arch : Architecture) where
  w1 : Matrix arch.dModel arch.dFf
  w2 : Matrix arch.dFf arch.dModel
  b1 : Matrix 1 arch.dFf
  b2 : Matrix 1 arch.dModel

namespace FeedForward

def words (f : FeedForward arch) : List Word := f.w1.words ++ f.w2.words ++ f.b1.words ++ f.b2.words

def content (f : FeedForward arch) : Bytes :=
  wordBytes (sizeWord arch.dModel) ++ (wordBytes (sizeWord arch.dFf) ++
    (f.w1.bytes ++ (f.w2.bytes ++ (f.b1.bytes ++ (f.b2.bytes ++ [])))))

def saveWeights (f : FeedForward arch) (filename : String) : Saving := writeFile filename f.content

def readWeights (arch : Architecture) (filename : String) : FileReader (FeedForward arch) := do
  let loadedDModel ← value filename "d_model"
  let loadedDFf ← value filename "d_ff"
  require (loadedDModel = sizeWord arch.dModel ∧ loadedDFf = sizeWord arch.dFf)
    ("Dimension mismatch. Expected d_model=" ++ shownSize arch.dModel ++ ", d_ff=" ++
      shownSize arch.dFf ++ " but got d_model=" ++ shownWord loadedDModel ++ ", d_ff=" ++
      shownWord loadedDFf)
  let w1 ← matrix filename "W1" arch.dModel arch.dFf
  let w2 ← matrix filename "W2" arch.dFf arch.dModel
  let b1 ← matrix filename "b1" 1 arch.dFf
  let b2 ← matrix filename "b2" 1 arch.dModel
  expectEnd filename
  return ⟨w1, w2, b1, b2⟩

def loadWeights (filename : String) (disk : Disk) : Loading LoadError (FeedForward arch) :=
  Loading.file (readFile disk filename (readWeights arch filename)) fun _ loaded => loaded

def onDisk (arch : Architecture) (filename : String) (disk : Disk) : Option (List Word) :=
  readSection disk filename (readWeights arch filename) words

theorem loads (filename : String) (disk : Disk) (f : FeedForward arch) :
    Loads (loadWeights filename disk) (fun f => [f.words]) [onDisk arch filename disk] f :=
  Loads.file fun _ => rfl

theorem onDisk_of_stored {f : FeedForward arch} {filename : String} {disk : Disk}
    (stored : disk.files.lookup filename = some f.content) :
    onDisk arch filename disk = some f.words := by
  refine readSection_of_reads f stored ?_
  simp only [readWeights, content, value_bind, matrix_bind, and_self, require_bind,
    expectEnd_bind, pure_apply]

end FeedForward

/-! ## Embeddings and the language model head -/

structure TokenEmbedding (arch : Architecture) where
  embeddingMatrix : Matrix arch.vocabSize arch.dModel

namespace TokenEmbedding

def words (e : TokenEmbedding arch) : List Word := e.embeddingMatrix.words

def content (e : TokenEmbedding arch) : Bytes :=
  wordBytes (sizeWord arch.vocabSize) ++ (wordBytes (sizeWord arch.dModel) ++
    (e.embeddingMatrix.bytes ++ []))

def saveEmbeddings (e : TokenEmbedding arch) (filename : String) : Saving :=
  writeFile filename e.content

def readPretrained (arch : Architecture) (filename : String) : FileReader (TokenEmbedding arch) := do
  let savedVocabSize ← value filename "vocab_size"
  let savedDModel ← value filename "d_model"
  require (savedVocabSize = sizeWord arch.vocabSize ∧ savedDModel = sizeWord arch.dModel)
    ("Dimension mismatch: file has (" ++ shownWord savedVocabSize ++ ", " ++
      shownWord savedDModel ++ "), expected (" ++ shownSize arch.vocabSize ++ ", " ++
      shownSize arch.dModel ++ ")")
  let loaded ← matrix filename "embedding matrix" arch.vocabSize arch.dModel
  expectEnd filename
  return ⟨loaded⟩

def loadPretrained (filename : String) (disk : Disk) : Loading LoadError (TokenEmbedding arch) :=
  Loading.file (readFile disk filename (readPretrained arch filename)) fun _ loaded => loaded

def onDisk (arch : Architecture) (filename : String) (disk : Disk) : Option (List Word) :=
  readSection disk filename (readPretrained arch filename) words

theorem loads (filename : String) (disk : Disk) (e : TokenEmbedding arch) :
    Loads (loadPretrained filename disk) (fun e => [e.words]) [onDisk arch filename disk] e :=
  Loads.file fun _ => rfl

theorem onDisk_of_stored {e : TokenEmbedding arch} {filename : String} {disk : Disk}
    (stored : disk.files.lookup filename = some e.content) :
    onDisk arch filename disk = some e.words := by
  refine readSection_of_reads e stored ?_
  simp only [readPretrained, content, value_bind, matrix_bind, and_self, require_bind,
    expectEnd_bind, pure_apply]

end TokenEmbedding

structure LanguageModelHead (arch : Architecture) where
  wOutput : Matrix arch.dModel arch.vocabSize
  bias : Matrix 1 arch.vocabSize

namespace LanguageModelHead

def words (h : LanguageModelHead arch) : List Word := h.wOutput.words ++ h.bias.words

def content (h : LanguageModelHead arch) : Bytes :=
  wordBytes (sizeWord arch.dModel) ++ (wordBytes (sizeWord arch.vocabSize) ++
    (h.wOutput.bytes ++ (h.bias.bytes ++ [])))

def save (h : LanguageModelHead arch) (filepath : String) : Saving := writeFile filepath h.content

def read (arch : Architecture) (filepath : String) : FileReader (LanguageModelHead arch) := do
  let loadedDModel ← value filepath "d_model"
  let loadedVocabSize ← value filepath "vocab_size"
  require (loadedDModel = sizeWord arch.dModel ∧ loadedVocabSize = sizeWord arch.vocabSize)
    "Dimension mismatch in saved model"
  let wOutput ← matrix filepath "W_output" arch.dModel arch.vocabSize
  let bias ← matrix filepath "bias" 1 arch.vocabSize
  expectEnd filepath
  return ⟨wOutput, bias⟩

def load (filepath : String) (disk : Disk) : Loading LoadError (LanguageModelHead arch) :=
  Loading.file (readFile disk filepath (read arch filepath)) fun _ loaded => loaded

def onDisk (arch : Architecture) (filepath : String) (disk : Disk) : Option (List Word) :=
  readSection disk filepath (read arch filepath) words

theorem loads (filepath : String) (disk : Disk) (h : LanguageModelHead arch) :
    Loads (load filepath disk) (fun h => [h.words]) [onDisk arch filepath disk] h :=
  Loads.file fun _ => rfl

theorem onDisk_of_stored {h : LanguageModelHead arch} {filepath : String} {disk : Disk}
    (stored : disk.files.lookup filepath = some h.content) :
    onDisk arch filepath disk = some h.words := by
  refine readSection_of_reads h stored ?_
  simp only [read, content, value_bind, matrix_bind, and_self, require_bind,
    expectEnd_bind, pure_apply]

end LanguageModelHead

end Adai.Checkpoint

import Adai.Checkpoint.EncoderDecoderModel
import Adai.Tokenizer.VocabRoundTrip

/-! # Saving and loading again

The files of a checkpoint are named after the base path by suffixes, which differ from
component to component and from block to block (`CheckpointFile.suffix_injective`), so
no component overwrites another one's file. Each component reads back what it wrote, so
a model that is loaded from the checkpoint of a model with the same architecture and the
same gated paths has its weights, word for word, and its special tokens are those of the
restored tokenizer (`checkpoint_round_trip`).
-/

namespace Adai.Checkpoint

open Tokenizer Tables Sections

/-! ## File names -/

inductive EncoderBlockFile
  | own
  | attention
  | feedForward
  deriving DecidableEq

inductive DecoderBlockFile
  | own
  | selfAttention
  | crossAttention
  | feedForward
  | worldModel
  | normWorld
  | hippocampal
  | normHippocampal
  deriving DecidableEq

/-- The files of a checkpoint. -/
inductive CheckpointFile
  | config
  | vocab
  | encoder
  | decoder
  | lmHead
  | encoderTokenEmb
  | encoderFinalNorm
  | tokenEmb
  | finalNorm
  | encoderBlock (i : Nat) (file : EncoderBlockFile)
  | decoderBlock (i : Nat) (file : DecoderBlockFile)
  deriving DecidableEq

def EncoderBlockFile.suffix : EncoderBlockFile → String
  | own => ".bin"
  | attention => "_attention.bin"
  | feedForward => "_feedforward.bin"

def DecoderBlockFile.suffix : DecoderBlockFile → String
  | own => ".bin"
  | selfAttention => ".bin.self_attn"
  | crossAttention => ".bin.cross_attn"
  | feedForward => ".bin.ff"
  | worldModel => ".bin.world_model_cross_attn"
  | normWorld => ".bin.norm_world"
  | hippocampal => ".bin.hippocampal_cross_attn"
  | normHippocampal => ".bin.norm_hippocampal"

/-- What is put behind the base path. -/
def CheckpointFile.suffix : CheckpointFile → String
  | config => ".config"
  | vocab => ".vocab"
  | encoder => ".encoder"
  | decoder => ".decoder"
  | lmHead => ".lm_head"
  | encoderTokenEmb => "_encoder_token_emb.bin"
  | encoderFinalNorm => "_encoder_final_norm.bin"
  | tokenEmb => "_token_emb.bin"
  | finalNorm => "_final_norm.bin"
  | encoderBlock i file => "_encoder_block_" ++ (toString i ++ file.suffix)
  | decoderBlock i file => "_decoder_block_" ++ (toString i ++ file.suffix)

/-- The kinds of files; their suffixes differ in the first ten characters. -/
def CheckpointFile.kind : CheckpointFile → Fin 11
  | config => 0
  | vocab => 1
  | encoder => 2
  | decoder => 3
  | lmHead => 4
  | encoderTokenEmb => 5
  | encoderFinalNorm => 6
  | tokenEmb => 7
  | finalNorm => 8
  | encoderBlock _ _ => 9
  | decoderBlock _ _ => 10

def openings : List (List Char) :=
  [".config", ".vocab", ".encoder", ".decoder", ".lm_head", "_encoder_t", "_encoder_f", "_token_emb",
    "_final_nor", "_encoder_b", "_decoder_b"].map String.toList

theorem openings_nodup : openings.Nodup := by decide +kernel

theorem toList_toString (n : Nat) : (toString n).toList = Nat.toDigits 10 n := by
  rw [Nat.toString_eq_ofList_toDigits, String.toList_ofList]

/-- A number and what follows it are told apart by the first character that is no digit. -/
theorem number_append_inj {i j : Nat} {s t : String} {c d : Char} {cs ds : List Char}
    (s_eq : s.toList = c :: cs) (t_eq : t.toList = d :: ds) (noDigit : c.isDigit = false)
    (noDigit' : d.isDigit = false) (same : toString i ++ s = toString j ++ t) : i = j ∧ s = t := by
  have digits : ∀ n, ∀ e ∈ Nat.toDigits 10 n, e.isDigit = true := fun n e member =>
    Nat.isDigit_of_mem_toDigits (by omega) (by omega) member
  have front : ∀ (n : Nat) (e : Char) (es : List Char), e.isDigit = false →
      (Nat.toDigits 10 n ++ e :: es).takeWhile Char.isDigit = Nat.toDigits 10 n := by
    intro n e es stop
    rw [List.takeWhile_append_of_pos (digits n), List.takeWhile_cons_of_neg (by simp [stop]),
      List.append_nil]
  have lists := congrArg String.toList same
  rw [String.toList_append, String.toList_append, toList_toString, toList_toString, s_eq, t_eq] at lists
  have numbers := congrArg (List.takeWhile Char.isDigit) lists
  rw [front i c cs noDigit, front j d ds noDigit'] at numbers
  have equal : i = j := by
    have values := congrArg (fun digits => Nat.ofDigitChars 10 digits 0) numbers
    rwa [Nat.ofDigitChars_ten_toDigits, Nat.ofDigitChars_ten_toDigits] at values
  subst equal
  exact ⟨rfl, (String.append_right_inj _).mp same⟩

theorem EncoderBlockFile.suffix_toList (file : EncoderBlockFile) :
    ∃ c cs, file.suffix.toList = c :: cs ∧ c.isDigit = false := by
  cases file <;> exact ⟨_, _, rfl, rfl⟩

theorem DecoderBlockFile.suffix_toList (file : DecoderBlockFile) :
    ∃ c cs, file.suffix.toList = c :: cs ∧ c.isDigit = false := by
  cases file <;> exact ⟨_, _, rfl, rfl⟩

theorem EncoderBlockFile.suffix_injective {file file' : EncoderBlockFile}
    (same : file.suffix = file'.suffix) : file = file' := by
  cases file <;> cases file' <;> first | rfl | simp [suffix] at same

theorem DecoderBlockFile.suffix_injective {file file' : DecoderBlockFile}
    (same : file.suffix = file'.suffix) : file = file' := by
  cases file <;> cases file' <;> first | rfl | simp [suffix] at same

namespace CheckpointFile

theorem take_suffix (file : CheckpointFile) :
    openings[file.kind]? = some (file.suffix.toList.take 10) := by
  cases file with
  | encoderBlock i file =>
      have opened : (suffix (encoderBlock i file)).toList = _ := String.toList_append
      exact congrArg (fun l => some (l.take 10)) opened.symm
  | decoderBlock i file =>
      have opened : (suffix (decoderBlock i file)).toList = _ := String.toList_append
      exact congrArg (fun l => some (l.take 10)) opened.symm
  | _ => rfl

/-- **Distinct names.** -/
theorem suffix_injective {file file' : CheckpointFile} (same : file.suffix = file'.suffix) :
    file = file' := by
  have kinds : file.kind = file'.kind := by
    have opened : openings[file.kind]? = openings[file'.kind]? :=
      (take_suffix file).trans ((congrArg (fun text : String => some (text.toList.take 10)) same).trans
        (take_suffix file').symm)
    exact Fin.ext ((List.getElem?_inj file.kind.isLt openings_nodup).mp opened)
  cases file with
  | encoderBlock i part =>
      cases file' with
      | encoderBlock j part' =>
          obtain ⟨c, cs, shape, noDigit⟩ := part.suffix_toList
          obtain ⟨d, ds, shape', noDigit'⟩ := part'.suffix_toList
          obtain ⟨rfl, parts⟩ := number_append_inj shape shape' noDigit noDigit'
            ((String.append_right_inj _).mp same)
          rw [EncoderBlockFile.suffix_injective parts]
      | _ => cases kinds
  | decoderBlock i part =>
      cases file' with
      | decoderBlock j part' =>
          obtain ⟨c, cs, shape, noDigit⟩ := part.suffix_toList
          obtain ⟨d, ds, shape', noDigit'⟩ := part'.suffix_toList
          obtain ⟨rfl, parts⟩ := number_append_inj shape shape' noDigit noDigit'
            ((String.append_right_inj _).mp same)
          rw [DecoderBlockFile.suffix_injective parts]
      | _ => cases kinds
  | _ => cases file' <;> first | rfl | cases kinds

end CheckpointFile

/-! ## The files that are written -/

variable {arch : Architecture}

def encoderBlockFiles (i : Nat) : List CheckpointFile :=
  [EncoderBlockFile.own, .attention, .feedForward].map (CheckpointFile.encoderBlock i)

def decoderBlockParts (b : DecoderBlock arch) : List DecoderBlockFile :=
  [.own, .selfAttention, .crossAttention, .feedForward] ++
    (b.worldModel.toList.flatMap (fun _ => [DecoderBlockFile.worldModel, .normWorld]) ++
      b.hippocampal.toList.flatMap fun _ => [DecoderBlockFile.hippocampal, .normHippocampal])

def decoderBlockFiles (i : Nat) (b : DecoderBlock arch) : List CheckpointFile :=
  (decoderBlockParts b).map (CheckpointFile.decoderBlock i)

def encoderFiles (e : LLMEncoder arch) : List CheckpointFile :=
  [.encoder] ++ ([.encoderTokenEmb] ++
    ((e.encoderBlocks.1.mapIdx fun i _ => encoderBlockFiles (0 + i)).flatten ++ [.encoderFinalNorm]))

def decoderFiles (d : LLMDecoder arch) : List CheckpointFile :=
  [.decoder] ++ ([.tokenEmb] ++
    ((d.decoderBlocks.1.mapIdx fun i b => decoderBlockFiles (0 + i) b).flatten ++ [.finalNorm]))

/-- The files of the components, in the order in which they are written. -/
def componentFiles (m : EncoderDecoderModel arch) : List CheckpointFile :=
  encoderFiles m.encoder ++ (decoderFiles m.decoder ++ [.lmHead])

section Names

variable {base : String}

theorem beforeLastDot_encoderBlock (i : Nat) :
    beforeLastDot (LLMEncoder.blockFile base i) = base ++ "_encoder_block_" ++ toString i :=
  beforeLastDot_append _ ".bin" rfl (by decide)

theorem encoderBlock_append (i : Nat) (part : String) :
    base ++ "_encoder_block_" ++ toString i ++ part =
      base ++ ("_encoder_block_" ++ (toString i ++ part)) := by
  rw [String.append_assoc, String.append_assoc]

theorem EncoderBlock.map_files (b : EncoderBlock arch) (i : Nat) :
    (b.files (LLMEncoder.blockFile base i)).map Prod.fst =
      (encoderBlockFiles i).map fun file => base ++ file.suffix := by
  rw [EncoderBlock.files, beforeLastDot_encoderBlock]
  exact congrArg₂ List.cons (encoderBlock_append i _) (congrArg₂ List.cons (encoderBlock_append i _)
    (congrArg₂ List.cons (encoderBlock_append i _) rfl))

theorem DecoderBlock.map_files (b : DecoderBlock arch) (i : Nat) :
    (b.files (LLMDecoder.blockFile base i)).map Prod.fst =
      (decoderBlockFiles i b).map fun file => base ++ file.suffix := by
  rw [DecoderBlock.files, decoderBlockFiles, decoderBlockParts]
  simp only [LLMDecoder.blockFile, String.append_assoc, String.reduceAppend]
  cases b.worldModel <;> cases b.hippocampal <;> rfl

theorem map_flatten_mapIdx {α β γ τ : Type} {f : β → γ} {g : α → γ} {lists : Nat → τ → List β}
    {named : Nat → τ → List α} (each : ∀ i t, (lists i t).map f = (named i t).map g) (parts : List τ) :
    (parts.mapIdx lists).flatten.map f = (parts.mapIdx named).flatten.map g := by
  induction parts generalizing lists named with
  | nil => rfl
  | cons t rest ih =>
      rw [List.mapIdx_cons, List.mapIdx_cons, List.flatten_cons, List.flatten_cons, List.map_append,
        List.map_append, each, ih fun i t => each (i + 1) t]

theorem LLMEncoder.map_files (e : LLMEncoder arch) :
    (e.files (base ++ ".encoder")).map Prod.fst =
      (encoderFiles e).map fun file => base ++ file.suffix := by
  have blocks := map_flatten_mapIdx (fun i b => @EncoderBlock.map_files arch base b (0 + i))
    e.encoderBlocks.1
  rw [LLMEncoder.files, beforeLastDot_append base ".encoder" rfl (by decide), encoderFiles]
  simp only [List.map_append]
  rw [blocks]
  rfl

theorem LLMDecoder.map_files (d : LLMDecoder arch) :
    (d.files (base ++ ".decoder")).map Prod.fst =
      (decoderFiles d).map fun file => base ++ file.suffix := by
  have blocks := map_flatten_mapIdx (fun i b => @DecoderBlock.map_files arch base b (0 + i))
    d.decoderBlocks.1
  rw [LLMDecoder.files, beforeLastDot_append base ".decoder" rfl (by decide), decoderFiles]
  simp only [List.map_append]
  rw [blocks]
  rfl

end Names

/-! ## No file is written twice -/

theorem nodup_encoderBlockFiles (i : Nat) : (encoderBlockFiles i).Nodup :=
  List.Nodup.map (fun _ _ same => (CheckpointFile.encoderBlock.inj same).2) (by decide)

theorem nodup_decoderBlockFiles (i : Nat) (b : DecoderBlock arch) : (decoderBlockFiles i b).Nodup := by
  refine List.Nodup.map (fun _ _ same => (CheckpointFile.decoderBlock.inj same).2) ?_
  unfold decoderBlockParts
  cases b.worldModel <;> cases b.hippocampal <;> simp [Option.toList]

/-- Blocks with different numbers have different files. -/
theorem nodup_flatten_mapIdx {τ : Type} {files : Nat → τ → List CheckpointFile}
    (number : CheckpointFile → Option Nat)
    (numbered : ∀ i t, ∀ file ∈ files i t, number file = some i)
    (nodup : ∀ i t, (files i t).Nodup) (parts : List τ) :
    ((parts.mapIdx fun i t => files (0 + i) t).flatten).Nodup := by
  refine List.nodup_flatten.mpr ⟨fun l member => ?_, ?_⟩
  · obtain ⟨i, inside, rfl⟩ := List.mem_mapIdx.mp member
    exact nodup _ _
  · rw [List.pairwise_iff_getElem]
    intro i j before after less file here there
    rw [List.getElem_mapIdx] at here there
    have same := (numbered _ _ file here).symm.trans (numbered _ _ file there)
    injection same with same
    omega

def CheckpointFile.number : CheckpointFile → Option Nat
  | encoderBlock i _ => some i
  | decoderBlock i _ => some i
  | _ => none

/-- Lists of different kinds have no file in common. -/
theorem nodup_append_kinds {files files' : List CheckpointFile} (nodup : files.Nodup)
    (nodup' : files'.Nodup) (apart : ∀ kind ∈ files.map CheckpointFile.kind,
      kind ∉ files'.map CheckpointFile.kind) : (files ++ files').Nodup :=
  List.nodup_append.mpr ⟨nodup, nodup', fun _ here _ there same =>
    apart _ (List.mem_map_of_mem here) (same ▸ List.mem_map_of_mem there)⟩

theorem nodup_componentFiles (m : EncoderDecoderModel arch) :
    (CheckpointFile.config :: CheckpointFile.vocab :: componentFiles m).Nodup := by
  have encoderBlocks : (m.encoder.encoderBlocks.1.mapIdx fun i _ =>
      encoderBlockFiles (0 + i)).flatten.Nodup :=
    nodup_flatten_mapIdx CheckpointFile.number (fun i _ file member => by
      obtain ⟨part, _, rfl⟩ := List.mem_map.mp member
      rfl) (fun i _ => nodup_encoderBlockFiles i) _
  have decoderBlocks : (m.decoder.decoderBlocks.1.mapIdx fun i b =>
      decoderBlockFiles (0 + i) b).flatten.Nodup :=
    nodup_flatten_mapIdx CheckpointFile.number (fun i b file member => by
      obtain ⟨part, _, rfl⟩ := List.mem_map.mp member
      rfl) nodup_decoderBlockFiles _
  have encoderKind : ∀ file ∈ (m.encoder.encoderBlocks.1.mapIdx fun i _ =>
      encoderBlockFiles (0 + i)).flatten, file.kind = 9 := by
    intro file member
    obtain ⟨l, inside, here⟩ := List.mem_flatten.mp member
    obtain ⟨i, _, rfl⟩ := List.mem_mapIdx.mp inside
    obtain ⟨part, _, rfl⟩ := List.mem_map.mp here
    rfl
  have decoderKind : ∀ file ∈ (m.decoder.decoderBlocks.1.mapIdx fun i b =>
      decoderBlockFiles (0 + i) b).flatten, file.kind = 10 := by
    intro file member
    obtain ⟨l, inside, here⟩ := List.mem_flatten.mp member
    obtain ⟨i, _, rfl⟩ := List.mem_mapIdx.mp inside
    obtain ⟨part, _, rfl⟩ := List.mem_map.mp here
    rfl
  unfold componentFiles encoderFiles decoderFiles
  generalize (m.encoder.encoderBlocks.1.mapIdx fun i _ => encoderBlockFiles (0 + i)).flatten =
    encoderBlocks_ at *
  generalize (m.decoder.decoderBlocks.1.mapIdx fun i b => decoderBlockFiles (0 + i) b).flatten =
    decoderBlocks_ at *
  have sorted : (CheckpointFile.config :: CheckpointFile.vocab ::
      (([CheckpointFile.encoder] ++ ([CheckpointFile.encoderTokenEmb] ++
        (encoderBlocks_ ++ [CheckpointFile.encoderFinalNorm]))) ++
      (([CheckpointFile.decoder] ++ ([CheckpointFile.tokenEmb] ++
        (decoderBlocks_ ++ [CheckpointFile.finalNorm]))) ++ [CheckpointFile.lmHead]))).Perm
      ([CheckpointFile.config, .vocab, .encoder, .encoderTokenEmb, .encoderFinalNorm, .decoder,
        .tokenEmb, .finalNorm, .lmHead] ++ (encoderBlocks_ ++ decoderBlocks_)) := by
    refine List.perm_iff_count.mpr fun file => ?_
    simp only [List.count_append, List.count_cons, List.count_nil]
    omega
  refine sorted.nodup_iff.mpr (nodup_append_kinds (by decide)
    (nodup_append_kinds encoderBlocks decoderBlocks ?_) ?_)
  · intro kind here there
    obtain ⟨file, member, rfl⟩ := List.mem_map.mp here
    obtain ⟨file', member', same⟩ := List.mem_map.mp there
    rw [encoderKind file member, decoderKind file' member'] at same
    cases same
  · intro kind here there
    have blocks : kind = 9 ∨ kind = 10 := by
      obtain ⟨file, member, rfl⟩ := List.mem_map.mp there
      exact (List.mem_append.mp member).imp (encoderKind file) (decoderKind file)
    rcases blocks with rfl | rfl <;> exact absurd here (by decide)

/-! ## What is read back -/

theorem flatten_mapIdx_eq {τ ω : Type} (contents : Nat → τ → List (Option ω)) (view : τ → List ω)
    {saved parts : List τ} (length : saved.length = parts.length)
    (each : ∀ i t t', saved[i]? = some t → parts[i]? = some t' →
      contents i t' = (view t).map some) :
    (parts.mapIdx contents).flatten = (saved.flatMap view).map some := by
  induction saved generalizing parts contents with
  | nil =>
      obtain rfl := List.eq_nil_of_length_eq_zero length.symm
      rfl
  | cons t saved ih =>
      cases parts with
      | nil => cases length
      | cons t' parts =>
          rw [List.mapIdx_cons, List.flatten_cons, List.flatMap_cons, List.map_append,
            each 0 t t' rfl rfl,
            ih (fun i => contents (i + 1)) (Nat.succ.inj length) fun i => each (i + 1)]

theorem stored_block {τ : Type} {disk : Disk} (filesOf : Nat → τ → List (String × Bytes))
    {parts : List τ} (stored : Stored disk (parts.mapIdx fun i t => filesOf (0 + i) t).flatten)
    {i : Nat} {t : τ} (there : parts[i]? = some t) : Stored disk (filesOf i t) := by
  intro file member
  obtain ⟨inside, rfl⟩ := List.getElem?_eq_some_iff.mp there
  refine stored file (List.mem_flatten.mpr ⟨_, List.mem_mapIdx.mpr ⟨i, inside, rfl⟩, ?_⟩)
  rwa [Nat.zero_add]

section ReadBack

variable {disk : Disk} {filename : String}

theorem componentPath_of_stored {base name : String} {content : Bytes}
    (stored : disk.files.lookup (base ++ "_encoder_" ++ name) = some content) :
    LLMEncoder.componentPath base name disk = base ++ "_encoder_" ++ name := by
  rw [LLMEncoder.componentPath, stored]
  rfl

theorem LLMEncoder.onDisk_of_stored {e e' : LLMEncoder arch}
    (stored : Stored disk (e.files filename)) : e'.onDisk filename disk = e.weights.map some := by
  obtain ⟨header, stored⟩ := stored_append.mp stored
  obtain ⟨embedding, stored⟩ := stored_append.mp stored
  obtain ⟨blocks, norm⟩ := stored_append.mp stored
  have embeddingFile := (stored_cons.mp embedding).1
  have normFile := (stored_cons.mp norm).1
  have embeddingName : beforeLastDot filename ++ "_encoder_token_emb.bin" =
      beforeLastDot filename ++ "_encoder_" ++ "token_emb.bin" := by rw [String.append_assoc]; rfl
  have normName : beforeLastDot filename ++ "_encoder_final_norm.bin" =
      beforeLastDot filename ++ "_encoder_" ++ "final_norm.bin" := by rw [String.append_assoc]; rfl
  rw [embeddingName] at embeddingFile
  rw [normName] at normFile
  have readBlocks := flatten_mapIdx_eq
    (fun i _ => EncoderBlock.onDisk arch (blockFile (beforeLastDot filename) i) disk)
    EncoderBlock.weights
    (e.encoderBlocks.2.trans e'.encoderBlocks.2.symm) fun i b _ there _ =>
      EncoderBlock.onDisk_of_stored (stored_block (fun i b =>
        EncoderBlock.files b (blockFile (beforeLastDot filename) i)) blocks there)
  simp only [onDisk, headerOnDisk_of_stored (stored_cons.mp header).1,
    componentPath_of_stored embeddingFile, componentPath_of_stored normFile, readBlocks,
    TokenEmbedding.onDisk_of_stored embeddingFile, LayerNorm.onDisk_of_stored normFile, weights,
    List.map_cons, List.map_append, List.map_nil]

/-- The same gated paths, block by block. -/
def SamePaths (d d' : LLMDecoder arch) : Prop :=
  ∀ (i : Nat) (b b' : DecoderBlock arch), d.decoderBlocks.1[i]? = some b →
    d'.decoderBlocks.1[i]? = some b' →
      b'.worldModel.isSome = b.worldModel.isSome ∧ b'.hippocampal.isSome = b.hippocampal.isSome

theorem LLMDecoder.onDisk_of_stored {d d' : LLMDecoder arch} (paths : SamePaths d d')
    (stored : Stored disk (d.files filename)) : d'.onDisk filename disk = d.weights.map some := by
  obtain ⟨header, stored⟩ := stored_append.mp stored
  obtain ⟨embedding, stored⟩ := stored_append.mp stored
  obtain ⟨blocks, norm⟩ := stored_append.mp stored
  have readBlocks := flatten_mapIdx_eq
    (fun i b => DecoderBlock.onDisk b (blockFile (beforeLastDot filename) i) disk)
    DecoderBlock.weights
    (d.decoderBlocks.2.trans d'.decoderBlocks.2.symm) fun i b b' there there' =>
      DecoderBlock.onDisk_of_stored (stored_block (fun i b =>
        DecoderBlock.files b (blockFile (beforeLastDot filename) i)) blocks there)
        (paths i b b' there there').1 (paths i b b' there there').2
  simp only [onDisk, headerOnDisk_of_stored (stored_cons.mp header).1, readBlocks,
    TokenEmbedding.onDisk_of_stored (stored_cons.mp embedding).1,
    LayerNorm.onDisk_of_stored (stored_cons.mp norm).1, weights, List.map_cons, List.map_append,
    List.map_nil]

end ReadBack

/-! ## Round trip -/

namespace EncoderDecoderModel

/-- The component files with their contents. -/
def files (m : EncoderDecoderModel arch) (filepath : String) : List (String × Bytes) :=
  m.encoder.files (filepath ++ ".encoder") ++ (m.decoder.files (filepath ++ ".decoder") ++
    [(filepath ++ ".lm_head", m.lmHead.content)])

theorem map_files (m : EncoderDecoderModel arch) (filepath : String) :
    (m.files filepath).map Prod.fst =
      (componentFiles m).map fun file => filepath ++ file.suffix := by
  rw [files, List.map_append, List.map_append, LLMEncoder.map_files, LLMDecoder.map_files,
    componentFiles, List.map_append, List.map_append]
  rfl

/-- The names of all files that a save writes. -/
def fileNames (m : EncoderDecoderModel arch) (filepath : String) : List String :=
  (filepath ++ ".config") :: (filepath ++ ".vocab") :: (m.files filepath).map Prod.fst

theorem nodup_fileNames (m : EncoderDecoderModel arch) (filepath : String) :
    (m.fileNames filepath).Nodup := by
  have names : m.fileNames filepath = (CheckpointFile.config :: CheckpointFile.vocab ::
      componentFiles m).map fun file => filepath ++ file.suffix := by
    rw [fileNames, map_files]
    rfl
  rw [names]
  exact (nodup_componentFiles m).map fun file file' same =>
    CheckpointFile.suffix_injective ((String.append_right_inj filepath).mp same)

/-- What a save that succeeds leaves on the disk. -/
structure Written (m : EncoderDecoderModel arch) (order : HashOrder) (filepath : String)
    (disk : Disk) : Prop where
  config : disk.files.lookup (filepath ++ ".config") = some m.configContent
  vocab : disk.files.lookup (filepath ++ ".vocab") =
    some (fileText (m.tokenizer.vocabLines order))
  components : Stored disk (m.files filepath)

theorem saveVocabulary_eq_ok {t : BPETokenizer} {order : HashOrder} {filename : String}
    {disk disk' : Disk} (saved : saveVocabulary t order filename disk = .ok disk') :
    t.saveVocab order filename disk = (none, disk') := by
  unfold saveVocabulary at saved
  rcases outcome : t.saveVocab order filename disk with ⟨_ | e, left⟩
  · rw [outcome] at saved
    rw [Except.ok.inj saved]
  · rw [outcome] at saved
    cases saved

theorem written_of_saved {m : EncoderDecoderModel arch} {order : HashOrder} {filepath : String}
    {disk disk' : Disk} (saved : m.saveModel order filepath disk = .ok disk') :
    m.Written order filepath disk' := by
  obtain ⟨apart, distinct⟩ := List.nodup_cons.mp (m.nodup_fileNames filepath)
  obtain ⟨apart', distinct⟩ := List.nodup_cons.mp distinct
  unfold saveModel Saving.andThen at saved
  cases first : writeFile (filepath ++ ".config") m.configContent disk with
  | error e =>
      rw [first] at saved
      cases saved
  | ok configDisk =>
      rw [first] at saved
      dsimp only [Except.bind] at saved
      cases second : saveVocabulary m.tokenizer order (filepath ++ ".vocab") configDisk with
      | error e =>
          rw [second] at saved
          cases saved
      | ok vocabDisk =>
          rw [second] at saved
          have components : ∀ name, disk'.files.lookup name =
              (insertAll (m.files filepath) vocabDisk.files).lookup name :=
            ((LLMEncoder.writes m.encoder (filepath ++ ".encoder")).andThen
              ((LLMDecoder.writes m.decoder (filepath ++ ".decoder")).andThen
                (Writes.file (filepath ++ ".lm_head") m.lmHead.content))) vocabDisk disk' saved
          have vocabSaved := saveVocabulary_eq_ok second
          have configKept : vocabDisk.files.lookup (filepath ++ ".config") =
              configDisk.files.lookup (filepath ++ ".config") := by
            refine BPETokenizer.saveVocab_other vocabSaved (fun same => ?_) fun same => ?_
            · exact apart (List.mem_cons.mpr (.inl same))
            · rw [String.append_assoc] at same
              have suffixes := (String.append_right_inj filepath).mp same
              simp at suffixes
          refine ⟨?_, ?_, ?_⟩
          · rw [components, lookup_insertAll_of_notMem fun member =>
              apart (List.mem_cons_of_mem _ member), configKept,
              Writes.file _ _ disk configDisk first]
            exact AList.lookup_insert _
          · rw [components, lookup_insertAll_of_notMem apart']
            exact (BPETokenizer.saveVocab_saved vocabSaved).2
          · intro file member
            rw [components]
            exact lookup_insertAll_of_mem distinct member _

/-- The file of the tokenizer gives it back. -/
def FormatRestores (t : BPETokenizer) (order : HashOrder) (fresh : BPETokenizer)
    (filename : String) : Prop :=
  ∀ disk : Disk, disk.files.lookup filename = some (fileText (t.vocabLines order)) →
    ∃ t', fresh.loadVocab filename disk = (none, t') ∧ Restored t t'

end EncoderDecoderModel

open EncoderDecoderModel

theorem readConfig_of_written {m : EncoderDecoderModel arch} {filepath : String} {disk : Disk}
    (written : disk.files.lookup (filepath ++ ".config") = some m.configContent) :
    ∃ loaded, readFile disk (filepath ++ ".config") (readCheckpointArchitecture filepath) =
      .ok loaded ∧ loaded.Matches arch := by
  refine ⟨⟨sizeWord arch.vocabSize, sizeWord arch.dModel, sizeWord arch.encoderLayers,
    sizeWord arch.decoderLayers, sizeWord arch.numHeads, sizeWord arch.dFf,
    sizeWord arch.maxSeqLength, intWord m.specialTokens.bosTokenId,
    intWord m.specialTokens.eosTokenId, intWord m.specialTokens.padTokenId⟩, ?_,
    rfl, rfl, rfl, rfl, rfl, rfl, rfl⟩
  apply readFile_of_reads written
  have current : configFormatVersion ≤ wordInt (intWord configFormatVersion) := by decide
  simp only [readCheckpointArchitecture, configContent, FileReader.value_bind,
    FileReader.require_bind, FileReader.require_bind current, FileReader.expectEnd_bind,
    FileReader.pure_apply]

theorem loadModel_of_saved {m fresh : EncoderDecoderModel arch} {order : HashOrder}
    {filepath : String} {disk disk' : Disk} (paths : SamePaths m.decoder fresh.decoder)
    (format : FormatRestores m.tokenizer order fresh.tokenizer (filepath ++ ".vocab"))
    (saved : m.saveModel order filepath disk = .ok disk') :
    ∃ m', loadModel filepath disk' fresh = (none, m') ∧ m'.weights = m.weights ∧
      Restored m.tokenizer m'.tokenizer ∧ m'.specialTokens = tokensOf m.tokenizer := by
  have written := written_of_saved saved
  obtain ⟨loaded, read, matches_⟩ := readConfig_of_written written.config
  obtain ⟨tokenizer, vocab, restored⟩ := format disk' written.vocab
  obtain ⟨encoderFiles_, rest⟩ := stored_append.mp written.components
  obtain ⟨decoderFiles_, headFile⟩ := stored_append.mp rest
  have sections_ : fresh.onDisk filepath disk' = m.weights.map some := by
    rw [onDisk, LLMEncoder.onDisk_of_stored encoderFiles_,
      LLMDecoder.onDisk_of_stored paths decoderFiles_,
      LanguageModelHead.onDisk_of_stored (stored_cons.mp headFile).1, weights, List.map_append,
      List.map_append]
    rfl
  obtain ⟨succeeds, weights_⟩ := (loads filepath disk' { fresh with tokenizer }).restores sections_
  have tokens : tokensOf tokenizer = tokensOf m.tokenizer := by
    rw [tokensOf, tokensOf, restored.bosTokenId, restored.eosTokenId, restored.padTokenId]
  refine ⟨finishLoad loaded (loadComponents filepath disk' { fresh with tokenizer }).2, ?_, weights_,
    restored, tokens⟩
  unfold loadModel Loading.thenSet
  rw [read]
  dsimp only
  rw [if_neg (not_not.mpr matches_), vocab]
  dsimp only
  rcases outcome : loadComponents filepath disk' { fresh with tokenizer } with ⟨_ | e, m'⟩
  · rfl
  · rw [outcome] at succeeds
    cases succeeds

/-- **Checkpoints.** No two components are written to the same file, and a model of the
same architecture with the same gated paths that is loaded from what was saved has the
saved weights, word for word; its special tokens are those of the tokenizer that was
saved, so they are the saved ones where the model had its tokenizer's. -/
theorem checkpoint_round_trip (m fresh : EncoderDecoderModel arch) (order : HashOrder)
    (filepath : String) (disk disk' : Disk) (paths : SamePaths m.decoder fresh.decoder)
    (format : FormatRestores m.tokenizer order fresh.tokenizer (filepath ++ ".vocab"))
    (saved : m.saveModel order filepath disk = .ok disk') :
    (m.fileNames filepath).Nodup ∧
      ∃ m', loadModel filepath disk' fresh = (none, m') ∧ m'.weights = m.weights ∧
        Restored m.tokenizer m'.tokenizer ∧ m'.specialTokens = tokensOf m.tokenizer ∧
        (m.specialTokens = tokensOf m.tokenizer → m'.specialTokens = m.specialTokens) := by
  obtain ⟨m', loaded, weights_, restored, tokens⟩ := loadModel_of_saved paths format saved
  exact ⟨m.nodup_fileNames filepath, m', loaded, weights_, restored, tokens,
    fun own => tokens.trans own.symm⟩

/-- The vocabulary of the special tokens, saved and loaded again. -/
def bareAgain : Option TokenizerError × BPETokenizer :=
  bare.loadText "m.vocab" (getlines (fileText (bare.vocabLines .inserted)))

theorem formatRestores_bare : FormatRestores bare .inserted bare "m.vocab" := by
  intro disk stored
  have loads : bare.loadVocab "m.vocab" disk = bareAgain := by
    rw [BPETokenizer.loadVocab, if_neg (by decide), stored]
    rfl
  obtain ⟨succeeds, vocab, inverse, merges, mode, normalization, pad, unk, bos, eos⟩ :
      bareAgain.1.isNone = true ∧ bareAgain.2.vocab.entries = bare.vocab.entries ∧
      bareAgain.2.inverseVocab.entries = bare.inverseVocab.entries ∧
      bareAgain.2.bpeMerges = bare.bpeMerges ∧ bareAgain.2.mode = bare.mode ∧
      bareAgain.2.normalization = bare.normalization ∧
      bareAgain.2.padTokenId = bare.padTokenId ∧ bareAgain.2.unkTokenId = bare.unkTokenId ∧
      bareAgain.2.bosTokenId = bare.bosTokenId ∧ bareAgain.2.eosTokenId = bare.eosTokenId := by
    decide +kernel
  refine ⟨bareAgain.2, loads.trans (Prod.ext (Option.isNone_iff_eq_none.mp succeeds) rfl), ?_⟩
  exact ⟨fun _ => by rw [AList.ext vocab], fun _ => by rw [AList.ext inverse], merges, mode,
    normalization, pad, unk, bos, eos⟩

theorem samePaths_alike (tokenizer : BPETokenizer) (tokens : SpecialTokens) (w w' : Word) :
    SamePaths (EncoderDecoderModel.alike arch w tokenizer tokens).decoder
      (EncoderDecoderModel.alike arch w' tokenizer tokens).decoder := by
  intro i b b' there there'
  rw [List.eq_of_mem_replicate (List.mem_of_getElem? there),
    List.eq_of_mem_replicate (List.mem_of_getElem? there')]
  exact ⟨rfl, rfl⟩

theorem checkpoint_round_trip_tiny :
    let m : EncoderDecoderModel tiny := .alike tiny 1 bare (tokensOf bare)
    let fresh : EncoderDecoderModel tiny := .alike tiny 0 bare (tokensOf bare)
    (m.fileNames "m").Nodup ∧
      ∃ m', loadModel "m" (savedFiles m "m") fresh = (none, m') ∧ m'.weights = m.weights ∧
        Restored m.tokenizer m'.tokenizer ∧ m'.specialTokens = tokensOf m.tokenizer ∧
        (m.specialTokens = tokensOf m.tokenizer → m'.specialTokens = m.specialTokens) := by
  intro m fresh
  have saved : m.saveModel .inserted "m" .empty = .ok (savedFiles m "m") :=
    savedFiles_eq (by decide +kernel)
  exact checkpoint_round_trip m fresh .inserted "m" .empty (savedFiles m "m")
    (samePaths_alike bare _ 1 0) formatRestores_bare saved

/-- The ids that were set in the generator's configuration are lost. -/
theorem checkpoint_round_trip_fails :
    let m : EncoderDecoderModel tiny := .alike tiny 1 bare ⟨7, 3, 0⟩
    let fresh : EncoderDecoderModel tiny := .alike tiny 0 bare (tokensOf bare)
    let loaded := loadModel "m" (savedFiles m "m") fresh
    m.saveModel .inserted "m" .empty = .ok (savedFiles m "m") ∧ loaded.1 = none ∧
      m.specialTokens = ⟨7, 3, 0⟩ ∧ loaded.2.specialTokens = ⟨2, 3, 0⟩ := by
  intro m fresh loaded
  have saved : m.saveModel .inserted "m" .empty = .ok (savedFiles m "m") :=
    savedFiles_eq (by decide +kernel)
  have format : FormatRestores m.tokenizer .inserted fresh.tokenizer ("m" ++ ".vocab") :=
    formatRestores_bare
  have paths : SamePaths m.decoder fresh.decoder := samePaths_alike bare _ 1 0
  obtain ⟨m', outcome, -, -, tokens⟩ := loadModel_of_saved paths format saved
  have read : loaded = (none, m') := outcome
  rw [read]
  exact ⟨saved, rfl, rfl, tokens⟩

end Adai.Checkpoint

/-! ## Loads that fail

Each component file is read whole before its component is set, but the files of a
checkpoint are read one after the other, so a load that fails half way leaves the
components before the failing file with the checkpoint's weights, and the tokenizer
with its vocabulary. `failed_load_keeps_iff` says exactly when a failed load leaves the
model as it was.
-/

namespace Adai.Checkpoint

open Tokenizer Sections

variable {arch : Architecture}

/-- Tables, merges, settings, special tokens and their ids are the same. -/
structure SameTokenizer (t t' : BPETokenizer) : Prop extends Restored t t' where
  specialTokens : t'.specialTokens = t.specialTokens

theorem SameTokenizer.refl (t : BPETokenizer) : SameTokenizer t t :=
  ⟨⟨fun _ => rfl, fun _ => rfl, rfl, rfl, rfl, rfl, rfl, rfl, rfl⟩, rfl⟩

/-- The model holds what it held before. -/
structure Unchanged (m m' : EncoderDecoderModel arch) : Prop where
  tokenizer : SameTokenizer m.tokenizer m'.tokenizer
  weights : m'.weights = m.weights
  specialTokens : m'.specialTokens = m.specialTokens

theorem Unchanged.refl (m : EncoderDecoderModel arch) : Unchanged m m :=
  ⟨.refl _, rfl, rfl⟩

/-- The `.config` file can be read and is for this architecture. -/
def ConfigAccepted (arch : Architecture) (filepath : String) (disk : Disk) : Prop :=
  ∃ loaded, readFile disk (filepath ++ ".config") (readCheckpointArchitecture filepath) = .ok loaded ∧
    loaded.Matches arch

/-- Nothing is read, or everything can be read, or whatever is read before the first file
that cannot be read is held already. -/
def HeldBeforeFailure (filepath : String) (disk : Disk) (m : EncoderDecoderModel arch) : Prop :=
  ConfigAccepted arch filepath disk →
    ((m.tokenizer.loadVocab (filepath ++ ".vocab") disk).1 = none ∧
      ∀ content ∈ m.onDisk filepath disk, content.isSome) ∨
    (SameTokenizer m.tokenizer (m.tokenizer.loadVocab (filepath ++ ".vocab") disk).2 ∧
      ((m.tokenizer.loadVocab (filepath ++ ".vocab") disk).1 = none →
        Kept (m.onDisk filepath disk) m.weights))

namespace EncoderDecoderModel

/-- Without its config the load changes nothing. -/
theorem loadModel_of_refused {filepath : String} {disk : Disk} {m : EncoderDecoderModel arch}
    (refused : ¬ ConfigAccepted arch filepath disk) : (loadModel filepath disk m).2 = m := by
  unfold loadModel
  cases read : readFile disk (filepath ++ ".config") (readCheckpointArchitecture filepath) with
  | error e => rfl
  | ok loaded =>
      have differs : ¬ loaded.Matches arch := fun matches_ => refused ⟨loaded, read, matches_⟩
      dsimp only
      rw [if_pos differs]

theorem loadModel_of_accepted {filepath : String} {disk : Disk} {m : EncoderDecoderModel arch}
    {loaded : CheckpointArchitecture}
    (read : readFile disk (filepath ++ ".config") (readCheckpointArchitecture filepath) = .ok loaded)
    (matches_ : loaded.Matches arch) :
    loadModel filepath disk m =
      match m.tokenizer.loadVocab (filepath ++ ".vocab") disk with
      | (some e, tokenizer) => (some (.vocabulary e), { m with tokenizer })
      | (none, tokenizer) =>
          (loadComponents filepath disk).thenSet (finishLoad loaded) { m with tokenizer } := by
  unfold loadModel
  rw [read]
  exact if_neg (not_not.mpr matches_)

/-- The component files leave the weights that were read up to the first failure. -/
theorem loadComponents_unchanged_iff {filepath : String} {disk : Disk} {m : EncoderDecoderModel arch}
    {tokenizer : BPETokenizer} :
    Unchanged m (loadComponents filepath disk { m with tokenizer }).2 ↔
      SameTokenizer m.tokenizer tokenizer ∧ Kept (m.onDisk filepath disk) m.weights := by
  have leaves := (loads filepath disk { m with tokenizer }).leaves
  rw [← loadAll_eq_self_iff]
  constructor
  · intro same
    exact ⟨same.tokenizer, leaves.symm.trans same.weights⟩
  · intro both
    exact ⟨both.1, leaves.trans both.2, rfl⟩

end EncoderDecoderModel

open EncoderDecoderModel

/-- **Failed loads.** A load that fails leaves the tokenizer, the weights and the special
tokens as they were if and only if what it read before the failure is held already. -/
theorem failed_load_keeps_iff (filepath : String) (disk : Disk) (m : EncoderDecoderModel arch) :
    ((loadModel filepath disk m).1 ≠ none → Unchanged m (loadModel filepath disk m).2) ↔
      HeldBeforeFailure filepath disk m := by
  by_cases accepted : ConfigAccepted arch filepath disk
  · obtain ⟨loaded, read, matches_⟩ := accepted
    have asked : HeldBeforeFailure filepath disk m ↔ _ :=
      ⟨fun held => held ⟨loaded, read, matches_⟩, fun held _ => held⟩
    rw [asked, loadModel_of_accepted read matches_]
    rcases m.tokenizer.loadVocab (filepath ++ ".vocab") disk with ⟨_ | e, tokenizer⟩
    · have ends := (loads filepath disk { m with tokenizer }).isNone_eq
      have kept := @loadComponents_unchanged_iff _ filepath disk m tokenizer
      have all : (∀ content ∈ m.onDisk filepath disk, content.isSome) ↔
          (loadComponents filepath disk { m with tokenizer }).1 = none := by
        rw [← Option.isNone_iff_eq_none, ends, List.all_eq_true]
        rfl
      rw [all]
      dsimp only
      unfold Loading.thenSet
      rcases outcome : loadComponents filepath disk { m with tokenizer } with ⟨_ | e, m'⟩
      · exact iff_of_true (fun failed => absurd rfl failed) (.inl ⟨rfl, rfl⟩)
      · rw [outcome] at kept
        dsimp only
        constructor
        · intro unchanged
          obtain ⟨same, held⟩ := kept.mp (unchanged (Option.some_ne_none e))
          exact .inr ⟨same, fun _ => held⟩
        · rintro (⟨_, none_⟩ | ⟨same, held⟩) _
          · cases none_
          · exact kept.mpr ⟨same, held rfl⟩
    · dsimp only
      constructor
      · intro unchanged
        exact .inr ⟨(unchanged (Option.some_ne_none _)).tokenizer, fun failed => nomatch failed⟩
      · rintro (⟨none_, _⟩ | ⟨same, _⟩) _
        · cases none_
        · exact ⟨same, rfl, rfl⟩
  · refine iff_of_true (fun _ => ?_) fun there => absurd there accepted
    rw [loadModel_of_refused accepted]
    exact .refl m

/-- Without the file of the language model head the load fails, and leaves the other
weights of the checkpoint. -/
theorem failed_load_keeps_fails :
    let m : EncoderDecoderModel tiny := .alike tiny 0 bare (tokensOf bare)
    let saved := savedFiles (.alike tiny 1 bare (tokensOf bare)) "m"
    let loaded := loadModel "m" { saved with files := saved.files.erase "m.lm_head" } m
    loaded.1 ≠ none ∧ ¬ Unchanged m loaded.2 := by
  intro m saved loaded
  have outcome : loaded.1.isSome = true ∧ loaded.2.weights ≠ m.weights := by decide +kernel
  refine ⟨Option.ne_none_iff_isSome.mpr outcome.1, fun same => ?_⟩
  exact outcome.2 same.weights

end Adai.Checkpoint

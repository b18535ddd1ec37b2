import Adai.Math.TransitionSystem
import Adai.Math.VersionedMemo
import Adai.Tokenizer.Coding
import Adai.Tokenizer.VocabFile

/-! # The memo of the merges

`apply_bpe` keeps, in each thread, what it has made of the words it was given, under
the cache key of the tokenizer. A tokenizer takes a new key when its merges or its mode
may change, and a copy has the key of its original. So a key stands for one mode and
one list of merges, whoever has it (`Process.Sound`): every action on any number of
tokenizers keeps this (`Process.Sound.step`), and `apply_bpe` is the merge scan as if
there were no memo (`apply_bpe_memo_invisible`).
-/

namespace Adai.Tokenizer

open PairMerge Tables TransitionSystem VersionedMemo

/-! ## Tokenizers with their keys -/

/-- What the merge scan depends on. -/
abbrev MergeState := TokenizerMode × List (Bytes × Bytes)

/-- Every merge in turn, over the units of the word. -/
def mergeScan (state : MergeState) (word : Bytes) : List Bytes :=
  mergeAll state.2 (unitsOf state.1 word)

structure KeyedTokenizer where
  tokenizer : BPETokenizer
  cacheKey : Nat

namespace KeyedTokenizer

def mergeState (t : KeyedTokenizer) : MergeState := (t.tokenizer.mode, t.tokenizer.bpeMerges)

/-- The constructor. It and those below are given the next key, and return the one
after those they take. -/
def new (mode : TokenizerMode) (nextKey : Nat) : KeyedTokenizer × Nat :=
  (⟨.new mode, nextKey⟩, nextKey + 1)

def setNormalization (t : KeyedTokenizer) (normalization : TextNormalization) (nextKey : Nat) :
    KeyedTokenizer × Nat :=
  (⟨t.tokenizer.setNormalization normalization, nextKey⟩, nextKey + 1)

/-- The rounds of `BPETokenizer.learnMerges`; each merge takes a key. -/
def learnMerges (order : HashOrder) :
    Nat → List (List Bytes) → KeyedTokenizer → Nat → KeyedTokenizer × Nat
  | 0, _, t, nextKey => (t, nextKey)
  | rounds + 1, words, t, nextKey =>
      let best := getMostFrequentPair order words
      if best.1 = [] then (t, nextKey)
      else
        let merged : BPETokenizer :=
          { t.tokenizer with bpeMerges := t.tokenizer.bpeMerges ++ [best] }
        learnMerges order rounds (mergeTokens words best.1 best.2)
          ⟨merged.assign (best.1 ++ best.2) (size t.tokenizer.vocab), nextKey⟩ (nextKey + 1)

/-- A build that fails has added its base vocabulary, under the key it had. -/
def buildVocab (t : KeyedTokenizer) (order : HashOrder) (texts : List Bytes)
    (vocabSize threshold : Int) (nextKey : Nat) : Option TokenizerError × KeyedTokenizer × Nat :=
  let base := t.tokenizer.addBaseVocab order texts vocabSize threshold
  match BPETokenizer.preTokenizeAll base.1.mode base.1.normalization texts with
  | .error e => (some e, ⟨base.1, t.cacheKey⟩, nextKey)
  | .ok tokens =>
      (none, learnMerges order (vocabSize - base.2).toNat
        (BPETokenizer.wordTokens base.1.mode tokens) ⟨base.1, t.cacheKey⟩ nextKey)

/-- The key is taken once the file is open, before anything is emptied or read. -/
def loadVocab (t : KeyedTokenizer) (filename : String) (disk : Disk) (nextKey : Nat) :
    Option TokenizerError × KeyedTokenizer × Nat :=
  let loaded := t.tokenizer.loadVocab filename disk
  if filename = "" ∨ disk.files.lookup filename = none then
    (loaded.1, ⟨loaded.2, t.cacheKey⟩, nextKey)
  else (loaded.1, ⟨loaded.2, nextKey⟩, nextKey + 1)

end KeyedTokenizer

def kCachedStates : Nat := 4

def kMaxCachedWords : Nat := 2 ^ 16

/-- `apply_bpe` with the tables of the calling thread. -/
def KeyedTokenizer.applyBpe (t : KeyedTokenizer) (tlsCaches : Caches Bytes (List Bytes))
    (word : Bytes) : List Bytes × Caches Bytes (List Bytes) :=
  if word = [] then ([], tlsCaches)
  else memoise (mergeScan t.mergeState) kCachedStates kMaxCachedWords t.cacheKey tlsCaches word

/-! ## The process -/

/-- Tokenizers by their addresses, the tables of each thread, and the next key. -/
structure Process where
  objects : Nat → Option KeyedTokenizer
  tlsCaches : Nat → Caches Bytes (List Bytes)
  nextKey : Nat

def Process.start : Process := ⟨fun _ => none, fun _ => [], 1⟩

/-- What may happen to tokenizers; a copy and an assignment give the address a
tokenizer equal to the other one. -/
inductive Action
  | construct (address : Nat) (mode : TokenizerMode)
  | copy (address other : Nat)
  | assign (address other : Nat)
  | destroy (address : Nat)
  | setNormalization (address : Nat) (normalization : TextNormalization)
  | buildVocab (address : Nat) (order : HashOrder) (texts : List Bytes) (vocabSize threshold : Int)
  | loadVocab (address : Nat) (filename : String) (disk : Disk)
  | applyBpe (thread address : Nat) (word : Bytes)
  | endThread (thread : Nat)

namespace Process

/-- The address has this tokenizer, and so many keys are taken. -/
def put (p : Process) (address : Nat) (changed : KeyedTokenizer × Nat) : Process :=
  { p with objects := Function.update p.objects address (some changed.1), nextKey := changed.2 }

/-- An action on addresses that have tokenizers; those constructed have none yet. -/
def step (p : Process) : Action → Option Process
  | .construct address mode =>
      match p.objects address with
      | none => some (p.put address (KeyedTokenizer.new mode p.nextKey))
      | some _ => none
  | .copy address other =>
      match p.objects address, p.objects other with
      | none, some t => some (p.put address (t, p.nextKey))
      | _, _ => none
  | .assign address other =>
      match p.objects address, p.objects other with
      | some _, some t => some (p.put address (t, p.nextKey))
      | _, _ => none
  | .destroy address =>
      (p.objects address).map fun _ =>
        { p with objects := Function.update p.objects address none }
  | .setNormalization address normalization =>
      (p.objects address).map fun t => p.put address (t.setNormalization normalization p.nextKey)
  | .buildVocab address order texts vocabSize threshold =>
      (p.objects address).map fun t =>
        p.put address (t.buildVocab order texts vocabSize threshold p.nextKey).2
  | .loadVocab address filename disk =>
      (p.objects address).map fun t => p.put address (t.loadVocab filename disk p.nextKey).2
  | .applyBpe thread address word =>
      (p.objects address).map fun t =>
        { p with
          tlsCaches := Function.update p.tlsCaches thread (t.applyBpe (p.tlsCaches thread) word).2 }
  | .endThread thread => some { p with tlsCaches := Function.update p.tlsCaches thread [] }

/-- A key stands for one mode and one list of merges, for the tokenizers that have it
and in the tables of all threads. -/
def Sound (p : Process) : Prop :=
  ∃ meaning : Nat → MergeState,
    (∀ address t, p.objects address = some t → Stands meaning p.nextKey t.cacheKey t.mergeState) ∧
    ∀ thread, VersionedMemo.Sound mergeScan meaning p.nextKey (p.tlsCaches thread)

end Process

/-! ## Which actions take keys -/

/-- The key is as it was and so is what it stands for, or it is one of those taken. -/
def Renewed (t : KeyedTokenizer) (nextKey : Nat) (changed : KeyedTokenizer × Nat) : Prop :=
  (changed.1.cacheKey = t.cacheKey ∧ changed.1.mergeState = t.mergeState ∧ changed.2 = nextKey) ∨
    nextKey ≤ changed.1.cacheKey ∧ changed.1.cacheKey < changed.2

namespace BPETokenizer

variable (t : BPETokenizer)

theorem foldl_addBase_mergeState (vocabSize threshold : Int)
    (entries : List (Σ _ : Bytes, Nat)) (currentId : Int) :
    (entries.foldl (addBase vocabSize threshold) (t, currentId)).1.mode = t.mode ∧
      (entries.foldl (addBase vocabSize threshold) (t, currentId)).1.bpeMerges = t.bpeMerges := by
  induction entries generalizing t currentId with
  | nil => exact ⟨rfl, rfl⟩
  | cons entry rest ih =>
      rw [List.foldl_cons, addBase]
      split
      · exact ih (t.assign entry.1 currentId) (currentId + 1)
      · exact ih t currentId

/-- A file that is not opened changes nothing. -/
theorem loadVocab_unopened {filename : String} {disk : Disk}
    (unopened : filename = "" ∨ disk.files.lookup filename = none) :
    (t.loadVocab filename disk).2 = t := by
  unfold loadVocab
  by_cases unnamed : filename = ""
  · rw [if_pos unnamed]
  · rw [if_neg unnamed, unopened.resolve_left unnamed]

end BPETokenizer

namespace KeyedTokenizer

theorem renewed_learnMerges (order : HashOrder) (rounds : Nat) (words : List (List Bytes))
    (t : KeyedTokenizer) (nextKey : Nat) :
    Renewed t nextKey (learnMerges order rounds words t nextKey) := by
  induction rounds generalizing words t nextKey with
  | zero => exact .inl ⟨rfl, rfl, rfl⟩
  | succ rounds ih =>
      rw [learnMerges]
      dsimp only
      split
      · exact .inl ⟨rfl, rfl, rfl⟩
      · refine .inr ?_
        rcases ih _ _ (nextKey + 1) with ⟨key, -, taken⟩ | ⟨above, below⟩
        · rw [key, taken]
          exact ⟨Nat.le_refl _, Nat.lt_succ_self _⟩
        · exact ⟨by omega, below⟩

theorem renewed_buildVocab (t : KeyedTokenizer) (order : HashOrder) (texts : List Bytes)
    (vocabSize threshold : Int) (nextKey : Nat) :
    Renewed t nextKey (t.buildVocab order texts vocabSize threshold nextKey).2 := by
  have same : (⟨(t.tokenizer.addBaseVocab order texts vocabSize threshold).1, t.cacheKey⟩ :
      KeyedTokenizer).mergeState = t.mergeState := by
    obtain ⟨mode, merges⟩ := t.tokenizer.foldl_addBase_mergeState vocabSize threshold _ 4
    exact Prod.ext mode merges
  unfold buildVocab
  dsimp only
  split
  · exact .inl ⟨rfl, same, rfl⟩
  · rename_i tokens cut
    rcases renewed_learnMerges order _ (BPETokenizer.wordTokens _ tokens)
      ⟨(t.tokenizer.addBaseVocab order texts vocabSize threshold).1, t.cacheKey⟩ nextKey with
      ⟨key, kept, taken⟩ | taken
    · exact .inl ⟨key, kept.trans same, taken⟩
    · exact .inr taken

theorem renewed_loadVocab (t : KeyedTokenizer) (filename : String) (disk : Disk) (nextKey : Nat) :
    Renewed t nextKey (t.loadVocab filename disk nextKey).2 := by
  unfold loadVocab
  dsimp only
  split
  · rename_i unopened
    rw [t.tokenizer.loadVocab_unopened unopened]
    exact .inl ⟨rfl, rfl, rfl⟩
  · exact .inr ⟨Nat.le_refl _, Nat.lt_succ_self _⟩

/-- Apart from the keys a build is the plain one. -/
theorem learnMerges_tokenizer (order : HashOrder) (rounds : Nat) (words : List (List Bytes))
    (t : KeyedTokenizer) (nextKey : Nat) :
    (learnMerges order rounds words t nextKey).1.tokenizer =
      BPETokenizer.learnMerges order rounds words t.tokenizer := by
  induction rounds generalizing words t nextKey with
  | zero => rfl
  | succ rounds ih =>
      rw [learnMerges, BPETokenizer.learnMerges]
      dsimp only
      split
      · rfl
      · exact ih _ _ _

theorem buildVocab_tokenizer (t : KeyedTokenizer) (order : HashOrder) (texts : List Bytes)
    (vocabSize threshold : Int) (nextKey : Nat) :
    t.tokenizer.buildVocab order texts vocabSize threshold =
      match t.buildVocab order texts vocabSize threshold nextKey with
      | (some e, _) => .error e
      | (none, built) => .ok built.1.tokenizer := by
  unfold buildVocab BPETokenizer.buildVocab BPETokenizer.buildBpeMerges
  dsimp only
  cases BPETokenizer.preTokenizeAll (t.tokenizer.addBaseVocab order texts vocabSize threshold).1.mode
      (t.tokenizer.addBaseVocab order texts vocabSize threshold).1.normalization texts with
  | error e => rfl
  | ok tokens =>
      dsimp only
      rw [learnMerges_tokenizer]

/-- With a sound memo the merges are applied as without one. -/
theorem applyBpe_sound {t : KeyedTokenizer} {meaning : Nat → MergeState} {nextKey : Nat}
    {tlsCaches : Caches Bytes (List Bytes)}
    (sound : VersionedMemo.Sound mergeScan meaning nextKey tlsCaches)
    (stands : Stands meaning nextKey t.cacheKey t.mergeState) (word : Bytes) :
    (t.applyBpe tlsCaches word).1 = t.tokenizer.applyBpe word ∧
      VersionedMemo.Sound mergeScan meaning nextKey (t.applyBpe tlsCaches word).2 := by
  unfold applyBpe BPETokenizer.applyBpe
  split
  · exact ⟨rfl, sound⟩
  · exact sound.memoise stands kCachedStates kMaxCachedWords word

end KeyedTokenizer

/-! ## Actions keep the memo sound -/

/-- What the tokenizer's key stands for once so many keys are issued, without a change
to those issued before. -/
def Registers (meaning : Nat → MergeState) (nextKey : Nat) (changed : KeyedTokenizer × Nat) :
    Prop :=
  ∃ meaning', Extends meaning nextKey meaning' changed.2 ∧
    Stands meaning' changed.2 changed.1.cacheKey changed.1.mergeState

theorem registers_fresh (meaning : Nat → MergeState) {nextKey : Nat} {changed : KeyedTokenizer × Nat}
    (fresh : nextKey ≤ changed.1.cacheKey) (below : changed.1.cacheKey < changed.2) :
    Registers meaning nextKey changed := by
  refine ⟨_, .issue meaning changed.1.mergeState fresh below, below, ?_⟩
  exact Function.update_self ..

theorem Renewed.registers {t : KeyedTokenizer} {nextKey : Nat} {changed : KeyedTokenizer × Nat}
    (renewed : Renewed t nextKey changed) {meaning : Nat → MergeState}
    (stands : Stands meaning nextKey t.cacheKey t.mergeState) :
    Registers meaning nextKey changed := by
  rcases renewed with ⟨key, same, taken⟩ | ⟨fresh, below⟩
  · refine ⟨meaning, taken ▸ .refl meaning nextKey, ?_⟩
    rwa [key, same, taken]
  · exact registers_fresh meaning fresh below

namespace Process.Sound

variable {p p' : Process}

theorem start : Process.start.Sound := by
  refine ⟨fun _ => (.unicode, []), fun address t live => ?_, fun thread => .nil _ _ _⟩
  cases live

/-- An address gets a tokenizer whose key is registered. -/
theorem put (sound : p.Sound) (address : Nat) {changed : KeyedTokenizer × Nat}
    (registers : ∀ meaning : Nat → MergeState, (∀ address t, p.objects address = some t →
      Stands meaning p.nextKey t.cacheKey t.mergeState) → Registers meaning p.nextKey changed) :
    (p.put address changed).Sound := by
  obtain ⟨meaning, objects, tables⟩ := sound
  obtain ⟨meaning', later, stands⟩ := registers meaning objects
  refine ⟨meaning', fun other t live => ?_, fun thread => (tables thread).mono later⟩
  change Function.update p.objects address (some changed.1) other = some t at live
  by_cases same : other = address
  · rw [same, Function.update_self] at live
    obtain rfl := Option.some.inj live
    exact stands
  · rw [Function.update_of_ne same] at live
    exact (objects other t live).mono later

/-- A tokenizer changes. -/
theorem renew (sound : p.Sound) {address : Nat} {t : KeyedTokenizer}
    (live : p.objects address = some t) {changed : KeyedTokenizer × Nat}
    (renewed : Renewed t p.nextKey changed) : (p.put address changed).Sound := by
  apply sound.put
  intro meaning objects
  exact renewed.registers (objects address t live)

/-- A tokenizer is copied. -/
theorem share (sound : p.Sound) (address : Nat) {other : Nat} {t : KeyedTokenizer}
    (live : p.objects other = some t) : (p.put address (t, p.nextKey)).Sound := by
  apply sound.put
  intro meaning objects
  exact ⟨meaning, .refl meaning p.nextKey, objects other t live⟩

theorem destroy (sound : p.Sound) (address : Nat) :
    Sound { p with objects := Function.update p.objects address none } := by
  obtain ⟨meaning, objects, tables⟩ := sound
  refine ⟨meaning, fun other t live => ?_, tables⟩
  change Function.update p.objects address none other = some t at live
  by_cases same : other = address
  · rw [same, Function.update_self] at live
    cases live
  · rw [Function.update_of_ne same] at live
    exact objects other t live

/-- The tables of a thread are replaced. -/
theorem setCaches {meaning : Nat → MergeState}
    (objects : ∀ address t, p.objects address = some t →
      Stands meaning p.nextKey t.cacheKey t.mergeState)
    (tables : ∀ thread, VersionedMemo.Sound mergeScan meaning p.nextKey (p.tlsCaches thread))
    (thread : Nat) {caches : Caches Bytes (List Bytes)}
    (replaced : VersionedMemo.Sound mergeScan meaning p.nextKey caches) :
    Sound { p with tlsCaches := Function.update p.tlsCaches thread caches } := by
  refine ⟨meaning, objects, fun other => ?_⟩
  change VersionedMemo.Sound mergeScan meaning p.nextKey
    (Function.update p.tlsCaches thread caches other)
  by_cases same : other = thread
  · rwa [same, Function.update_self]
  · rw [Function.update_of_ne same]
    exact tables other

theorem step (sound : p.Sound) {action : Action} (taken : p.step action = some p') : p'.Sound := by
  cases action with
  | construct address mode =>
      rw [Process.step] at taken
      split at taken
      · obtain rfl := Option.some.inj taken
        apply sound.put
        intro meaning _
        exact registers_fresh meaning (Nat.le_refl _) (Nat.lt_succ_self _)
      · cases taken
  | copy address other =>
      rw [Process.step] at taken
      split at taken
      · rename_i live
        obtain rfl := Option.some.inj taken
        exact sound.share address live
      · cases taken
  | assign address other =>
      rw [Process.step] at taken
      split at taken
      · rename_i live
        obtain rfl := Option.some.inj taken
        exact sound.share address live
      · cases taken
  | destroy address =>
      obtain ⟨_, _, rfl⟩ := Option.map_eq_some_iff.mp taken
      exact sound.destroy address
  | setNormalization address normalization =>
      obtain ⟨t, live, rfl⟩ := Option.map_eq_some_iff.mp taken
      exact sound.renew live (.inr ⟨Nat.le_refl _, Nat.lt_succ_self _⟩)
  | buildVocab address order texts vocabSize threshold =>
      obtain ⟨t, live, rfl⟩ := Option.map_eq_some_iff.mp taken
      exact sound.renew live (t.renewed_buildVocab order texts vocabSize threshold _)
  | loadVocab address filename disk =>
      obtain ⟨t, live, rfl⟩ := Option.map_eq_some_iff.mp taken
      exact sound.renew live (t.renewed_loadVocab filename disk _)
  | applyBpe thread address word =>
      obtain ⟨t, live, rfl⟩ := Option.map_eq_some_iff.mp taken
      obtain ⟨meaning, objects, tables⟩ := sound
      apply setCaches objects tables
      exact (KeyedTokenizer.applyBpe_sound (tables thread) (objects address t live) word).2
  | endThread thread =>
      obtain rfl := Option.some.inj taken
      obtain ⟨meaning, objects, tables⟩ := sound
      exact setCaches objects tables thread (.nil _ _ _)

end Process.Sound

/-- One action. -/
def Process.Step (before : Process) (action : Action) (after : Process) : Prop :=
  before.step action = some after

/-- **The memo is invisible.** After any actions, in any order and on any tokenizers,
`apply_bpe` in any thread gives what the merges of its tokenizer make of the word. -/
theorem apply_bpe_memo_invisible {actions : List Action} {p : Process}
    (run : Run Process.Step Process.start actions p) {address : Nat} {t : KeyedTokenizer}
    (live : p.objects address = some t) (thread : Nat) (word : Bytes) :
    (t.applyBpe (p.tlsCaches thread) word).1 = t.tokenizer.applyBpe word := by
  have sound : p.Sound :=
    run.invariant Process.Sound (fun _ _ _ before taken => before.step taken) .start
  obtain ⟨meaning, objects, tables⟩ := sound
  exact (KeyedTokenizer.applyBpe_sound (tables thread) (objects address t live) word).1

/-- Two tokenizers at one address, one after the other, and a copy that is built
anew. -/
def memoRun : List Action :=
  [.construct 0 .ascii, .buildVocab 0 .listed [ascii "aab aab"] 20 1, .applyBpe 0 0 (ascii "aab"),
    .copy 1 0, .applyBpe 0 1 (ascii "aab"), .buildVocab 1 .listed [ascii "bc bc"] 20 1,
    .destroy 0, .construct 0 .ascii, .applyBpe 0 0 (ascii "aab")]

theorem apply_bpe_memo_invisible_copied :
    ∃ p t, Run Process.Step Process.start memoRun p ∧ p.objects 1 = some t ∧
      (t.applyBpe (p.tlsCaches 0) (ascii "aab")).1 = t.tokenizer.applyBpe (ascii "aab") := by
  have ends : ((execute Process.step Process.start memoRun).bind fun p => p.objects 1).isSome =
      true := rfl
  obtain ⟨t, found⟩ := Option.isSome_iff_exists.mp ends
  obtain ⟨p, executed, live⟩ := Option.bind_eq_some_iff.mp found
  have run : Run Process.Step Process.start memoRun p :=
    Run.of_execute (fun _ _ _ taken => taken) executed
  exact ⟨p, t, run, live, apply_bpe_memo_invisible run live 0 (ascii "aab")⟩

end Adai.Tokenizer

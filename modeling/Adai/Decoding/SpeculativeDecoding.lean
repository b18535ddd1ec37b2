import Mathlib.Data.Rat.Defs
import Mathlib.Algebra.Order.Ring.Rat
import Adai.Math.Speculation
import Adai.Math.StatefulLaw

/-! # Speculative decoding

`SpeculativeDecoder.generateTokens` lets a draft model propose up to `numCandidates`
tokens and scores them with one pass of the target model, whose rows are fetched by a
`TargetRowSource`: from one matrix if the target answers for every position, else
one prefix at a time. Proposals are accepted or replaced in order; a round ends at
the first one that is replaced, at the end token, or with a bonus token.

Random draws are made in a monad `M`, from a `RandomSource`; the decoder's statistics
and what it has learned about the target's rows are its state. Logits are compared
as floating-point values are; the softmax of a row is a parameter that gives exact
probabilities.
-/

namespace Adai.Decoding

open StatefulLaw Speculation

/-! ## Logits -/

/-- A floating-point value over an order of finite ones. -/
inductive Score (α : Type)
  | nan
  | negInf
  | finite (value : α)
  | posInf
  deriving DecidableEq, Repr

abbrev Logits (α : Type) := List (Score α)

/-- The rows that a model returns. -/
abbrev Matrix (α : Type) := List (Logits α)

section Scores

variable {α : Type}

/-- The `<` of floating-point values: no comparison with NaN holds. -/
def Score.less [LT α] [DecidableLT α] : Score α → Score α → Bool
  | .negInf, .finite _ => true
  | .negInf, .posInf => true
  | .finite _, .posInf => true
  | .finite a, .finite b => a < b
  | _, _ => false

/-- Finite or negative infinity. -/
def Score.usable : Score α → Bool
  | .finite _ => true
  | .negInf => true
  | _ => false

/-- The first of the largest elements; `best` is the one before position `i`. -/
def maxElementFrom [LT α] [DecidableLT α] (best : Nat) (value : Score α) (i : Nat) :
    Logits α → Nat
  | [] => best
  | v :: rest =>
      if value.less v then maxElementFrom i v (i + 1) rest
      else maxElementFrom best value (i + 1) rest

def argmax [LT α] [DecidableLT α] : Logits α → Int
  | [] => 0
  | v :: rest => maxElementFrom 0 v 1 rest

def row (logits : Matrix α) (r : Nat) : Logits α := logits.getD r []

def lastRow (logits : Matrix α) : Logits α := row logits (logits.length - 1)

end Scores

/-! ## Setup and state -/

structure SpeculativeDecodingConfig where
  numCandidates : Int := 4
  temperature : ℚ := 1
  maxLength : Int := 100
  useGreedy : Bool := false

/-- The two generators as the decoder sees them. The draft may answer differently
from call to call. -/
structure Models (α : Type) where
  draft : Nat → List Int → Matrix α
  target : List Int → Matrix α
  bosTokenId : Int
  configEosTokenId : Int
  tokenizerEosTokenId : Option Int

/-- The end token: the target's tokenizer's, if it has one. -/
def Models.eosTokenId {α : Type} (models : Models α) : Int :=
  models.tokenizerEosTokenId.getD models.configEosTokenId

/-- `std::discrete_distribution` over unnormalised weights, and whether a uniform
value from 0 to 1 lies below a bound. -/
structure RandomSource (M : Type → Type) where
  sample : List ℚ → M Nat
  uniformBelow : ℚ → M Bool

inductive TargetRows
  | unknown
  | perPosition
  | lastOnly
  deriving DecidableEq, Repr

inductive DecoderError
  | invalidArgument (message : String)
  | runtime (message : String)
  | outOfRounds
  deriving DecidableEq, Repr

/-- The statistics, and what is known of the target's rows. -/
structure SpeculativeDecoder where
  totalProposals : Nat
  acceptedProposals : Nat
  totalForwardPassesDraft : Nat
  totalForwardPassesTarget : Nat
  totalGeneratedTokens : Nat
  targetRowsMode : TargetRows
  deriving DecidableEq, Repr

/-- The constructor. -/
def SpeculativeDecoder.new (config : SpeculativeDecodingConfig) :
    Except DecoderError SpeculativeDecoder :=
  if config.numCandidates < 1 then
    .error (.invalidArgument ("SpeculativeDecoder: num_candidates must be at least 1, got " ++
      toString config.numCandidates))
  else .ok ⟨0, 0, 0, 0, 0, .unknown⟩

abbrev DecoderM (M : Type → Type) := ExceptT DecoderError (StateT SpeculativeDecoder M)

/-- What a decoder works with; `distribution` is the softmax of a row at a
temperature. -/
structure Setup (M : Type → Type) (α : Type) where
  models : Models α
  config : SpeculativeDecodingConfig
  distribution : ℚ → Logits α → List ℚ
  rng : RandomSource M

/-- A proposed token with the distribution it was drawn from, none if greedy. -/
structure TokenProposal where
  tokenId : Int
  draftDist : List ℚ
  deriving DecidableEq

/-- The target's rows for the prefixes of a sequence that end it, as far as they
have been fetched. -/
structure TargetRowSource (α : Type) where
  sequence : List Int
  count : Nat
  rows : List (Logits α)

namespace SpeculativeDecoder

variable {M : Type → Type} [Monad M] {α : Type}

/-! ## Model passes -/

/-- A model must return a row, and the row must not be empty. -/
def getLogits (logits : Matrix α) : DecoderM M (Matrix α) :=
  if logits.length < 1 ∨ (row logits 0).length < 1 then
    throw (.runtime "TextGenerator: the model returned no logits")
  else pure logits

def checkLogits (logits : Logits α) (model : String) : DecoderM M Unit :=
  if logits.all Score.usable then pure ()
  else throw (.runtime ("SpeculativeDecoder: the " ++ model ++ " model returned non-finite logits"))

def countDraftPass : DecoderM M Unit :=
  modify fun d => { d with totalForwardPassesDraft := d.totalForwardPassesDraft + 1 }

def countTargetPass : DecoderM M Unit :=
  modify fun d => { d with totalForwardPassesTarget := d.totalForwardPassesTarget + 1 }

def setTargetRows (mode : TargetRows) : DecoderM M Unit :=
  modify fun d => { d with targetRowsMode := mode }

def targetLogits (setup : Setup M α) (sequence : List Int) : DecoderM M (Matrix α) := do
  let logits ← getLogits (setup.models.target sequence)
  countTargetPass
  pure logits

/-- One pass answers for every position if it returns enough rows. -/
def newTargetRowSource (setup : Setup M α) (sequence : List Int) (count : Nat) :
    DecoderM M (TargetRowSource α) := do
  let d ← get
  if d.targetRowsMode = .lastOnly then pure ⟨sequence, count, List.replicate count []⟩
  else do
    let logits ← targetLogits setup sequence
    if count ≤ logits.length then do
      setTargetRows .perPosition
      pure ⟨sequence, count, (List.range count).map fun i => row logits (logits.length - count + i)⟩
    else do
      setTargetRows .lastOnly
      pure ⟨sequence, count, (List.replicate count []).set (count - 1) (lastRow logits)⟩

/-- A row that is missing is fetched with a pass over its prefix. -/
def fetchRow (setup : Setup M α) (source : TargetRowSource α) (i : Nat) :
    DecoderM M (TargetRowSource α) :=
  if (source.rows.getD i []).isEmpty then do
    let logits ← targetLogits setup
      (source.sequence.take (source.sequence.length - (source.count - 1 - i)))
    pure { source with rows := source.rows.set i (lastRow logits) }
  else pure source

/-- Row `i`, and the source with what was fetched for it. -/
def getRow (setup : Setup M α) (source : TargetRowSource α) (i : Nat) :
    DecoderM M (Logits α × TargetRowSource α) := do
  let source ← fetchRow setup source i
  checkLogits (source.rows.getD i []) "target"
  pure (source.rows.getD i [], source)

variable [LT α] [DecidableLT α] (setup : Setup M α)

def greedy : Bool := setup.config.useGreedy || setup.config.temperature ≤ 0

def distribution (logits : Logits α) : List ℚ :=
  setup.distribution setup.config.temperature logits

/-! ## Proposals -/

/-- The draft's token for its last row: the largest if greedy, else drawn. -/
def propose (last : Logits α) : M TokenProposal :=
  if greedy setup then pure ⟨argmax last, []⟩
  else
    (fun token => ⟨Int.ofNat token, distribution setup last⟩) <$>
      setup.rng.sample (distribution setup last)

def draftLast (context : List Int) : DecoderM M (Logits α) := do
  let d ← get
  let logits ← getLogits (setup.models.draft d.totalForwardPassesDraft context)
  countDraftPass
  checkLogits (lastRow logits) "draft"
  pure (lastRow logits)

/-- Each proposal after the ones before it, and none after the end token. -/
def draftProposals : Nat → List Int → DecoderM M (List TokenProposal)
  | 0, _ => pure []
  | budget + 1, context => do
      let last ← draftLast setup context
      let proposal ← draw (propose setup last)
      if proposal.tokenId = setup.models.eosTokenId then pure [proposal]
      else do
        let rest ← draftProposals budget (context ++ [proposal.tokenId])
        pure (proposal :: rest)

/-- Draft and target must have one vocabulary; asked of the first proposal only. -/
def checkVocabularies (source : TargetRowSource α) (proposals : List TokenProposal) :
    DecoderM M (TargetRowSource α) :=
  match proposals with
  | [] => pure source
  | proposal :: _ =>
      if proposal.draftDist.isEmpty then pure source
      else do
        let (logits, source) ← getRow setup source 0
        if proposal.draftDist.length ≠ logits.length then
          throw (.runtime "SpeculativeDecoder: draft and target vocabularies differ")
        else pure source

/-! ## Verification -/

def probability (p : List ℚ) (token : Int) : ℚ := p.getD token.toNat 0

def acceptanceBound (p : List ℚ) (proposal : TokenProposal) : ℚ :=
  min 1 (probability p proposal.tokenId /
    max (probability proposal.draftDist proposal.tokenId) (1 / 10 ^ 30))

/-- The positive part of the difference, over the target's tokens. -/
def residual (p q : List ℚ) : List ℚ := p.mapIdx fun j pj => max 0 (pj - q.getD j 0)

/-- Whether the proposal is accepted: in greedy mode when it is the target's token. -/
def acceptProposal (logits : Logits α) (proposal : TokenProposal) : M Bool :=
  if greedy setup then pure (proposal.tokenId = argmax logits)
  else setup.rng.uniformBelow (acceptanceBound (distribution setup logits) proposal)

/-- The token in place of a proposal that is not accepted. -/
def replaceProposal (logits : Logits α) (proposal : TokenProposal) : M Int :=
  if greedy setup then pure (argmax logits)
  else
    let p := distribution setup logits
    let weights := residual p proposal.draftDist
    Int.ofNat <$> if 0 < weights.sum then setup.rng.sample weights else setup.rng.sample p

/-- The target's own token. -/
def targetToken (logits : Logits α) : M Int :=
  if greedy setup then pure (argmax logits)
  else Int.ofNat <$> setup.rng.sample (distribution setup logits)

def countProposal : DecoderM M Unit :=
  modify fun d => { d with totalProposals := d.totalProposals + 1 }

def countAccepted : DecoderM M Unit :=
  modify fun d => { d with acceptedProposals := d.acceptedProposals + 1 }

/-- Proposal `i` and the later ones against the target's rows. -/
def verifyProposals (i : Nat) (source : TargetRowSource α) :
    List TokenProposal → DecoderM M (List Int)
  | [] => do
      let (logits, _) ← getRow setup source i
      let token ← draw (targetToken setup logits)
      pure [token]
  | proposal :: rest => do
      countProposal
      let (logits, source) ← getRow setup source i
      let accepted ← draw (acceptProposal setup logits proposal)
      if accepted then do
        countAccepted
        if proposal.tokenId = setup.models.eosTokenId then pure [proposal.tokenId]
        else do
          let tokens ← verifyProposals (i + 1) source rest
          pure (proposal.tokenId :: tokens)
      else do
        let token ← draw (replaceProposal setup logits proposal)
        pure [token]

/-- One round: proposals, one pass of the target, verification. -/
def round (context : List Int) (budget : Nat) : DecoderM M (List Int) := do
  let proposals ← draftProposals setup budget context
  let source ← newTargetRowSource setup (context ++ proposals.map TokenProposal.tokenId)
    (proposals.length + 1)
  let source ← checkVocabularies setup source proposals
  verifyProposals setup 0 source proposals

/-! ## Generation -/

def countGenerated (n : Nat) : DecoderM M Unit :=
  modify fun d => { d with totalGeneratedTokens := d.totalGeneratedTokens + n }

/-- The loop of `generateTokens`; `rounds` bounds the number of rounds. -/
def generateLoop (maxNewTokens : Nat) : Nat → List Int → List Int → DecoderM M (List Int)
  | 0, _, output => if output.length < maxNewTokens then throw .outOfRounds else pure output
  | rounds + 1, context, output =>
      if output.length < maxNewTokens then do
        let remaining := maxNewTokens - output.length
        let tokens ← round setup context (min setup.config.numCandidates remaining).toNat
        let (added, stopped) := taken setup.models.eosTokenId remaining tokens
        countGenerated added.length
        if stopped then pure (output ++ added)
        else generateLoop maxNewTokens rounds (context ++ added) (output ++ added)
      else pure output

/-- A negative bound stands for the configured one. -/
def newTokenBound (maxNewTokens : Int) : Nat :=
  (if maxNewTokens < 0 then setup.config.maxLength else maxNewTokens).toNat

def startContext (prompt : List Int) : List Int :=
  if prompt.isEmpty then [setup.models.bosTokenId] else prompt

/-- Every round adds a token, so as many rounds as tokens are enough. -/
def generateTokens (prompt : List Int) (maxNewTokens : Int) : DecoderM M (List Int) :=
  generateLoop setup (newTokenBound setup maxNewTokens) (newTokenBound setup maxNewTokens)
    (startContext setup prompt) []

end SpeculativeDecoder

end Adai.Decoding

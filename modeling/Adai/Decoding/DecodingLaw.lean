import Adai.Decoding.SpeculativeDecoding

/-! # The law of a decoder's tokens

For a target whose row at a position depends on the tokens up to it, the rows that a
`TargetRowSource` gives out are the rows for the prefixes, whichever way the target
answers (`runs_getRow`). So a round follows the scheme in which proposals are made by
the draft and verified against those rows (`scheme`), and where the scheme is exact,
`generateTokens` follows plain generation (`follows_generateTokens`), from any state
of the decoder.
-/

namespace Adai.Decoding

open StatefulLaw Speculation

/-- What a model returned is not refused. -/
def Returned {α : Type} (logits : Matrix α) : Prop := 1 ≤ logits.length ∧ 1 ≤ (row logits 0).length

variable {M : Type → Type} [Monad M] {α : Type}

/-- The prefix that row `i` is for. -/
def TargetRowSource.rowPrefix (source : TargetRowSource α) (i : Nat) : List Int :=
  source.sequence.take (source.sequence.length - (source.count - 1 - i))

/-- The draft's last rows are not refused. -/
def DraftUsable (models : Models α) : Prop :=
  ∀ calls context, context ≠ [] → Returned (models.draft calls context) ∧
    (lastRow (models.draft calls context)).all Score.usable = true

/-- The rows for the prefixes are not refused. -/
def RowsUsable (next : List Int → Logits α) : Prop :=
  ∀ context, context ≠ [] → next context ≠ [] ∧ (next context).all Score.usable = true

/-- The draft's distributions are over the target's tokens; in greedy mode there are
none. -/
def SameVocabulary (setup : Setup M α) (next : List Int → Logits α) : Prop :=
  SpeculativeDecoder.greedy setup = true ∨ ∀ calls context context', context ≠ [] →
    context' ≠ [] → (SpeculativeDecoder.distribution setup
      (lastRow (setup.models.draft calls context))).length = (next context').length

/-- The rows that the target returns belong to the prefixes that end its input, as
far as they go. -/
structure Serves (setup : Setup M α) (next : List Int → Logits α) : Prop where
  draft : DraftUsable setup.models
  target : ∀ context, context ≠ [] → Returned (setup.models.target context)
  rows : ∀ context, context ≠ [] → ∀ j, j < (setup.models.target context).length →
    j < context.length →
    row (setup.models.target context) ((setup.models.target context).length - 1 - j) =
      next (context.take (context.length - j))
  usable : RowsUsable next
  vocabulary : SameVocabulary setup next

section Targets

variable {setup : Setup M α} {next : List Int → Logits α}

omit [Monad M]

theorem serves_lastOnly {setup : Setup M α} (vocabulary : SameVocabulary setup next)
    (draft : DraftUsable setup.models) (usable : RowsUsable next)
    (lastOnly : ∀ context, context ≠ [] → setup.models.target context = [next context]) :
    Serves setup next where
  draft := draft
  target context some_ := by
    rw [lastOnly context some_]
    exact ⟨Nat.le_refl 1, List.length_pos_iff.mpr (usable context some_).1⟩
  rows context some_ j inside _ := by
    rw [lastOnly context some_] at inside ⊢
    obtain rfl : j = 0 := Nat.lt_one_iff.mp inside
    have whole : context.take (context.length - 0) = context := List.take_length
    rw [whole]
    rfl
  usable := usable
  vocabulary := vocabulary

theorem serves_perPosition {setup : Setup M α} (vocabulary : SameVocabulary setup next)
    (draft : DraftUsable setup.models) (usable : RowsUsable next)
    (perPosition : ∀ context, context ≠ [] → setup.models.target context =
      (List.range context.length).map fun i => next (context.take (i + 1))) :
    Serves setup next where
  draft := draft
  target context some_ := by
    have first : context.take 1 ≠ [] := by simpa using some_
    have positive := List.length_pos_iff.mpr some_
    rw [perPosition context some_]
    refine ⟨by simpa using Nat.succ_le_of_lt positive, ?_⟩
    simpa [row, positive, Nat.one_le_iff_ne_zero] using (usable _ first).1
  rows context some_ j _ inside := by
    have position : context.length - 1 - j + 1 = context.length - j := by omega
    rw [perPosition context some_, row]
    simp [show context.length - 1 - j < context.length by omega, position]
  usable := usable
  vocabulary := vocabulary

end Targets

namespace SpeculativeDecoder

variable {setup : Setup M α} {next : List Int → Logits α}

/-! ## Steps that draw nothing -/

theorem runs_getLogits {logits : Matrix α} (returned : Returned logits)
    (d : SpeculativeDecoder) : Runs (getLogits logits : DecoderM M (Matrix α)) d logits d := by
  have kept : ¬ (logits.length < 1 ∨ (row logits 0).length < 1) := by
    rintro (short | short)
    · exact Nat.not_lt.mpr returned.1 short
    · exact Nat.not_lt.mpr returned.2 short
  rw [getLogits, if_neg kept]
  exact Runs.pure _ _

theorem runs_checkLogits {logits : Logits α} (usable : logits.all Score.usable = true)
    (model : String) (d : SpeculativeDecoder) :
    Runs (checkLogits logits model : DecoderM M Unit) d () d := by
  rw [checkLogits, if_pos usable]
  exact Runs.pure _ _

variable [LawfulMonad M]

theorem runs_targetLogits (serves : Serves setup next) {context : List Int}
    (some_ : context ≠ []) (d : SpeculativeDecoder) :
    ∃ d', Runs (targetLogits setup context) d (setup.models.target context) d' :=
  ⟨_, (runs_getLogits (serves.target context some_) d).bind
    ((Runs.modified _ d).bind (Runs.pure _ _))⟩

/-- The draft's last row; the number of its passes goes up by one. -/
theorem runs_draftLast (serves : Serves setup next) {context : List Int} (some_ : context ≠ [])
    (d : SpeculativeDecoder) :
    Runs (draftLast setup context) d
      (lastRow (setup.models.draft d.totalForwardPassesDraft context))
      { d with totalForwardPassesDraft := d.totalForwardPassesDraft + 1 } := by
  obtain ⟨returned, usable⟩ := serves.draft d.totalForwardPassesDraft context some_
  exact (Runs.get d).bind ((runs_getLogits returned d).bind ((Runs.modified _ d).bind
    ((runs_checkLogits usable _ _).bind (Runs.pure _ _))))

omit [Monad M] [LawfulMonad M] in
/-- The last row is the one for the whole context. -/
theorem lastRow_target (serves : Serves setup next) {context : List Int} (some_ : context ≠ []) :
    lastRow (setup.models.target context) = next context := by
  have served := serves.rows context some_ 0 (serves.target context some_).1
    (List.length_pos_iff.mpr some_)
  rwa [Nat.sub_zero, Nat.sub_zero, List.take_length] at served

/-! ## Rows -/

/-- Every row that has been fetched is the one for its prefix. -/
structure Fetched (next : List Int → Logits α) (source : TargetRowSource α) : Prop where
  length : source.rows.length = source.count
  fits : source.count ≤ source.sequence.length
  rows : ∀ i, i < source.count → source.rows.getD i [] = [] ∨ source.rows.getD i [] =
    next (source.rowPrefix i)

theorem runs_newTargetRowSource (serves : Serves setup next) {sequence : List Int} {count : Nat}
    (positive : 0 < count) (fits : count ≤ sequence.length) (d : SpeculativeDecoder) :
    ∃ source d', Runs (newTargetRowSource setup sequence count) d source d' ∧
      Fetched next source ∧ source.sequence = sequence ∧ source.count = count := by
  have some_ : sequence ≠ [] := List.ne_nil_of_length_pos (positive.trans_le fits)
  by_cases known : d.targetRowsMode = .lastOnly
  · refine ⟨⟨sequence, count, List.replicate count []⟩, d, ?_, ?_, rfl, rfl⟩
    · apply (Runs.get d).bind
      rw [if_pos known]
      exact Runs.pure _ _
    · refine ⟨List.length_replicate, fits, fun i inside => .inl ?_⟩
      change i < count at inside
      simp [inside]
  · obtain ⟨d₁, passed⟩ := runs_targetLogits serves some_ d
    by_cases enough : count ≤ (setup.models.target sequence).length
    · refine ⟨⟨sequence, count, (List.range count).map fun i =>
          row (setup.models.target sequence)
            ((setup.models.target sequence).length - count + i)⟩,
        { d₁ with targetRowsMode := .perPosition }, ?_, ?_, rfl, rfl⟩
      · apply (Runs.get d).bind
        rw [if_neg known]
        apply passed.bind
        rw [if_pos enough]
        exact (Runs.modified _ d₁).bind (Runs.pure _ _)
      · refine ⟨by simp, fits, fun i inside => .inr ?_⟩
        change i < count at inside
        have served := serves.rows sequence some_ (count - 1 - i) (by omega) (by omega)
        have position : (setup.models.target sequence).length - 1 - (count - 1 - i) =
            (setup.models.target sequence).length - count + i := by omega
        rw [position] at served
        simpa [inside, TargetRowSource.rowPrefix] using served
    · refine ⟨⟨sequence, count,
          (List.replicate count []).set (count - 1) (lastRow (setup.models.target sequence))⟩,
        { d₁ with targetRowsMode := .lastOnly }, ?_, ?_, rfl, rfl⟩
      · apply (Runs.get d).bind
        rw [if_neg known]
        apply passed.bind
        rw [if_neg enough]
        exact (Runs.modified _ d₁).bind (Runs.pure _ _)
      · refine ⟨by simp, fits, fun i inside => ?_⟩
        by_cases last : i = count - 1
        · right
          have within : count - 1 < (List.replicate count ([] : Logits α)).length := by
            rw [List.length_replicate]
            exact Nat.sub_one_lt positive.ne'
          simp [last, List.getElem?_set_self within, lastRow_target serves some_,
            TargetRowSource.rowPrefix]
        · left
          change i < count at inside
          simp [Ne.symm last, inside]

omit [LawfulMonad M] [Monad M] in
theorem rowPrefix_ne_nil {source : TargetRowSource α} (fetched : Fetched next source) {i : Nat}
    (inside : i < source.count) : source.rowPrefix i ≠ [] := by
  have fits := fetched.fits
  apply List.ne_nil_of_length_pos
  rw [TargetRowSource.rowPrefix, List.length_take]
  omega

/-- A row that is missing is fetched with a pass over its prefix. -/
theorem runs_fetchRow (serves : Serves setup next) {source : TargetRowSource α}
    (fetched : Fetched next source) {i : Nat} (inside : i < source.count)
    (d : SpeculativeDecoder) :
    ∃ source' d', Runs (fetchRow setup source i) d source' d' ∧
      source'.rows.getD i [] = next (source.rowPrefix i) ∧
      Fetched next source' ∧ source'.sequence = source.sequence ∧ source'.count = source.count := by
  by_cases missing : source.rows.getD i [] = []
  · have some_ := rowPrefix_ne_nil fetched inside
    obtain ⟨d', passed⟩ := runs_targetLogits serves some_ d
    refine ⟨{ source with
        rows := source.rows.set i (lastRow (setup.models.target (source.rowPrefix i))) },
      d', ?_, ?_, ⟨?_, fetched.fits, ?_⟩, rfl, rfl⟩
    · rw [fetchRow, if_pos (List.isEmpty_iff.mpr missing)]
      exact passed.bind (Runs.pure _ _)
    · simp [fetched.length, inside, lastRow_target serves some_]
    · simp [fetched.length]
    · intro k within
      by_cases here : i = k
      · subst here
        right
        simp [fetched.length, inside]
        exact lastRow_target serves some_
      · simpa [here, TargetRowSource.rowPrefix] using fetched.rows k within
  · refine ⟨source, d, ?_, (fetched.rows i inside).resolve_left missing, fetched, rfl, rfl⟩
    rw [fetchRow, if_neg (mt List.isEmpty_iff.mp missing)]
    exact Runs.pure _ _

/-- A row is fetched if it is missing, and is the one for its prefix. -/
theorem runs_getRow (serves : Serves setup next) {source : TargetRowSource α}
    (fetched : Fetched next source) {i : Nat} (inside : i < source.count)
    (d : SpeculativeDecoder) :
    ∃ source' d', Runs (getRow setup source i) d (next (source.rowPrefix i), source') d' ∧
      Fetched next source' ∧ source'.sequence = source.sequence ∧ source'.count = source.count := by
  have some_ := rowPrefix_ne_nil fetched inside
  obtain ⟨source', d', run, value, rest⟩ := runs_fetchRow serves fetched inside d
  refine ⟨source', d', ?_, rest⟩
  apply run.bind
  rw [value]
  exact (runs_checkLogits (serves.usable _ some_).2 _ d').bind (Runs.pure _ _)

/-! ## Rounds -/

variable [LT α] [DecidableLT α] (setup next)

/-- Proposals of the draft, verified against the target's rows. -/
def scheme : Scheme M Int TokenProposal where
  token := TokenProposal.tokenId
  propose calls context := propose setup (lastRow (setup.models.draft calls context))
  accept context := acceptProposal setup (next context)
  replace context := replaceProposal setup (next context)
  choose context := targetToken setup (next context)

variable {setup next}

/-- Its distribution, if it has one, is over the target's tokens. -/
def Fits (next : List Int → Logits α) (proposal : TokenProposal) : Prop :=
  proposal.draftDist = [] ∨ ∀ context, context ≠ [] →
    proposal.draftDist.length = (next context).length

/-- What the draft proposes fits. -/
theorem follows_propose_bind (serves : Serves setup next) {β : Type} {Good : β → Prop}
    {calls : Nat} {context : List Int} (some_ : context ≠ [])
    {f : TokenProposal → DecoderM M β} {law : TokenProposal → M β} {d : SpeculativeDecoder}
    (later : ∀ proposal, Fits next proposal → Follows Good (f proposal) d (law proposal)) :
    Follows Good (draw ((scheme setup next).propose calls context) >>= f) d
      ((scheme setup next).propose calls context >>= law) := by
  by_cases greedy_ : greedy setup = true
  · have proposed : (scheme setup next).propose calls context = (fun _ : Unit =>
        ⟨argmax (lastRow (setup.models.draft calls context)), []⟩) <$> (pure () : M Unit) := by
      rw [scheme, map_pure]
      exact if_pos greedy_
    rw [proposed]
    exact Follows.draw_map_bind _ _ fun _ => later _ (.inl rfl)
  · have vocabulary := serves.vocabulary.resolve_left greedy_
    have proposed : (scheme setup next).propose calls context = _ := if_neg greedy_
    rw [proposed]
    exact Follows.draw_map_bind _ _ fun _ =>
      later _ (.inr fun context' some' => vocabulary calls context context' some_ some')

theorem follows_draftProposals (serves : Serves setup next) {context : List Int}
    (some_ : context ≠ []) (budget : Nat) (d : SpeculativeDecoder) :
    Follows (fun proposals => ∀ proposal ∈ proposals, Fits next proposal)
      (draftProposals setup budget context) d
      ((scheme setup next).draft setup.models.eosTokenId budget d.totalForwardPassesDraft
        context) := by
  induction budget generalizing context d with
  | zero => exact Follows.pure [] (fun _ member => by cases member)
  | succ budget ih =>
      apply Follows.step (runs_draftLast serves some_ d)
      apply follows_propose_bind serves some_
      intro proposal fits
      by_cases last : proposal.tokenId = setup.models.eosTokenId
      · rw [if_pos last, if_pos (show (scheme setup next).token proposal = _ from last)]
        exact Follows.pure _ (List.forall_mem_singleton.mpr fits)
      · rw [if_neg last, if_neg (show ¬ (scheme setup next).token proposal = _ from last)]
        apply (ih (List.append_ne_nil_of_right_ne_nil _ (List.cons_ne_nil _ _)) _).map
        intro rest good
        exact List.forall_mem_cons.mpr ⟨fits, good⟩

omit [LT α] [DecidableLT α] in
theorem runs_checkVocabularies (serves : Serves setup next) {source : TargetRowSource α}
    (fetched : Fetched next source) (positive : 0 < source.count) {proposals : List TokenProposal}
    (fits : ∀ proposal ∈ proposals, Fits next proposal) (d : SpeculativeDecoder) :
    ∃ source' d', Runs (checkVocabularies setup source proposals) d source' d' ∧
      Fetched next source' ∧ source'.sequence = source.sequence ∧ source'.count = source.count := by
  cases proposals with
  | nil => exact ⟨source, d, Runs.pure _ _, fetched, rfl, rfl⟩
  | cons proposal rest =>
      rw [checkVocabularies]
      by_cases none_ : proposal.draftDist = []
      · rw [if_pos (List.isEmpty_iff.mpr none_)]
        exact ⟨source, d, Runs.pure _ _, fetched, rfl, rfl⟩
      · obtain ⟨source', d', run, kept⟩ := runs_getRow serves fetched positive d
        refine ⟨source', d', ?_, kept⟩
        rw [if_neg (mt List.isEmpty_iff.mp none_)]
        apply run.bind
        have same := (fits proposal List.mem_cons_self).resolve_left none_
          (source.rowPrefix 0) (rowPrefix_ne_nil fetched positive)
        dsimp only
        rw [if_neg (not_not.mpr same)]
        exact Runs.pure _ _

omit [Monad M] [LawfulMonad M] [LT α] [DecidableLT α] in
/-- The row of the first proposal that is left is the one for the context before it. -/
theorem rowPrefix_eq {source : TargetRowSource α} {context : List Int}
    {rest : List TokenProposal} {i : Nat}
    (sequence : source.sequence = context ++ rest.map TokenProposal.tokenId)
    (count : source.count = i + rest.length + 1) : source.rowPrefix i = context := by
  have drop : source.sequence.length - (source.count - 1 - i) = context.length := by
    rw [sequence, count, List.length_append, List.length_map]
    omega
  rw [TargetRowSource.rowPrefix, drop, sequence, List.take_left]

/-- Verifying what is left of the proposals; `i` of them came before. -/
theorem follows_verifyProposals (serves : Serves setup next) {rest : List TokenProposal}
    {context : List Int} (some_ : context ≠ []) {i : Nat} {source : TargetRowSource α}
    (fetched : Fetched next source)
    (sequence : source.sequence = context ++ rest.map TokenProposal.tokenId)
    (count : source.count = i + rest.length + 1) (d : SpeculativeDecoder) :
    Follows (fun tokens => tokens ≠ []) (verifyProposals setup i source rest) d
      ((scheme setup next).verify setup.models.eosTokenId context rest) := by
  induction rest generalizing context i source d with
  | nil =>
      obtain ⟨source', d', run, -⟩ := runs_getRow serves fetched (by omega : i < source.count) d
      rw [rowPrefix_eq sequence count] at run
      rw [Scheme.verify, ← bind_pure_comp]
      apply Follows.step run
      exact Follows.draw_bind _ fun token => Follows.pure _ (List.cons_ne_nil _ _)
  | cons proposal rest ih =>
      apply Follows.step (Runs.modified _ d)
      obtain ⟨source', d', run, fetched', sequence', count'⟩ := runs_getRow serves fetched
        (by omega : i < source.count) { d with totalProposals := d.totalProposals + 1 }
      rw [rowPrefix_eq sequence count] at run
      apply Follows.step run
      apply Follows.draw_bind
      intro accepted
      cases accepted with
      | false =>
          simp only [Bool.false_eq_true, if_false, ← bind_pure_comp]
          exact Follows.draw_bind _ fun token => Follows.pure _ (List.cons_ne_nil _ _)
      | true =>
          simp only [if_true]
          apply Follows.step (Runs.modified _ d')
          by_cases last : proposal.tokenId = setup.models.eosTokenId
          · rw [if_pos last, if_pos (show (scheme setup next).token proposal = _ from last)]
            exact Follows.pure _ (List.cons_ne_nil _ _)
          · rw [if_neg last, if_neg (show ¬ (scheme setup next).token proposal = _ from last)]
            have longer : context ++ [proposal.tokenId] ≠ [] :=
              List.append_ne_nil_of_right_ne_nil _ (List.cons_ne_nil _ _)
            refine (ih longer fetched' ?_ ?_ _).map fun tokens _ => List.cons_ne_nil _ _
            · rw [sequence', sequence, List.map_cons, List.append_assoc, List.singleton_append]
            · rw [count', count, List.length_cons]
              omega

/-- A round follows the round of the scheme. -/
theorem follows_round (serves : Serves setup next) {context : List Int} (some_ : context ≠ [])
    (budget : Nat) (d : SpeculativeDecoder) :
    Follows (fun tokens => tokens ≠ []) (round setup context budget) d
      ((scheme setup next).round setup.models.eosTokenId budget d.totalForwardPassesDraft
        context) := by
  apply (follows_draftProposals serves some_ budget d).bind
  intro proposals d₁ fits
  have positive : 0 < proposals.length + 1 := Nat.succ_pos _
  have room : proposals.length + 1 ≤ (context ++ proposals.map TokenProposal.tokenId).length := by
    have one := List.length_pos_iff.mpr some_
    rw [List.length_append, List.length_map]
    omega
  obtain ⟨source, d₂, run, fetched, sequence, count⟩ :=
    runs_newTargetRowSource serves positive room d₁
  apply Follows.step run
  obtain ⟨source', d₃, run', fetched', sequence', count'⟩ :=
    runs_checkVocabularies serves fetched (count ▸ positive) fits d₂
  apply Follows.step run'
  apply follows_verifyProposals serves some_ fetched' (sequence'.trans sequence)
  rw [count', count, Nat.zero_add]

/-! ## Generation -/

/-- Plain generation with the target's own tokens. -/
def plainTarget (setup : Setup M α) (next : List Int → Logits α) : Nat → List Int → M (List Int) :=
  plain (scheme setup next).choose setup.models.eosTokenId

variable (independent : Independent M) (exact_ : (scheme setup next).Exact)

include independent exact_

theorem round_continued {context : List Int} (some_ : context ≠ []) (budget calls room : Nat) :
    ((scheme setup next).round setup.models.eosTokenId budget calls context >>=
        continued (scheme setup next).choose setup.models.eosTokenId room context) =
      plainTarget setup next room context :=
  Scheme.round_continued independent exact_ some_

/-- The loop from any state: what is generated after the context, behind the output. -/
theorem follows_generateLoop (serves : Serves setup next) (maxNewTokens rounds : Nat)
    {context : List Int} (some_ : context ≠ []) (output : List Int)
    (enough : maxNewTokens - output.length ≤ rounds) (d : SpeculativeDecoder) :
    Follows (fun _ => True) (generateLoop setup maxNewTokens rounds context output) d
      ((output ++ ·) <$> plainTarget setup next (maxNewTokens - output.length) context) := by
  induction rounds generalizing context output d with
  | zero =>
      have full : ¬ output.length < maxNewTokens := by omega
      rw [generateLoop, if_neg full, Nat.sub_eq_zero_of_le (Nat.not_lt.mp full), plainTarget, plain, map_pure,
        List.append_nil]
      exact Follows.pure output trivial
  | succ rounds ih =>
      rw [generateLoop]
      by_cases left : output.length < maxNewTokens
      · rw [if_pos left, ← round_continued independent exact_ some_
          (min setup.config.numCandidates (maxNewTokens - output.length : Nat)).toNat
          d.totalForwardPassesDraft, map_bind]
        apply (follows_round serves some_ _ d).bind
        intro tokens d' emitted
        have progress : (taken setup.models.eosTokenId (maxNewTokens - output.length) tokens).1 ≠ [] :=
          taken_ne_nil emitted (Nat.sub_pos_of_lt left)
        rw [continued]
        dsimp only
        generalize taken setup.models.eosTokenId (maxNewTokens - output.length) tokens = cut
          at progress ⊢
        obtain ⟨added, stopped⟩ := cut
        have grown : 0 < added.length := List.length_pos_iff.mpr progress
        apply Follows.step (Runs.modified _ d')
        cases stopped with
        | true =>
            rw [if_pos rfl, if_pos rfl, map_pure, map_pure, List.append_nil]
            exact Follows.pure _ trivial
        | false =>
            have later := ih (List.append_ne_nil_of_right_ne_nil context progress) (output ++ added)
              (by rw [List.length_append]; omega)
              { d' with totalGeneratedTokens := d'.totalGeneratedTokens + added.length }
            rw [List.length_append, ← Nat.sub_sub] at later
            simpa only [Bool.false_eq_true, if_false, Functor.map_map, List.append_assoc,
              plainTarget] using later
      · rw [if_neg left, Nat.sub_eq_zero_of_le (Nat.not_lt.mp left), plainTarget, plain, map_pure,
          List.append_nil]
        exact Follows.pure output trivial

/-- **Drafts leave no trace.** From any state of the decoder, `generateTokens` follows
plain generation with the target's own tokens. -/
theorem follows_generateTokens (serves : Serves setup next) (prompt : List Int)
    (maxNewTokens : Int) (d : SpeculativeDecoder) :
    Follows (fun _ => True) (generateTokens setup prompt maxNewTokens) d
      (plainTarget setup next (newTokenBound setup maxNewTokens) (startContext setup prompt)) := by
  have started : startContext setup prompt ≠ [] := by
    cases prompt with
    | nil => exact List.cons_ne_nil _ _
    | cons token rest => exact List.cons_ne_nil _ _
  have loop := follows_generateLoop independent exact_ serves (newTokenBound setup maxNewTokens)
    (newTokenBound setup maxNewTokens) started [] (Nat.le_refl _) d
  rw [generateTokens]
  simpa only [List.nil_append, id_map', List.length_nil, Nat.sub_zero] using loop

end SpeculativeDecoder

end Adai.Decoding

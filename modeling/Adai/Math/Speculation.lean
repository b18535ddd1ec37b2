import Mathlib.Control.Basic
import Mathlib.Probability.ProbabilityMassFunction.Constructions

/-! # Speculative generation

Tokens are generated one after the other, each from a law that the tokens before it
determine (`Speculation.plain`). A scheme proposes several tokens first and then
verifies them in order: a proposal is accepted or replaced, and after the last one
that is accepted comes a bonus token. Where accepting or replacing one proposal has
the law of one token, the proposals leave no trace: a round that is cut to the room
left and then carried on is plain generation (`Speculation.Scheme.round_continued`).

The laws live in any monad whose draws may be reordered and left out.

A value is drawn from one law and accepted so often that it passes with the smaller
of its two probabilities; if it is not accepted, a second draw makes up what the other
law has more. The result has the other law (`RejectionSampling.bind_accept`). Where
the laws agree, everything that can be drawn is accepted and the second draw is of no
consequence.
-/

namespace Speculation

/-- Draws that may be made in another order, or not at all. -/
structure Independent (M : Type → Type) [Monad M] : Prop where
  comm : ∀ {α β γ : Type} (x : M α) (y : M β) (f : α → β → M γ),
    (x >>= fun a => y >>= fun b => f a b) = y >>= fun b => x >>= fun a => f a b
  const : ∀ {α β : Type} (x : M α) (y : M β), (x >>= fun _ => y) = y

theorem independent_id : Independent Id where
  comm _ _ _ := rfl
  const _ _ := rfl

section Plain

variable {M : Type → Type} [Monad M] {τ : Type} [DecidableEq τ]

/-- At most `n` tokens after the context, ending at the end token. -/
def plain (choose : List τ → M τ) (eos : τ) : Nat → List τ → M (List τ)
  | 0, _ => pure []
  | n + 1, context => choose context >>= fun token =>
      if token = eos then pure [token]
      else (token :: ·) <$> plain choose eos n (context ++ [token])

/-- The tokens that fit into the room, up to the end token, and whether it is among
them. -/
def taken (eos : τ) : Nat → List τ → List τ × Bool
  | 0, _ => ([], false)
  | _ + 1, [] => ([], false)
  | room + 1, token :: rest =>
      if token = eos then ([token], true)
      else (token :: (taken eos room rest).1, (taken eos room rest).2)

@[simp] theorem plain_zero (choose : List τ → M τ) (eos : τ) (context : List τ) :
    plain choose eos 0 context = pure [] := rfl

theorem plain_succ (choose : List τ → M τ) (eos : τ) (n : Nat) (context : List τ) :
    plain choose eos (n + 1) context = choose context >>= fun token =>
      if token = eos then pure [token]
      else (token :: ·) <$> plain choose eos n (context ++ [token]) := rfl

@[simp] theorem taken_zero (eos : τ) (tokens : List τ) : taken eos 0 tokens = ([], false) := rfl

@[simp] theorem taken_nil (eos : τ) (room : Nat) : taken eos room [] = ([], false) := by
  cases room <;> rfl

theorem taken_cons (eos : τ) (room : Nat) (token : τ) (rest : List τ) :
    taken eos (room + 1) (token :: rest) =
      if token = eos then ([token], true)
      else (token :: (taken eos room rest).1, (taken eos room rest).2) := rfl

theorem taken_ne_nil {eos : τ} {room : Nat} {tokens : List τ} (some_ : tokens ≠ [])
    (left : 0 < room) : (taken eos room tokens).1 ≠ [] := by
  cases room with
  | zero => cases left
  | succ room =>
      cases tokens with
      | nil => exact (some_ rfl).elim
      | cons token rest =>
          rw [taken_cons]
          split <;> exact List.cons_ne_nil _ _

variable (choose : List τ → M τ) (eos : τ)

/-- The tokens of a round, cut to the room, and what is generated after them. -/
def continued (room : Nat) (context tokens : List τ) : M (List τ) :=
  ((taken eos room tokens).1 ++ ·) <$>
    if (taken eos room tokens).2 then pure []
    else plain choose eos (room - (taken eos room tokens).1.length)
      (context ++ (taken eos room tokens).1)

variable [LawfulMonad M]

theorem continued_zero (context tokens : List τ) :
    continued choose eos 0 context tokens = pure [] := by
  simp [continued]

theorem continued_nil (room : Nat) (context : List τ) :
    continued choose eos room context [] = plain choose eos room context := by
  simp [continued]

theorem continued_cons (room : Nat) (context : List τ) (token : τ) (rest : List τ) :
    continued choose eos (room + 1) context (token :: rest) =
      if token = eos then pure [token]
      else (token :: ·) <$> continued choose eos room (context ++ [token]) rest := by
  by_cases last : token = eos
  · simp [continued, taken_cons, last]
  · simp [continued, taken_cons, last, Nat.add_sub_add_right]

/-- One token, then the rest. -/
theorem continued_single (room : Nat) (context : List τ) (token : τ) :
    continued choose eos (room + 1) context [token] =
      if token = eos then pure [token]
      else (token :: ·) <$> plain choose eos room (context ++ [token]) := by
  rw [continued_cons, continued_nil]

end Plain

/-- How tokens are proposed and verified. A proposal may carry more than its token;
the draft may answer differently from call to call. -/
structure Scheme (M : Type → Type) (τ ρ : Type) where
  token : ρ → τ
  propose : Nat → List τ → M ρ
  accept : List τ → ρ → M Bool
  replace : List τ → ρ → M τ
  choose : List τ → M τ

namespace Scheme

variable {M : Type → Type} [Monad M] {τ ρ : Type}

/-- The token that comes of one proposal. -/
def settle (scheme : Scheme M τ ρ) (context : List τ) (proposal : ρ) : M τ :=
  scheme.accept context proposal >>= fun accepted =>
    if accepted then pure (scheme.token proposal) else scheme.replace context proposal

/-- After any token, a proposal that is accepted or replaced has the law of one token. -/
def Exact (scheme : Scheme M τ ρ) : Prop :=
  ∀ calls context, context ≠ [] →
    (scheme.propose calls context >>= scheme.settle context) = scheme.choose context

variable [DecidableEq τ] (scheme : Scheme M τ ρ) (eos : τ)

/-- Up to `count` proposals, each after the ones before it; none after the end token. -/
def draft : Nat → Nat → List τ → M (List ρ)
  | 0, _, _ => pure []
  | count + 1, calls, context => scheme.propose calls context >>= fun proposal =>
      if scheme.token proposal = eos then pure [proposal]
      else (proposal :: ·) <$> draft count (calls + 1) (context ++ [scheme.token proposal])

/-- The proposals in order: the first one that is not accepted is replaced and ends
it, and so does the end token; after the last one comes a bonus token. -/
def verify : List τ → List ρ → M (List τ)
  | context, [] => (fun token => [token]) <$> scheme.choose context
  | context, proposal :: rest => scheme.accept context proposal >>= fun accepted =>
      if accepted then
        if scheme.token proposal = eos then pure [scheme.token proposal]
        else (scheme.token proposal :: ·) <$> verify (context ++ [scheme.token proposal]) rest
      else (fun token => [token]) <$> scheme.replace context proposal

def round (count calls : Nat) (context : List τ) : M (List τ) :=
  scheme.draft eos count calls context >>= scheme.verify eos context

variable {scheme} [LawfulMonad M]

/-- Verifying one proposal and what follows it. -/
theorem verify_cons_bind {β : Type} (context : List τ) (proposal : ρ) (rest : List ρ)
    (next : List τ → M β) :
    (scheme.verify eos context (proposal :: rest) >>= next) =
      scheme.accept context proposal >>= fun accepted =>
        if accepted then
          if scheme.token proposal = eos then next [scheme.token proposal]
          else scheme.verify eos (context ++ [scheme.token proposal]) rest >>= fun tokens =>
            next (scheme.token proposal :: tokens)
        else scheme.replace context proposal >>= fun token => next [token] := by
  rw [verify, bind_assoc]
  congr 1
  funext accepted
  cases accepted with
  | false => simp
  | true => by_cases last : scheme.token proposal = eos <;> simp [last]

omit [DecidableEq τ] in
theorem settle_bind {β : Type} (context : List τ) (proposal : ρ) (next : τ → M β) :
    (scheme.settle context proposal >>= next) =
      scheme.accept context proposal >>= fun accepted =>
        if accepted then next (scheme.token proposal)
        else scheme.replace context proposal >>= next := by
  rw [settle, bind_assoc]
  congr 1
  funext accepted
  cases accepted <;> simp

section Round

variable {eos} (independent : Independent M) {count calls room : Nat} {context : List τ}

include independent

/-- Behind one proposal the later ones leave no trace: they are passed over when it
is replaced, and make up plain generation when it is accepted. -/
theorem settle_continued {proposal : ρ} (other : scheme.token proposal ≠ eos)
    (later : (scheme.round eos count calls (context ++ [scheme.token proposal]) >>=
        continued scheme.choose eos room (context ++ [scheme.token proposal])) =
      plain scheme.choose eos room (context ++ [scheme.token proposal])) :
    (scheme.draft eos count calls (context ++ [scheme.token proposal]) >>= fun rest =>
        scheme.verify eos context (proposal :: rest) >>=
          continued scheme.choose eos (room + 1) context) =
      scheme.settle context proposal >>= fun token =>
        continued scheme.choose eos (room + 1) context [token] := by
  simp only [verify_cons_bind, settle_bind]
  rw [independent.comm]
  congr 1
  funext accepted
  cases accepted with
  | false => exact independent.const _ _
  | true =>
      simp only [if_true, if_neg other, continued_cons, continued_nil]
      rw [← later, round, bind_assoc]
      simp only [map_eq_pure_bind, bind_assoc]

theorem round_continued_zero :
    (scheme.round eos count calls context >>= continued scheme.choose eos 0 context) =
      plain scheme.choose eos 0 context := by
  have nothing : continued scheme.choose eos 0 context = fun _ => pure [] :=
    funext (continued_zero scheme.choose eos context)
  rw [nothing, independent.const, plain_zero]

/-- **Rounds leave no trace.** However many tokens are proposed, a round of an exact
scheme, cut to the room and carried on, is plain generation. -/
theorem round_continued (exact_ : scheme.Exact) (some_ : context ≠ []) :
    (scheme.round eos count calls context >>= continued scheme.choose eos room context) =
      plain scheme.choose eos room context := by
  induction count generalizing calls room context with
  | zero =>
      cases room with
      | zero => exact round_continued_zero independent
      | succ room => simp [round, draft, verify, continued_single, plain_succ]
  | succ count ih =>
      cases room with
      | zero => exact round_continued_zero independent
      | succ room =>
          calc
            _ = scheme.propose calls context >>= fun proposal =>
                scheme.settle context proposal >>= fun token =>
                  continued scheme.choose eos (room + 1) context [token] := by
              rw [round, draft]
              simp only [bind_assoc]
              congr 1
              funext proposal
              by_cases last : scheme.token proposal = eos
              · simp only [if_pos last, pure_bind, verify_cons_bind, settle_bind]
              · rw [← settle_continued independent last (@ih (calls + 1) room _
                  (List.append_ne_nil_of_right_ne_nil _ (List.cons_ne_nil _ _)))]
                simp only [if_neg last, map_eq_pure_bind, bind_assoc, pure_bind]
            _ = scheme.choose context >>= fun token =>
                continued scheme.choose eos (room + 1) context [token] := by
              rw [← exact_ calls context some_, bind_assoc]
            _ = plain scheme.choose eos (room + 1) context := by
              simp only [continued_single, plain_succ]

end Round

end Scheme

end Speculation

noncomputable section

namespace RejectionSampling

open scoped ENNReal

variable {ι : Type} (p q : PMF ι)

/-- What the first law has more than the second. -/
def excess : ℝ≥0∞ := tsum fun x => p x - q x

theorem tsum_min_add_excess : tsum (fun x => min (q x) (p x)) + excess p q = 1 := by
  rw [excess, ← ENNReal.tsum_add, ← p.tsum_coe]
  congr 1
  funext x
  rw [min_comm, ← tsub_min (a := p x) (b := q x)]
  exact add_tsub_cancel_of_le (min_le_left _ _)

/-- Each has as much more than the other. -/
theorem excess_comm : excess p q = excess q p := by
  have forward := tsum_min_add_excess p q
  have backward := tsum_min_add_excess q p
  have finite : tsum (fun x => min (q x) (p x)) ≠ ∞ := by
    intro infinite
    rw [infinite, top_add] at forward
    exact ENNReal.top_ne_one forward
  simp only [min_comm (p _)] at backward
  exact (ENNReal.add_right_inj finite).mp (forward.trans backward.symm)

variable {p q} {accept : ι → PMF Bool} {r : PMF ι}

theorem mul_accept_false (agrees : ∀ x, q x * accept x true = min (q x) (p x)) (x : ι) :
    q x * accept x false = q x - p x := by
  have total : accept x true + accept x false = 1 := by
    have sum := (accept x).tsum_coe
    rwa [tsum_bool, add_comm] at sum
  have split : min (q x) (p x) + q x * accept x false = q x := by
    rw [← agrees x, ← mul_add, total, mul_one]
  have finite : min (q x) (p x) ≠ ∞ := ne_top_of_le_ne_top (q.apply_ne_top x) (min_le_left _ _)
  rw [← tsub_min]
  exact ENNReal.eq_sub_of_add_eq' (q.apply_ne_top x) (by rw [add_comm]; exact split)

/-- **Rejection sampling.** A draw that is accepted, or made up for. -/
theorem bind_accept (agrees : ∀ x, q x * accept x true = min (q x) (p x))
    (fills : ∀ x, excess p q * r x = p x - q x) :
    (q.bind fun x => (accept x).bind fun accepted => if accepted then PMF.pure x else r) = p := by
  ext t
  calc
    _ = tsum (fun x => min (q x) (p x) * PMF.pure x t + (q x - p x) * r t) := by
      rw [PMF.bind_apply]
      congr 1
      funext x
      rw [PMF.bind_apply, tsum_bool, mul_add, add_comm, ← mul_assoc, ← mul_assoc,
        mul_accept_false agrees, agrees]
      rfl
    _ = min (q t) (p t) + excess q p * r t := by
      rw [ENNReal.tsum_add, ENNReal.tsum_mul_right, excess]
      congr 1
      rw [tsum_eq_single t]
      · rw [PMF.pure_apply_self, mul_one]
      · intro x other
        rw [PMF.pure_apply_of_ne _ _ other.symm, mul_zero]
    _ = p t := by
      rw [← excess_comm, fills, min_comm, ← tsub_min (a := p t) (b := q t)]
      exact add_tsub_cancel_of_le (min_le_left _ _)

end RejectionSampling

end

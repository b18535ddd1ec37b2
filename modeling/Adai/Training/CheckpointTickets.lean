import Mathlib.Logic.Function.Basic
import Adai.Math.TransitionSystem

/-! # Checkpoint tickets

Requesters number their requests and then set a flag; the trainer clears the flag, reads
how many requests were made, writes a checkpoint and reports that number as served. Each
is one atomic step, and the steps interleave in any order. A ticket that was returned is
served, or has the flag set, or is answered by a take in progress, or the checkpoint for
it could not be written; and a served one had a checkpoint begun after it was requested
(`tickets_honoured`).
-/

namespace Adai.Training

open PastTime TransitionSystem

/-! ## Requesters and the trainer -/

/-- Where a thread stands in `request_checkpoint`. -/
inductive RequestPoint
  | idle
  | numbered (ticket : Nat)
  | flagged (ticket : Nat)
  deriving DecidableEq

/-- Where the trainer stands in `take_checkpoint_request`, its checkpoint, and
`mark_checkpoint_served`. -/
inductive TakePoint
  | running
  /-- The flag was set and is cleared. -/
  | taking
  | taken (ticket : Nat)
  | writing (ticket : Nat)
  | written (ticket : Nat)
  /-- In the loop, with the value that was read last. -/
  | comparing (ticket current : Nat)
  deriving DecidableEq

structure TrainerControlState where
  checkpointRequested : Bool
  checkpointRequestsMade : Nat
  checkpointRequestsServed : Nat
  requesters : Nat → RequestPoint
  trainer : TakePoint

def TrainerControlState.initial : TrainerControlState where
  checkpointRequested := false
  checkpointRequestsMade := 0
  checkpointRequestsServed := 0
  requesters := fun _ => .idle
  trainer := .running

inductive ControlEvent
  | fetchAdd (requester ticket : Nat)
  | storeFlag (requester : Nat)
  | returns (requester ticket : Nat)
  | exchangeFlag
  | loadMade
  | beginCheckpoint (ticket : Nat)
  | endCheckpoint (ticket : Nat) (isWritten : Bool)
  | loadServed
  | compareExchange (spurious : Bool)
  deriving DecidableEq

namespace TrainerControlState

def withRequester (s : TrainerControlState) (requester : Nat) (point : RequestPoint) :
    TrainerControlState :=
  { s with requesters := Function.update s.requesters requester point }

/-- The loop's condition, with the value just read. -/
def compareNext (ticket current : Nat) : TakePoint :=
  if current < ticket then .comparing ticket current else .running

def next (s : TrainerControlState) : ControlEvent → Option TrainerControlState
  | .fetchAdd requester ticket =>
      if s.requesters requester = .idle ∧ ticket = s.checkpointRequestsMade + 1 then
        some { s.withRequester requester (.numbered ticket) with checkpointRequestsMade := ticket }
      else none
  | .storeFlag requester =>
      match s.requesters requester with
      | .numbered ticket =>
          some { s.withRequester requester (.flagged ticket) with checkpointRequested := true }
      | _ => none
  | .returns requester ticket =>
      if s.requesters requester = .flagged ticket then some (s.withRequester requester .idle)
      else none
  | .exchangeFlag =>
      if s.trainer = .running then
        some { s with
          checkpointRequested := false
          trainer := if s.checkpointRequested then .taking else .running }
      else none
  | .loadMade =>
      if s.trainer = .taking then
        some { s with
          -- the caller does nothing for ticket 0
          trainer := if s.checkpointRequestsMade = 0 then .running
            else .taken s.checkpointRequestsMade }
      else none
  | .beginCheckpoint ticket =>
      if s.trainer = .taken ticket then some { s with trainer := .writing ticket } else none
  | .endCheckpoint ticket isWritten =>
      if s.trainer = .writing ticket then
        some { s with trainer := if isWritten then .written ticket else .running }
      else none
  | .loadServed =>
      match s.trainer with
      | .written ticket =>
          some { s with trainer := compareNext ticket s.checkpointRequestsServed }
      | _ => none
  | .compareExchange spurious =>
      match s.trainer with
      | .comparing ticket current =>
          if spurious = false ∧ s.checkpointRequestsServed = current then
            some { s with checkpointRequestsServed := ticket, trainer := .running }
          else some { s with trainer := compareNext ticket s.checkpointRequestsServed }
      | _ => none

end TrainerControlState

def ControlStep (s : TrainerControlState) (event : ControlEvent) (s' : TrainerControlState) : Prop :=
  s.next event = some s'

/-- A step of `mark_checkpoint_served`. -/
def ControlEvent.IsMark : ControlEvent → Prop
  | .loadServed => True
  | .compareExchange _ => True
  | _ => False

/-- What a step can do. -/
inductive ControlChange (s : TrainerControlState) : ControlEvent → TrainerControlState → Prop
  | makes (requester : Nat) :
      ControlChange s (.fetchAdd requester (s.checkpointRequestsMade + 1))
        { s.withRequester requester (.numbered (s.checkpointRequestsMade + 1)) with
          checkpointRequestsMade := s.checkpointRequestsMade + 1 }
  | flags {requester ticket : Nat} (numbered : s.requesters requester = .numbered ticket) :
      ControlChange s (.storeFlag requester)
        { s.withRequester requester (.flagged ticket) with checkpointRequested := true }
  | returns {requester ticket : Nat} (flagged : s.requesters requester = .flagged ticket) :
      ControlChange s (.returns requester ticket) (s.withRequester requester .idle)
  | takes (running : s.trainer = .running) :
      ControlChange s .exchangeFlag { s with checkpointRequested := false, trainer := .taking }
  | finds (running : s.trainer = .running) (unset : s.checkpointRequested = false) :
      ControlChange s .exchangeFlag s
  | sees (taking : s.trainer = .taking) :
      ControlChange s .loadMade { s with trainer := .taken s.checkpointRequestsMade }
  | seesNone (taking : s.trainer = .taking) (none : s.checkpointRequestsMade = 0) :
      ControlChange s .loadMade { s with trainer := .running }
  | begins {ticket : Nat} (taken : s.trainer = .taken ticket) :
      ControlChange s (.beginCheckpoint ticket) { s with trainer := .writing ticket }
  | writes {ticket : Nat} (writing : s.trainer = .writing ticket) :
      ControlChange s (.endCheckpoint ticket true) { s with trainer := .written ticket }
  | fails {ticket : Nat} (writing : s.trainer = .writing ticket) :
      ControlChange s (.endCheckpoint ticket false) { s with trainer := .running }
  | compares {event : ControlEvent} {ticket : Nat} (isMark : event.IsMark)
      (marking : s.trainer = .written ticket ∨ ∃ current, s.trainer = .comparing ticket current) :
      ControlChange s event
        { s with trainer := .comparing ticket s.checkpointRequestsServed }
  | stops {event : ControlEvent} {ticket : Nat} (isMark : event.IsMark)
      (marking : s.trainer = .written ticket ∨ ∃ current, s.trainer = .comparing ticket current)
      (served : ticket ≤ s.checkpointRequestsServed) :
      ControlChange s event { s with trainer := .running }
  | serves {event : ControlEvent} {ticket : Nat} (isMark : event.IsMark)
      (comparing : s.trainer = .comparing ticket s.checkpointRequestsServed) :
      ControlChange s event { s with checkpointRequestsServed := ticket, trainer := .running }

theorem controlChange_compareNext {s : TrainerControlState} {event : ControlEvent} {ticket : Nat}
    (isMark : event.IsMark)
    (marking : s.trainer = .written ticket ∨ ∃ current, s.trainer = .comparing ticket current) :
    ControlChange s event
      { s with trainer := TrainerControlState.compareNext ticket s.checkpointRequestsServed } := by
  unfold TrainerControlState.compareNext
  split
  · exact .compares isMark marking
  · rename_i served
    exact .stops isMark marking (Nat.not_lt.mp served)

theorem ControlStep.change {s s' : TrainerControlState} {event : ControlEvent}
    (step : ControlStep s event s') : ControlChange s event s' := by
  cases event with
  | fetchAdd requester ticket =>
      obtain ⟨⟨-, rfl⟩, ⟨⟩⟩ := Option.ite_none_right_eq_some.mp step
      exact .makes requester
  | storeFlag requester =>
      simp only [ControlStep, TrainerControlState.next] at step
      split at step
      · rename_i numbered
        obtain rfl := Option.some.inj step
        exact .flags numbered
      · cases step
  | returns requester ticket =>
      obtain ⟨flagged, ⟨⟩⟩ := Option.ite_none_right_eq_some.mp step
      exact .returns flagged
  | exchangeFlag =>
      obtain ⟨running, same⟩ := Option.ite_none_right_eq_some.mp step
      obtain rfl := Option.some.inj same
      cases flag : s.checkpointRequested with
      | true => exact .takes running
      | false =>
          have unchanged : ({ s with
              checkpointRequested := false
              trainer := if false = true then .taking else .running } : TrainerControlState) = s := by
            cases s
            cases flag
            cases running
            rfl
          rw [unchanged]
          exact .finds running flag
  | loadMade =>
      obtain ⟨taking, same⟩ := Option.ite_none_right_eq_some.mp step
      obtain rfl := Option.some.inj same
      by_cases none : s.checkpointRequestsMade = 0
      · simp only [if_pos none]
        exact .seesNone taking none
      · simp only [if_neg none]
        exact .sees taking
  | beginCheckpoint ticket =>
      obtain ⟨taken, ⟨⟩⟩ := Option.ite_none_right_eq_some.mp step
      exact .begins taken
  | endCheckpoint ticket isWritten =>
      obtain ⟨writing, same⟩ := Option.ite_none_right_eq_some.mp step
      obtain rfl := Option.some.inj same
      cases isWritten with
      | true => exact .writes writing
      | false => exact .fails writing
  | loadServed =>
      simp only [ControlStep, TrainerControlState.next] at step
      split at step
      · rename_i written
        obtain rfl := Option.some.inj step
        exact controlChange_compareNext trivial (.inl written)
      · cases step
  | compareExchange spurious =>
      simp only [ControlStep, TrainerControlState.next] at step
      split at step
      · rename_i ticket current comparing
        split at step
        · rename_i succeeds
          obtain rfl := Option.some.inj step
          exact .serves trivial (succeeds.2 ▸ comparing)
        · obtain rfl := Option.some.inj step
          exact controlChange_compareNext trivial (.inr ⟨current, comparing⟩)
      · cases step

/-! ## Tickets -/

/-- The value that the take in progress has seen. -/
def TakePoint.seen : TakePoint → Option Nat
  | .running | .taking => none
  | .taken ticket | .writing ticket | .written ticket | .comparing ticket _ => some ticket

/-- The ticket of a checkpoint that was begun. -/
def TakePoint.begun : TakePoint → Option Nat
  | .running | .taking | .taken _ => none
  | .writing ticket | .written ticket | .comparing ticket _ => some ticket

/-- A take that has seen a value of at least the ticket is in progress. -/
def TakePoint.HasSeen (point : TakePoint) (ticket : Nat) : Prop := ∃ v, point.seen = some v ∧ ticket ≤ v

/-- The request with the ticket was made. -/
def Makes (ticket : Nat) (event : ControlEvent) : Prop :=
  ∃ requester, event = .fetchAdd requester ticket

/-- A checkpoint for the ticket could not be written. -/
def FailsFor (ticket : Nat) (event : ControlEvent) : Prop :=
  ∃ v, ticket ≤ v ∧ event = .endCheckpoint v false

/-- A checkpoint was begun after the request was made. -/
def BegunAfter (ticket : Nat) : List ControlEvent → Prop :=
  Since (fun early event => (∃ v, event = .beginCheckpoint v) ∧ Once (Makes ticket) early)
    fun _ => True

/-- What becomes of a ticket. -/
inductive Answered (past : List ControlEvent) (s : TrainerControlState) (ticket : Nat) : Prop
  | served (served : ticket ≤ s.checkpointRequestsServed)
  | requested (flag : s.checkpointRequested = true)
  | taking (taking : s.trainer = .taking)
  | seen (seen : s.trainer.HasSeen ticket)
  | failed (failed : Once (FailsFor ticket) past)

section Kept

variable {past : List ControlEvent} {event : ControlEvent} {s s' : TrainerControlState}
  {ticket : Nat}

/-- The tickets that the trainer has in hand are not below those that are served. -/
structure TakeSound (s : TrainerControlState) : Prop where
  served : s.checkpointRequestsServed ≤ s.checkpointRequestsMade
  seen : ∀ v, s.trainer.seen = some v →
    s.checkpointRequestsServed ≤ v ∧ v ≤ s.checkpointRequestsMade

theorem takeSound_initial : TakeSound .initial :=
  ⟨Nat.le_refl 0, fun _ seen => nomatch seen⟩

theorem seen_of_marking
    (marking : s.trainer = .written ticket ∨ ∃ current, s.trainer = .comparing ticket current) :
    s.trainer.seen = some ticket := by
  rcases marking with written | ⟨current, comparing⟩
  · rw [written]
    rfl
  · rw [comparing]
    rfl

theorem TakeSound.change (sound : TakeSound s) (change : ControlChange s event s') :
    TakeSound s' := by
  obtain ⟨served, seen⟩ := sound
  cases change with
  | makes requester =>
      refine ⟨Nat.le_succ_of_le served, fun v found => ?_⟩
      obtain ⟨above, below⟩ := seen v found
      exact ⟨above, Nat.le_succ_of_le below⟩
  | flags numbered => exact ⟨served, seen⟩
  | returns flagged => exact ⟨served, seen⟩
  | takes running => exact ⟨served, fun _ found => nomatch found⟩
  | finds running unset => exact ⟨served, seen⟩
  | sees taking =>
      refine ⟨served, fun v found => ?_⟩
      obtain rfl := Option.some.inj found
      exact ⟨served, Nat.le_refl _⟩
  | seesNone taking none => exact ⟨served, fun _ found => nomatch found⟩
  | begins taken => exact ⟨served, fun v found => seen v (by rw [taken]; exact found)⟩
  | writes writing => exact ⟨served, fun v found => seen v (by rw [writing]; exact found)⟩
  | fails writing => exact ⟨served, fun _ found => nomatch found⟩
  | compares isMark marking => exact ⟨served, fun v found => seen v ((seen_of_marking marking).trans found)⟩
  | stops isMark marking atLeast => exact ⟨served, fun _ found => nomatch found⟩
  | serves isMark comparing =>
      exact ⟨(seen _ (by rw [comparing]; rfl)).2, fun _ found => nomatch found⟩

theorem ControlChange.made_le (change : ControlChange s event s') :
    s.checkpointRequestsMade ≤ s'.checkpointRequestsMade := by
  cases change with
  | makes requester => exact Nat.le_succ _
  | _ => exact Nat.le_refl _

/-- An answered ticket stays answered. -/
theorem Answered.change (answered : Answered past s ticket) (some_ : 1 ≤ ticket)
    (made : ticket ≤ s.checkpointRequestsMade) (sound : TakeSound s)
    (change : ControlChange s event s') : Answered (past ++ [event]) s' ticket := by
  cases answered with
  | served served =>
      cases change with
      | serves isMark comparing =>
          exact .served (Nat.le_trans served (sound.seen _ (by rw [comparing]; rfl)).1)
      | _ => exact .served served
  | requested flag =>
      cases change with
      | flags numbered => exact .requested rfl
      | takes running => exact .taking rfl
      | finds running unset => exact .requested flag
      | _ => exact .requested flag
  | taking taking =>
      cases change with
      | takes running => exact .taking rfl
      | sees taking' => exact .seen ⟨_, rfl, made⟩
      | seesNone taking' none => omega
      | begins taken => cases taking.symm.trans taken
      | writes writing => cases taking.symm.trans writing
      | fails writing => cases taking.symm.trans writing
      | compares isMark marking =>
          have found := seen_of_marking marking
          rw [taking] at found
          cases found
      | stops isMark marking =>
          have found := seen_of_marking marking
          rw [taking] at found
          cases found
      | serves isMark comparing => cases taking.symm.trans comparing
      | _ => exact .taking taking
  | seen seen =>
      obtain ⟨v, found, atMost⟩ := seen
      cases change with
      | takes running =>
          rw [running] at found
          cases found
      | sees taking =>
          rw [taking] at found
          cases found
      | seesNone taking =>
          rw [taking] at found
          cases found
      | begins taken => exact .seen ⟨v, by rw [← found, taken]; rfl, atMost⟩
      | writes writing => exact .seen ⟨v, by rw [← found, writing]; rfl, atMost⟩
      | fails writing =>
          rw [writing] at found
          obtain rfl := Option.some.inj found
          exact .failed (.now ⟨_, atMost, rfl⟩)
      | compares isMark marking => exact .seen ⟨v, (seen_of_marking marking).symm.trans found, atMost⟩
      | stops isMark marking served =>
          obtain rfl := Option.some.inj ((seen_of_marking marking).symm.trans found)
          exact .served (Nat.le_trans atMost served)
      | serves isMark comparing =>
          rw [comparing] at found
          obtain rfl := Option.some.inj found
          exact .served atMost
      | _ => exact .seen ⟨v, found, atMost⟩
  | failed failed => exact .failed failed.later

/-! ## The invariant -/

structure TicketsHonoured (past : List ControlEvent) (s : TrainerControlState) : Prop where
  sound : TakeSound s
  numbered : ∀ requester ticket, s.requesters requester = .numbered ticket →
    1 ≤ ticket ∧ ticket ≤ s.checkpointRequestsMade
  flagged : ∀ requester ticket, s.requesters requester = .flagged ticket →
    1 ≤ ticket ∧ ticket ≤ s.checkpointRequestsMade ∧ Answered past s ticket
  returned : ∀ requester ticket, .returns requester ticket ∈ past →
    1 ≤ ticket ∧ ticket ≤ s.checkpointRequestsMade ∧ Answered past s ticket
  made : ∀ ticket, 1 ≤ ticket → ticket ≤ s.checkpointRequestsMade → Once (Makes ticket) past
  begun : ∀ v, s.trainer.begun = some v → ∀ ticket, 1 ≤ ticket → ticket ≤ v →
    BegunAfter ticket past
  served : ∀ ticket, 1 ≤ ticket → ticket ≤ s.checkpointRequestsServed → BegunAfter ticket past

theorem ticketsHonoured_initial : TicketsHonoured [] .initial where
  sound := takeSound_initial
  numbered _ _ numbered := nomatch numbered
  flagged _ _ flagged := nomatch flagged
  returned _ _ member := nomatch member
  made _ some_ none := by
    change _ ≤ 0 at none
    omega
  begun _ found := nomatch found
  served _ some_ none := by
    change _ ≤ 0 at none
    omega

theorem BegunAfter.later (begun : BegunAfter ticket past) : BegunAfter ticket (past ++ [event]) :=
  Since.later begun trivial

/-- An answered ticket of the past is one of the next state. -/
theorem TicketsHonoured.answered (honoured : TicketsHonoured past s)
    (change : ControlChange s event s')
    (kept : 1 ≤ ticket ∧ ticket ≤ s.checkpointRequestsMade ∧ Answered past s ticket) :
    1 ≤ ticket ∧ ticket ≤ s'.checkpointRequestsMade ∧ Answered (past ++ [event]) s' ticket :=
  ⟨kept.1, Nat.le_trans kept.2.1 change.made_le,
    kept.2.2.change kept.1 kept.2.1 honoured.sound change⟩

theorem requesters_withRequester {requester other : Nat} {point found : RequestPoint}
    (after : (s.withRequester requester point).requesters other = found) :
    found = point ∨ s.requesters other = found := by
  change Function.update s.requesters requester point other = found at after
  by_cases same : other = requester
  · rw [same, Function.update_self] at after
    exact .inl after.symm
  · rw [Function.update_of_ne same] at after
    exact .inr after

/-- **Step.** Every step keeps the tickets honoured. -/
theorem TicketsHonoured.change (honoured : TicketsHonoured past s)
    (change : ControlChange s event s') : TicketsHonoured (past ++ [event]) s' where
  sound := honoured.sound.change change
  numbered requester ticket found := by
    have older (before : s.requesters requester = .numbered ticket) :
        1 ≤ ticket ∧ ticket ≤ s'.checkpointRequestsMade :=
      (honoured.numbered requester ticket before).imp_right fun made =>
        Nat.le_trans made change.made_le
    cases change with
    | makes maker =>
        rcases requesters_withRequester found with new | before
        · obtain rfl := RequestPoint.numbered.inj new
          exact ⟨Nat.le_add_left _ _, Nat.le_refl _⟩
        · exact older before
    | flags numbered =>
        rcases requesters_withRequester found with new | before
        · cases new
        · exact older before
    | returns flagged =>
        rcases requesters_withRequester found with new | before
        · cases new
        · exact older before
    | _ => exact older found
  flagged requester ticket found := by
    have older (before : s.requesters requester = .flagged ticket) :=
      honoured.answered change (honoured.flagged requester ticket before)
    cases change with
    | makes maker =>
        rcases requesters_withRequester found with new | before
        · cases new
        · exact older before
    | @flags maker ticket' numbered =>
        rcases requesters_withRequester found with new | before
        · obtain rfl := RequestPoint.flagged.inj new
          obtain ⟨some_, made⟩ := honoured.numbered maker ticket numbered
          exact ⟨some_, made, .requested rfl⟩
        · exact older before
    | returns flagged =>
        rcases requesters_withRequester found with new | before
        · cases new
        · exact older before
    | _ => exact older found
  returned requester ticket member := by
    rcases List.mem_append.mp member with before | now
    · exact honoured.answered change (honoured.returned requester ticket before)
    · obtain rfl := List.mem_singleton.mp now
      refine honoured.answered change ?_
      cases change with
      | returns flagged => exact honoured.flagged requester ticket flagged
      | compares isMark => cases isMark
      | stops isMark => cases isMark
      | serves isMark => cases isMark
  made ticket some_ made := by
    cases change with
    | makes maker =>
        rcases Nat.lt_or_eq_of_le made with before | now
        · exact (honoured.made ticket some_ (Nat.lt_succ_iff.mp before)).later
        · exact .now ⟨maker, congrArg _ now.symm⟩
    | _ => exact (honoured.made ticket some_ made).later
  begun v found ticket some_ atMost := by
    cases change with
    | takes => cases found
    | sees => cases found
    | seesNone => cases found
    | begins taken =>
        obtain rfl := Option.some.inj found
        have made := (honoured.sound.seen _ (by rw [taken]; rfl)).2
        exact .now ⟨⟨_, rfl⟩, honoured.made ticket some_ (Nat.le_trans atMost made)⟩
    | writes writing =>
        exact (honoured.begun v (by rw [writing]; exact found) ticket some_ atMost).later
    | fails => cases found
    | compares isMark marking =>
        have begun : s.trainer.begun = some v := by
          rcases marking with written | ⟨current, comparing⟩
          · rw [written]
            exact found
          · rw [comparing]
            exact found
        exact (honoured.begun v begun ticket some_ atMost).later
    | stops => cases found
    | serves => cases found
    | _ => exact (honoured.begun v found ticket some_ atMost).later
  served ticket some_ served := by
    cases change with
    | serves isMark comparing =>
        exact (honoured.begun _ (by rw [comparing]; rfl) ticket some_ served).later
    | _ => exact (honoured.served ticket some_ served).later

theorem TicketsHonoured.run (run : Run ControlStep .initial past s) : TicketsHonoured past s :=
  run.history TicketsHonoured (fun _ _ _ _ honoured step => honoured.change step.change)
    ticketsHonoured_initial

end Kept

/-- **Tickets.** On every run, a ticket that was returned is served, or the flag is set,
or a take in progress has seen it or has yet to read a number of requests that includes
it, or a checkpoint for it could not be written; and for every ticket that is served a
checkpoint was begun after the request was made. -/
theorem tickets_honoured {past : List ControlEvent} {s : TrainerControlState}
    (run : Run ControlStep .initial past s) :
    (∀ requester ticket, .returns requester ticket ∈ past →
      ticket ≤ s.checkpointRequestsServed ∨ s.checkpointRequested = true ∨
        s.trainer.HasSeen ticket ∨
        (s.trainer = .taking ∧ ticket ≤ s.checkpointRequestsMade) ∨
        Once (FailsFor ticket) past) ∧
    ∀ ticket, 1 ≤ ticket → ticket ≤ s.checkpointRequestsServed → BegunAfter ticket past := by
  have honoured := TicketsHonoured.run run
  refine ⟨fun requester ticket returned => ?_, honoured.served⟩
  obtain ⟨-, made, answered⟩ := honoured.returned requester ticket returned
  cases answered with
  | served served => exact .inl served
  | requested flag => exact .inr (.inl flag)
  | taking taking => exact .inr (.inr (.inr (.inl ⟨taking, made⟩)))
  | seen seen => exact .inr (.inr (.inl seen))
  | failed failed => exact .inr (.inr (.inr (.inr failed)))

/-! ## Requests -/

def requestEvents : List ControlEvent := [.fetchAdd 0 1, .storeFlag 0, .returns 0 1]

theorem run_of_executed {events : List ControlEvent} {last : TrainerControlState}
    (executed : execute TrainerControlState.next .initial events = some last) :
    Run ControlStep .initial events last :=
  .of_execute (fun _ _ _ taken => taken) executed

/-- A request that is served. -/
theorem tickets_honoured_served :
    ∃ s, Run ControlStep .initial (requestEvents ++ [.exchangeFlag, .loadMade, .beginCheckpoint 1,
        .endCheckpoint 1 true, .loadServed, .compareExchange false]) s ∧
      s.checkpointRequestsServed = 1 ∧
      BegunAfter 1 (requestEvents ++ [.exchangeFlag, .loadMade, .beginCheckpoint 1,
        .endCheckpoint 1 true, .loadServed, .compareExchange false]) :=
  have run := run_of_executed rfl
  ⟨_, run, rfl, (tickets_honoured run).2 1 (Nat.le_refl 1) (Nat.le_refl 1)⟩

/-- Between the exchange of the flag and the read of the counter the take has seen
nothing, and a checkpoint that could not be written is not taken again. -/
theorem ticket_unanswered :
    (∃ past s, Run ControlStep .initial past s ∧ .returns 0 1 ∈ past ∧ ¬ Once (FailsFor 1) past ∧
      ¬ (1 ≤ s.checkpointRequestsServed ∨ s.checkpointRequested = true ∨ s.trainer.HasSeen 1)) ∧
    ∃ past s, Run ControlStep .initial past s ∧ .returns 0 1 ∈ past ∧ s.trainer ≠ .taking ∧
      ¬ (1 ≤ s.checkpointRequestsServed ∨ s.checkpointRequested = true ∨ s.trainer.HasSeen 1) := by
  refine ⟨⟨requestEvents ++ [.exchangeFlag], _, run_of_executed rfl, ?_, ?_, ?_⟩,
    ⟨requestEvents ++ [.exchangeFlag, .loadMade, .beginCheckpoint 1, .endCheckpoint 1 false], _,
      run_of_executed rfl, ?_, ?_, ?_⟩⟩
  · decide
  · rintro ⟨event, member, v, -, rfl⟩
    revert member
    simp [requestEvents]
  · rintro (served | flag | ⟨v, seen, -⟩)
    · exact absurd served (by decide)
    · cases flag
    · cases seen
  · decide
  · decide
  · rintro (served | flag | ⟨v, seen, -⟩)
    · exact absurd served (by decide)
    · cases flag
    · cases seen

end Adai.Training

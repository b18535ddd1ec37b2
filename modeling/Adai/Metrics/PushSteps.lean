import Adai.Metrics.PushQueue

/-! # What the push queue drops

The queue moves as one that can lose entries, so what it holds, has popped and has dropped
stays accounted for (`PushClient.QueueInv`), and what is dropped is per-sample or is found
by the drain deadline. A step is one of six changes (`PushClient.step_change`).
-/

namespace Adai.Metrics

open TransitionSystem LossyQueue

namespace PushClient

/-- The queue as one that can lose entries. -/
def log (client : PushClient) : LossyQueue where
  issued := client.enqueued.length
  waiting := client.queue.map QueuedEvent.number
  taken := client.popped
  lost := client.dropped.map Prod.fst

/-- The number of the first event that ends the session. -/
def firstEnd (client : PushClient) : Option ℕ :=
  client.enqueued.findIdx? PushEvent.isEnd

variable {client client' : PushClient}

/-! ## The queue -/

theorem retain_move {kept : List QueuedEvent} (sublist : kept.Sublist client.queue) :
    Move client.log (client.retain kept).log := by
  have rest : ∀ i ∈ client.queue.map QueuedEvent.number, i ∈ kept.map QueuedEvent.number ∨
      i ∈ (client.queue.filter fun entry => decide (entry ∉ kept)).map QueuedEvent.number := by
    intro i member
    obtain ⟨entry, queued, rfl⟩ := List.mem_map.mp member
    by_cases stays : entry ∈ kept
    · exact .inl (List.mem_map_of_mem stays)
    · exact .inr (List.mem_map_of_mem (List.mem_filter.mpr ⟨queued, decide_eq_true stays⟩))
  have move := Move.lose client.enqueued.length client.popped (client.dropped.map Prod.fst)
    (sublist.map QueuedEvent.number) rest
  simpa [log, retain, Function.comp_def] using move

theorem pushBack_move (client : PushClient) (event : PushEvent) :
    Move client.log (client.pushBack event).log := by
  simpa [log, pushBack] using Move.arrive client.enqueued.length
    (client.queue.map QueuedEvent.number) client.popped (client.dropped.map Prod.fst)

theorem refuse_move (client : PushClient) (event : PushEvent) :
    Move client.log (client.refuse event).log := by
  simpa [log, refuse] using Move.refuse client.enqueued.length
    (client.queue.map QueuedEvent.number) client.popped (client.dropped.map Prod.fst)

/-- An entry may be dropped: it is per-sample, or the deadline has passed and it is not the
first that ends the session. -/
def MayDrop (client : PushClient) (number : ℕ) (event : PushEvent) (time : ℕ) : Prop :=
  event.priority = .sample ∨
    (client.stop = true ∧ client.drainDeadline ≤ time ∧ client.firstEnd ≠ some number)

structure QueueInv (client : PushClient) : Prop where
  sound : client.log.Sound
  numbered : ∀ entry ∈ client.queue, client.enqueued[entry.number]? = some entry.event
  endPriority : ∀ event ∈ client.enqueued, event.isEnd = true → event.priority = .session
  dropped : ∀ drop ∈ client.dropped, ∃ event,
    client.enqueued[drop.1]? = some event ∧ client.MayDrop drop.1 event drop.2

theorem retain_queueInv (inv : client.QueueInv) {kept : List QueuedEvent}
    (sublist : kept.Sublist client.queue)
    (allowed : ∀ entry ∈ client.queue, entry ∉ kept →
      client.MayDrop entry.number entry.event client.now) : (client.retain kept).QueueInv where
  sound := (retain_move sublist).sound inv.sound
  numbered entry member := inv.numbered entry (sublist.subset member)
  endPriority := inv.endPriority
  dropped drop member := by
    rcases List.mem_append.mp member with earlier | new
    · exact inv.dropped drop earlier
    · obtain ⟨entry, gone, rfl⟩ := List.mem_map.mp new
      obtain ⟨queued, leaves⟩ := List.mem_filter.mp gone
      exact ⟨entry.event, inv.numbered entry queued,
        allowed entry queued (of_decide_eq_true leaves)⟩

theorem getElem?_append_of_eq_some {α : Type*} {items more : List α} {i : ℕ} {item : α}
    (found : items[i]? = some item) : (items ++ more)[i]? = some item := by
  obtain ⟨inside, -⟩ := List.getElem?_eq_some_iff.mp found
  rw [List.getElem?_append_left inside, found]

/-- Events that are enqueued later do not change which of the earlier ones is the first to
end the session. -/
theorem firstEnd_append_ne {events more : List PushEvent} {i : ℕ} (inside : i < events.length)
    (other : events.findIdx? PushEvent.isEnd ≠ some i) :
    (events ++ more).findIdx? PushEvent.isEnd ≠ some i := by
  rw [List.findIdx?_append]
  cases found : events.findIdx? PushEvent.isEnd with
  | some j => simpa [found] using other
  | none =>
      rw [Option.none_or]
      intro same
      obtain ⟨j, -, rfl⟩ := Option.map_eq_some_iff.mp same
      omega

theorem MayDrop.append {number time : ℕ} {event : PushEvent} {more : List PushEvent}
    (mayDrop : client.MayDrop number event time) (inside : number < client.enqueued.length)
    (enqueued : client'.enqueued = client.enqueued ++ more) (stop : client'.stop = client.stop)
    (drainDeadline : client'.drainDeadline = client.drainDeadline) :
    client'.MayDrop number event time := by
  refine mayDrop.imp_right fun ⟨stopped, passed, other⟩ => ⟨stop ▸ stopped, ?_, ?_⟩
  · exact drainDeadline ▸ passed
  · rw [firstEnd, enqueued]
    exact firstEnd_append_ne inside other

theorem dropped_append (client' : PushClient) (inv : client.QueueInv) {more : List PushEvent}
    (enqueued : client'.enqueued = client.enqueued ++ more) (stop : client'.stop = client.stop)
    (drainDeadline : client'.drainDeadline = client.drainDeadline) {drop : ℕ × ℕ}
    (member : drop ∈ client.dropped) : ∃ event,
      client'.enqueued[drop.1]? = some event ∧ client'.MayDrop drop.1 event drop.2 := by
  obtain ⟨event, found, mayDrop⟩ := inv.dropped drop member
  obtain ⟨inside, -⟩ := List.getElem?_eq_some_iff.mp found
  exact ⟨event, enqueued ▸ getElem?_append_of_eq_some found,
    mayDrop.append inside enqueued stop drainDeadline⟩

theorem endPriority_append (inv : client.QueueInv) {event : PushEvent}
    (proper : event.isEnd = true → event.priority = .session) :
    ∀ e ∈ client.enqueued ++ [event], e.isEnd = true → e.priority = .session := by
  intro e member
  rcases List.mem_append.mp member with earlier | new
  · exact inv.endPriority e earlier
  · rw [List.mem_singleton.mp new]
    exact proper

theorem pushBack_queueInv (inv : client.QueueInv) {event : PushEvent}
    (proper : event.isEnd = true → event.priority = .session) : (client.pushBack event).QueueInv where
  sound := (pushBack_move client event).sound inv.sound
  numbered entry member := by
    rcases List.mem_append.mp member with earlier | new
    · exact getElem?_append_of_eq_some (inv.numbered entry earlier)
    · rw [List.mem_singleton.mp new]
      simp [pushBack]
  endPriority := endPriority_append inv proper
  dropped _ member := dropped_append (client.pushBack event) inv rfl rfl rfl member

theorem refuse_queueInv (inv : client.QueueInv) {event : PushEvent}
    (proper : event.isEnd = true → event.priority = .session) (isSample : event.priority = .sample) :
    (client.refuse event).QueueInv where
  sound := (refuse_move client event).sound inv.sound
  numbered entry member := getElem?_append_of_eq_some (inv.numbered entry member)
  endPriority := endPriority_append inv proper
  dropped drop member := by
    rcases List.mem_append.mp member with earlier | new
    · exact dropped_append (client.refuse event) inv rfl rfl rfl earlier
    · rw [List.mem_singleton.mp new]
      exact ⟨event, by simp [refuse], .inl isSample⟩

theorem isSample_iff {entry : QueuedEvent} :
    entry.isSample = true ↔ entry.event.priority = .sample := by
  simp [QueuedEvent.isSample]

theorem evict_queueInv (inv : client.QueueInv) :
    (client.retain (client.queue.eraseP QueuedEvent.isSample)).QueueInv := by
  refine retain_queueInv inv List.eraseP_sublist fun entry queued gone => .inl ?_
  by_contra other
  have stays : entry.isSample = false :=
    Bool.eq_false_iff.mpr fun isSample => other (isSample_iff.mp isSample)
  exact gone ((List.mem_eraseP_of_neg (by simp [stays])).mpr queued)

theorem enqueue_queueInv (inv : client.QueueInv) {event : PushEvent}
    (proper : event.isEnd = true → event.priority = .session) : (client.enqueue event).QueueInv := by
  unfold enqueue
  split
  · split
    · rename_i isSample
      exact refuse_queueInv inv proper isSample
    · exact pushBack_queueInv (evict_queueInv inv) proper
  · exact pushBack_queueInv inv proper

/-- Of the events that end the session, the first in the queue comes first. -/
theorem find_end_first (inv : client.QueueInv) {entry : QueuedEvent} (queued : entry ∈ client.queue)
    (gone : entry ∉ (client.queue.find? fun entry => entry.event.isEnd).toList) :
    client.firstEnd ≠ some entry.number := by
  intro first
  obtain ⟨inside, isEnd, before⟩ := List.findIdx?_eq_some_iff_getElem.mp first
  have ends : entry.event.isEnd = true := by
    have same := inv.numbered entry queued
    rw [List.getElem?_eq_getElem inside] at same
    rw [← Option.some.inj same]
    exact isEnd
  cases found : client.queue.find? fun entry => entry.event.isEnd with
  | none => exact List.find?_eq_none.mp found entry queued ends
  | some other =>
      rw [found, Option.toList_some, List.mem_singleton] at gone
      obtain ⟨otherEnds, front, back, split, notFront⟩ := List.find?_eq_some_iff_append.mp found
      rw [split] at queued
      rcases List.mem_append.mp queued with member | member
      · simpa [ends] using notFront entry member
      · have later : entry ∈ back := (List.mem_cons.mp member).resolve_left gone
        have ordered := (List.pairwise_append.mp inv.sound.ordered).2.1
        simp only [log] at ordered
        rw [split, List.map_append, List.map_cons] at ordered
        have increasing := (List.pairwise_append.mp ordered).2.1
        have smaller : other.number < entry.number :=
          List.rel_of_pairwise_cons increasing (List.mem_map_of_mem later)
        have same := inv.numbered other (split ▸ List.mem_append_right _ List.mem_cons_self)
        obtain ⟨otherInside, otherEvent⟩ := List.getElem?_eq_some_iff.mp same
        have notEnd := before other.number smaller
        rw [otherEvent] at notEnd
        exact notEnd otherEnds

theorem purge_queueInv (inv : client.QueueInv) :
    (client.retain (client.queue.filter fun entry => !entry.isSample)).QueueInv := by
  refine retain_queueInv inv List.filter_sublist fun entry queued gone => .inl ?_
  by_contra other
  have stays : entry.isSample = false :=
    Bool.eq_false_iff.mpr fun isSample => other (isSample_iff.mp isSample)
  exact gone (List.mem_filter.mpr ⟨queued, by simp [stays]⟩)

theorem find_toList_sublist {α : Type*} (p : α → Bool) (items : List α) :
    (items.find? p).toList.Sublist items := by
  cases found : items.find? p with
  | none => exact List.nil_sublist _
  | some item => exact List.singleton_sublist.mpr (List.mem_of_find?_eq_some found)

theorem drain_queueInv (inv : client.QueueInv) : client.drain.QueueInv := by
  unfold drain
  split
  · rename_i stopped
    have purged := purge_queueInv inv
    dsimp only
    split
    · rename_i expired
      refine retain_queueInv purged (find_toList_sublist ..) fun entry queued gone => .inr ?_
      exact ⟨stopped, expired.2, find_end_first purged queued gone⟩
    · exact purged
  · exact inv

theorem pop_of_nil (queue : client.queue = []) :
    client.pop = { client with thread := if client.stop then .exited else .beating false } := by
  simp only [pop, queue]

theorem pop_of_cons {entry : QueuedEvent} {rest : List QueuedEvent}
    (queue : client.queue = entry :: rest) :
    client.pop = { client with
      queue := rest
      popped := client.popped ++ [entry.number]
      thread := .holding entry client.stop } := by
  simp only [pop, queue]

theorem pop_moves (client : PushClient) : Relation.ReflTransGen Move client.log client.pop.log := by
  cases queue : client.queue with
  | nil =>
      rw [pop_of_nil queue]
      exact .refl
  | cons entry rest =>
      have move := Move.take client.enqueued.length entry.number (rest.map QueuedEvent.number)
        client.popped (client.dropped.map Prod.fst)
      rw [pop_of_cons queue]
      refine .single ?_
      simpa only [log, queue, List.map_cons] using move

theorem pop_queueInv (inv : client.QueueInv) : client.pop.QueueInv := by
  have sound := sound_of_moves (pop_moves client) inv.sound
  cases queue : client.queue with
  | nil =>
      rw [pop_of_nil queue] at sound ⊢
      exact ⟨sound, inv.numbered, inv.endPriority, inv.dropped⟩
  | cons entry rest =>
      rw [pop_of_cons queue] at sound ⊢
      refine ⟨sound, fun other member => ?_, inv.endPriority, inv.dropped⟩
      exact inv.numbered other (queue ▸ List.mem_cons_of_mem _ member)

theorem beginStop_queueInv (inv : client.QueueInv) : client.beginStop.QueueInv := by
  unfold beginStop
  split
  · exact inv
  · rename_i running
    refine ⟨inv.sound, inv.numbered, inv.endPriority, fun drop member => ?_⟩
    obtain ⟨event, found, mayDrop⟩ := inv.dropped drop member
    exact ⟨event, found, .inl (mayDrop.resolve_right fun late => running late.1)⟩

/-! ## What a step can do -/

end PushClient

namespace PushPoint

/-- The event that the thread has popped and is not done with. -/
def entry? : PushPoint → Option QueuedEvent
  | .holding entry _ => some entry
  | .reRegistering entry _ => some entry
  | .reposting entry _ => some entry
  | _ => none

/-- How many steps the thread takes at most until it waits again. -/
def stage : PushPoint → ℕ
  | .holding _ _ => 4
  | .reRegistering _ _ => 3
  | .reposting _ _ => 2
  | .beating _ => 1
  | _ => 0

def isHolding : PushPoint → Bool
  | .holding _ _ => true
  | _ => false

/-- One step on with the event at hand. -/
structure Follows (before after : PushPoint) : Prop where
  stage_lt : after.stage < before.stage
  entry : ∀ entry, after.entry? = some entry → before.entry? = some entry
  not_holding : after.isHolding = false
  running : after ≠ .exited

end PushPoint

namespace PushClient

variable {client client' : PushClient}

/-- What a step can do. -/
inductive PushChange (client : PushClient) : PushLabel → PushClient → Prop
  | settings {label : PushLabel} (quiet : label.isPush = false) (now drainTimeoutMs : ℕ)
      (reconnectBody : String) (sessionStarted : Bool) :
      PushChange client label { client with
        now := now
        drainTimeoutMs := drainTimeoutMs
        reconnectBody := reconnectBody
        sessionStarted := sessionStarted }
  | enqueues {label : PushLabel} {event : PushEvent} {ending : ℕ} (quiet : label.isPush = false)
      (proper : event.isEnd = true → event.priority = .session)
      (isEnd : ending ≠ client.ending → event.isEnd = true) :
      PushChange client label { client.enqueue event with ending := ending }
  | stops (begun : client.ending ≠ 0) :
      PushChange client .beginStop { client.beginStop with ending := client.ending - 1 }
  | turns (waiting : client.thread = .waiting) : PushChange client .turn client.drain.pop
  | attempts {label : PushLabel} {entry : QueuedEvent} {point : PushPoint}
      (held : client.thread.entry? = some entry) (follows : client.thread.Follows point) :
      PushChange client label (client.attempt entry point)
  | advances {label : PushLabel} {point : PushPoint} (attempted : client.thread.isHolding = false)
      (follows : client.thread.Follows point) (lastHeartbeat : ℕ) :
      PushChange client label { client with thread := point, lastHeartbeat := lastHeartbeat }

theorem follows_reRegistering {entry : QueuedEvent} {draining : Bool} :
    (PushPoint.holding entry draining).Follows (.reRegistering entry draining) where
  stage_lt := Nat.lt_succ_self 3
  entry _ same := same
  not_holding := rfl
  running same := by cases same

theorem follows_reposting {entry : QueuedEvent} {draining : Bool} :
    (PushPoint.reRegistering entry draining).Follows (.reposting entry draining) where
  stage_lt := Nat.lt_succ_self 2
  entry _ same := same
  not_holding := rfl
  running same := by cases same

theorem follows_beating {point : PushPoint} {draining : Bool} (stage : 1 < point.stage) :
    point.Follows (.beating draining) where
  stage_lt := stage
  entry _ none := by cases none
  not_holding := rfl
  running same := by cases same

theorem follows_waiting {draining : Bool} : (PushPoint.beating draining).Follows .waiting where
  stage_lt := Nat.zero_lt_one
  entry _ none := by cases none
  not_holding := rfl
  running same := by cases same

theorem afterPost_follows (client : PushClient) (entry : QueuedEvent) (draining : Bool) (rc : ℕ)
    (unknownKey : Bool) :
    (PushPoint.holding entry draining).Follows
      (client.afterPost entry draining rc unknownKey) := by
  unfold afterPost
  split
  · exact follows_reRegistering
  · exact follows_beating (by simp [PushPoint.stage])

theorem step_change {label : PushLabel} (step : PushStep client label client') :
    PushChange client label client' := by
  unfold PushStep at step
  cases label with
  | tick elapsed =>
      cases step
      exact .settings rfl _ _ _ _
  | setReconnectBody body =>
      cases step
      exact .settings rfl _ _ _ _
  | startAnswered rc =>
      cases step
      exact .settings rfl _ _ _ _
  | setDrainTimeout ms =>
      cases step
      exact .settings rfl _ _ _ _
  | enqueue event =>
      obtain ⟨other, rfl⟩ : event.isEnd = false ∧ client.enqueue event = client' := by
        simpa [next] using step
      have same : { client.enqueue event with ending := client.ending } = client.enqueue event := by
        unfold enqueue
        split
        · split <;> rfl
        · rfl
      rw [← same]
      exact .enqueues rfl (fun isEnd => by simp [other] at isEnd) fun differs => absurd rfl differs
  | endSession =>
      cases step
      exact .enqueues rfl (fun _ => rfl) fun _ => rfl
  | beginStop =>
      obtain ⟨begun, rfl⟩ : client.ending ≠ 0 ∧
          { client.beginStop with ending := client.ending - 1 } = client' := by
        simpa [next] using step
      exact .stops begun
  | turn =>
      obtain ⟨waiting, rfl⟩ : client.thread = .waiting ∧ client.drain.pop = client' := by
        simpa [next] using step
      exact .turns waiting
  | post rc unknownKey =>
      cases thread : client.thread with
      | holding entry draining =>
          obtain rfl : client.attempt entry (client.afterPost entry draining rc unknownKey) =
              client' := by
            simpa [next, thread] using step
          refine .attempts (by rw [thread]; rfl) ?_
          rw [thread]
          exact afterPost_follows client entry draining rc unknownKey
      | _ => simp [next, thread] at step
  | reRegister rc =>
      cases thread : client.thread with
      | reRegistering entry draining =>
          obtain rfl : { client with
              thread := if rc = 200 ∨ rc = 409 then .reposting entry draining
                else .beating draining } = client' := by
            simpa [next, thread] using step
          refine .advances (by rw [thread]; rfl) ?_ client.lastHeartbeat
          rw [thread]
          split
          · exact follows_reposting
          · exact follows_beating (by simp [PushPoint.stage])
      | _ => simp [next, thread] at step
  | repost =>
      cases thread : client.thread with
      | reposting entry draining =>
          obtain rfl : client.attempt entry (.beating draining) = client' := by
            simpa [next, thread] using step
          refine .attempts (by rw [thread]; rfl) ?_
          rw [thread]
          exact follows_beating (by simp [PushPoint.stage])
      | _ => simp [next, thread] at step
  | beat =>
      cases thread : client.thread with
      | beating draining =>
          obtain rfl : client.beat draining = client' := by
            simpa [next, thread] using step
          refine .advances (by rw [thread]; rfl) ?_ _
          rw [thread]
          exact follows_waiting
      | _ => simp [next, thread] at step

end PushClient

end Adai.Metrics

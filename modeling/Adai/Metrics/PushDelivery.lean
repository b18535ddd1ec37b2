import Adai.Metrics.PushSteps

/-! # The push queue delivers the important events

What the thread holds is the event popped last, and everything popped before it was posted
(`PushClient.ThreadInv`); an event that is not yet settled comes closer to its turn with
every step of the thread (`PushClient.rank_step`). So every event that is not per-sample is
posted, unless the drain deadline finds it in the queue (`push_queue_delivers`).
-/

namespace Adai.Metrics

open TransitionSystem LossyQueue

namespace PushClient

variable {client client' : PushClient}

/-! ## What the parts of a step leave alone -/

/-- The fields that enqueueing and draining do not write. -/
structure SameThread (client client' : PushClient) : Prop where
  thread : client'.thread = client.thread
  posts : client'.posts = client.posts
  popped : client'.popped = client.popped
  stop : client'.stop = client.stop
  ending : client'.ending = client.ending
  maxQueueDepth : client'.maxQueueDepth = client.maxQueueDepth

theorem enqueue_sameThread (client : PushClient) (event : PushEvent) :
    SameThread client (client.enqueue event) := by
  unfold enqueue
  split
  · split <;> exact ⟨rfl, rfl, rfl, rfl, rfl, rfl⟩
  · exact ⟨rfl, rfl, rfl, rfl, rfl, rfl⟩

theorem drain_sameThread (client : PushClient) : SameThread client client.drain := by
  unfold drain
  split
  · dsimp only
    split <;> exact ⟨rfl, rfl, rfl, rfl, rfl, rfl⟩
  · exact ⟨rfl, rfl, rfl, rfl, rfl, rfl⟩

theorem beginStop_sameQueue (client : PushClient) : client.beginStop.log = client.log ∧
    client.beginStop.queue = client.queue ∧ client.beginStop.thread = client.thread ∧
      client.beginStop.posts = client.posts ∧ client.beginStop.firstEnd = client.firstEnd ∧
        client.beginStop.maxQueueDepth = client.maxQueueDepth := by
  unfold beginStop
  split <;> exact ⟨rfl, rfl, rfl, rfl, rfl, rfl⟩

theorem enqueue_enqueued (client : PushClient) (event : PushEvent) :
    (client.enqueue event).enqueued = client.enqueued ++ [event] := by
  unfold enqueue
  split
  · split <;> rfl
  · rfl

theorem drain_enqueued (client : PushClient) : client.drain.enqueued = client.enqueued := by
  unfold drain
  split
  · dsimp only
    split <;> rfl
  · rfl

theorem mem_enqueue_queue {event : PushEvent} {entry : QueuedEvent}
    (member : entry ∈ (client.enqueue event).queue) :
    entry ∈ client.queue ∨ entry.number = client.enqueued.length := by
  have added {queue : List QueuedEvent} (subset : queue ⊆ client.queue)
      (found : entry ∈ queue ++ [⟨client.enqueued.length, event⟩]) :
      entry ∈ client.queue ∨ entry.number = client.enqueued.length := by
    rcases List.mem_append.mp found with earlier | new
    · exact .inl (subset earlier)
    · exact .inr (by rw [List.mem_singleton.mp new])
  unfold enqueue at member
  split at member
  · split at member
    · exact .inl member
    · exact added (List.eraseP_subset) member
  · exact added (List.Subset.refl _) member

theorem pop_enqueued (client : PushClient) : client.pop.enqueued = client.enqueued := by
  unfold pop
  split <;> rfl

/-! ## The thread -/

structure ThreadInv (client : PushClient) : Prop where
  held : ∀ entry, client.thread.entry? = some entry →
    entry.number ∈ client.popped ∧ ∀ i ∈ client.popped, i ≤ entry.number
  posted : ∀ i ∈ client.posts, i ∈ client.popped
  popped : ∀ i ∈ client.popped, i ∈ client.posts ∨
    (client.thread.isHolding = true ∧ ∃ entry, client.thread.entry? = some entry ∧ entry.number = i)
  ordered : client.posts.Pairwise (· ≤ ·)
  stopping : client.stop = true ∨ client.ending ≠ 0 → ∃ i, client.firstEnd = some i
  exited : client.thread = .exited → client.stop = true ∧
    ∀ i, client.firstEnd = some i → ∀ entry ∈ client.queue, i < entry.number

theorem firstEnd_enqueue {i : ℕ} (event : PushEvent) (first : client.firstEnd = some i) :
    (client.enqueue event).firstEnd = some i := by
  rw [firstEnd] at first
  rw [firstEnd, enqueue_enqueued, List.findIdx?_append, first, Option.some_or]

theorem firstEnd_lt {i : ℕ} (first : client.firstEnd = some i) : i < client.enqueued.length := by
  obtain ⟨inside, -⟩ := List.findIdx?_eq_some_iff_getElem.mp first
  exact inside

theorem firstEnd_of_isEnd {event : PushEvent} (isEnd : event.isEnd = true) :
    ∃ i, (client.enqueue event).firstEnd = some i := by
  refine Option.isSome_iff_exists.mp ?_
  rw [firstEnd, enqueue_enqueued, List.findIdx?_isSome]
  simp [isEnd]

theorem enqueue_threadInv (inv : client.ThreadInv) {event : PushEvent} {ending : ℕ}
    (isEnd : ending ≠ client.ending → event.isEnd = true) :
    ({ client.enqueue event with ending := ending } : PushClient).ThreadInv := by
  have same := enqueue_sameThread client event
  refine ⟨?_, ?_, ?_, ?_, fun stopping => ?_, fun exited => ?_⟩
  · simp only [same.thread, same.popped]
    exact inv.held
  · simp only [same.posts, same.popped]
    exact inv.posted
  · simp only [same.thread, same.posts, same.popped]
    exact inv.popped
  · simp only [same.posts]
    exact inv.ordered
  · by_cases changed : ending = client.ending
    · obtain ⟨i, first⟩ := inv.stopping (by simpa only [same.stop, changed] using stopping)
      exact ⟨i, firstEnd_enqueue event first⟩
    · exact firstEnd_of_isEnd (isEnd changed)
  · obtain ⟨stopped, later⟩ := inv.exited (by simpa only [same.thread] using exited)
    obtain ⟨j, first⟩ := inv.stopping (.inl stopped)
    refine ⟨by simpa only [same.stop] using stopped, fun i first' entry member => ?_⟩
    obtain rfl := Option.some.inj ((firstEnd_enqueue event first).symm.trans first')
    rcases mem_enqueue_queue member with queued | new
    · exact later j first entry queued
    · exact new ▸ firstEnd_lt first

theorem beginStop_threadInv (inv : client.ThreadInv) (begun : client.ending ≠ 0) :
    ({ client.beginStop with ending := client.ending - 1 } : PushClient).ThreadInv := by
  have ends := inv.stopping (.inr begun)
  by_cases stopped : client.stop = true
  · have same : client.beginStop = client := if_pos stopped
    rw [same]
    exact ⟨inv.held, inv.posted, inv.popped, inv.ordered, fun _ => ends, inv.exited⟩
  · have same : client.beginStop =
        { client with stop := true, drainDeadline := client.now + client.drainTimeoutMs } :=
      if_neg stopped
    rw [same]
    exact ⟨inv.held, inv.posted, inv.popped, inv.ordered, fun _ => ends,
      fun exited => absurd (inv.exited exited).1 stopped⟩

theorem turn_threadInv (queueInv : client.QueueInv) (inv : client.ThreadInv)
    (waiting : client.thread = .waiting) : client.drain.pop.ThreadInv := by
  have same := drain_sameThread client
  have ends : client.drain.firstEnd = client.firstEnd := by
    rw [firstEnd, firstEnd, drain_enqueued]
  have posted : ∀ i ∈ client.popped, i ∈ client.posts := fun i member =>
    (inv.popped i member).resolve_right fun holding => by
      rw [waiting] at holding
      cases holding.1
  cases queue : client.drain.queue with
  | nil =>
      rw [pop_of_nil queue]
      refine ⟨?_, ?_, ?_, ?_, ?_, ?_⟩
      · intro entry held
        dsimp only at held
        split at held <;> cases held
      · simp only [same.posts, same.popped]
        exact inv.posted
      · simp only [same.posts, same.popped]
        exact fun i member => .inl (posted i member)
      · simp only [same.posts]
        exact inv.ordered
      · simp only [same.stop, same.ending]
        exact fun stopping => ends ▸ inv.stopping stopping
      · intro exited
        dsimp only at exited
        split at exited
        · rename_i stopped
          refine ⟨stopped, fun i _ entry member => ?_⟩
          rw [queue] at member
          cases member
        · cases exited
  | cons entry rest =>
      have ordered := (drain_queueInv queueInv).sound.ordered
      simp only [log, queue, List.map_cons, same.popped] at ordered
      have before : ∀ i ∈ client.popped, i < entry.number := fun i member =>
        (List.pairwise_append.mp ordered).2.2 i member _ List.mem_cons_self
      rw [pop_of_cons queue]
      refine ⟨?_, ?_, ?_, ?_, ?_, fun exited => by cases exited⟩
      · intro other held
        obtain rfl : entry = other := Option.some.inj held
        refine ⟨List.mem_append_right _ (List.mem_singleton_self _), fun i member => ?_⟩
        simp only [same.popped] at member
        rcases List.mem_append.mp member with earlier | new
        · exact (before i earlier).le
        · exact (List.mem_singleton.mp new).le
      · simp only [same.posts, same.popped]
        exact fun i member => List.mem_append_left _ (inv.posted i member)
      · simp only [same.posts, same.popped]
        intro i member
        rcases List.mem_append.mp member with earlier | new
        · exact .inl (posted i earlier)
        · exact .inr ⟨rfl, entry, rfl, (List.mem_singleton.mp new).symm⟩
      · simp only [same.posts]
        exact inv.ordered
      · simp only [same.stop, same.ending]
        exact fun stopping => ends ▸ inv.stopping stopping

theorem attempt_threadInv (inv : client.ThreadInv) {entry : QueuedEvent} {point : PushPoint}
    (held : client.thread.entry? = some entry) (follows : client.thread.Follows point) :
    (client.attempt entry point).ThreadInv := by
  obtain ⟨isPopped, last⟩ := inv.held entry held
  refine ⟨fun other holds => inv.held other (follows.entry other holds), fun i member => ?_,
    fun i member => .inl ?_, ?_, inv.stopping, fun exited => absurd exited follows.running⟩
  · rcases List.mem_append.mp member with earlier | new
    · exact inv.posted i earlier
    · exact List.mem_singleton.mp new ▸ isPopped
  · rcases inv.popped i member with earlier | ⟨-, other, holds, rfl⟩
    · exact List.mem_append_left _ earlier
    · obtain rfl := Option.some.inj (held.symm.trans holds)
      exact List.mem_append_right _ (List.mem_singleton_self _)
  · refine List.pairwise_append.mpr ⟨inv.ordered, List.pairwise_singleton .., ?_⟩
    intro i member j new
    exact (last i (inv.posted i member)).trans_eq (List.mem_singleton.mp new).symm

theorem advance_threadInv (inv : client.ThreadInv) {point : PushPoint}
    (attempted : client.thread.isHolding = false) (follows : client.thread.Follows point)
    (lastHeartbeat : ℕ) :
    ({ client with thread := point, lastHeartbeat := lastHeartbeat } : PushClient).ThreadInv where
  held entry holds := inv.held entry (follows.entry entry holds)
  posted := inv.posted
  popped i member := .inl ((inv.popped i member).resolve_right fun holding => by
    rw [attempted] at holding
    cases holding.1)
  ordered := inv.ordered
  stopping := inv.stopping
  exited same := absurd same follows.running

structure PushInv (client : PushClient) : Prop where
  queue : client.QueueInv
  thread : client.ThreadInv

theorem pushInv_start (maxQueueDepth : ℕ) (heartbeatIntervalMs : Int) (now : ℕ) :
    (start maxQueueDepth heartbeatIntervalMs now).PushInv where
  queue :=
    { sound := sound_empty
      numbered := fun _ member => by cases member
      endPriority := fun _ member => by cases member
      dropped := fun _ member => by cases member }
  thread :=
    { held := fun _ held => by cases held
      posted := fun _ member => by cases member
      popped := fun _ member => by cases member
      ordered := .nil
      stopping := fun stopping => by rcases stopping with stopped | ended <;> contradiction
      exited := fun exited => by cases exited }

theorem PushChange.keeps {label : PushLabel} (change : PushChange client label client')
    (inv : client.PushInv) : client'.PushInv := by
  obtain ⟨queueInv, threadInv⟩ := inv
  cases change with
  | settings =>
      exact ⟨⟨queueInv.sound, queueInv.numbered, queueInv.endPriority, queueInv.dropped⟩,
        ⟨threadInv.held, threadInv.posted, threadInv.popped, threadInv.ordered,
          threadInv.stopping, threadInv.exited⟩⟩
  | enqueues quiet proper isEnd =>
      have enqueued := enqueue_queueInv queueInv proper
      exact ⟨⟨enqueued.sound, enqueued.numbered, enqueued.endPriority, enqueued.dropped⟩,
        enqueue_threadInv threadInv isEnd⟩
  | stops begun =>
      have stopped := beginStop_queueInv queueInv
      exact ⟨⟨stopped.sound, stopped.numbered, stopped.endPriority, stopped.dropped⟩,
        beginStop_threadInv threadInv begun⟩
  | turns waiting =>
      exact ⟨pop_queueInv (drain_queueInv queueInv), turn_threadInv queueInv threadInv waiting⟩
  | attempts held follows =>
      exact ⟨⟨queueInv.sound, queueInv.numbered, queueInv.endPriority, queueInv.dropped⟩,
        attempt_threadInv threadInv held follows⟩
  | advances attempted follows lastHeartbeat =>
      exact ⟨⟨queueInv.sound, queueInv.numbered, queueInv.endPriority, queueInv.dropped⟩,
        advance_threadInv threadInv attempted follows lastHeartbeat⟩

/-! ## The length of the queue -/

def important (entry : QueuedEvent) : Bool := !entry.isSample

/-- The queue is no longer than its limit, or than its important events are many. -/
def Bounded (client : PushClient) : Prop :=
  client.queue.length ≤ max client.maxQueueDepth (client.queue.countP important)

/-- Evicting makes room if anything is not important. -/
theorem length_eraseP_sample (queue : List QueuedEvent) :
    ((queue.eraseP QueuedEvent.isSample).length + 1 = queue.length ∧
        queue.countP important < queue.length) ∨
      (queue.eraseP QueuedEvent.isSample = queue ∧ queue.countP important = queue.length) := by
  have allImportant : queue.countP important = queue.length ↔
      ∀ entry ∈ queue, ¬ entry.isSample = true := by
    simp [List.countP_eq_length, important]
  by_cases all : ∀ entry ∈ queue, ¬ entry.isSample = true
  · exact .inr ⟨List.eraseP_of_forall_not all, allImportant.mpr all⟩
  · have fewer : queue.countP important < queue.length :=
      List.countP_le_length.lt_of_ne fun same => all (allImportant.mp same)
    push Not at all
    obtain ⟨entry, member, isSample⟩ := all
    have nonempty := List.length_pos_of_mem member
    have erased := List.length_eraseP_of_mem member isSample
    exact .inl ⟨by omega, fewer⟩

theorem enqueue_bounded (bounded : client.Bounded) (event : PushEvent) :
    (client.enqueue event).Bounded := by
  unfold enqueue
  split
  · split
    · exact bounded
    · rename_i notSample
      have isImportant : important ⟨client.enqueued.length, event⟩ = true := by
        simp [important, QueuedEvent.isSample, notSample]
      simp only [Bounded, pushBack, retain, List.length_append, List.countP_append,
        List.length_singleton, List.countP_singleton, isImportant, if_true] at bounded ⊢
      rcases length_eraseP_sample client.queue with ⟨shorter, fewer⟩ | ⟨same, all⟩
      · omega
      · rw [same]
        omega
  · rename_i room
    simp only [Bounded, pushBack, List.length_append, List.length_singleton]
    omega

theorem countP_drain_important (client : PushClient) :
    client.drain.queue = client.queue ∨
      client.drain.queue.countP important = client.drain.queue.length := by
  unfold drain
  split
  · refine .inr ?_
    have purged : ∀ entry ∈ client.queue.filter (fun entry => !entry.isSample),
        important entry = true := fun entry member => (List.mem_filter.mp member).2
    dsimp only
    split
    · refine List.countP_eq_length.mpr fun entry member => ?_
      exact purged entry (List.mem_of_find?_eq_some (Option.mem_toList.mp member))
    · exact List.countP_eq_length.mpr purged
  · exact .inl rfl

theorem turn_bounded (bounded : client.Bounded) : client.drain.pop.Bounded := by
  have depth := (drain_sameThread client).maxQueueDepth
  have drained : client.drain.Bounded := by
    rcases countP_drain_important client with same | all
    · simpa only [Bounded, same, depth] using bounded
    · rw [Bounded, all]
      exact le_max_right ..
  cases queue : client.drain.queue with
  | nil =>
      rw [pop_of_nil queue]
      exact drained
  | cons entry rest =>
      have count : rest.countP important ≤ (entry :: rest).countP important ∧
          (entry :: rest).countP important ≤ rest.countP important + 1 := by
        rw [List.countP_cons]
        split <;> omega
      rw [Bounded, queue, List.length_cons] at drained
      rw [pop_of_cons queue]
      simp only [Bounded]
      have most := rest.countP_le_length (p := important)
      omega

theorem PushChange.bounded {label : PushLabel} (change : PushChange client label client')
    (bounded : client.Bounded) : client'.Bounded := by
  cases change with
  | settings => exact bounded
  | enqueues => exact enqueue_bounded bounded _
  | stops begun =>
      have same := beginStop_sameQueue client
      simpa only [Bounded, same.2.1, same.2.2.2.2.2] using bounded
  | turns => exact turn_bounded bounded
  | attempts => exact bounded
  | advances => exact bounded

/-! ## Waiting for one's turn -/

/-- The event was posted, or dropped. -/
def Settled (client : PushClient) (i : ℕ) : Prop :=
  i ∈ client.posts ∨ i ∈ client.dropped.map Prod.fst

/-- At most how many steps the thread takes until the event is settled. -/
def rank (client : PushClient) (i : ℕ) : ℕ :=
  5 * client.log.ahead i + client.thread.stage

theorem enqueue_moves (client : PushClient) (event : PushEvent) :
    Relation.ReflTransGen Move client.log (client.enqueue event).log := by
  unfold enqueue
  split
  · split
    · exact .single (refuse_move client event)
    · exact (Relation.ReflTransGen.single (retain_move List.eraseP_sublist)).tail
        (pushBack_move _ event)
  · exact .single (pushBack_move client event)

theorem drain_moves (client : PushClient) :
    Relation.ReflTransGen Move client.log client.drain.log := by
  unfold drain
  split
  · have purge : Move client.log
        (client.retain (client.queue.filter fun entry => !entry.isSample)).log :=
      retain_move List.filter_sublist
    dsimp only
    split
    · exact (Relation.ReflTransGen.single purge).tail (retain_move (find_toList_sublist ..))
    · exact .single purge
  · exact .refl

theorem PushChange.moves {label : PushLabel} (change : PushChange client label client') :
    Relation.ReflTransGen Move client.log client'.log := by
  cases change with
  | settings => exact .refl
  | enqueues => exact enqueue_moves client _
  | stops =>
      have same := (beginStop_sameQueue client).1
      simp only [log] at same ⊢
      rw [same]
  | turns => exact (drain_moves client).trans (pop_moves _)
  | attempts => exact .refl
  | advances => exact .refl

theorem enqueue_dropped (client : PushClient) (event : PushEvent) :
    client.dropped ⊆ (client.enqueue event).dropped := by
  unfold enqueue
  split
  · split <;> exact List.subset_append_left ..
  · exact List.Subset.refl _

theorem drain_dropped (client : PushClient) : client.dropped ⊆ client.drain.dropped := by
  unfold drain
  split
  · dsimp only
    split
    · exact List.Subset.trans (List.subset_append_left ..) (List.subset_append_left ..)
    · exact List.subset_append_left ..
  · exact List.Subset.refl _

theorem pop_posts (client : PushClient) :
    client.pop.posts = client.posts ∧ client.pop.dropped = client.dropped := by
  unfold pop
  split <;> exact ⟨rfl, rfl⟩

theorem PushChange.settled {label : PushLabel} (change : PushChange client label client') {i : ℕ}
    (settled : client.Settled i) : client'.Settled i := by
  cases change with
  | settings => exact settled
  | @enqueues _ event =>
      have same := (enqueue_sameThread client event).posts
      exact settled.imp (fun posted => same ▸ posted)
        fun lost => List.map_subset _ (enqueue_dropped client event) lost
  | stops =>
      have same := beginStop_sameQueue client
      have dropped : client.beginStop.dropped.map Prod.fst = client.dropped.map Prod.fst :=
        congrArg LossyQueue.lost same.1
      exact settled.imp (fun posted => same.2.2.2.1 ▸ posted) fun lost => dropped ▸ lost
  | turns =>
      have same := (drain_sameThread client).posts
      rw [Settled, (pop_posts _).1, (pop_posts _).2]
      exact settled.imp (fun posted => same ▸ posted)
        fun lost => List.map_subset _ (drain_dropped client) lost
  | attempts => exact settled.imp_left (List.mem_append_left _)
  | advances => exact settled

/-- With the thread at the top of its loop, an event that is not settled is in the queue. -/
theorem mem_drain_of_not_settled (inv : client.PushInv) (waiting : client.thread = .waiting)
    {i : ℕ} (enqueued : i < client.enqueued.length) (unsettled : ¬ client.drain.Settled i) :
    i ∈ client.drain.queue.map QueuedEvent.number := by
  have same := drain_sameThread client
  have accounted := (drain_queueInv inv.queue).sound.accounted i (by
    rw [log, drain_enqueued]
    exact enqueued)
  rcases accounted with isPopped | isWaiting | isLost
  · rcases inv.thread.popped i (same.popped ▸ isPopped) with posted | ⟨holding, -⟩
    · exact absurd (.inl (same.posts ▸ posted)) unsettled
    · rw [waiting] at holding
      cases holding
  · exact isWaiting
  · exact absurd (.inr isLost) unsettled

/-- How many steps of the thread a label stands for. -/
def cost (label : PushLabel) : ℕ := if label.isPush then 1 else 0

theorem cost_le (label : PushLabel) : cost label ≤ 1 := by
  unfold cost
  split <;> simp

theorem turn_rank (inv : client.PushInv) (waiting : client.thread = .waiting) {i : ℕ}
    (enqueued : i < client.enqueued.length) (unsettled : ¬ client.drain.pop.Settled i) :
    client.drain.pop.rank i + 1 ≤ client.rank i := by
  rw [Settled, (pop_posts _).1, (pop_posts _).2] at unsettled
  have member := mem_drain_of_not_settled inv waiting enqueued unsettled
  have closer : client.drain.log.ahead i ≤ client.log.ahead i :=
    ahead_le_of_moves (drain_moves client) enqueued
  cases queue : client.drain.queue with
  | nil =>
      rw [queue] at member
      cases member
  | cons entry rest =>
      have sound := (drain_queueInv inv.queue).sound
      rw [queue] at member
      simp only [log, queue, List.map_cons] at sound closer
      have taken := ahead_take sound member
      rw [pop_of_cons queue]
      simp only [rank, log, PushPoint.stage, waiting]
      omega

/-- Each step of the thread brings an event closer to its turn, and no other step takes it
further from it. -/
theorem rank_step {label : PushLabel} (change : PushChange client label client')
    (inv : client.PushInv) {i : ℕ} (enqueued : i < client.enqueued.length)
    (unsettled : ¬ client'.Settled i) : client'.rank i + cost label ≤ client.rank i := by
  have most := cost_le label
  cases change with
  | settings quiet =>
      rw [cost, quiet]
      exact le_rfl
  | @enqueues _ event _ quiet =>
      have same := (enqueue_sameThread client event).thread
      have closer : (client.enqueue event).log.ahead i ≤ client.log.ahead i :=
        ahead_le_of_moves (enqueue_moves client event) enqueued
      rw [cost, quiet, rank, rank]
      simp only [log, same] at closer ⊢
      simp only [Bool.false_eq_true, if_false]
      omega
  | stops =>
      have same := beginStop_sameQueue client
      have ahead : client.beginStop.log.ahead i = client.log.ahead i := congrArg (ahead · i) same.1
      simp only [log] at ahead
      simp only [rank, log, same.2.2.1, ahead, cost, PushLabel.isPush, Bool.false_eq_true, if_false]
      omega
  | turns waiting => exact turn_rank inv waiting enqueued unsettled
  | @attempts _ entry point _ follows =>
      have stage := follows.stage_lt
      change 5 * client.log.ahead i + point.stage + _ ≤ _
      rw [rank]
      omega
  | @advances _ point _ follows =>
      have stage := follows.stage_lt
      change 5 * client.log.ahead i + point.stage + _ ≤ _
      rw [rank]
      omega

def pushSteps (labels : List PushLabel) : ℕ := labels.countP PushLabel.isPush

theorem run_pushInv {labels : List PushLabel} (run : Run PushStep client labels client')
    (inv : client.PushInv) : client'.PushInv :=
  run.invariant PushInv (fun _ _ _ kept step => (step_change step).keeps kept) inv

theorem run_settled {labels : List PushLabel} (run : Run PushStep client labels client') {i : ℕ}
    (settled : client.Settled i) : client'.Settled i :=
  run.invariant (Settled · i) (fun _ _ _ kept step => (step_change step).settled kept) settled

theorem run_rank {labels : List PushLabel} (run : Run PushStep client labels client')
    (inv : client.PushInv) {i : ℕ} (enqueued : i < client.enqueued.length)
    (unsettled : ¬ client'.Settled i) : client'.rank i + pushSteps labels ≤ client.rank i := by
  induction run with
  | refl => exact le_rfl
  | @cons first middle last label labels step later ih =>
      have change := step_change step
      have pending : ¬ middle.Settled i := fun settled => unsettled (run_settled later settled)
      have rest := ih (change.keeps inv)
        (enqueued.trans_le (issued_le_of_moves change.moves)) unsettled
      have once := rank_step change inv enqueued pending
      rw [cost] at once
      rw [pushSteps] at rest
      rw [pushSteps, List.countP_cons]
      omega

theorem rank_le (client : PushClient) (i : ℕ) : client.rank i ≤ 5 * client.queue.length + 4 := by
  have ahead := client.log.ahead_le i
  have stage : client.thread.stage ≤ 4 := by
    cases client.thread <;> simp [PushPoint.stage]
  simp only [log, List.length_map] at ahead
  rw [rank, log]
  omega

/-- The thread can always take a step until it has exited. -/
theorem thread_can_step (running : client.thread ≠ .exited) :
    ∃ label client', label.isPush = true ∧ PushStep client label client' := by
  cases thread : client.thread with
  | waiting => exact ⟨.turn, _, rfl, if_pos thread⟩
  | holding entry draining =>
      exact ⟨.post 0 false, _, rfl, by simp only [PushStep, next, thread]; rfl⟩
  | reRegistering entry draining =>
      exact ⟨.reRegister 0, _, rfl, by simp only [PushStep, next, thread]; rfl⟩
  | reposting entry draining => exact ⟨.repost, _, rfl, by simp only [PushStep, next, thread]; rfl⟩
  | beating draining => exact ⟨.beat, _, rfl, by simp only [PushStep, next, thread]; rfl⟩
  | exited => exact absurd thread running

/-! ## What becomes of an event -/

/-- The drain deadline found the event in the queue. -/
def Expired (client : PushClient) (i : ℕ) : Prop :=
  client.stop = true ∧ ∃ time, client.drainDeadline ≤ time ∧ (i, time) ∈ client.dropped

/-- The thread runs on, and after so many of its steps, whatever else happens, the outcome
holds. -/
def WillReach (client : PushClient) (Outcome : PushClient → Prop) : Prop :=
  (∃ label client', label.isPush = true ∧ PushStep client label client') ∧
    ∀ labels client', Run PushStep client labels client' →
      5 * client.queue.length + 4 < pushSteps labels → Outcome client'

theorem expired_of_lost (inv : client.QueueInv) {i : ℕ} {event : PushEvent}
    (enqueued : client.enqueued[i]? = some event) (isImportant : event.priority ≠ .sample)
    (lost : i ∈ client.dropped.map Prod.fst) : client.Expired i ∧ client.firstEnd ≠ some i := by
  obtain ⟨drop, member, rfl⟩ := List.mem_map.mp lost
  obtain ⟨other, found, mayDrop⟩ := inv.dropped drop member
  obtain rfl := Option.some.inj (enqueued.symm.trans found)
  obtain ⟨stopped, passed, notFirst⟩ := mayDrop.resolve_left isImportant
  exact ⟨⟨stopped, drop.2, passed, member⟩, notFirst⟩

theorem run_enqueued {labels : List PushLabel} (run : Run PushStep client labels client') :
    client.enqueued <+: client'.enqueued := by
  refine run.invariant (client.enqueued <+: ·.enqueued) (fun first label last kept step => ?_)
    (List.prefix_refl _)
  have grows : first.enqueued <+: last.enqueued := by
    cases step_change step with
    | settings => exact List.prefix_refl _
    | enqueues =>
        simp only [enqueue_enqueued]
        exact List.prefix_append ..
    | stops =>
        unfold beginStop
        split <;> exact List.prefix_refl _
    | turns =>
        have same : first.drain.pop.enqueued = first.enqueued := by
          rw [pop_enqueued, drain_enqueued]
        exact same ▸ List.prefix_refl _
    | attempts => exact List.prefix_refl _
    | advances => exact List.prefix_refl _
  exact kept.trans grows

/-- An event that is not per-sample is posted, has expired, or waits for one of the two. -/
theorem important_outcome (inv : client.PushInv) {i : ℕ} {event : PushEvent}
    (enqueued : client.enqueued[i]? = some event) (isImportant : event.priority ≠ .sample)
    (inTime : ∀ j, client.firstEnd = some j → i ≤ j) :
    i ∈ client.posts ∨ client.Expired i ∨
      client.WillReach fun later => i ∈ later.posts ∨ later.Expired i := by
  obtain ⟨inside, -⟩ := List.getElem?_eq_some_iff.mp enqueued
  by_cases settled : client.Settled i
  · rcases settled with posted | lost
    · exact .inl posted
    · exact .inr (.inl (expired_of_lost inv.queue enqueued isImportant lost).1)
  · have running : client.thread ≠ .exited := by
      intro exited
      obtain ⟨stopped, later⟩ := inv.thread.exited exited
      obtain ⟨j, first⟩ := inv.thread.stopping (.inl stopped)
      rcases inv.queue.sound.accounted i inside with isPopped | isWaiting | isLost
      · rcases inv.thread.popped i isPopped with posted | ⟨holding, -⟩
        · exact settled (.inl posted)
        · rw [exited] at holding
          cases holding
      · obtain ⟨entry, queued, rfl⟩ := List.mem_map.mp isWaiting
        exact absurd (later j first entry queued) (Nat.not_lt_of_le (inTime j first))
      · exact settled (.inr isLost)
    refine .inr (.inr ⟨thread_can_step running, fun labels client' run enough => ?_⟩)
    have inv' := run_pushInv run inv
    have done : client'.Settled i := by
      by_contra unsettled
      have left := run_rank run inv inside unsettled
      have most := rank_le client i
      omega
    refine done.imp_right fun lost => (expired_of_lost inv'.queue ?_ isImportant lost).1
    obtain ⟨more, grown⟩ := run_enqueued run
    exact grown ▸ getElem?_append_of_eq_some enqueued

end PushClient

open PushClient

/-- Along every run of the push client: an event that is not per-sample, enqueued no later
than the first that ends the session, is posted, or the drain deadline found it in the
queue, or the thread runs on until one of the two has happened; events are posted in the
order in which they were enqueued; before the deadline only per-sample events are dropped;
the first event that ends the session never is; and the queue stays bounded. -/
theorem push_queue_delivers {maxQueueDepth now : ℕ} {heartbeatIntervalMs : Int}
    {labels : List PushLabel} {client : PushClient}
    (run : Run PushStep (start maxQueueDepth heartbeatIntervalMs now) labels client) :
    (∀ i event, client.enqueued[i]? = some event → event.priority ≠ .sample →
        (∀ j, client.firstEnd = some j → i ≤ j) →
          i ∈ client.posts ∨ client.Expired i ∨
            client.WillReach fun later => i ∈ later.posts ∨ later.Expired i) ∧
      client.posts.Pairwise (· ≤ ·) ∧
      (∀ drop ∈ client.dropped, ∃ event, client.enqueued[drop.1]? = some event ∧
        (event.priority = .sample ∨
          (client.stop = true ∧ client.drainDeadline ≤ drop.2))) ∧
      (∀ i, client.firstEnd = some i →
        i ∈ client.posts ∨ client.WillReach fun later => i ∈ later.posts) ∧
      client.queue.length ≤
        max client.maxQueueDepth (client.queue.countP fun entry => !entry.isSample) := by
  have inv := run_pushInv run (pushInv_start ..)
  refine ⟨fun i event enqueued isImportant inTime =>
    important_outcome inv enqueued isImportant inTime, inv.thread.ordered, ?_, ?_, ?_⟩
  · intro drop member
    obtain ⟨event, found, mayDrop⟩ := inv.queue.dropped drop member
    exact ⟨event, found, mayDrop.imp_right fun late => ⟨late.1, late.2.1⟩⟩
  · intro i first
    obtain ⟨inside, isEnd, -⟩ := List.findIdx?_eq_some_iff_getElem.mp first
    have enqueued := List.getElem?_eq_getElem inside
    have isImportant : client.enqueued[i].priority ≠ .sample := by
      rw [inv.queue.endPriority _ (List.getElem_mem inside) isEnd]
      exact fun same => by cases same
    have inTime : ∀ j, client.firstEnd = some j → i ≤ j := fun j same =>
      (Option.some.inj (first.symm.trans same)).le
    have kept {later : PushClient} {labels : List PushLabel}
        (run : Run PushStep client labels later) (expired : later.Expired i) : False := by
      obtain ⟨-, time, -, member⟩ := expired
      have lost : i ∈ later.dropped.map Prod.fst := List.mem_map_of_mem member
      obtain ⟨more, grown⟩ := run_enqueued run
      refine (expired_of_lost (run_pushInv run inv).queue
        (grown ▸ getElem?_append_of_eq_some enqueued) isImportant lost).2 ?_
      rw [PushClient.firstEnd] at first
      rw [PushClient.firstEnd, ← grown, List.findIdx?_append, first, Option.some_or]
    rcases important_outcome inv enqueued isImportant inTime with posted | expired | willReach
    · exact .inl posted
    · exact (kept (.refl _) expired).elim
    · refine .inr ⟨willReach.1, fun labels later run enough => ?_⟩
      exact (willReach.2 labels later run enough).resolve_right (kept run)
  · exact run.invariant Bounded (fun _ _ _ kept step => (step_change step).bounded kept)
      (Nat.zero_le _)

/-- Of four events with a queue of no depth, one is posted, one refused, one dropped at the
deadline; the last ends the session. -/
theorem push_queue_delivers_expired :
    ∃ client, Run PushStep (start 0 30000 0)
        [.enqueue ⟨.epoch, "/epoch/end", ""⟩, .enqueue ⟨.sample, "/metrics/sample", ""⟩,
          .enqueue ⟨.epoch, "/metrics/best", ""⟩, .endSession, .beginStop, .turn, .post 500 false,
          .beat, .tick 10000, .turn, .post 200 false, .beat, .turn] client ∧
      (client.thread, client.posts, client.dropped) = (.exited, [0, 3], [(1, 0), (2, 10000)]) ∧
        client.posts.Pairwise (· ≤ ·) := by
  have result : (execute PushClient.next (start 0 30000 0)
      [.enqueue ⟨.epoch, "/epoch/end", ""⟩, .enqueue ⟨.sample, "/metrics/sample", ""⟩,
        .enqueue ⟨.epoch, "/metrics/best", ""⟩, .endSession, .beginStop, .turn, .post 500 false,
        .beat, .tick 10000, .turn, .post 200 false, .beat, .turn]).map
      (fun client => (client.thread, client.posts, client.dropped)) =
        some (.exited, [0, 3], [(1, 0), (2, 10000)]) := by rfl
  obtain ⟨client, executed, same⟩ := Option.map_eq_some_iff.mp result
  have run := Run.of_execute (fun _ _ _ taken => taken) executed
  exact ⟨client, run, same, (push_queue_delivers run).2.1⟩

end Adai.Metrics

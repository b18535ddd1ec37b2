import Adai.Math.LossyQueue
import Adai.Math.TransitionSystem

/-! # The metrics push queue

Callers enqueue events; a push thread takes them out and posts them. Under back-pressure
per-sample events are dropped, while stopping they are all dropped, and at the drain
deadline everything but the event that ends the session is. The enqueued, popped, posted
and dropped events are recorded by their numbers, which say how many were enqueued before.
-/

namespace Adai.Metrics

open TransitionSystem

inductive EventPriority
  | sample
  | epoch
  | session
  deriving DecidableEq

structure PushEvent where
  priority : EventPriority
  endpoint : String
  body : String
  deriving DecidableEq

/-- An event in the queue, with its number. -/
structure QueuedEvent where
  number : ℕ
  event : PushEvent
  deriving DecidableEq

def QueuedEvent.isSample (entry : QueuedEvent) : Bool := entry.event.priority == .sample

def PushEvent.isEnd (event : PushEvent) : Bool := event.endpoint == "/end"

/-- The calls of the reporter that enqueue an event. -/
inductive ReporterCall
  | startEpoch
  | endEpoch
  | updateSampleMetrics
  | updateValidationMetrics
  | updateBestMetrics
  | updateAdvancedEpochMetrics
  | flagAbnormalSample
  | reportSampleQuality
  | updateLayerGradientNorms
  | updateGenerationQualityMetrics

def ReporterCall.event (body : String) : ReporterCall → PushEvent
  | .startEpoch => ⟨.epoch, "/epoch/start", body⟩
  | .endEpoch => ⟨.epoch, "/epoch/end", body⟩
  | .updateSampleMetrics => ⟨.sample, "/metrics/sample", body⟩
  | .updateValidationMetrics => ⟨.epoch, "/metrics/validation", body⟩
  | .updateBestMetrics => ⟨.epoch, "/metrics/best", body⟩
  | .updateAdvancedEpochMetrics => ⟨.sample, "/metrics/advanced", body⟩
  | .flagAbnormalSample => ⟨.epoch, "/metrics/abnormal", body⟩
  | .reportSampleQuality => ⟨.epoch, "/metrics/sample-quality", body⟩
  | .updateLayerGradientNorms => ⟨.epoch, "/metrics/layer-gradients", body⟩
  | .updateGenerationQualityMetrics => ⟨.epoch, "/metrics/generation-quality", body⟩

/-- Where the push thread stands in `push_loop`. -/
inductive PushPoint
  | waiting
  | holding (entry : QueuedEvent) (draining : Bool)
  | reRegistering (entry : QueuedEvent) (draining : Bool)
  | reposting (entry : QueuedEvent) (draining : Bool)
  /-- Before the heartbeat. -/
  | beating (draining : Bool)
  | exited
  deriving DecidableEq

structure PushClient where
  maxQueueDepth : ℕ
  heartbeatIntervalMs : Int
  drainTimeoutMs : ℕ
  reconnectBody : String
  sessionStarted : Bool
  queue : List QueuedEvent
  stop : Bool
  drainDeadline : ℕ
  lastHeartbeat : ℕ
  thread : PushPoint
  /-- Calls of `end_session` that have enqueued their event and not begun to stop. -/
  ending : ℕ
  now : ℕ
  enqueued : List PushEvent
  popped : List ℕ
  /-- The events given to `attempt_post`. -/
  posts : List ℕ
  /-- The dropped events, with the time. -/
  dropped : List (ℕ × ℕ)

inductive PushLabel
  | tick (elapsed : ℕ)
  | setReconnectBody (body : String)
  | startAnswered (rc : ℕ)
  | setDrainTimeout (ms : Int)
  | enqueue (event : PushEvent)
  | endSession
  | beginStop
  /-- The locked part of an iteration of `push_loop`. -/
  | turn
  | post (rc : ℕ) (unknownKey : Bool)
  | reRegister (rc : ℕ)
  | repost
  | beat

/-- A step of the push thread. -/
def PushLabel.isPush : PushLabel → Bool
  | .turn => true
  | .post _ _ => true
  | .reRegister _ => true
  | .repost => true
  | .beat => true
  | _ => false

namespace PushClient

def start (maxQueueDepth : ℕ) (heartbeatIntervalMs : Int) (now : ℕ) : PushClient where
  maxQueueDepth := maxQueueDepth
  heartbeatIntervalMs := heartbeatIntervalMs
  drainTimeoutMs := 10000
  reconnectBody := ""
  sessionStarted := false
  queue := []
  stop := false
  drainDeadline := 0
  lastHeartbeat := now
  thread := .waiting
  ending := 0
  now := now
  enqueued := []
  popped := []
  posts := []
  dropped := []

/-- Only some of the queue stays, the rest is dropped. -/
def retain (client : PushClient) (kept : List QueuedEvent) : PushClient :=
  { client with
    queue := kept
    dropped := client.dropped ++
      (client.queue.filter fun entry => decide (entry ∉ kept)).map fun entry =>
        (entry.number, client.now) }

def pushBack (client : PushClient) (event : PushEvent) : PushClient :=
  { client with
    queue := client.queue ++ [⟨client.enqueued.length, event⟩]
    enqueued := client.enqueued ++ [event] }

def refuse (client : PushClient) (event : PushEvent) : PushClient :=
  { client with
    enqueued := client.enqueued ++ [event]
    dropped := client.dropped ++ [(client.enqueued.length, client.now)] }

def enqueue (client : PushClient) (event : PushEvent) : PushClient :=
  if client.queue.length ≥ client.maxQueueDepth then
    if event.priority = .sample then client.refuse event
    else (client.retain (client.queue.eraseP QueuedEvent.isSample)).pushBack event
  else client.pushBack event

def beginStop (client : PushClient) : PushClient :=
  if client.stop then client
  else { client with stop := true, drainDeadline := client.now + client.drainTimeoutMs }

/-- What is dropped while stopping. -/
def drain (client : PushClient) : PushClient :=
  if client.stop then
    let purged := client.retain (client.queue.filter fun entry => !entry.isSample)
    if purged.queue ≠ [] ∧ client.drainDeadline ≤ client.now then
      purged.retain (purged.queue.find? fun entry => entry.event.isEnd).toList
    else purged
  else client

/-- The rest of the locked part. -/
def pop (client : PushClient) : PushClient :=
  match client.queue with
  | entry :: rest =>
      { client with
        queue := rest
        popped := client.popped ++ [entry.number]
        thread := .holding entry client.stop }
  | [] => { client with thread := if client.stop then .exited else .beating false }

def attempt (client : PushClient) (entry : QueuedEvent) (thread : PushPoint) : PushClient :=
  { client with posts := client.posts ++ [entry.number], thread := thread }

/-- What the thread does after the answer to an event's post. -/
def afterPost (client : PushClient) (entry : QueuedEvent) (draining : Bool) (rc : ℕ)
    (unknownKey : Bool) : PushPoint :=
  if rc = 404 ∧ client.reconnectBody ≠ "" ∧ entry.event.endpoint ≠ "/start" ∧
      entry.event.endpoint ≠ "/end" ∧ unknownKey then
    .reRegistering entry draining
  else .beating draining

def beat (client : PushClient) (draining : Bool) : PushClient :=
  { client with
    thread := .waiting
    lastHeartbeat :=
      if !draining && client.sessionStarted &&
          decide (client.heartbeatIntervalMs ≤ (client.now : Int) - client.lastHeartbeat) then
        client.now
      else client.lastHeartbeat }

def next (client : PushClient) : PushLabel → Option PushClient
  | .tick elapsed => some { client with now := client.now + elapsed }
  | .setReconnectBody body => some { client with reconnectBody := body }
  | .startAnswered rc =>
      some { client with sessionStarted := client.sessionStarted || decide (rc / 100 = 2) }
  | .setDrainTimeout ms => some { client with drainTimeoutMs := ms.toNat }
  -- only `end_session` enqueues an event for "/end"
  | .enqueue event => if event.isEnd then none else some (client.enqueue event)
  | .endSession =>
      some { client.enqueue ⟨.session, "/end", "\x7b\x7d"⟩ with ending := client.ending + 1 }
  | .beginStop =>
      if client.ending = 0 then none
      else some { client.beginStop with ending := client.ending - 1 }
  | .turn => if client.thread = .waiting then some client.drain.pop else none
  | .post rc unknownKey =>
      match client.thread with
      | .holding entry draining =>
          some (client.attempt entry (client.afterPost entry draining rc unknownKey))
      | _ => none
  | .reRegister rc =>
      match client.thread with
      | .reRegistering entry draining =>
          some { client with
            thread := if rc = 200 ∨ rc = 409 then .reposting entry draining
              else .beating draining }
      | _ => none
  | .repost =>
      match client.thread with
      | .reposting entry draining => some (client.attempt entry (.beating draining))
      | _ => none
  | .beat =>
      match client.thread with
      | .beating draining => some (client.beat draining)
      | _ => none

end PushClient

def PushStep (client : PushClient) (label : PushLabel) (client' : PushClient) : Prop :=
  client.next label = some client'

/-- Every reporter call can enqueue its event. -/
theorem reporter_call_enqueues (client : PushClient) (call : ReporterCall) (body : String) :
    PushStep client (.enqueue (call.event body)) (client.enqueue (call.event body)) := by
  cases call <;> rfl

end Adai.Metrics

import Adai.Math.TransitionSystem
import Mathlib.Algebra.Ring.Int.Defs
import Mathlib.Algebra.Ring.Nat
import Mathlib.Data.List.Perm.Basic
import Mathlib.Data.List.Range

/-! # The batched inference engine

Calls of `submit` first test that the engine runs, and later, under the lock of the queue,
enqueue their request or are refused. One worker thread collects the waiting requests into
batches and answers them. Calls, the worker and `shutdown` interleave step by step.

The results of a batch are generated one request at a time. What the engine is for is to
process the batches one after another, each with the random generator that the one before it
left (`Adai.Serving.InferenceService.processBatches`).
-/

namespace Adai.Serving

open TransitionSystem

structure BatchedInferenceConfig where
  maxBatchSize : ℕ
  maxTokensPerBatch : Int
  maxQueueSize : Int

namespace BatchedInferenceConfig

/-- The `int` converted to `size_t`. -/
def tokenLimit (config : BatchedInferenceConfig) : ℕ := (config.maxTokensPerBatch % 2 ^ 64).toNat

def queueLimit (config : BatchedInferenceConfig) : ℕ := (config.maxQueueSize % 2 ^ 64).toNat

end BatchedInferenceConfig

structure BatchedInferenceStats where
  totalRequests : ℕ
  totalBatches : ℕ
  totalTokensProcessed : ℕ
  requestsTimeout : ℕ
  requestsBatchFull : ℕ

/-- A request, with the number of the call of `submit` whose future waits for its promise. -/
structure InferenceRequest (GenConfig ModelFn : Type) where
  call : ℕ
  prompt : String
  genConfig : GenConfig
  modelFn : Option ModelFn

inductive InferenceError (Error : Type)
  | thrown (error : Error)
  | runtimeError (message : String)

/-- The model, the text generator and the tokenizer of the engine; the random generator is
shared by all requests. -/
structure InferenceService (GenConfig ModelFn Rng Error : Type) where
  defaultGenConfig : GenConfig
  modelFn : ModelFn
  generateText : GenConfig → ModelFn → String → Rng → Except Error String × Rng
  /-- How many tokens `encode` finds, unless it throws. -/
  tokenCount : String → Option ℕ

variable {GenConfig ModelFn Rng Error : Type}

/-- Where the worker stands in `batch_processing_loop` and what it calls. -/
inductive WorkerPoint (GenConfig ModelFn Error : Type)
  | looping
  | collecting (batch : List (InferenceRequest GenConfig ModelFn))
  /-- Behind the loop, before `collect_batch_no_wait`. -/
  | draining
  /-- At the beginning of `process_batch`. -/
  | starting (batch : List (InferenceRequest GenConfig ModelFn)) (final : Bool)
  | generating (batch : List (InferenceRequest GenConfig ModelFn)) (results : List String)
    (final : Bool)
  | distributing (batch : List (InferenceRequest GenConfig ModelFn)) (results : List String)
    (final : Bool)
  | failing (batch : List (InferenceRequest GenConfig ModelFn)) (error : Error) (final : Bool)
  | exited

/-- A request with what its promise was given. -/
abbrev Answer (GenConfig ModelFn Error : Type) :=
  InferenceRequest GenConfig ModelFn × Except (InferenceError Error) String

structure BatchedInferenceEngine (GenConfig ModelFn Rng Error : Type) where
  config : BatchedInferenceConfig
  running : Bool
  rng : Rng
  queue : List (InferenceRequest GenConfig ModelFn)
  worker : WorkerPoint GenConfig ModelFn Error
  stats : BatchedInferenceStats
  /-- How many calls of `submit` there were. -/
  calls : ℕ
  /-- The calls that have passed the test of `running_` and not yet taken the lock. -/
  submitting : List (InferenceRequest GenConfig ModelFn)
  refused : List (ℕ × String)
  enqueued : List (InferenceRequest GenConfig ModelFn)
  answers : List (Answer GenConfig ModelFn Error)

inductive EngineLabel (GenConfig ModelFn : Type)
  | submit (prompt : String) (genConfig : Option GenConfig) (modelFn : Option ModelFn)
  /-- The locked part of a call of `submit`, of one that has got so far. -/
  | enqueue (i : ℕ)
  | shutdown
  | work
  /-- The wait for a request ends at the deadline. -/
  | timeout

def EngineLabel.isWorker : EngineLabel GenConfig ModelFn → Bool
  | .work => true
  | .timeout => true
  | _ => false

namespace BatchedInferenceEngine

def start (config : BatchedInferenceConfig) (rng : Rng) :
    BatchedInferenceEngine GenConfig ModelFn Rng Error where
  config := config
  running := true
  rng := rng
  queue := []
  worker := .looping
  stats := ⟨0, 0, 0, 0, 0⟩
  calls := 0
  submitting := []
  refused := []
  enqueued := []
  answers := []

variable (service : InferenceService GenConfig ModelFn Rng Error)
  (engine : BatchedInferenceEngine GenConfig ModelFn Rng Error)

def shutdownMessage : String := "Cannot submit request: engine is shutdown"

def queueFullMessage : String := "Request queue is full"

def submit (prompt : String) (genConfig : Option GenConfig) (modelFn : Option ModelFn) :
    BatchedInferenceEngine GenConfig ModelFn Rng Error :=
  if engine.running then
    { engine with
      calls := engine.calls + 1
      submitting := engine.submitting ++
        [⟨engine.calls, prompt, genConfig.getD service.defaultGenConfig, modelFn⟩] }
  else
    { engine with
      calls := engine.calls + 1
      refused := engine.refused ++ [(engine.calls, shutdownMessage)] }

def enqueue (i : ℕ) (request : InferenceRequest GenConfig ModelFn) :
    BatchedInferenceEngine GenConfig ModelFn Rng Error :=
  if engine.queue.length ≥ engine.config.queueLimit then
    { engine with
      submitting := engine.submitting.eraseIdx i
      refused := engine.refused ++ [(request.call, queueFullMessage)] }
  else
    { engine with
      submitting := engine.submitting.eraseIdx i
      queue := engine.queue ++ [request]
      enqueued := engine.enqueued ++ [request] }

def shouldFlushBatch (batch : List (InferenceRequest GenConfig ModelFn)) : Bool :=
  if batch.length ≥ engine.config.maxBatchSize then true
  else decide (batch.length * 100 % 2 ^ 64 ≥ engine.config.tokenLimit)

/-- The worker in `batch_processing_loop` with the batch that `collect_batch` returned. -/
def afterCollecting : List (InferenceRequest GenConfig ModelFn) →
    WorkerPoint GenConfig ModelFn Error
  | [] => .looping
  | request :: rest => .starting (request :: rest) false

/-- One round of the loop of `collect_batch`, unless it has to wait. -/
def collectBatch (batch : List (InferenceRequest GenConfig ModelFn)) :
    Option (BatchedInferenceEngine GenConfig ModelFn Rng Error) :=
  if batch.length < engine.config.maxBatchSize ∧ engine.running then
    match engine.queue with
    | [] => none
    | request :: rest =>
        if engine.shouldFlushBatch (batch ++ [request]) then
          some { engine with
            queue := rest
            stats := { engine.stats with requestsBatchFull := engine.stats.requestsBatchFull + 1 }
            worker := afterCollecting (batch ++ [request]) }
        else some { engine with queue := rest, worker := .collecting (batch ++ [request]) }
  else some { engine with worker := afterCollecting batch }

/-- The wait of `collect_batch` ends without a request. -/
def collectTimeout (batch : List (InferenceRequest GenConfig ModelFn)) :
    BatchedInferenceEngine GenConfig ModelFn Rng Error :=
  { engine with
    stats :=
      { engine.stats with
        requestsTimeout :=
          if batch = [] then engine.stats.requestsTimeout else engine.stats.requestsTimeout + 1 }
    worker := afterCollecting batch }

def collectBatchNoWait : BatchedInferenceEngine GenConfig ModelFn Rng Error :=
  { engine with
    queue := engine.queue.drop engine.config.maxBatchSize
    worker :=
      match engine.queue.take engine.config.maxBatchSize with
      | [] => .exited
      | request :: rest => .starting (request :: rest) true }

/-- The beginning of `process_batch`. -/
def countBatch (batch : List (InferenceRequest GenConfig ModelFn)) (final : Bool) :
    BatchedInferenceEngine GenConfig ModelFn Rng Error :=
  { engine with
    stats :=
      { engine.stats with
        totalBatches := engine.stats.totalBatches + 1
        totalRequests := engine.stats.totalRequests + batch.length }
    worker := .generating batch [] final }

end BatchedInferenceEngine

namespace InferenceService

variable (service : InferenceService GenConfig ModelFn Rng Error)

/-- `generate_text` with the request's own configuration and model. -/
def generate (request : InferenceRequest GenConfig ModelFn) (rng : Rng) :
    Except Error String × Rng :=
  service.generateText request.genConfig (request.modelFn.getD service.modelFn) request.prompt rng

end InferenceService

namespace BatchedInferenceEngine

variable (service : InferenceService GenConfig ModelFn Rng Error)
  (engine : BatchedInferenceEngine GenConfig ModelFn Rng Error)

/-- One round of the loop that generates the results of a batch. -/
def generateNext (batch : List (InferenceRequest GenConfig ModelFn)) (results : List String)
    (final : Bool) : BatchedInferenceEngine GenConfig ModelFn Rng Error :=
  match batch.drop results.length with
  | [] => { engine with worker := .distributing batch results final }
  | request :: _ =>
      match service.generate request engine.rng with
      | (.ok text, rng) =>
          { engine with rng := rng, worker := .generating batch (results ++ [text]) final }
      | (.error error, rng) => { engine with rng := rng, worker := .failing batch error final }

/-- Where the worker goes from `process_batch`. -/
def afterProcessing (final : Bool) : WorkerPoint GenConfig ModelFn Error :=
  if final then .exited else .looping

/-- The tokens of a result that are counted. -/
def tokensOf (text : String) : ℕ :=
  if text = "" then 0 else (service.tokenCount text).getD 0

/-- One round of the loop that gives the promises their results. -/
def distributeNext (batch : List (InferenceRequest GenConfig ModelFn)) (results : List String)
    (final : Bool) : BatchedInferenceEngine GenConfig ModelFn Rng Error :=
  match batch, results with
  | [], _ => { engine with worker := afterProcessing final }
  | request :: batch, text :: results =>
      { engine with
        stats :=
          { engine.stats with
            totalTokensProcessed := engine.stats.totalTokensProcessed + tokensOf service text }
        answers := engine.answers ++ [(request, .ok text)]
        worker := .distributing batch results final }
  | request :: batch, [] =>
      { engine with
        answers := engine.answers ++
          [(request, .error (.runtimeError "Model failed to generate result"))]
        worker := .distributing batch [] final }

/-- One round of the loop that gives the promises of a failed batch the exception. -/
def failNext (batch : List (InferenceRequest GenConfig ModelFn)) (error : Error) (final : Bool) :
    BatchedInferenceEngine GenConfig ModelFn Rng Error :=
  match batch with
  | [] => { engine with worker := afterProcessing final }
  | request :: batch =>
      { engine with
        answers := engine.answers ++ [(request, .error (.thrown error))]
        worker := .failing batch error final }

/-- A step of the worker that is not the end of a wait. -/
def work : Option (BatchedInferenceEngine GenConfig ModelFn Rng Error) :=
  match engine.worker with
  | .looping =>
      some { engine with worker := if engine.running then .collecting [] else .draining }
  | .collecting batch => engine.collectBatch batch
  | .draining => some engine.collectBatchNoWait
  | .starting batch final => some (engine.countBatch batch final)
  | .generating batch results final => some (engine.generateNext service batch results final)
  | .distributing batch results final => some (engine.distributeNext service batch results final)
  | .failing batch error final => some (engine.failNext batch error final)
  | .exited => none

def next : EngineLabel GenConfig ModelFn →
    Option (BatchedInferenceEngine GenConfig ModelFn Rng Error)
  | .submit prompt genConfig modelFn => some (engine.submit service prompt genConfig modelFn)
  | .enqueue i =>
      match engine.submitting[i]? with
      | none => none
      | some request => some (engine.enqueue i request)
  | .shutdown => some { engine with running := false }
  | .work => engine.work service
  | .timeout =>
      match engine.worker with
      | .collecting batch =>
          if batch.length < engine.config.maxBatchSize ∧ engine.running ∧ engine.queue = [] then
            some (engine.collectTimeout batch)
          else none
      | _ => none

end BatchedInferenceEngine

def EngineStep (service : InferenceService GenConfig ModelFn Rng Error)
    (engine : BatchedInferenceEngine GenConfig ModelFn Rng Error)
    (label : EngineLabel GenConfig ModelFn)
    (engine' : BatchedInferenceEngine GenConfig ModelFn Rng Error) : Prop :=
  engine.next service label = some engine'

/-! ## Processing batches one after another -/

namespace InferenceService

variable (service : InferenceService GenConfig ModelFn Rng Error)

def generateAll : List (InferenceRequest GenConfig ModelFn) → Rng →
    Except Error (List String) × Rng
  | [], rng => (.ok [], rng)
  | request :: rest, rng =>
      match service.generate request rng with
      | (.ok text, rng) => ((generateAll rest rng).1.map (text :: ·), (generateAll rest rng).2)
      | (.error error, rng) => (.error error, rng)

def answersOf (batch : List (InferenceRequest GenConfig ModelFn)) :
    Except Error (List String) → List (Answer GenConfig ModelFn Error)
  | .ok texts => batch.zip (texts.map .ok)
  | .error error => batch.map fun request => (request, .error (.thrown error))

/-- A batch with one request that fails has only failed answers. -/
def processBatch (batch : List (InferenceRequest GenConfig ModelFn)) (rng : Rng) :
    List (Answer GenConfig ModelFn Error) × Rng :=
  (answersOf batch (service.generateAll batch rng).1, (service.generateAll batch rng).2)

/-- What the batches give in this order, each with the random generator that the one before
it left. -/
def processBatches (rng : Rng) (batches : List (List (InferenceRequest GenConfig ModelFn))) :
    List (Answer GenConfig ModelFn Error) × Rng :=
  batches.foldl (fun sofar batch =>
    (sofar.1 ++ (service.processBatch batch sofar.2).1, (service.processBatch batch sofar.2).2))
    ([], rng)

theorem processBatches_snoc (rng : Rng)
    (batches : List (List (InferenceRequest GenConfig ModelFn)))
    (batch : List (InferenceRequest GenConfig ModelFn)) :
    service.processBatches rng (batches ++ [batch]) =
      ((service.processBatches rng batches).1 ++
          (service.processBatch batch (service.processBatches rng batches).2).1,
        (service.processBatch batch (service.processBatches rng batches).2).2) := by
  rw [processBatches, List.foldl_append]
  rfl

end InferenceService

namespace WorkerPoint

/-- The requests taken out of the queue and not yet counted by `process_batch`. -/
def collected : WorkerPoint GenConfig ModelFn Error → List (InferenceRequest GenConfig ModelFn)
  | .collecting batch => batch
  | .starting batch _ => batch
  | _ => []

/-- The requests of the batch in `process_batch` that have no answer. -/
def inProcess : WorkerPoint GenConfig ModelFn Error → List (InferenceRequest GenConfig ModelFn)
  | .generating batch _ _ => batch
  | .distributing batch _ _ => batch
  | .failing batch _ _ => batch
  | _ => []

/-- What the worker's local variables satisfy. -/
def WellFormed : WorkerPoint GenConfig ModelFn Error → Prop
  | .starting batch _ => batch ≠ []
  | .generating batch results _ => results.length ≤ batch.length
  | .distributing batch results _ => results.length = batch.length
  | _ => True

theorem collected_afterCollecting (batch : List (InferenceRequest GenConfig ModelFn)) :
    (BatchedInferenceEngine.afterCollecting batch :
      WorkerPoint GenConfig ModelFn Error).collected = batch := by
  cases batch with
  | nil => rfl
  | cons => rfl

theorem inProcess_afterCollecting (batch : List (InferenceRequest GenConfig ModelFn)) :
    (BatchedInferenceEngine.afterCollecting batch :
      WorkerPoint GenConfig ModelFn Error).inProcess = [] := by
  cases batch with
  | nil => rfl
  | cons => rfl

theorem wellFormed_afterCollecting (batch : List (InferenceRequest GenConfig ModelFn)) :
    (BatchedInferenceEngine.afterCollecting batch :
      WorkerPoint GenConfig ModelFn Error).WellFormed := by
  cases batch with
  | nil => trivial
  | cons => exact List.cons_ne_nil _ _

end WorkerPoint

namespace BatchedInferenceEngine

variable (service : InferenceService GenConfig ModelFn Rng Error)

/-- The answers still to come for the batch in process, and the random generator behind it. -/
def pending (rng : Rng) : WorkerPoint GenConfig ModelFn Error →
    List (Answer GenConfig ModelFn Error) × Rng
  | .generating batch results _ =>
      (InferenceService.answersOf batch
          ((service.generateAll (batch.drop results.length) rng).1.map (results ++ ·)),
        (service.generateAll (batch.drop results.length) rng).2)
  | .distributing batch results _ => (InferenceService.answersOf batch (.ok results), rng)
  | .failing batch error _ => (InferenceService.answersOf batch (.error error), rng)
  | _ => ([], rng)

/-- The answers given, with those that finishing the batch in process adds. -/
def outcome (engine : BatchedInferenceEngine GenConfig ModelFn Rng Error) :
    List (Answer GenConfig ModelFn Error) × Rng :=
  (engine.answers ++ (pending service engine.rng engine.worker).1,
    (pending service engine.rng engine.worker).2)

theorem pending_afterCollecting (rng : Rng) (batch : List (InferenceRequest GenConfig ModelFn)) :
    pending service rng (afterCollecting batch) = ([], rng) := by
  cases batch with
  | nil => rfl
  | cons => rfl

theorem pending_generating_nil (rng : Rng) (batch : List (InferenceRequest GenConfig ModelFn))
    (final : Bool) :
    pending service rng (.generating batch [] final) = service.processBatch batch rng := by
  have same (found : Except Error (List String)) : found.map (([] : List String) ++ ·) = found := by
    cases found with
    | ok texts => rfl
    | error error => rfl
  rw [pending, InferenceService.processBatch, same]
  rfl

end BatchedInferenceEngine

end Adai.Serving

import Adai.Serving.BatchedInferenceEngine

/-! # Runs of the batched inference engine

In every run each call is in exactly one place, and the requests are answered in the order in
which they were enqueued (`Adai.Serving.engine_serves_in_order`): the answers are those of
processing the collected batches one after another, whatever the interleaving. After
`shutdown` the worker takes a bounded number of steps (`Adai.Serving.shutdown_ends`) and
answers one last batch; what else is queued is never answered
(`Adai.Serving.shutdown_answers_one_batch`).
-/

namespace Adai.Serving

open TransitionSystem

variable {GenConfig ModelFn Rng Error : Type}

namespace BatchedInferenceEngine

variable (service : InferenceService GenConfig ModelFn Rng Error)

/-! ## What a step of the worker does -/

/-- A step of the worker other than the count of a batch. -/
structure Kept (engine engine' : BatchedInferenceEngine GenConfig ModelFn Rng Error) : Prop where
  processed : engine'.answers.map Prod.fst ++ engine'.worker.inProcess =
    engine.answers.map Prod.fst ++ engine.worker.inProcess
  outcome : engine'.outcome service = engine.outcome service
  waiting : engine'.worker.collected ++ engine'.queue = engine.worker.collected ++ engine.queue
  shorter : engine'.queue.length ≤ engine.queue.length
  totalBatches : engine'.stats.totalBatches = engine.stats.totalBatches
  totalRequests : engine'.stats.totalRequests = engine.stats.totalRequests
  grows : ∃ more, engine'.answers = engine.answers ++ more

/-- The worker begins to process the batch it has collected. -/
structure Counted (engine engine' : BatchedInferenceEngine GenConfig ModelFn Rng Error) :
    Prop where
  nonempty : engine.worker.collected ≠ []
  before : engine.worker.inProcess = []
  after : engine'.worker.collected = []
  inProcess : engine'.worker.inProcess = engine.worker.collected
  answers : engine'.answers = engine.answers
  idle : pending service engine.rng engine.worker = ([], engine.rng)
  begun : pending service engine'.rng engine'.worker =
    service.processBatch engine.worker.collected engine.rng
  queue : engine'.queue = engine.queue
  totalBatches : engine'.stats.totalBatches = engine.stats.totalBatches + 1
  totalRequests :
    engine'.stats.totalRequests = engine.stats.totalRequests + engine.worker.collected.length

/-- What a step of the worker leaves alone. -/
structure SameCalls (engine engine' : BatchedInferenceEngine GenConfig ModelFn Rng Error) :
    Prop where
  config : engine'.config = engine.config
  running : engine'.running = engine.running
  calls : engine'.calls = engine.calls
  submitting : engine'.submitting = engine.submitting
  refused : engine'.refused = engine.refused
  enqueued : engine'.enqueued = engine.enqueued

/-- A point at which the worker holds no request. -/
structure Idle (worker : WorkerPoint GenConfig ModelFn Error) : Prop where
  collected : worker.collected = []
  inProcess : worker.inProcess = []
  wellFormed : worker.WellFormed
  pending : ∀ rng, pending service rng worker = ([], rng)

structure WorkerMove (engine engine' : BatchedInferenceEngine GenConfig ModelFn Rng Error) :
    Prop where
  sameCalls : SameCalls engine engine'
  wellFormed : engine'.worker.WellFormed
  fits : engine.worker.collected.length ≤ engine.config.maxBatchSize →
    engine'.worker.collected.length ≤ engine.config.maxBatchSize
  moves : Kept service engine engine' ∨ Counted service engine engine'

variable {service} {engine engine' : BatchedInferenceEngine GenConfig ModelFn Rng Error}

theorem pending_generating_cons {batch rest : List (InferenceRequest GenConfig ModelFn)}
    {request : InferenceRequest GenConfig ModelFn} {results : List String} {text : String}
    {rng rng' : Rng} {final : Bool} (left : batch.drop results.length = request :: rest)
    (generated : service.generate request rng = (.ok text, rng')) :
    pending service rng (.generating batch results final) =
      pending service rng' (.generating batch (results ++ [text]) final) := by
  have next : batch.drop (results ++ [text]).length = rest := by
    rw [List.length_append, List.length_singleton, ← List.drop_drop, left]
    rfl
  have longer (found : Except Error (List String)) :
      (found.map (text :: ·)).map (results ++ ·) = found.map (results ++ [text] ++ ·) := by
    cases found with
    | ok texts => exact congrArg Except.ok (List.append_cons results text texts)
    | error error => rfl
  rw [pending, pending, left, next, InferenceService.generateAll, generated, ← longer]

theorem Kept.inProcess_length_le (kept : Kept service engine engine') :
    engine'.worker.inProcess.length ≤ engine.worker.inProcess.length := by
  obtain ⟨more, grows⟩ := kept.grows
  have processed := kept.processed
  rw [grows, List.map_append, List.append_assoc] at processed
  rw [← List.append_cancel_left processed, List.length_append]
  exact Nat.le_add_left _ _

theorem collectBatch_move {batch : List (InferenceRequest GenConfig ModelFn)}
    (at_ : engine.worker = .collecting batch) (taken : engine.collectBatch batch = some engine') :
    WorkerMove service engine engine' := by
  have idle : pending service engine.rng engine.worker = ([], engine.rng) := by rw [at_]; rfl
  have collected : engine.worker.collected = batch := by rw [at_]; rfl
  have inProcess : engine.worker.inProcess = [] := by rw [at_]; rfl
  rw [collectBatch] at taken
  split at taken
  next room =>
    cases waiting : engine.queue with
    | nil =>
        rw [waiting] at taken
        cases taken
    | cons request rest =>
        have fits : (batch ++ [request]).length ≤ engine.config.maxBatchSize := by
          rw [List.length_append]
          exact room.1
        have order : batch ++ [request] ++ rest = engine.worker.collected ++ engine.queue := by
          rw [collected, waiting, List.append_assoc, List.singleton_append]
        have shorter : rest.length ≤ engine.queue.length := by
          rw [waiting]
          exact Nat.le_succ _
        rw [waiting] at taken
        dsimp only at taken
        split at taken
        · obtain rfl := Option.some.inj taken
          refine ⟨⟨rfl, rfl, rfl, rfl, rfl, rfl⟩, WorkerPoint.wellFormed_afterCollecting _,
            fun _ => ?_, .inl ⟨?_, ?_, ?_, shorter, rfl, rfl,
        ⟨[], (List.append_nil _).symm⟩⟩⟩
          · rwa [WorkerPoint.collected_afterCollecting]
          · rw [WorkerPoint.inProcess_afterCollecting, inProcess]
          · rw [outcome, outcome, pending_afterCollecting, idle]
          · rwa [WorkerPoint.collected_afterCollecting]
        · obtain rfl := Option.some.inj taken
          refine ⟨⟨rfl, rfl, rfl, rfl, rfl, rfl⟩, trivial, fun _ => fits,
            .inl ⟨?_, ?_, order, shorter, rfl, rfl,
        ⟨[], (List.append_nil _).symm⟩⟩⟩
          · rw [inProcess]
            rfl
          · rw [outcome, outcome, idle]
            rfl
  next =>
    obtain rfl := Option.some.inj taken
    refine ⟨⟨rfl, rfl, rfl, rfl, rfl, rfl⟩, WorkerPoint.wellFormed_afterCollecting _,
      fun fits => ?_, .inl ⟨?_, ?_, ?_, le_rfl, rfl, rfl,
        ⟨[], (List.append_nil _).symm⟩⟩⟩
    · rwa [WorkerPoint.collected_afterCollecting, ← collected]
    · rw [WorkerPoint.inProcess_afterCollecting, inProcess]
    · rw [outcome, outcome, pending_afterCollecting, idle]
    · rw [WorkerPoint.collected_afterCollecting, collected]

theorem collectTimeout_move {batch : List (InferenceRequest GenConfig ModelFn)}
    (at_ : engine.worker = .collecting batch) :
    WorkerMove service engine (engine.collectTimeout batch) := by
  have idle : pending service engine.rng engine.worker = ([], engine.rng) := by rw [at_]; rfl
  have collected : engine.worker.collected = batch := by rw [at_]; rfl
  have inProcess : engine.worker.inProcess = [] := by rw [at_]; rfl
  refine ⟨⟨rfl, rfl, rfl, rfl, rfl, rfl⟩, WorkerPoint.wellFormed_afterCollecting _,
    fun fits => ?_, .inl ⟨?_, ?_, ?_, le_rfl, rfl, rfl,
        ⟨[], (List.append_nil _).symm⟩⟩⟩
  · rwa [collectTimeout, WorkerPoint.collected_afterCollecting, ← collected]
  · rw [collectTimeout, WorkerPoint.inProcess_afterCollecting, inProcess]
  · rw [outcome, outcome, collectTimeout, pending_afterCollecting, idle]
  · rw [collectTimeout, WorkerPoint.collected_afterCollecting, collected]

theorem collectBatchNoWait_move (at_ : engine.worker = .draining) :
    WorkerMove service engine engine.collectBatchNoWait := by
  have idle : pending service engine.rng engine.worker = ([], engine.rng) := by rw [at_]; rfl
  have split : engine.queue.take engine.config.maxBatchSize ++
      engine.queue.drop engine.config.maxBatchSize = engine.queue := List.take_append_drop _ _
  have fits : (engine.queue.take engine.config.maxBatchSize).length ≤ engine.config.maxBatchSize :=
    List.length_take_le _ _
  have shorter : (engine.queue.drop engine.config.maxBatchSize).length ≤ engine.queue.length :=
    (List.drop_sublist _ _).length_le
  have collected : engine.worker.collected = [] := by rw [at_]; rfl
  have inProcess : engine.worker.inProcess = [] := by rw [at_]; rfl
  cases found : engine.queue.take engine.config.maxBatchSize with
  | nil =>
      rw [found] at split
      refine ⟨⟨rfl, rfl, rfl, rfl, rfl, rfl⟩, ?_, fun _ => ?_, .inl ⟨?_, ?_, ?_, shorter, rfl, rfl,
        ⟨[], (List.append_nil _).symm⟩⟩⟩
      · rw [collectBatchNoWait, found]
        trivial
      · rw [collectBatchNoWait, found]
        exact Nat.zero_le _
      · rw [collectBatchNoWait, found, inProcess]
        rfl
      · rw [outcome, outcome, collectBatchNoWait, found, idle]
        rfl
      · rw [collectBatchNoWait, found, collected]
        exact split
  | cons request rest =>
      rw [found] at split fits
      refine ⟨⟨rfl, rfl, rfl, rfl, rfl, rfl⟩, ?_, fun _ => ?_, .inl ⟨?_, ?_, ?_, shorter, rfl, rfl,
        ⟨[], (List.append_nil _).symm⟩⟩⟩
      · rw [collectBatchNoWait, found]
        exact List.cons_ne_nil _ _
      · rw [collectBatchNoWait, found]
        exact fits
      · rw [collectBatchNoWait, found, inProcess]
        rfl
      · rw [outcome, outcome, collectBatchNoWait, found, idle]
        rfl
      · rw [collectBatchNoWait, found, collected]
        exact split

theorem countBatch_move {batch : List (InferenceRequest GenConfig ModelFn)} {final : Bool}
    (at_ : engine.worker = .starting batch final) (formed : engine.worker.WellFormed) :
    WorkerMove service engine (engine.countBatch batch final) := by
  have collected : engine.worker.collected = batch := by rw [at_]; rfl
  rw [at_] at formed
  refine ⟨⟨rfl, rfl, rfl, rfl, rfl, rfl⟩, Nat.zero_le _, fun _ => Nat.zero_le _, .inr ?_⟩
  refine ⟨by rwa [collected], by rw [at_]; rfl, rfl, collected.symm, rfl, by rw [at_]; rfl, ?_,
    rfl, rfl, by rw [collected]; rfl⟩
  rw [collected]
  exact pending_generating_nil service engine.rng batch final

theorem generateNext_move {batch : List (InferenceRequest GenConfig ModelFn)}
    {results : List String} {final : Bool} (at_ : engine.worker = .generating batch results final)
    (formed : engine.worker.WellFormed) :
    WorkerMove service engine (engine.generateNext service batch results final) := by
  rw [at_] at formed
  have collected : engine.worker.collected = [] := by rw [at_]; rfl
  have inProcess : engine.worker.inProcess = batch := by rw [at_]; rfl
  cases left : batch.drop results.length with
  | nil =>
      have all : results.length = batch.length :=
        le_antisymm formed (List.drop_eq_nil_iff.mp left)
      rw [generateNext, left]
      refine ⟨⟨rfl, rfl, rfl, rfl, rfl, rfl⟩, all, fun _ => Nat.zero_le _,
        .inl ⟨?_, ?_, ?_, le_rfl, rfl, rfl,
        ⟨[], (List.append_nil _).symm⟩⟩⟩
      · rw [inProcess]
        rfl
      · rw [outcome, outcome, at_, pending, pending, left]
        simp only [InferenceService.generateAll, Except.map, List.append_nil]
      · rw [collected]
        rfl
  | cons request rest =>
      have more : results.length < batch.length := by
        by_contra none_left
        rw [List.drop_eq_nil_of_le (Nat.le_of_not_lt none_left)] at left
        cases left
      cases generated : service.generate request engine.rng with
      | mk result rng =>
          rw [generateNext, left]
          dsimp only
          rw [generated]
          cases result with
          | ok text =>
              have length : (results ++ [text]).length = results.length + 1 := by
                rw [List.length_append, List.length_singleton]
              refine ⟨⟨rfl, rfl, rfl, rfl, rfl, rfl⟩, ?_, fun _ => Nat.zero_le _,
                .inl ⟨?_, ?_, ?_, le_rfl, rfl, rfl,
        ⟨[], (List.append_nil _).symm⟩⟩⟩
              · rw [WorkerPoint.WellFormed, length]
                exact more
              · rw [inProcess]
                rfl
              · rw [outcome, outcome, at_, pending_generating_cons left generated]
              · rw [collected]
                rfl
          | error error =>
              refine ⟨⟨rfl, rfl, rfl, rfl, rfl, rfl⟩, trivial, fun _ => Nat.zero_le _,
                .inl ⟨?_, ?_, ?_, le_rfl, rfl, rfl,
        ⟨[], (List.append_nil _).symm⟩⟩⟩
              · rw [inProcess]
                rfl
              · rw [outcome, outcome, at_, pending, pending, left, InferenceService.generateAll,
                  generated]
                rfl
              · rw [collected]
                rfl

theorem idle_afterProcessing (final : Bool) :
    Idle service (afterProcessing final : WorkerPoint GenConfig ModelFn Error) := by
  cases final with
  | false => exact ⟨rfl, rfl, trivial, fun _ => rfl⟩
  | true => exact ⟨rfl, rfl, trivial, fun _ => rfl⟩

theorem Idle.move (before : Idle service engine.worker)
    {worker' : WorkerPoint GenConfig ModelFn Error} (after : Idle service worker') :
    WorkerMove service engine { engine with worker := worker' } := by
  refine ⟨⟨rfl, rfl, rfl, rfl, rfl, rfl⟩, after.wellFormed, fun _ => ?_,
    .inl ⟨?_, ?_, ?_, le_rfl, rfl, rfl,
        ⟨[], (List.append_nil _).symm⟩⟩⟩
  · rw [after.collected]
    exact Nat.zero_le _
  · rw [before.inProcess, after.inProcess]
  · rw [outcome, outcome, before.pending, after.pending]
  · rw [before.collected, after.collected]

theorem distributeNext_move {batch : List (InferenceRequest GenConfig ModelFn)}
    {results : List String} {final : Bool} (at_ : engine.worker = .distributing batch results final)
    (formed : engine.worker.WellFormed) :
    WorkerMove service engine (engine.distributeNext service batch results final) := by
  rw [at_] at formed
  have collected : engine.worker.collected = [] := by rw [at_]; rfl
  have inProcess : engine.worker.inProcess = batch := by rw [at_]; rfl
  cases batch with
  | nil =>
      have before : Idle service engine.worker := by
        rw [at_]
        exact ⟨rfl, rfl, formed, fun _ => rfl⟩
      exact before.move (idle_afterProcessing final)
  | cons request batch =>
      cases results with
      -- there are as many results as requests, so no result is missing
      | nil => cases formed
      | cons text results =>
          refine ⟨⟨rfl, rfl, rfl, rfl, rfl, rfl⟩, Nat.succ.inj formed, fun _ => Nat.zero_le _,
            .inl ⟨?_, ?_, ?_, le_rfl, rfl, rfl,
        ⟨[_], rfl⟩⟩⟩
          · rw [inProcess, distributeNext, List.map_append, List.append_assoc]
            rfl
          · rw [outcome, outcome, at_, distributeNext, List.append_assoc]
            rfl
          · rw [collected]
            rfl

theorem failNext_move {batch : List (InferenceRequest GenConfig ModelFn)} {error : Error}
    {final : Bool} (at_ : engine.worker = .failing batch error final) :
    WorkerMove service engine (engine.failNext batch error final) := by
  have collected : engine.worker.collected = [] := by rw [at_]; rfl
  have inProcess : engine.worker.inProcess = batch := by rw [at_]; rfl
  cases batch with
  | nil =>
      have before : Idle service engine.worker := by
        rw [at_]
        exact ⟨rfl, rfl, trivial, fun _ => rfl⟩
      exact before.move (idle_afterProcessing final)
  | cons request batch =>
      refine ⟨⟨rfl, rfl, rfl, rfl, rfl, rfl⟩, trivial, fun _ => Nat.zero_le _,
        .inl ⟨?_, ?_, ?_, le_rfl, rfl, rfl,
        ⟨[_], rfl⟩⟩⟩
      · rw [inProcess, failNext, List.map_append, List.append_assoc]
        rfl
      · rw [outcome, outcome, at_, failNext, List.append_assoc]
        rfl
      · rw [collected]
        rfl

theorem work_move (formed : engine.worker.WellFormed) (taken : engine.work service = some engine') :
    WorkerMove service engine engine' := by
  rw [work] at taken
  cases at_ : engine.worker with
  | looping =>
      rw [at_] at taken
      obtain rfl := Option.some.inj taken
      have before : Idle service engine.worker := by
        rw [at_]
        exact ⟨rfl, rfl, trivial, fun _ => rfl⟩
      refine before.move ?_
      split
      · exact ⟨rfl, rfl, trivial, fun _ => rfl⟩
      · exact ⟨rfl, rfl, trivial, fun _ => rfl⟩
  | collecting batch =>
      rw [at_] at taken
      exact collectBatch_move at_ taken
  | draining =>
      rw [at_] at taken
      obtain rfl := Option.some.inj taken
      exact collectBatchNoWait_move at_
  | starting batch final =>
      rw [at_] at taken
      obtain rfl := Option.some.inj taken
      exact countBatch_move at_ formed
  | generating batch results final =>
      rw [at_] at taken
      obtain rfl := Option.some.inj taken
      exact generateNext_move at_ formed
  | distributing batch results final =>
      rw [at_] at taken
      obtain rfl := Option.some.inj taken
      exact distributeNext_move at_ formed
  | failing batch error final =>
      rw [at_] at taken
      obtain rfl := Option.some.inj taken
      exact failNext_move at_
  | exited =>
      rw [at_] at taken
      cases taken

theorem worker_move {label : EngineLabel GenConfig ModelFn} (formed : engine.worker.WellFormed)
    (isWorker : label.isWorker) (taken : EngineStep service engine label engine') :
    WorkerMove service engine engine' := by
  cases label with
  | submit => cases isWorker
  | enqueue => cases isWorker
  | shutdown => cases isWorker
  | work => exact work_move formed taken
  | timeout =>
      rw [EngineStep, next] at taken
      cases at_ : engine.worker with
      | collecting batch =>
          rw [at_] at taken
          dsimp only at taken
          split at taken
          · obtain rfl := Option.some.inj taken
            exact collectTimeout_move at_
          · cases taken
      | _ =>
          rw [at_] at taken
          cases taken

/-! ## What a step of the callers does -/

/-- The calls of `submit`, each where it is. -/
def places (engine : BatchedInferenceEngine GenConfig ModelFn Rng Error) : List ℕ :=
  engine.refused.map Prod.fst ++
    (engine.submitting.map InferenceRequest.call ++ engine.enqueued.map InferenceRequest.call)

structure SameWorker (engine engine' : BatchedInferenceEngine GenConfig ModelFn Rng Error) :
    Prop where
  config : engine'.config = engine.config
  rng : engine'.rng = engine.rng
  worker : engine'.worker = engine.worker
  stats : engine'.stats = engine.stats
  answers : engine'.answers = engine.answers

structure CallerMove (engine engine' : BatchedInferenceEngine GenConfig ModelFn Rng Error) :
    Prop where
  sameWorker : SameWorker engine engine'
  places : engine.places.Perm (List.range engine.calls) →
    engine'.places.Perm (List.range engine'.calls)
  arrives : ∃ new, engine'.queue = engine.queue ++ new ∧ engine'.enqueued = engine.enqueued ++ new
  bounded : engine.queue.length ≤ engine.config.queueLimit →
    engine'.queue.length ≤ engine.config.queueLimit
  stops : engine.running = false → engine'.running = false

theorem submit_move (prompt : String) (genConfig : Option GenConfig) (modelFn : Option ModelFn) :
    CallerMove engine (engine.submit service prompt genConfig modelFn) := by
  have arrives : ∃ new, engine.queue = engine.queue ++ new ∧
      engine.enqueued = engine.enqueued ++ new :=
    ⟨[], (List.append_nil _).symm, (List.append_nil _).symm⟩
  have refusing : (engine.refused.map Prod.fst ++ [engine.calls] ++
      (engine.submitting.map InferenceRequest.call ++
        engine.enqueued.map InferenceRequest.call)).Perm (engine.places ++ [engine.calls]) := by
    rw [List.append_assoc, places, List.append_assoc _ _ [engine.calls]]
    exact List.perm_append_comm.append_left _
  have asking : (engine.refused.map Prod.fst ++
      (engine.submitting.map InferenceRequest.call ++ [engine.calls] ++
        engine.enqueued.map InferenceRequest.call)).Perm (engine.places ++ [engine.calls]) := by
    rw [List.append_assoc, places, List.append_assoc _ _ [engine.calls], List.append_assoc _ _ [_]]
    exact (List.perm_append_comm.append_left _).append_left _
  rw [submit]
  split
  · refine ⟨⟨rfl, rfl, rfl, rfl, rfl⟩, fun conserved => ?_, arrives, id, id⟩
    rw [List.range_succ]
    refine List.Perm.trans ?_ (conserved.append_right [engine.calls])
    rw [places, List.map_append]
    exact asking
  · refine ⟨⟨rfl, rfl, rfl, rfl, rfl⟩, fun conserved => ?_, arrives, id, id⟩
    rw [List.range_succ]
    refine List.Perm.trans ?_ (conserved.append_right [engine.calls])
    rw [places, List.map_append]
    exact refusing

theorem enqueue_move {i : ℕ} {request : InferenceRequest GenConfig ModelFn}
    (there : engine.submitting[i]? = some request) :
    CallerMove engine (engine.enqueue i request) := by
  obtain ⟨within, found⟩ := List.getElem?_eq_some_iff.mp there
  have taken : (engine.submitting.map InferenceRequest.call).Perm
      ([request.call] ++ (engine.submitting.eraseIdx i).map InferenceRequest.call) := by
    have apart := (List.getElem_cons_eraseIdx_perm within).map InferenceRequest.call
    rw [found] at apart
    exact apart.symm
  rw [enqueue]
  split
  next =>
    refine ⟨⟨rfl, rfl, rfl, rfl, rfl⟩, fun conserved => List.Perm.trans ?_ conserved,
      ⟨[], (List.append_nil _).symm, (List.append_nil _).symm⟩, id, id⟩
    rw [places, places, List.map_append, List.append_assoc, ← List.append_assoc _ _ (List.map _ _)]
    exact (taken.symm.append_right _).append_left _
  next room =>
    refine ⟨⟨rfl, rfl, rfl, rfl, rfl⟩, fun conserved => List.Perm.trans ?_ conserved,
      ⟨[request], rfl, rfl⟩, fun _ => ?_, id⟩
    · rw [places, places, List.map_append]
      refine List.Perm.append_left _ ?_
      calc _ = (engine.submitting.eraseIdx i).map InferenceRequest.call ++
              (engine.enqueued.map InferenceRequest.call ++ [request.call]) := rfl
        _ = ((engine.submitting.eraseIdx i).map InferenceRequest.call ++
              engine.enqueued.map InferenceRequest.call) ++ [request.call] :=
            (List.append_assoc _ _ _).symm
        List.Perm _ ([request.call] ++ ((engine.submitting.eraseIdx i).map InferenceRequest.call ++
              engine.enqueued.map InferenceRequest.call)) := List.perm_append_comm
        _ = [request.call] ++ (engine.submitting.eraseIdx i).map InferenceRequest.call ++
              engine.enqueued.map InferenceRequest.call := (List.append_assoc _ _ _).symm
        List.Perm _ _ := taken.symm.append_right _
    · rw [List.length_append, List.length_singleton]
      exact Nat.lt_of_not_le room

theorem caller_move {label : EngineLabel GenConfig ModelFn} (isCaller : label.isWorker = false)
    (taken : EngineStep service engine label engine') : CallerMove engine engine' := by
  cases label with
  | submit prompt genConfig modelFn =>
      obtain rfl := Option.some.inj taken
      exact submit_move prompt genConfig modelFn
  | enqueue i =>
      rw [EngineStep, next] at taken
      cases there : engine.submitting[i]? with
      | none =>
          rw [there] at taken
          cases taken
      | some request =>
          rw [there] at taken
          obtain rfl := Option.some.inj taken
          exact enqueue_move there
  | shutdown =>
      obtain rfl := Option.some.inj taken
      exact ⟨⟨rfl, rfl, rfl, rfl, rfl⟩, id,
        ⟨[], (List.append_nil _).symm, (List.append_nil _).symm⟩, id, fun _ => rfl⟩
  | work => cases isCaller
  | timeout => cases isCaller

/-! ## Whole runs -/

/-- The batches taken from the queue so far, processed in this order. -/
structure Batched (service : InferenceService GenConfig ModelFn Rng Error) (rng : Rng)
    (engine : BatchedInferenceEngine GenConfig ModelFn Rng Error)
    (batches : List (List (InferenceRequest GenConfig ModelFn))) : Prop where
  sizes : ∀ batch ∈ batches, batch ≠ [] ∧ batch.length ≤ engine.config.maxBatchSize
  requests : batches.flatten = engine.answers.map Prod.fst ++ engine.worker.inProcess
  outcome : engine.outcome service = service.processBatches rng batches
  totalBatches : engine.stats.totalBatches = batches.length
  totalRequests : engine.stats.totalRequests = batches.flatten.length

structure Sound (service : InferenceService GenConfig ModelFn Rng Error) (rng : Rng)
    (engine : BatchedInferenceEngine GenConfig ModelFn Rng Error) : Prop where
  places : engine.places.Perm (List.range engine.calls)
  ordered : engine.enqueued = engine.answers.map Prod.fst ++ engine.worker.inProcess ++
    (engine.worker.collected ++ engine.queue)
  formed : engine.worker.WellFormed
  fits : engine.worker.collected.length ≤ engine.config.maxBatchSize
  processing : engine.worker.inProcess.length ≤ engine.config.maxBatchSize
  bounded : engine.queue.length ≤ engine.config.queueLimit
  batched : ∃ batches, Batched service rng engine batches

theorem sound_start (config : BatchedInferenceConfig) (rng : Rng) :
    Sound service rng (start config rng) where
  places := .nil
  ordered := rfl
  formed := trivial
  fits := Nat.zero_le _
  processing := Nat.zero_le _
  bounded := Nat.zero_le _
  batched := ⟨[], fun _ member => absurd member List.not_mem_nil, rfl, rfl, rfl, rfl⟩

variable {rng : Rng}

theorem Sound.caller (sound : Sound service rng engine) (move : CallerMove engine engine') :
    Sound service rng engine' := by
  obtain ⟨new, queue, enqueued⟩ := move.arrives
  obtain ⟨batches, batched⟩ := sound.batched
  obtain ⟨config, rng_, worker, stats, answers⟩ := move.sameWorker
  refine ⟨move.places sound.places, ?_, ?_, ?_, ?_, ?_, batches, ?_⟩
  · rw [enqueued, sound.ordered, answers, worker, queue]
    simp only [List.append_assoc]
  · rw [worker]
    exact sound.formed
  · rw [worker, config]
    exact sound.fits
  · rw [worker, config]
    exact sound.processing
  · rw [config]
    exact move.bounded sound.bounded
  · obtain ⟨sizes, requests, outcome_, totalBatches, totalRequests⟩ := batched
    refine ⟨by rwa [config], by rwa [answers, worker], ?_, by rwa [stats], by rwa [stats]⟩
    rw [← outcome_, outcome, outcome, answers, rng_, worker]

theorem Batched.kept {batches : List (List (InferenceRequest GenConfig ModelFn))}
    (batched : Batched service rng engine batches) (same : engine'.config = engine.config)
    (kept : Kept service engine engine') : Batched service rng engine' batches where
  sizes := by rw [same]; exact batched.sizes
  requests := batched.requests.trans kept.processed.symm
  outcome := kept.outcome.trans batched.outcome
  totalBatches := kept.totalBatches.trans batched.totalBatches
  totalRequests := kept.totalRequests.trans batched.totalRequests

theorem Batched.counted {batches : List (List (InferenceRequest GenConfig ModelFn))}
    (batched : Batched service rng engine batches) (same : engine'.config = engine.config)
    (fits : engine.worker.collected.length ≤ engine.config.maxBatchSize)
    (counted : Counted service engine engine') :
    Batched service rng engine' (batches ++ [engine.worker.collected]) := by
  have answered : service.processBatches rng batches = (engine.answers, engine.rng) := by
    rw [← batched.outcome, BatchedInferenceEngine.outcome, counted.idle, List.append_nil]
  refine ⟨fun batch member => ?_, ?_, ?_, ?_, ?_⟩
  · rw [same]
    rcases List.mem_append.mp member with earlier | last
    · exact batched.sizes batch earlier
    · rw [List.mem_singleton.mp last]
      exact ⟨counted.nonempty, fits⟩
  · rw [List.flatten_append, List.flatten_singleton, batched.requests, counted.before,
      List.append_nil, counted.answers, counted.inProcess]
  · rw [InferenceService.processBatches_snoc, answered, BatchedInferenceEngine.outcome,
      counted.begun, counted.answers]
  · rw [counted.totalBatches, batched.totalBatches, List.length_append, List.length_singleton]
  · rw [counted.totalRequests, batched.totalRequests, List.flatten_append, List.flatten_singleton,
      List.length_append]

theorem Sound.worker (sound : Sound service rng engine) (move : WorkerMove service engine engine') :
    Sound service rng engine' := by
  obtain ⟨batches, batched⟩ := sound.batched
  obtain ⟨config, running, calls, submitting, refused, enqueued⟩ := move.sameCalls
  have places_ : engine'.places = engine.places := by
    rw [BatchedInferenceEngine.places, BatchedInferenceEngine.places, refused, submitting, enqueued]
  have queueLength : engine'.queue.length ≤ engine.queue.length := by
    rcases move.moves with kept | counted
    · exact kept.shorter
    · exact counted.queue ▸ le_rfl
  refine ⟨?_, ?_, move.wellFormed, ?_, ?_, ?_, ?_⟩
  · rw [places_, calls]
    exact sound.places
  · rw [enqueued, sound.ordered]
    rcases move.moves with kept | counted
    · rw [kept.processed, kept.waiting]
    · rw [counted.after, counted.inProcess, counted.answers, counted.queue, counted.before]
      simp only [List.append_nil, List.append_assoc, List.nil_append]
  · rw [config]
    exact move.fits sound.fits
  · rw [config]
    rcases move.moves with kept | counted
    · exact kept.inProcess_length_le.trans sound.processing
    · exact counted.inProcess ▸ sound.fits
  · rw [config]
    exact queueLength.trans sound.bounded
  · rcases move.moves with kept | counted
    · exact ⟨batches, batched.kept config kept⟩
    · exact ⟨_, batched.counted config sound.fits counted⟩

theorem Sound.step {label : EngineLabel GenConfig ModelFn} (sound : Sound service rng engine)
    (taken : EngineStep service engine label engine') : Sound service rng engine' := by
  cases isWorker : label.isWorker with
  | false => exact sound.caller (caller_move isWorker taken)
  | true => exact sound.worker (worker_move sound.formed isWorker taken)

theorem sound_of_run {config : BatchedInferenceConfig}
    {labels : List (EngineLabel GenConfig ModelFn)}
    (run : Run (EngineStep service) (start config rng) labels engine) : Sound service rng engine :=
  run.invariant (Sound service rng) (fun _ _ _ sound taken => sound.step taken)
    (sound_start config rng)

/-! ## Behind the shutdown -/

/-- The worker steps of the rest of the loop, once it has been told to stop. -/
def loopSteps (config : BatchedInferenceConfig) (final : Bool) : ℕ :=
  if final then 0 else 2 * config.maxBatchSize + 5

/-- A bound on the worker's steps behind the shutdown. -/
def stepsLeft (config : BatchedInferenceConfig) : WorkerPoint GenConfig ModelFn Error → ℕ
  | .looping => 2 * config.maxBatchSize + 5
  | .collecting batch => 2 * batch.length + 4 + loopSteps config false
  | .draining => 2 * config.maxBatchSize + 4
  | .starting batch final => 2 * batch.length + 3 + loopSteps config final
  | .generating batch results final =>
      batch.length - results.length + (batch.length + 2 + loopSteps config final)
  | .distributing batch _ final => batch.length + 1 + loopSteps config final
  | .failing batch _ final => batch.length + 1 + loopSteps config final
  | .exited => 0

theorem stepsLeft_afterProcessing (config : BatchedInferenceConfig) (final : Bool) :
    stepsLeft config (afterProcessing final : WorkerPoint GenConfig ModelFn Error) =
      loopSteps config final := by
  cases final with
  | false => rfl
  | true => rfl

theorem stepsLeft_generateNext (batch : List (InferenceRequest GenConfig ModelFn))
    (results : List String) (final : Bool) :
    stepsLeft engine.config (engine.generateNext service batch results final).worker <
      stepsLeft engine.config
        (.generating batch results final : WorkerPoint GenConfig ModelFn Error) := by
  cases left : batch.drop results.length with
  | nil =>
      rw [generateNext, left]
      dsimp only [stepsLeft]
      omega
  | cons request rest =>
      have more : results.length < batch.length := by
        by_contra none_left
        rw [List.drop_eq_nil_of_le (Nat.le_of_not_lt none_left)] at left
        cases left
      rw [generateNext, left]
      dsimp only
      cases service.generate request engine.rng with
      | mk result rng =>
          cases result with
          | ok text =>
              dsimp only [stepsLeft]
              rw [List.length_append, List.length_singleton]
              omega
          | error error =>
              dsimp only [stepsLeft]
              omega

theorem stepsLeft_distributeNext (batch : List (InferenceRequest GenConfig ModelFn))
    (results : List String) (final : Bool) :
    stepsLeft engine.config (engine.distributeNext service batch results final).worker <
      stepsLeft engine.config
        (.distributing batch results final : WorkerPoint GenConfig ModelFn Error) := by
  cases batch with
  | nil =>
      rw [distributeNext, stepsLeft_afterProcessing, stepsLeft, List.length_nil]
      omega
  | cons request batch =>
      cases results with
      | nil =>
          dsimp only [distributeNext, stepsLeft, List.length_cons]
          omega
      | cons text results =>
          dsimp only [distributeNext, stepsLeft, List.length_cons]
          omega

theorem stepsLeft_failNext (batch : List (InferenceRequest GenConfig ModelFn)) (error : Error)
    (final : Bool) :
    stepsLeft engine.config (engine.failNext batch error final).worker <
      stepsLeft engine.config
        (.failing batch error final : WorkerPoint GenConfig ModelFn Error) := by
  cases batch with
  | nil =>
      rw [failNext, stepsLeft_afterProcessing, stepsLeft, List.length_nil]
      omega
  | cons request batch =>
      dsimp only [failNext, stepsLeft, List.length_cons]
      omega

theorem stepsLeft_afterCollecting (config : BatchedInferenceConfig)
    (batch : List (InferenceRequest GenConfig ModelFn)) :
    stepsLeft config (afterCollecting batch : WorkerPoint GenConfig ModelFn Error) <
      stepsLeft config (.collecting batch : WorkerPoint GenConfig ModelFn Error) := by
  cases batch with
  | nil =>
      dsimp only [afterCollecting, stepsLeft, loopSteps, List.length_nil]
      rw [if_neg Bool.false_ne_true]
      omega
  | cons request rest =>
      dsimp only [afterCollecting, stepsLeft]
      omega

theorem stepsLeft_collectBatchNoWait :
    stepsLeft engine.config engine.collectBatchNoWait.worker <
      stepsLeft engine.config (.draining : WorkerPoint GenConfig ModelFn Error) := by
  have fits : (engine.queue.take engine.config.maxBatchSize).length ≤ engine.config.maxBatchSize :=
    List.length_take_le _ _
  rw [collectBatchNoWait]
  dsimp only
  cases found : engine.queue.take engine.config.maxBatchSize with
  | nil =>
      dsimp only [stepsLeft]
      omega
  | cons request rest =>
      rw [found] at fits
      dsimp only [stepsLeft, loopSteps]
      rw [if_pos rfl]
      omega

/-- Once the engine does not run, the worker can step until it has exited, and each step
brings it nearer to that. -/
theorem work_stopped (stopped : engine.running = false)
    (busy : engine.worker ≠ .exited) : ∃ engine', engine.work service = some engine' ∧
      stepsLeft engine.config engine'.worker < stepsLeft engine.config engine.worker := by
  rw [work]
  cases at_ : engine.worker with
  | looping =>
      refine ⟨_, rfl, ?_⟩
      rw [stopped, if_neg Bool.false_ne_true]
      exact Nat.lt_succ_self _
  | collecting batch =>
      have breaks : engine.collectBatch batch =
          some { engine with worker := afterCollecting batch } :=
        if_neg fun room => Bool.false_ne_true (stopped.symm.trans room.2)
      exact ⟨_, breaks, stepsLeft_afterCollecting engine.config batch⟩
  | draining => exact ⟨_, rfl, stepsLeft_collectBatchNoWait⟩
  | starting batch final =>
      refine ⟨_, rfl, ?_⟩
      dsimp only [countBatch, stepsLeft, List.length_nil]
      omega
  | generating batch results final =>
      exact ⟨_, rfl, stepsLeft_generateNext batch results final⟩
  | distributing batch results final => exact ⟨_, rfl, stepsLeft_distributeNext batch results final⟩
  | failing batch error final => exact ⟨_, rfl, stepsLeft_failNext batch error final⟩
  | exited => exact absurd at_ busy

theorem worker_step_stopped {label : EngineLabel GenConfig ModelFn}
    (stopped : engine.running = false) (isWorker : label.isWorker)
    (taken : EngineStep service engine label engine') : engine.work service = some engine' := by
  cases label with
  | submit => cases isWorker
  | enqueue => cases isWorker
  | shutdown => cases isWorker
  | work => exact taken
  | timeout =>
      rw [EngineStep, next] at taken
      cases at_ : engine.worker with
      | collecting batch =>
          rw [at_] at taken
          dsimp only at taken
          split at taken
          next waits => exact absurd (stopped.symm.trans waits.2.1) Bool.false_ne_true
          next => cases taken
      | _ =>
          rw [at_] at taken
          cases taken

theorem stays_stopped {label : EngineLabel GenConfig ModelFn} (formed : engine.worker.WellFormed)
    (stopped : engine.running = false) (taken : EngineStep service engine label engine') :
    engine'.running = false := by
  cases isWorker : label.isWorker with
  | false => exact (caller_move isWorker taken).stops stopped
  | true => exact (worker_move formed isWorker taken).sameCalls.running.trans stopped

theorem stepsLeft_le (sound : Sound service rng engine) :
    stepsLeft engine.config engine.worker ≤ 4 * engine.config.maxBatchSize + 9 := by
  obtain ⟨-, -, -, fits, processing, -, -⟩ := sound
  have loop (final : Bool) :
      loopSteps engine.config final ≤ 2 * engine.config.maxBatchSize + 5 := by
    rw [loopSteps]
    split
    · exact Nat.zero_le _
    · exact le_rfl
  cases at_ : engine.worker with
  | looping =>
      dsimp only [stepsLeft]
      omega
  | collecting batch =>
      rw [at_] at fits
      have rest := loop false
      dsimp only [stepsLeft, WorkerPoint.collected] at fits ⊢
      omega
  | draining =>
      dsimp only [stepsLeft]
      omega
  | starting batch final =>
      rw [at_] at fits
      have rest := loop final
      dsimp only [stepsLeft, WorkerPoint.collected] at fits ⊢
      omega
  | generating batch results final =>
      rw [at_] at processing
      have rest := loop final
      dsimp only [stepsLeft, WorkerPoint.inProcess] at processing ⊢
      omega
  | distributing batch results final =>
      rw [at_] at processing
      have rest := loop final
      dsimp only [stepsLeft, WorkerPoint.inProcess] at processing ⊢
      omega
  | failing batch error final =>
      rw [at_] at processing
      have rest := loop final
      dsimp only [stepsLeft, WorkerPoint.inProcess] at processing ⊢
      omega
  | exited =>
      dsimp only [stepsLeft]
      omega

/-- What a run behind the shutdown keeps. -/
structure Stopping (service : InferenceService GenConfig ModelFn Rng Error) (rng : Rng)
    (bound : ℕ) (labels : List (EngineLabel GenConfig ModelFn))
    (engine : BatchedInferenceEngine GenConfig ModelFn Rng Error) : Prop where
  sound : Sound service rng engine
  stopped : engine.running = false
  bounded : labels.countP EngineLabel.isWorker + stepsLeft engine.config engine.worker ≤ bound

theorem Stopping.step {bound : ℕ} {labels : List (EngineLabel GenConfig ModelFn)}
    {label : EngineLabel GenConfig ModelFn} (stopping : Stopping service rng bound labels engine)
    (taken : EngineStep service engine label engine') :
    Stopping service rng bound (labels ++ [label]) engine' := by
  obtain ⟨sound, stopped, bounded⟩ := stopping
  refine ⟨sound.step taken, stays_stopped sound.formed stopped taken, ?_⟩
  rw [List.countP_append, List.countP_singleton]
  cases isWorker : label.isWorker with
  | false =>
      obtain ⟨config, -, worker, -, -⟩ := (caller_move isWorker taken).sameWorker
      rw [config, worker, if_neg Bool.false_ne_true]
      exact bounded
  | true =>
      have works := worker_step_stopped stopped isWorker taken
      have busy : engine.worker ≠ .exited := by
        intro exited
        rw [work, exited] at works
        cases works
      obtain ⟨found, same, less⟩ := work_stopped stopped busy
      obtain rfl := Option.some.inj (works.symm.trans same)
      rw [(work_move sound.formed works).sameCalls.config, if_pos rfl]
      omega

/-- The worker holds no request, or those of the last batch. -/
def isFinal : WorkerPoint GenConfig ModelFn Error → Bool
  | .starting _ final => final
  | .generating _ _ final => final
  | .distributing _ _ final => final
  | .failing _ _ final => final
  | .exited => true
  | _ => false

theorem isFinal_collectBatchNoWait : isFinal engine.collectBatchNoWait.worker := by
  rw [collectBatchNoWait]
  dsimp only
  cases engine.queue.take engine.config.maxBatchSize with
  | nil => rfl
  | cons => rfl

theorem final_work (last : isFinal engine.worker) (taken : engine.work service = some engine') :
    isFinal engine'.worker ∧ engine'.queue = engine.queue := by
  rw [work] at taken
  cases at_ : engine.worker with
  | looping =>
      rw [at_] at last
      cases last
  | collecting batch =>
      rw [at_] at last
      cases last
  | draining =>
      rw [at_] at last
      cases last
  | starting batch final =>
      rw [at_] at last taken
      obtain rfl := Option.some.inj taken
      exact ⟨last, rfl⟩
  | generating batch results final =>
      rw [at_] at last taken
      obtain rfl := Option.some.inj taken
      rw [generateNext]
      split
      · exact ⟨last, rfl⟩
      · split
        · exact ⟨last, rfl⟩
        · exact ⟨last, rfl⟩
  | distributing batch results final =>
      rw [at_] at last taken
      obtain rfl := Option.some.inj taken
      obtain rfl : final = true := last
      cases batch with
      | nil => exact ⟨rfl, rfl⟩
      | cons =>
          cases results with
          | nil => exact ⟨rfl, rfl⟩
          | cons => exact ⟨rfl, rfl⟩
  | failing batch error final =>
      rw [at_] at last taken
      obtain rfl := Option.some.inj taken
      obtain rfl : final = true := last
      cases batch with
      | nil => exact ⟨rfl, rfl⟩
      | cons => exact ⟨rfl, rfl⟩
  | exited =>
      rw [at_] at taken
      cases taken

/-- Behind the last `collect_batch_no_wait` requests only arrive. -/
structure Leftover (queue enqueued : List (InferenceRequest GenConfig ModelFn))
    (engine : BatchedInferenceEngine GenConfig ModelFn Rng Error) : Prop where
  final : isFinal engine.worker
  arrived : ∃ new, engine.queue = queue ++ new ∧ engine.enqueued = enqueued ++ new

theorem Leftover.step {queue enqueued : List (InferenceRequest GenConfig ModelFn)}
    {label : EngineLabel GenConfig ModelFn} (leftover : Leftover queue enqueued engine)
    (formed : engine.worker.WellFormed) (taken : EngineStep service engine label engine') :
    Leftover queue enqueued engine' := by
  obtain ⟨final, new, queue_, enqueued_⟩ := leftover
  cases isWorker : label.isWorker with
  | false =>
      have move := caller_move isWorker taken
      obtain ⟨newer, more, later⟩ := move.arrives
      refine ⟨by rwa [move.sameWorker.worker], new ++ newer, ?_, ?_⟩
      · rw [more, queue_, List.append_assoc]
      · rw [later, enqueued_, List.append_assoc]
  | true =>
      have works : engine.work service = some engine' := by
        cases label with
        | work => exact taken
        | timeout =>
            rw [EngineStep, next] at taken
            cases at_ : engine.worker with
            | collecting batch =>
                rw [at_] at final
                cases final
            | _ =>
                rw [at_] at taken
                cases taken
        | _ => cases isWorker
      obtain ⟨final', same⟩ := final_work final works
      refine ⟨final', new, same.trans queue_, ?_⟩
      rw [(work_move formed works).sameCalls.enqueued, enqueued_]

theorem pending_of_inProcess {worker : WorkerPoint GenConfig ModelFn Error}
    (none_ : worker.inProcess = []) : pending service rng worker = ([], rng) := by
  cases worker with
  | generating batch results final =>
      obtain rfl : batch = [] := none_
      rw [pending, List.drop_nil]
      rfl
  | distributing batch results final =>
      obtain rfl : batch = [] := none_
      rfl
  | failing batch error final =>
      obtain rfl : batch = [] := none_
      rfl
  | _ => rfl

end BatchedInferenceEngine

open BatchedInferenceEngine

variable {service : InferenceService GenConfig ModelFn Rng Error}
  {config : BatchedInferenceConfig} {rng : Rng}
  {engine middle last : BatchedInferenceEngine GenConfig ModelFn Rng Error}
  {before after : List (EngineLabel GenConfig ModelFn)}

/-- What callers can rely on: no call is lost or doubled, the requests are answered in the
order in which they were enqueued, and the answers are those of processing batches one after
another. -/
structure ServesInOrder (service : InferenceService GenConfig ModelFn Rng Error) (rng : Rng)
    (engine : BatchedInferenceEngine GenConfig ModelFn Rng Error) : Prop where
  /-- A call is refused, on its way to the lock, or enqueued. -/
  conserved : (engine.refused.map Prod.fst ++ (engine.submitting.map InferenceRequest.call ++
    engine.enqueued.map InferenceRequest.call)).Perm (List.range engine.calls)
  ordered : engine.enqueued = engine.answers.map Prod.fst ++ engine.worker.inProcess ++
    (engine.worker.collected ++ engine.queue)
  queueBound : engine.queue.length ≤ engine.config.queueLimit
  batched : ∃ batches : List (List (InferenceRequest GenConfig ModelFn)),
    (∀ batch ∈ batches, batch ≠ [] ∧ batch.length ≤ engine.config.maxBatchSize) ∧
    batches.flatten = engine.answers.map Prod.fst ++ engine.worker.inProcess ∧
    engine.answers <+: (service.processBatches rng batches).1 ∧
    (engine.worker.inProcess = [] →
      service.processBatches rng batches = (engine.answers, engine.rng)) ∧
    engine.stats.totalBatches = batches.length ∧
    engine.stats.totalRequests = batches.flatten.length

theorem engine_serves_in_order
    (run : Run (EngineStep service) (start config rng) before engine) :
    ServesInOrder service rng engine := by
  have sound := sound_of_run run
  obtain ⟨batches, sizes, requests, outcome_, totalBatches, totalRequests⟩ := sound.batched
  refine ⟨sound.places, sound.ordered, sound.bounded, batches, sizes, requests, ?_, fun done => ?_,
    totalBatches, totalRequests⟩
  · rw [← outcome_, outcome]
    exact List.prefix_append _ _
  · rw [← outcome_, outcome, pending_of_inProcess done, List.append_nil]

/-- It repeats the prompt, and throws when there is none. -/
def echoService : InferenceService Unit Unit ℕ String where
  defaultGenConfig := ()
  modelFn := ()
  generateText _ _ prompt rng :=
    if prompt = "" then (.error "Input text is empty", rng) else (.ok prompt, rng + 1)
  tokenCount text := some text.length

/-- A request that fails shares its batch with one that does not. -/
theorem engine_serves_in_order_failed_batch :
    ∃ engine, engine.answers.map (fun answer => (answer.1.prompt, answer.2.toOption)) =
        [("a", none), ("", none)] ∧
      ServesInOrder echoService 0 engine := by
  let labels : List (EngineLabel Unit Unit) :=
    [.submit "a" none none, .submit "" none none, .enqueue 0, .work, .work, .enqueue 0] ++
      List.replicate 7 .work
  exact ⟨_, rfl, @engine_serves_in_order _ _ _ _ _ ⟨2, 4096, 1000⟩ 0 _ labels
    (Run.of_execute (fun _ _ _ taken => taken) (by rfl))⟩

/-- Behind `shutdown` the worker takes a bounded number of steps, and as long as it has not
exited it can take one. -/
theorem shutdown_ends (run : Run (EngineStep service) (start config rng) before engine)
    (stopped : engine.running = false) (later : Run (EngineStep service) engine after last) :
    after.countP EngineLabel.isWorker ≤ 4 * engine.config.maxBatchSize + 9 ∧
      (last.worker ≠ .exited → ∃ next', last.work service = some next') := by
  have sound := sound_of_run run
  have initially : Stopping service rng (stepsLeft engine.config engine.worker) [] engine :=
    ⟨sound, stopped, (Nat.zero_add _).le⟩
  have finally_ := later.history (Stopping service rng (stepsLeft engine.config engine.worker))
    (fun _ _ _ _ stopping taken => stopping.step taken) initially
  refine ⟨?_, fun busy => ?_⟩
  · have bounded := finally_.bounded
    have start := stepsLeft_le sound
    omega
  · obtain ⟨next', works, -⟩ := work_stopped finally_.stopped busy
    exact ⟨next', works⟩

theorem shutdown_ends_one_request :
    (List.replicate 7 (EngineLabel.work : EngineLabel Unit Unit)).countP EngineLabel.isWorker ≤
      17 := by
  let labels : List (EngineLabel Unit Unit) := [.submit "a" none none, .enqueue 0, .shutdown]
  exact (@shutdown_ends _ _ _ _ echoService ⟨2, 4096, 1000⟩ 0 _ _ labels (List.replicate 7 .work)
    (Run.of_execute (fun _ _ _ taken => taken) (by rfl)) rfl
    (Run.of_execute (fun _ _ _ taken => taken) (by rfl))).1

/-- The worker exits with the requests answered that it found at its last
`collect_batch_no_wait`, up to one batch of those still queued: all requests are answered if
and only if they were no more than a batch and none was enqueued later. -/
theorem shutdown_answers_one_batch
    (run : Run (EngineStep service) (start config rng) before engine)
    (at_ : engine.worker = .draining) (drained : engine.work service = some middle)
    (later : Run (EngineStep service) middle after last) (exited : last.worker = .exited) :
    last.answers.map Prod.fst =
        engine.answers.map Prod.fst ++ engine.queue.take engine.config.maxBatchSize ∧
      (last.answers.map Prod.fst = last.enqueued ↔
        engine.queue.length ≤ engine.config.maxBatchSize ∧ last.enqueued = engine.enqueued) := by
  have sound := sound_of_run run
  have ordered := sound.ordered
  have drains := drained
  rw [work, at_] at drains
  obtain rfl := Option.some.inj drains
  have initially : Sound service rng engine.collectBatchNoWait ∧
      Leftover (engine.queue.drop engine.config.maxBatchSize) engine.enqueued
        engine.collectBatchNoWait := by
    have taken : EngineStep service engine .work engine.collectBatchNoWait := drained
    refine ⟨sound.step taken, isFinal_collectBatchNoWait, [], ?_, ?_⟩
    · rw [List.append_nil]
      rfl
    · rw [List.append_nil]
      rfl
  obtain ⟨sound', final, new, queue_, enqueued_⟩ := later.invariant
    (fun e => Sound service rng e ∧
      Leftover (engine.queue.drop engine.config.maxBatchSize) engine.enqueued e)
    (fun _ _ _ holds taken => ⟨holds.1.step taken, holds.2.step holds.1.formed taken⟩) initially
  have ordered' := sound'.ordered
  rw [exited] at ordered'
  rw [at_] at ordered
  simp only [WorkerPoint.inProcess, WorkerPoint.collected, List.append_nil, List.nil_append]
    at ordered ordered'
  refine ⟨?_, ?_⟩
  · have whole : last.answers.map Prod.fst ++ last.queue =
        engine.answers.map Prod.fst ++ engine.queue.take engine.config.maxBatchSize ++
          last.queue :=
      calc last.answers.map Prod.fst ++ last.queue
          = engine.answers.map Prod.fst ++ engine.queue ++ new := by
            rw [← ordered', enqueued_, ordered]
        _ = engine.answers.map Prod.fst ++ (engine.queue.take engine.config.maxBatchSize ++
              engine.queue.drop engine.config.maxBatchSize) ++ new := by
            rw [List.take_append_drop]
        _ = _ := by
            rw [queue_]
            simp only [List.append_assoc]
    exact List.append_cancel_right whole
  · calc last.answers.map Prod.fst = last.enqueued ↔ last.queue = [] := by
          rw [ordered', List.self_eq_append_right]
      _ ↔ engine.queue.drop engine.config.maxBatchSize = [] ∧ new = [] := by
          rw [queue_, List.append_eq_nil_iff]
      _ ↔ engine.queue.length ≤ engine.config.maxBatchSize ∧ last.enqueued = engine.enqueued := by
          rw [List.drop_eq_nil_iff, enqueued_, eq_comm (a := engine.enqueued ++ new),
            List.self_eq_append_right]

/-- Two requests wait when the worker takes its last batch of one, so one is never answered. -/
theorem shutdown_answers_one_batch_of_two :
    ∃ last : BatchedInferenceEngine Unit Unit ℕ String,
      last.answers.map (fun answer => answer.1.prompt) = ["a"] ∧
        last.answers.map Prod.fst ≠ last.enqueued := by
  let labels : List (EngineLabel Unit Unit) :=
    [.submit "a" none none, .submit "b" none none, .enqueue 0, .enqueue 0, .shutdown, .work]
  have drained := @shutdown_answers_one_batch _ _ _ _ echoService ⟨1, 4096, 1000⟩ 0 _ _ _ labels
    (List.replicate 5 .work) (Run.of_execute (fun _ _ _ taken => taken) (by rfl)) rfl rfl
    (Run.of_execute (fun _ _ _ taken => taken) (by rfl)) rfl
  refine ⟨_, List.map_map.symm.trans (congrArg (List.map InferenceRequest.prompt) drained.1),
    fun all => ?_⟩
  exact absurd (drained.2.mp all).1 (by decide)

end Adai.Serving

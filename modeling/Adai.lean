import Adai.Math.TransitionSystem
import Adai.Registry.ClaimSafety
import Adai.Registry.UnitsKept
import Adai.Registry.CommitAgreement
import Adai.Registry.RecordsKept
import Adai.Registry.Assignments
import Adai.Metrics.ArchiveOrder
import Adai.Math.PairMerge
import Adai.Math.Backtracking
import Adai.Math.Tables
import Adai.Tokenizer.Coding
import Adai.Tokenizer.VocabRoundTrip
import Adai.Decoding.SamplingExact
import Adai.ModelNames.ProductionRoles
import Adai.ModelNames.RunOwnership
import Adai.ModelNames.ProgressKept
import Adai.Metrics.ExclusiveStart
import Adai.Samples.SampleLine
import Adai.Conversation.Limits
import Adai.Conversation.RoundTrip
import Adai.Ftp.PassivePorts
import Adai.Ftp.SessionCounts
import Adai.Parquet.ColumnRoundTrip
import Adai.Serving.EngineRuns
import Adai.Sessions.BatchRoom
import Adai.Sessions.FailedRequests
import Adai.Sessions.BatchEquals
import Adai.Math.SectionLoads
import Adai.Checkpoint.RoundTrip
import Adai.Checkpoint.Safetensors
import Adai.Training.Settlement
import Adai.Training.StateFollowsWeights
import Adai.Training.Retention
import Adai.Training.CheckpointTickets
import Adai.Epochs.BestWeights
import Adai.Epochs.ExactSteps
import Adai.Sessions.JsonEscape
import Adai.Gradients.SIGReg
import Adai.Gradients.CrossEntropy
import Adai.Gradients.PPOOptimizer
import Adai.Transformer.EncoderBlock
import Adai.Tokenizer.NoInjection
import Adai.Tokenizer.MergeMemo
import Adai.Parquet.ThriftFields
import Adai.Parquet.ParsingEnds
import Adai.Fetching.FetchTargets
import Adai.Fetching.RowsReadBack
import Adai.Parquet.AtomicConversion
import Adai.Fetching.SlicesCompose
import Adai.Tokenizer.VisibleText
import Adai.Registry.TransportsAgree
import Adai.Samples.ConversationFile
import Adai.Math.BoundedSearch
import Adai.Math.JsonGrammar
import Adai.Samples.JsonMembers
import Adai.Conversation.NewestMessage
import Adai.Tokenizer.TrainingOrder
import Adai.ModelNames.TagsRoundTrip
import Adai.ModelNames.LegacyMigration
import Adai.Decoding.EarlyStopping
import Adai.Decoding.MinLength
import Adai.Memory.SwapFile
import Adai.Metrics.PersistedOnce
import Adai.Metrics.PushDelivery
import Adai.Transformer.Attention
import Adai.Transformer.MergeLora
import Adai.Retrieval.RAGInference
import Adai.Transformer.CachedDecoding
import Adai.Transformer.TeacherForcing
import Adai.Transformer.ModelGradient
import Adai.Transformer.AddedParts
import Adai.Transformer.TrainingStep
import Adai.Registry.PathProblem
import Adai.Quality.RougeL
import Adai.Samples.SplitData
import Adai.Training.CheckpointFiles
import Adai.Retrieval.BudgetUsed
import Adai.Registry.SweepExact
import Adai.Registry.TextFiles
import Adai.Optimization.StateFile
import Adai.Samples.CacheExact

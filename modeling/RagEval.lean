import RagEval.Api.AsyncEndpoints
import RagEval.Api.BearerTokens
import RagEval.Api.BlockedUsers
import RagEval.Api.RefreshPermissions
import RagEval.Jobs.ConcurrentUpdates
import RagEval.Jobs.ConsumeLoop
import RagEval.Jobs.Expiry
import RagEval.Jobs.WireRefinement
import RagEval.Jobs.RecordConsistency
import RagEval.Jobs.RecordSchema
import RagEval.Security.PermissionAgreement
import RagEval.Security.Revocation
import RagEval.Security.SigningKey
import RagEval.Security.TokenKinds
import RagEval.Workflows.StepOrder
import RagEval.Workflows.AcceptedWorkflows
import RagEval.Evaluation.UseCases
import RagEval.Middleware.TokenIdentity
import RagEval.Api.Credentials
import RagEval.Api.Pagination
import RagEval.Evaluation.ClassificationLaws
import RagEval.Evaluation.RagasMultiTurn
import RagEval.Workflows.EffectiveConfig
import RagEval.Workflows.EmptyChunks
import RagEval.Workflows.PiiRedaction
import RagEval.Security.Redaction
import RagEval.Security.Wildcards
import RagEval.Workflows.Ownership
import RagEval.Core.FeatureFlags
import RagEval.Jobs.KafkaPublisher
import RagEval.Api.TracingBlocks
import RagEval.Api.RateLimit
import RagEval.Core.Env
import RagEval.Core.DatabaseUrl
import RagEval.Workflows.ReadBack
import RagEval.Workflows.HashVerdicts
import RagEval.Api.AccessDecisions
import RagEval.Api.TokenUses
import RagEval.Api.TenantBlindness
import RagEval.Jobs.Polling
import RagEval.Security.ApiKeyLedger
import RagEval.Jobs.BothVersions
import RagEval.Workflows.Reranking

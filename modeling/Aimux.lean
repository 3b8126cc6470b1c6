import Aimux.Core.StreamAgreement
import Aimux.Core.GenerateToolCalls
import Aimux.Provider.ChatToolCallsStrict
import Aimux.Provider.StrictPartsOutput
import Aimux.Ops.BoundedQueueAccounting
import Aimux.Ops.HandleIsolation
import Aimux.Ops.OperationDelivery
import Aimux.Ops.OperationAudio
import Aimux.Ops.FrameStream
import Aimux.Ops.HandleText
import Aimux.Trace.IndexSize
import Aimux.Trace.Accounting
import Aimux.Trace.SessionChain
import Aimux.Trace.LcpBounds
import Aimux.Trace.ScopeKey
import Aimux.Trace.Denoise
import Aimux.Recorder.RecordersAgree
import Aimux.Recorder.OutcomeStream
import Aimux.Recorder.Context
import Aimux.Composite.Calls
import Aimux.Composite.RetryContract
import Aimux.Composite.MoaStream
import Aimux.Composite.UsageSums
import Aimux.Http.Userinfo
import Aimux.Http.CanonicalQuery
import Aimux.Session.StoreRun
import Aimux.Session.Inferer
import Aimux.Provider.PipeThrough
import Aimux.Provider.ArgumentState
import Aimux.OpenAi.MessageText
import Aimux.Core.JsonRepairValues
import Aimux.Bedrock.ChatMessages
import Aimux.Bedrock.ChatStreamRun
import Aimux.Bedrock.FlippedBits
import Aimux.Google.DeliveredArguments
import Aimux.Google.NestedPaths
import Aimux.Google.Signatures
import Aimux.Prompt.Downloads
import Aimux.Prompt.ToolOptions
import Aimux.Replay.CutBodies
import Aimux.Replay.ExactMatch
import Aimux.Replay.Ranking
import Aimux.Responses.StreamedInputs
import Aimux.Wire.ErrorRoundTrip
import Aimux.Bedrock.JsonObjectText
import Aimux.Bedrock.PrepareTools
import Aimux.Anthropic.PromptMessages
import Aimux.Anthropic.ToolSchemas
import Aimux.Anthropic.SanitizedSchemas
import Aimux.Wire.FileBytes
import Aimux.Provider.MultipartForm
import Aimux.Ops.TextStreamAgreement
import Aimux.Responses.RotatedRuns
import Aimux.Core.ToolMessageOrder
import Aimux.Trace.HashTails
import Aimux.Wire.MediaTypeCuts
import Aimux.Structured.SentSchema

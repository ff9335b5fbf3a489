import Teamspace.Agent.BackendsAgree
import Teamspace.Agent.ClearFinal
import Teamspace.Agent.ClearScope
import Teamspace.Agent.CommitSoundness
import Teamspace.Agent.Consent
import Teamspace.Agent.FlowCompletion
import Teamspace.Agent.Consumption
import Teamspace.Agent.Gate
import Teamspace.Agent.JwksCache
import Teamspace.Agent.AgentConfigCache
import Teamspace.Agent.Pkce
import Teamspace.Agent.ValidateToken
import Teamspace.Api.Attribution
import Teamspace.Api.Authenticators
import Teamspace.Api.Isolation
import Teamspace.Api.JwksCache
import Teamspace.Api.LazyDatabase
import Teamspace.Api.ServiceReads
import Teamspace.Common.ServiceTokenSound
import Teamspace.Common.ServiceTokenTotal
import Teamspace.Lib.Guarantee
import Teamspace.Lib.Trace
import Teamspace.Webapp.ChatStream
import Teamspace.Webapp.AgentIdentities
import Teamspace.Webapp.Branding
import Teamspace.Webapp.Gates
import Teamspace.Webapp.LoginFlow
import Teamspace.Webapp.PaidFeatures
import Teamspace.Webapp.Portal
import Teamspace.Webapp.Session
import Teamspace.Webapp.StoredPlans
import Teamspace.Agent.Threads
import Teamspace.Lib.Noninterference
import Teamspace.Agent.ThreadIsolation
import Teamspace.Agent.TokenContext
import Teamspace.Agent.PreviewCoherence
import Teamspace.Agent.DelegatedTokens
import Teamspace.Agent.ToolEffects
import Teamspace.Agent.ToolLoops
import Teamspace.Agent.ChatHistory
import Teamspace.Lib.Replay
import Teamspace.Agent.ChatEndpoints
import Teamspace.Agent.Transcript
import Teamspace.Common.ServiceGate
import Teamspace.Common.SafeAuthLogger
import Teamspace.Common.FastapiErrors
import Teamspace.Api.StoredBranding
import Teamspace.Api.TenantHistories
import Teamspace.Api.TenantStore
import Teamspace.Api.TenantRefinement
import Teamspace.Api.Schemas
import Teamspace.Api.MeetingLanguage
import Teamspace.Api.ColumnWidths
import Teamspace.Api.RequestModels
import Teamspace.Webapp.BrandingReset
import Teamspace.Lib.Interleaving
import Teamspace.Py.JsonLayout
import Teamspace.Common.TokenErrorLog
import Teamspace.Webapp.BrandingSync
import Teamspace.Api.EditRoundTrip
import Teamspace.Webapp.BrandingPayload
import Teamspace.Webapp.IdpDeletion
import Teamspace.Webapp.IdpGroups
import Teamspace.Py.CaseTables
import Teamspace.Lib.Runs
import Teamspace.Webapp.Slugs
import Teamspace.Webapp.Organizations
import Teamspace.Webapp.LoginFlowForm
import Teamspace.Py.QueryString
import Teamspace.Agent.AuthorizeLink
import Teamspace.Lib.Regex
import Teamspace.Py.Urls
import Teamspace.Setup.CallbackUrls
import Teamspace.Py.Format
import Teamspace.Agent.SystemInstruction
import Teamspace.Lib.Slots
import Teamspace.Agent.McpStreams
import Teamspace.Webapp.SlugNormalForm
import Teamspace.Agent.StreamConsumption
import Teamspace.Py.Markup
import Teamspace.Agent.Messages
import Teamspace.Py.Bytes
import Teamspace.Webapp.JwtInspector
import Teamspace.Agent.OrganizationConfig
import Teamspace.Agent.Service
import Teamspace.Agent.Conversations
import Teamspace.Webapp.EditIdpRoundTrip

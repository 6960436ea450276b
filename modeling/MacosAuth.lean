import MacosAuth.Agent.Workers
import MacosAuth.Effect.Contract
import MacosAuth.Effect.System
import MacosAuth.Agent.Allowlist
import MacosAuth.Agent.HostsUpdate
import MacosAuth.Agent.Availability
import MacosAuth.Agent.ConfigReplacement
import MacosAuth.Agent.SlotDiscipline
import MacosAuth.Agent.RateLimit
import MacosAuth.Agent.Confirmation
import MacosAuth.Helper.Trust
import MacosAuth.Helper.AtMostOnce
import MacosAuth.Helper.Override
import MacosAuth.Helper.PreparedRun
import MacosAuth.EndToEnd.Acceptance
import MacosAuth.Pam.HelperPath
import MacosAuth.Pam.Supervision
import MacosAuth.EndToEnd.KeyFiles
import MacosAuth.EndToEnd.Framing
import MacosAuth.EndToEnd.Freshness
import MacosAuth.Agent.Deadlines
import MacosAuth.Release.SnapshotDigest
import MacosAuth.Effect.Total
import MacosAuth.Helper.MarkerCleanup
import MacosAuth.Unix.PathStore
import MacosAuth.Release.Overlay
import MacosAuth.Collections.LastWins
import MacosAuth.Release.Python
import MacosAuth.Release.Artifacts
import MacosAuth.Release.Collect
import MacosAuth.Release.Provenance
import MacosAuth.Release.Verification
import MacosAuth.Release.Gathering
import MacosAuth.Release.Assembly
import MacosAuth.Release.Collection
import MacosAuth.Release.SourceOrder
import MacosAuth.Release.Refusal
import MacosAuth.Release.Upload
import MacosAuth.Pam.Descriptors
import MacosAuth.Agent.ListenerRuns
import MacosAuth.Release.Bystanders
import MacosAuth.Release.Build
import MacosAuth.Release.Notarize
import MacosAuth.EndToEnd.Unanswered
import MacosAuth.EndToEnd.Login

import BananaChat.Credits.WindowPartition
import BananaChat.Answers.ChargedOnce
import BananaChat.Runs.EndOnce
import BananaChat.Queue.NextStarts
import BananaChat.Workers.ClaimMessages
import BananaChat.Workers.RelayOrder
import BananaChat.Subscriptions.Exclusive
import BananaChat.Subscriptions.StreamProtocol
import BananaChat.Generation.Protocol
import BananaChat.Backups.NoDowngrade
import BananaChat.Community.Covered
import BananaChat.Community.Cap
import BananaChat.Community.InForce
import BananaChat.Checkpoints.FailedSaves
import BananaChat.Checkpoints.Crash
import BananaChat.Limits.IdleBuckets
import BananaChat.Agents.BudgetKept
import BananaChat.Tunnels.Fates
import BananaChat.Answers.Drained
import BananaChat.SignIn.CodesOnce
import BananaChat.SignIn.Confirmations
import BananaChat.Agents.WorkspaceSafe
import BananaChat.Agents.NothingLeft
import BananaChat.Runner.Accounted
import BananaChat.Storage.Atomic
import BananaChat.Storage.Resumed
import BananaChat.Releases.Undisturbed
import BananaChat.Allowances.SpeedRuns
import BananaChat.Allowances.Floors
import BananaChat.Images.ChargedOnce
import BananaChat.Workers.CommandsKept
import BananaChat.Subscriptions.LoginsKept
import BananaChat.Limits.RetryAfter
import BananaChat.Allowances.CapacityFactor
import BananaChat.Allowances.GrantsKept
import BananaChat.Allowances.ModelUsage
import BananaChat.Allowances.EffortKept
import BananaChat.Allowances.PromotionKept
import BananaChat.Subscriptions.Counters
import BananaChat.Subscriptions.FailedReports
import BananaChat.Agents.EditFile
import BananaChat.Agents.FitContext
import BananaChat.Agents.GitSourceSafe
import BananaChat.Chats.PagesCover
import BananaChat.Downloads.Tidying
import BananaChat.Migrations.RunAgain
import BananaChat.Providers.Replayed
import BananaChat.Providers.StreamsRead
import BananaChat.Subscriptions.CatalogKept
import BananaChat.Tunnels.Client
import BananaChat.Tunnels.Decoded
import BananaChat.Tunnels.Socks
import BananaChat.Exports.Streamed
import BananaChat.Models.Replacement
import BananaChat.Models.Absences
import BananaChat.Agents.Paths
import BananaChat.Agents.Uploads
import BananaChat.Agents.StoredUploads
import BananaChat.Chats.SearchPlaces
import BananaChat.Runner.Connections
import BananaChat.Chats.Channel
import BananaChat.Chats.Reasoning
import BananaChat.Workers.LocalOllama
import BananaChat.Providers.Nesting
import BananaChat.Providers.AnthropicBody
import BananaChat.Background.Scheduler

import GuildBot.Main
import GuildBot.Rehearsal.CacheTrial
import GuildBot.Cache.Watch
import GuildBot.Proofs.Cache.Fetch
import GuildBot.Proofs.Flow.Queue
import GuildBot.Proofs.Cache.WatchTurn
import GuildBot.Proofs.Cache.SingleFlight
import GuildBot.Proofs.Cache.Entry
import GuildBot.Proofs.Cache.FetchSpacing
import GuildBot.Proofs.Flow.SingleTask
import GuildBot.Proofs.Bot.Push
import GuildBot.Proofs.Rehearsal.Step
import GuildBot.Proofs.Rehearsal.Ledger
import GuildBot.Rehearsal.Traffic
import GuildBot.Proofs.Activity.Track
import GuildBot.Proofs.Bot.Identity
import GuildBot.Proofs.Rehearsal.Traffic
import GuildBot.Rehearsal.Evidence
import GuildBot.Proofs.Rehearsal.Journal
import GuildBot.Proofs.Rehearsal.Evidence
import GuildBot.Proofs.Rehearsal.Gate
import GuildBot.Proofs.Rehearsal.OptIn
import GuildBot.Flow.Course
import GuildBot.Proofs.Flow.Step
import GuildBot.Proofs.Flow.Rest
import GuildBot.Proofs.Flow.Course
import GuildBot.Proofs.Flow.Wakeup
import GuildBot.Proofs.Flow.InProgress
import GuildBot.Proofs.Flow.Timers
import GuildBot.Proofs.Flow.Deadline
import GuildBot.Proofs.Bot.Timeout
import GuildBot.Flow.Scene
import GuildBot.Proofs.Flow.Scene
import GuildBot.Proofs.Flow.Staged
import GuildBot.Proofs.Flow.Rules
import GuildBot.Proofs.Flow.Lawful
import GuildBot.Bot.Round
import GuildBot.Proofs.Bot.Rules
import GuildBot.Proofs.Bot.Telling
import GuildBot.Proofs.Bot.Flag
import GuildBot.Proofs.Bot.Round
import GuildBot.Proofs.Bot.Announcement
import GuildBot.Proofs.Cache.Lifetime
import GuildBot.Proofs.Rehearsal.OptOut
import GuildBot.Rehearsal.Diary
import GuildBot.Proofs.Flow.Blind
import GuildBot.Proofs.Rehearsal.Desk
import GuildBot.Proofs.Rehearsal.Diary
import GuildBot.Proofs.Rehearsal.GuildLog
import GuildBot.Proofs.Bot.Fetching
import GuildBot.Proofs.Rehearsal.Overlap
import GuildBot.Bot.Duty
import GuildBot.Proofs.Flow.Turns
import GuildBot.Proofs.Bot.Attendance
import GuildBot.Proofs.Bot.Duty
import GuildBot.Proofs.Bot.Accounting
import GuildBot.Proofs.Flow.Crowd
import GuildBot.Proofs.Cache.Traces
import GuildBot.Proofs.Cache.Rules
import GuildBot.Proofs.Flow.ProgressEvaluation
import GuildBot.Proofs.Cache.InTurn
import GuildBot.Proofs.Cache.Join
import GuildBot.Proofs.Cache.Joined
import GuildBot.Rehearsal.SharedTracker
import GuildBot.Proofs.Flow.Stages
import GuildBot.Proofs.Rehearsal.SharedTracker
import GuildBot.Proofs.Rehearsal.Chain
import GuildBot.Rehearsal.ConcurrentErrands
import GuildBot.Proofs.Flow.Invariant
import GuildBot.Proofs.Bot.ActionProperty
import GuildBot.Proofs.Bot.Faithful
import GuildBot.Proofs.Rehearsal.ConcurrentErrands
import GuildBot.Proofs.Dice.Command
import GuildBot.Proofs.Cache.History
import GuildBot.Proofs.Bot.Message
import GuildBot.Flow.Waiting
import GuildBot.Proofs.Flow.LockFree
import GuildBot.Proofs.Flow.Apart
import GuildBot.Proofs.Flow.MachineBehaves
import GuildBot.Proofs.Flow.Waiting
import GuildBot.Proofs.Bot.Stocked
import GuildBot.Rehearsal.DroppedErrands
import GuildBot.Proofs.Rehearsal.DroppedErrands
import GuildBot.Proofs.Dice.Scripts
import GuildBot.Change.Account
import GuildBot.Proofs.Change.Series
import GuildBot.Proofs.Rehearsal.Echo
import GuildBot.Dice.Report
import GuildBot.Proofs.Dice.Fairness
import GuildBot.Proofs.Dice.Report
import GuildBot.Rehearsal.Address
import GuildBot.Proofs.Activity.Decision
import GuildBot.Proofs.Rehearsal.Address
import GuildBot.Proofs.Rehearsal.LostNews
import GuildBot.Document.Toml.Plain
import GuildBot.Proofs.Text.Span
import GuildBot.Proofs.Document.Plain
import GuildBot.Settings.Origin
import GuildBot.Proofs.Settings.Winner
import GuildBot.Proofs.Settings.Load
import GuildBot.Proofs.Change.Roles
import GuildBot.Proofs.Text.Integer
import GuildBot.Bot.Client
import GuildBot.Proofs.Bot.Client

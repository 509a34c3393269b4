import GuildBot.Bot.Audience
import GuildBot.Flow.Machine
/-!
# Processing an event

An event that arrives from the platform is resolved, its ids being replaced by records, and the
listeners are told of it; a pushed update goes to the directory. Resolving never fails: where a
lookup does, a partial record stands in.
-/

namespace GuildBot

open Platform

namespace Bot

def resolveMessage (raw : RawMessage) : Action Message := do
  let author ← (← Directory.user raw.authorId raw.guildId).makeDo Action.note "author"
  let guild ← (← Directory.guild raw.guildId).makeDo Action.note "guild"
  let channel ← (← Directory.channel raw.channelId).makeDo Action.note "channel"
  return {
    guild
    channel := channel.getD { id := raw.channelId }
    author := author.getD { id := raw.authorId }
    id := raw.messageId
    content := raw.content }

def resolveVoice (raw : RawVoice) : Action VoiceUpdate := do
  let guild ← (← Directory.guild raw.guildId).makeDo Action.note "guild"
  let channel ← match raw.channelId with
    | some id => do (← Directory.channel id).makeDo Action.note "channel"
    | none => pure none
  let user ← (← Directory.user raw.userId raw.guildId).makeDo Action.note "user"
  return { guild, user := user.getD { id := raw.userId }, channel }

def nothingMore : Audience.Telling (List String) := ⟨[], fun _ => .done []⟩

/-- Processes an event. The bot ignores what it wrote itself. -/
def process : RawEvent → Action (Audience.Telling (List String))
  | .message raw => do
    if raw.fromSelf then
      Action.note .debug s!"Ignoring own message {raw.messageId}."
      return nothingMore
    else Audience.announce (.message (← resolveMessage raw))
  | .voice raw => do Audience.announce (.voice (← resolveVoice raw))
  | .member update => do
    let _ ← Directory.absorbMember update
    return nothingMore
  | .channel update => do
    let _ ← Directory.absorbChannel update
    return nothingMore

def work (raw : RawEvent) : Work Bot Lock Call.Answer (Option String) (List String) :=
  .ofPlan (process raw)

/-- Spans that do not fit a signed 64-bit number of seconds count as thirty years. -/
def longestTimeout : Nat := 30 * 365 * 24 * 60 * 60

def timeLimit (settings : Settings) : Nat :=
  (if settings.eventTimeout ≤ Text.maxSigned64 then settings.eventTimeout else longestTimeout) * 1000

/-- How an event that ran under the time limit ended, as an outcome. -/
def timedOutcome (settings : Settings) : Ending (List String) → Option (Outcome Unit)
  | .value _ => some (.ok ())
  | .timedOut => some (.error (.of (.timedOut (.ofSeconds settings.eventTimeout))))
  | .panicked => none

end Bot

end GuildBot

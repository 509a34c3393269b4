import GuildBot.Rehearsal.Ledger
/-!
# Voice traffic

Runs in which users come and go in voice while records are looked up, updates are pushed and clocks
are moved, and what is to be told of the comings and goings.
-/

namespace GuildBot

open Platform

def RawVoice.place? (raw : RawVoice) : Option String := raw.channelId.filter (· ≠ "")

namespace Platform

/-- A truthful platform that answers what it is asked, if only by a failure; that lists the channels
of every guild, one of that name among them; and to which messages are sent, whatever then becomes of
them. -/
structure Dependable (p : Behaviour) (logChannel : String) : Prop extends Truthful p where
  answers : ∀ ds c, c.IsFetch → (p ds c).result.isSome = true
  lists : ∀ ds guildId, (p ds (.fetchGuildChannels guildId)).sent = true ∧
    ∃ channels : List Channel, (p ds (.fetchGuildChannels guildId)).result = some (.ok channels) ∧
      ∃ c ∈ channels, c.name = logChannel
  sends : ∀ ds channelId text, (p ds (.sendMessage channelId text)).sent = true

/-- Whether a channel is the log channel of a guild: the first of the name in a list of the guild's
channels that the platform has given by the time that `ds` is done. -/
def IsLogChannel (p : Behaviour) (name guildId channelId : String) (ds : List Deed) : Prop :=
  ∃ before, before ++ [.call (.fetchGuildChannels guildId)] <+: ds ∧
    ∃ channels : List Channel, (p before (.fetchGuildChannels guildId)).result = some (.ok channels) ∧
      (channels.find? fun c => c.name = name).map Channel.id = some channelId

end Platform

def Deed.message? : Deed → Option (String × String)
  | .call (.sendMessage channelId text) => some (channelId, text)
  | _ => none

/-- The messages that one bot has sent and an earlier one had not. -/
def Bot.messagesSince (b b' : Bot) : List (String × String) :=
  (b'.deeds.drop b.deeds.length).filterMap Deed.message?

namespace Rehearsal

/-- Whether a step is part of the traffic: something about the directory or a clock, or an event that
is processed, other than a message. -/
def Step.IsTraffic : Step → Prop
  | .process (.message _) => False
  | .process _ => True
  | s => s.IsDirectory

/-- Where a user was last announced to be after a step, if they were announced to be somewhere before
it. -/
def nextPlace? (userId : String) (place : Option String) : Step → Option String
  | .process (.voice raw) => if userId = raw.userId then raw.place? else place
  | _ => place

def lastPlace? (userId : String) (steps : List Step) : Option String :=
  steps.foldl (nextPlace? userId) none

namespace Session

/-- Whether, at every change in voice, what is cached then would expire before the clock ends. -/
def StaysInRange : Bot → List Step → Prop
  | _, [] => True
  | b, s :: rest => ((∃ raw, s = .process (.voice raw)) → (b.now.add? b.lifetime).isSome = true) ∧
      StaysInRange (stepBot b s).2.2 rest

/-- What an announced change in voice is resolved to. -/
def resolved? (b : Bot) (raw : RawVoice) : Option VoiceUpdate :=
  match (stepBot b (.resolveVoice raw)).1 with
  | .voice update => some update
  | _ => none

/-- The name that a channel has by now, or the one that it was seen under if it cannot be looked
up. -/
def nameNow (b : Bot) (seen : Channel) : String :=
  match (stepBot b (.look (.channel seen.id))).1 with
  | .found (.channel (.ok (some channel))) => channel.name
  | _ => seen.name

end Session

/-- The channels that users were last announced to be in, as they were resolved then. -/
abbrev Sightings : Type := String → Option Channel

namespace Sightings

/-- Takes account of a user who is seen in a channel, or in none. -/
def see (seen : Sightings) (userId : String) (channel : Option Channel) : Sightings :=
  fun other => if other = userId then channel else seen other

def step (seen : Sightings) (b : Bot) : Step → Sightings
  | .process (.voice raw) =>
    seen.see raw.userId ((Session.resolved? b raw).bind VoiceUpdate.channel)
  | _ => seen

def after (seen : Sightings) : Bot → List Step → Sightings
  | _, [] => seen
  | b, s :: rest => (seen.step b s).after (Session.stepBot b s).2.2 rest

end Sightings

/-- Tells of a user's way by the names of the channels that they left and joined. -/
def wayText (name : String) : Option String → Option String → String
  | none, none => name
  | none, some next => s!"{name} joined {next}"
  | some previous, none => s!"{name} left {previous}"
  | some previous, some next => s!"{name} moved from {previous} to {next}"

def trackingBot (settings : Settings) (platform : Behaviour) (clock : Clock)
    (handClock wallClock : Instant) (id : String) (trackerClock : Clock) : Bot :=
  ((Bot.ofSettings settings platform clock handClock wallClock).register id .activity
    trackerClock).2

end Rehearsal

end GuildBot

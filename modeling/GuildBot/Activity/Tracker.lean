import GuildBot.Activity.Transition
import GuildBot.Cache.Fetch
import GuildBot.Listener.Tools
/-!
# The activity tracker

Writes the ways of users through the voice channels into a log channel of each guild. Where a
tracking role is set, only users who hold it are tracked, and the decision about a user is kept
for a while. The tracker remembers the channel it last saw each tracked user in, in all guilds
together, and the log channel it once found in a guild.
-/

namespace GuildBot

open Std

namespace Activity

structure Tracker where
  /-- The channel that each user was last seen in; a user who was seen to leave has none. -/
  lastSeen : ExtTreeMap String Channel := ∅
  /-- The id of the log channel of each guild where one was found. -/
  logChannels : ExtTreeMap String String := ∅
  /-- Whom to track. -/
  decisions : Cache UserKey Bool

/-- A tracker that has seen nothing, and keeps its decisions for `d`. -/
def Tracker.ofDuration (d : Duration) : Tracker := { decisions := .ofDuration d }

/-- Remembers the channel of a user, and tells the one they were seen in before. -/
def Tracker.see (t : Tracker) (userId : String) (channel : Option Channel) : Option Channel × Tracker :=
  (t.lastSeen[userId]?,
    { t with lastSeen := match channel with
        | some c => t.lastSeen.insert userId c
        | none => t.lastSeen.erase userId })

/-- What a tracker is to write where, and whom it is to track. -/
structure Policy where
  logChannel : String
  /-- The name of the role of those to track; with none, everyone is tracked. -/
  role : Option String
  deriving DecidableEq, Repr, Inhabited

/-- Where programs find a tracker in their state, the clock it goes by, and its lock. -/
structure Place (σ ℓ : Type) where
  view : σ → Tracker
  put : Tracker → σ → σ
  now : σ → Instant
  lock : ℓ

variable {σ ℓ γ : Type} {answer : γ → Type}

def Place.decisions (p : Place σ ℓ) : Cache.Place σ ℓ UserKey Bool where
  view s := (p.view s).decisions
  put decisions s := p.put { p.view s with decisions } s
  now := p.now
  lock := p.lock

/-- Finds out whether a user holds the tracking role in a guild. Where a lookup fails they do
not. -/
def holdsRole (tools : Tools σ ℓ answer) (role guildId userId : String) :
    Program σ ℓ answer Bool := do
  let guild ← (← tools.guild guildId).makeDo tools.note "guild"
  match guild.bind (·.roleId? role) with
  | none =>
    tools.note .debug s!"Guild has no `{role}` role."
    return false
  | some roleId =>
    let user ← (← tools.user userId guildId).makeDo tools.note "user"
    if user.any (·.hasRole guildId roleId) then
      tools.note .info s!"User {userId} is opted into tracking."
      return true
    else return false

def isTracked (tools : Tools σ ℓ answer) (policy : Policy) (place : Place σ ℓ)
    (guildId userId : String) : Program σ ℓ answer Bool :=
  match policy.role with
  | none => return true
  | some role => do
    let decision : Except Empty Bool ← place.decisions.get ⟨userId, guildId⟩ do
      return .ok (← holdsRole tools role guildId userId)
    match decision with
    | .ok tracked => return tracked

def findLogChannel (tools : Tools σ ℓ answer) (name guildId : String) :
    List Channel → Program σ ℓ answer (Option String)
  | [] => return none
  | channel :: rest => do
    tools.note .debug
      s!"Searching for activity log channel, candidate `{channel.name}` ({channel.id})."
    if channel.name = name then
      tools.note .info s!"Identified activity log channel {channel.id} for guild {guildId}."
      return some channel.id
    else findLogChannel tools name guildId rest

/-- The id of a guild's log channel, found by its name when it is needed first. -/
def logChannelId (tools : Tools σ ℓ answer) (policy : Policy) (place : Place σ ℓ) (guildId : String) :
    Program σ ℓ answer (Outcome String) := do
  match ← Flow.look fun s => (place.view s).logChannels[guildId]? with
  | some id => return .ok id
  | none =>
    match ← tools.channels guildId with
    | .error f => return .error (f.inContext s!"listing channels for guild {guildId}")
    | .ok channels =>
      match ← findLogChannel tools policy.logChannel guildId channels with
      | none => return .error (.of (.noLogChannel guildId policy.logChannel))
      | some id =>
        Flow.change fun s =>
          let t := place.view s
          place.put { t with logChannels := t.logChannels.insert guildId id } s
        return .ok id

def writeLine (tools : Tools σ ℓ answer) (policy : Policy) (place : Place σ ℓ) (guildId text : String) :
    Program σ ℓ answer (Outcome Unit) := do
  tools.note .info s!"Recording activity: {text}"
  match ← logChannelId tools policy place guildId with
  | .error f => return .error (f.inContext "ensuring log channel exists")
  | .ok id => return (← tools.send id text).inContext "writing to log channel"

/-- The record of a channel as it is now, or as it was seen if it cannot be looked up. -/
def refresh (tools : Tools σ ℓ answer) (seen : Channel) : Program σ ℓ answer Channel := do
  match ← tools.channel seen.id with
  | .ok (some channel) => return channel
  | _ => return seen

/-- Follows a user to their new place in voice and writes down how they got there. -/
def track (tools : Tools σ ℓ answer) (policy : Policy) (place : Place σ ℓ) (update : VoiceUpdate) :
    Program σ ℓ answer (Outcome Unit) := do
  let guildId := update.guildId
  if ← isTracked tools policy place guildId update.user.id then
    let previous ← Flow.swap fun s =>
      let (previous, t) := (place.view s).see update.user.id update.channel
      (previous, place.put t s)
    if previous.map Channel.id = update.channel.map Channel.id then return .ok ()
    else
      let previous ← match previous with
        | some seen => some <$> refresh tools seen
        | none => pure none
      match transitionText? (update.user.displayName guildId) previous update.channel with
      | none => return .ok ()
      | some text =>
        return (← writeLine tools policy place guildId text).inContext "recording activity"
  else
    tools.note .debug "Ignoring voice state change from opted-out user."
    return .ok ()

end Activity

end GuildBot

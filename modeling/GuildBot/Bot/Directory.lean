import GuildBot.Bot
import GuildBot.Change
/-!
# The directory

Lookups of guilds, channels and users, which go to the platform only for what is not cached, and
the updates that the platform pushes. A lookup that fails gives a partial record, and the next one
tries again.
-/

namespace GuildBot.Directory

open Platform

/-- A lookup: nothing under an empty id, else the cached record or a fetched one. -/
def find {κ α : Type} [Ord κ] [Std.TransOrd κ] (place : Cache.Place Bot Lock κ α) (id : String)
    (key : κ) (fetch : Action (Except (Partial α) α)) : Action (Found α) :=
  if id = "" then return .ok none
  else do
    match ← place.get key fetch with
    | .ok record => return .ok (some record)
    | .error p => return .error p

/-- A call that is made for a record. `what` names the record in the log, `purpose` in the failure;
`stub` is what is left of the record if the call fails. -/
def fetchPart {α β : Type} (call : Action (Outcome α)) (what purpose : String) (stub : β) :
    Action (Except (Partial β) α) := do
  match ← call with
  | .ok record => return .ok record
  | .error f =>
    Action.note .error s!"Failed to retrieve {what}: {f.message}"
    return .error ⟨stub, f.inContext purpose⟩

def guild (id : String) : Action (Found Guild) :=
  find Bot.guildPlace id id do
    Action.note .debug "Fetching guild info ..."
    fetchPart (Action.call (.fetchGuild id)) "guild info" "getting guild info" { id }

def channel (id : String) : Action (Found Channel) :=
  find Bot.channelPlace id id do
    Action.note .debug "Fetching channel info ..."
    fetchPart (Action.call (.fetchChannel id)) "channel info" "getting channel info" { id }

/-- Fetches a user, and their membership of a guild if one is named. A user whose membership
cannot be fetched is left as a partial record. -/
def fetchUser (id guildId : String) : Action (Except (Partial User) User) := do
  Action.note .debug "Fetching user info ..."
  match ← fetchPart (Action.call (.fetchUser id)) "user info" "getting user info" { id } with
  | .error p => return .error p
  | .ok user =>
    if guildId = "" then return .ok user
    else
      match ← fetchPart (Action.call (.fetchMember guildId id)) "guild member info"
          "getting user guild member info" user with
      | .error p => return .error p
      | .ok member =>
        return .ok { user with memberships := user.memberships.insert guildId member }

/-- Looks up a user in the context of a guild. -/
def user (id guildId : String) : Action (Found User) :=
  find Bot.userPlace id ⟨id, guildId⟩ (fetchUser id guildId)

/-- Lists the channels of a guild. That is never cached. -/
def channels (guildId : String) : Action (Outcome (List Channel)) :=
  if guildId = "" then return .ok []
  else return (← Action.call (.fetchGuildChannels guildId)).inContext "getting channels"

def noteChanges (what id : String) (changes : List Change) : Action Unit :=
  changes.forM fun c =>
    Action.note .info s!"{what} {id} changed `{c.property}` from `{c.old}` to `{c.new}`."

/-- Applies an update to a live record, and gives the changes if there was one. -/
def revise {κ α : Type} [Ord κ] [Std.TransOrd κ] (place : Cache.Place Bot Lock κ α) (key : κ)
    (apply : α → α × List Change) : Action (Option (List Change)) :=
  Flow.swap fun b =>
    let now := place.now b
    let (_, cache) := (place.view b).update now key fun record => (apply record).1
    (((place.view b).peek now key).map fun record => (apply record).2, place.put cache b)

/-- Applies a pushed update to what is cached of a user. The record for the update's guild takes
all of it, or is made from it if there is none; the record without a guild takes the names. Its
changes count only where there was no record for the guild. -/
def absorbMember (update : MemberUpdate) : Action (List Change) := do
  let key : UserKey := ⟨update.userId, update.guildId⟩
  let changes ← revise Bot.userPlace key (·.update update)
  if changes.isNone then
    Action.note .debug "No cached guild-scoped user, caching update as-is."
    Bot.userPlace.store key (User.ofUpdate update true)
  let identity ← revise Bot.userPlace ⟨update.userId, ""⟩ (·.updateNames update)
  let changes := changes.getD (identity.getD [])
  noteChanges "User" update.userId changes
  return changes

def absorbChannel (update : ChannelUpdate) : Action (List Change) := do
  let changes ← revise Bot.channelPlace update.channelId (·.update update)
  if changes.isNone then
    Action.note .debug "No cached channel, caching update as-is."
    Bot.channelPlace.store update.channelId { id := update.channelId, name := update.name }
  noteChanges "Channel" update.channelId (changes.getD [])
  return changes.getD []

def tools : Tools Bot Lock Call.Answer where
  guild := guild
  channel := channel
  user := user
  channels := channels
  send channelId text := Action.call (.sendMessage channelId text)
  react channelId messageId emoji := Action.call (.addReaction channelId messageId emoji)
  roll dice sides := Flow.swap fun b =>
    let (rolls, _, words) := Dice.rollAll sides dice b.words
    (rolls, { b with words })
  note := Action.note

end GuildBot.Directory

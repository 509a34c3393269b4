import GuildBot.Record
import GuildBot.Platform.Id
/-!
# Calls to the platform

What the bot asks of the chat platform, and what each call answers when it succeeds. A client of
the platform reads the ids of a call before it sends anything.
-/

namespace GuildBot.Platform

inductive Call where
  | fetchGuild (id : String)
  | fetchChannel (id : String)
  | fetchUser (id : String)
  | fetchMember (guildId userId : String)
  | fetchGuildChannels (guildId : String)
  | sendMessage (channelId text : String)
  | addReaction (channelId messageId emoji : String)
  deriving DecidableEq, Repr, Inhabited

namespace Call

def Payload : Call → Type
  | fetchGuild _ => Guild
  | fetchChannel _ => Channel
  | fetchUser _ => User
  | fetchMember _ _ => Member
  | fetchGuildChannels _ => List Channel
  | sendMessage _ _ => Unit
  | addReaction _ _ _ => Unit

/-- The ids of a call, in the order in which they are read. -/
def ids : Call → List String
  | fetchGuild id => [id]
  | fetchChannel id => [id]
  | fetchUser id => [id]
  | fetchMember guildId userId => [guildId, userId]
  | fetchGuildChannels guildId => [guildId]
  | sendMessage channelId _ => [channelId]
  | addReaction channelId messageId _ => [channelId, messageId]

/-- The name of a call and the texts it is made with. -/
def words : Call → List String
  | fetchGuild id => ["fetch_guild", id]
  | fetchChannel id => ["fetch_channel", id]
  | fetchUser id => ["fetch_user", id]
  | fetchMember guildId userId => ["fetch_member", guildId, userId]
  | fetchGuildChannels guildId => ["fetch_guild_channels", guildId]
  | sendMessage channelId text => ["send_message", channelId, text]
  | addReaction channelId messageId emoji => ["add_reaction", channelId, messageId, emoji]

def ofWords? : List String → Option Call
  | [] => none
  | name :: args =>
    let arg (n : Nat) : String := args[n]?.getD ""
    match name with
    | "fetch_guild" => some (fetchGuild (arg 0))
    | "fetch_channel" => some (fetchChannel (arg 0))
    | "fetch_user" => some (fetchUser (arg 0))
    | "fetch_member" => some (fetchMember (arg 0) (arg 1))
    | "fetch_guild_channels" => some (fetchGuildChannels (arg 0))
    | "send_message" => some (sendMessage (arg 0) (arg 1))
    | "add_reaction" => some (addReaction (arg 0) (arg 1) (arg 2))
    | _ => none

/-- What a client does with a call first: it reads the ids. -/
def checkIds (c : Call) : Outcome (List Nat) := readIds c.ids

end Call

end GuildBot.Platform

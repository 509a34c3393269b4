import GuildBot.Record
namespace GuildBot

open Std

structure RawMessage where
  guildId : String := ""
  channelId : String := ""
  authorId : String := ""
  messageId : String := ""
  content : String := ""
  fromSelf : Bool := false
  deriving DecidableEq, Inhabited

/-- A change of a user's voice connection. Without a channel id the user has left. -/
structure RawVoice where
  guildId : String := ""
  userId : String := ""
  channelId : Option String := none
  deriving DecidableEq, Inhabited

/-- The present state of a user and of their membership of a guild. -/
structure MemberUpdate where
  guildId : String := ""
  userId : String := ""
  username : String := ""
  globalName : String := ""
  nickname : String := ""
  roles : ExtTreeSet String := ∅
  deriving DecidableEq, Inhabited

structure ChannelUpdate where
  guildId : String := ""
  channelId : String := ""
  name : String := ""
  deriving DecidableEq, Inhabited

inductive RawEvent where
  | message (raw : RawMessage)
  | voice (raw : RawVoice)
  | member (update : MemberUpdate)
  | channel (update : ChannelUpdate)
  deriving DecidableEq, Inhabited

def RawEvent.kind : RawEvent → String
  | .message _ => "message_created"
  | .voice _ => "voice_state_updated"
  | .member _ => "member_updated"
  | .channel _ => "channel_updated"

structure Message where
  guild : Option Guild
  channel : Channel
  author : User
  id : String
  content : String
  deriving DecidableEq, Inhabited

structure VoiceUpdate where
  guild : Option Guild
  user : User
  channel : Option Channel
  deriving DecidableEq, Inhabited

def Message.guildId (m : Message) : String := (m.guild.map Guild.id).getD ""

def VoiceUpdate.guildId (u : VoiceUpdate) : String := (u.guild.map Guild.id).getD ""

/-- An event that listeners are told of. -/
inductive Event where
  | message (m : Message)
  | voice (u : VoiceUpdate)
  deriving DecidableEq, Inhabited

def Event.kind : Event → String
  | .message _ => "message_created"
  | .voice _ => "voice_state_updated"

end GuildBot

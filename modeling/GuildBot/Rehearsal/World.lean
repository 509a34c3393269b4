import GuildBot.Bot
import GuildBot.Document
/-!
# Scripted worlds

A world is a document that says what a platform holds, how long its calls take and which of them
fail. Sections `guilds`, `channels`, `users`, `members` and `guild_channels` hold the records,
`delay` and `fail` say how calls go, by the whole call or else by its name.
-/

namespace GuildBot

open Std

/-- A guild from a record; the id is the given one unless the record holds another. -/
def Guild.ofDocument (id : String) (d : Document) : Guild where
  id := idOr id d
  name := (d.field "name").asText
  roles := .ofList ((d.field "roles").fields.map fun (k, v) => (k, v.asText))
where
  idOr (id : String) (d : Document) : String :=
    match d.field "id" with
    | .text s => s
    | _ => id

def Channel.ofDocument (id : String) (d : Document) : Channel where
  id := Guild.ofDocument.idOr id d
  name := (d.field "name").asText

def roleSetOf (d : Document) : ExtTreeSet String := .ofList (d.asList.map Document.asText)

def Member.ofDocument (d : Document) : Member where
  nickname := (d.field "nickname").asText
  roles := roleSetOf (d.field "roles")

def User.ofDocument (id : String) (d : Document) : User where
  id := Guild.ofDocument.idOr id d
  username := (d.field "username").asText
  globalName := (d.field "global_name").asText
  memberships :=
    .ofList ((d.field "membership").fields.map fun (k, v) => (k, Member.ofDocument v))

namespace Rehearsal

open Platform

/-- A fault from its description: the text of the cause and then of the contexts, or the word for
a panic. -/
def faultOf : Document → Option (Option Failure)
  | .text _ => some none
  | .list items => match items.map Document.asText with
    | [] => none
    | cause :: contexts => some (some ⟨contexts.reverse, .other cause⟩)
  | _ => none

/-- What a section says about a call: about the whole call, or else about its name. -/
def about (world : Document) (part : String) (c : Call) : Document :=
  let entries := world.field part
  ((entries.field? (":".intercalate c.words)).or (entries.field? (c.words.headD ""))).getD .null

def recordAt (world : Document) (path : List String) : Outcome Document :=
  match world.at? path with
  | some .null => missing
  | some d => .ok d
  | none => missing
where
  missing : Outcome Document :=
    .error (.of (.other ("unknown " ++ path.headD "" ++ " " ++ "/".intercalate (path.drop 1))))

/-- What a call finds in the world when nothing is wrong with it. -/
def find (world : Document) : (c : Call) → Outcome c.Payload
  | .fetchGuild id => (Guild.ofDocument id) <$> recordAt world ["guilds", id]
  | .fetchChannel id => (Channel.ofDocument id) <$> recordAt world ["channels", id]
  | .fetchUser id => (User.ofDocument id) <$> recordAt world ["users", id]
  | .fetchMember guildId userId => Member.ofDocument <$> recordAt world ["members", guildId, userId]
  | .fetchGuildChannels guildId =>
    (fun d => d.asList.map (Channel.ofDocument "")) <$> recordAt world ["guild_channels", guildId]
  | .sendMessage _ _ => .ok ()
  | .addReaction _ _ _ => .ok ()

def platform (world : Document) : Platform.Behaviour := fun _ c =>
  { duration := (about world "delay" c).asNat
    result := match faultOf (about world "fail" c) with
      | some none => none
      | some (some f) => some (.error f)
      | none => some (find world c) }

end Rehearsal

end GuildBot

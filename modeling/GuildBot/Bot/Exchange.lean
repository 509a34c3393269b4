import GuildBot.Bot.Directory
namespace GuildBot

open Platform

namespace Platform

def Call.IsFetch : Call → Prop
  | .sendMessage _ _ => False
  | .addReaction _ _ _ => False
  | _ => True

/-- A platform that gives a record the id that was asked for. -/
structure Truthful (p : Behaviour) : Prop where
  guild_id : ∀ ds id (g : Guild), (p ds (.fetchGuild id)).result = some (.ok g) → g.id = id
  channel_id : ∀ ds id (c : Channel), (p ds (.fetchChannel id)).result = some (.ok c) → c.id = id
  user_id : ∀ ds id (u : User), (p ds (.fetchUser id)).result = some (.ok u) → u.id = id

end Platform

namespace Bot

def lifetime (b : Bot) : Duration := (Duration.ofSeconds b.settings.cacheTtl).asLifetime

/-- What is learned of a record by one call: the answer, or else what is left of the record and why.
There is nothing to learn if the client breaks down. -/
def learnPart {β : Type} (b : Bot) (c : Call) (purpose : String) (stub : β) :
    Option (Except (Partial β) c.Payload) :=
  (b.answer c).map fun
    | .ok r => .ok r
    | .error f => .error ⟨stub, f.inContext purpose⟩

def learnGuild (b : Bot) (id : String) : Option (Except (Partial Guild) Guild) :=
  b.learnPart (.fetchGuild id) "getting guild info" { id }

def learnChannel (b : Bot) (id : String) : Option (Except (Partial Channel) Channel) :=
  b.learnPart (.fetchChannel id) "getting channel info" { id }

/-- What is learned of a user: their membership of a guild is asked for only when the user was
found, and only if a guild is named. -/
def learnUser (b : Bot) (id guildId : String) : Option (Except (Partial User) User) :=
  match b.learnPart (.fetchUser id) "getting user info" ({ id } : User) with
  | some (.ok user) =>
    let user : User := user
    if guildId = "" then some (.ok user)
    else ((b.asked (.fetchUser id)).learnPart (.fetchMember guildId id)
        "getting user guild member info" user).map fun
      | .ok member => .ok { user with memberships := user.memberships.insert guildId member }
      | .error p => .error p
  | some (.error p) => some (.error p)
  | none => none

def callsForUser (b : Bot) (id guildId : String) : List Call :=
  match b.answer (.fetchUser id) with
  | some (.ok _) => if guildId = "" then [.fetchUser id] else [.fetchUser id, .fetchMember guildId id]
  | _ => [.fetchUser id]

def askedAll (b : Bot) (calls : List Call) : Bot := calls.foldl asked b

end Bot

end GuildBot

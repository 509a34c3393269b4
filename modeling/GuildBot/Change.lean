import GuildBot.Event
/-!
# Changes of a record

An update carries the present state of a member or a channel. Applying it to a record brings the
record up to date and lists what was different, one `Change` for each property that differed.
-/

namespace GuildBot

open Std

/-- A property that an update changed, with its old and its new text. -/
structure Change where
  property : String
  old : String
  new : String
  deriving DecidableEq, Repr, Inhabited

def Change.between (property old new : String) : List Change :=
  if old = new then [] else [⟨property, old, new⟩]

/-- The ids of a set of roles, in order, with commas between them. -/
def roleText (roles : ExtTreeSet String) : String := ",".intercalate roles.toList

def Member.summary (m : Member) : String := s!"nickname={m.nickname} roles={roleText m.roles}"

def MemberUpdate.member (update : MemberUpdate) : Member := ⟨update.nickname, update.roles⟩

def Channel.update (c : Channel) (update : ChannelUpdate) : Channel × List Change :=
  ({ c with name := update.name }, Change.between "name" c.name update.name)

namespace User

def updateNames (u : User) (update : MemberUpdate) : User × List Change :=
  ({ u with username := update.username, globalName := update.globalName },
    Change.between "username" u.username update.username ++
      Change.between "global_name" u.globalName update.globalName)

def updateMembership (u : User) (update : MemberUpdate) : User × List Change :=
  let guildId := update.guildId
  if update.member.isBlank then
    ({ u with memberships := u.memberships.erase guildId },
      match u.memberships[guildId]? with
      | some removed => [⟨s!"guild[{guildId}]", removed.summary, ""⟩]
      | none => [])
  else
    let old := u.membership guildId
    ({ u with memberships := u.memberships.insert guildId update.member },
      Change.between s!"guild[{guildId}].nickname" old.nickname update.nickname ++
        if old.roles = update.roles then []
        else [⟨s!"guild[{guildId}].roles", roleText old.roles, roleText update.roles⟩])

/-- Brings a user up to date in everything that an update reports. -/
def update (u : User) (update : MemberUpdate) : User × List Change :=
  let (u, identity) := u.updateNames update
  let (u, membership) := u.updateMembership update
  (u, identity ++ membership)

def ofUpdate (update : MemberUpdate) (withMembership : Bool) : User :=
  let u : User := { id := update.userId, username := update.username, globalName := update.globalName }
  if withMembership then (u.updateMembership update).1 else u

end User

end GuildBot

import GuildBot.Change
/-!
# What updates come to

An account of updates that does not apply them: the aspects in which two records are told apart, what
is kept of a membership that is reported, and which update of a series is the last of a guild.
-/

namespace GuildBot

open Std

/-- Something about a user that an update reports. -/
inductive Aspect where
  | username
  | globalName
  | membership (guildId : String)
  | nickname (guildId : String)
  | roles (guildId : String)
  deriving DecidableEq, Repr

namespace Aspect

def property : Aspect → String
  | username => "username"
  | globalName => "global_name"
  | membership guildId => s!"guild[{guildId}]"
  | nickname guildId => s!"guild[{guildId}].nickname"
  | roles guildId => s!"guild[{guildId}].roles"

/-- How a record reads in this aspect. There is nothing to read of a membership that is not known. -/
def text (u : User) : Aspect → String
  | username => u.username
  | globalName => u.globalName
  | membership guildId => (u.memberships[guildId]?.map Member.summary).getD ""
  | nickname guildId => (u.membership guildId).nickname
  | roles guildId => roleText (u.roles guildId)

/-- Whether two records differ in this aspect. A membership that is not known is not the same as a blank
one, though neither has a nickname or roles. -/
def Differs (u v : User) : Aspect → Prop
  | username => u.username ≠ v.username
  | globalName => u.globalName ≠ v.globalName
  | membership guildId => u.memberships[guildId]? ≠ v.memberships[guildId]?
  | nickname guildId => (u.membership guildId).nickname ≠ (v.membership guildId).nickname
  | roles guildId => u.roles guildId ≠ v.roles guildId

instance (u v : User) : DecidablePred (Differs u v)
  | username => inferInstanceAs (Decidable (_ ≠ _))
  | globalName => inferInstanceAs (Decidable (_ ≠ _))
  | membership _ => inferInstanceAs (Decidable (_ ≠ _))
  | nickname _ => inferInstanceAs (Decidable (_ ≠ _))
  | roles _ => inferInstanceAs (Decidable (_ ≠ _))

def change (u v : User) (a : Aspect) : Change := ⟨a.property, a.text u, a.text v⟩

/-- The aspects that an update reports, in order. A membership without a nickname and without roles is
reported as a whole. -/
def reportedBy (update : MemberUpdate) : List Aspect :=
  [username, globalName] ++
    if update.nickname = "" ∧ update.roles = ∅ then [membership update.guildId]
    else [nickname update.guildId, roles update.guildId]

end Aspect

/-- What is kept of the membership that an update reports: nothing if it has no nickname and no
roles. -/
def MemberUpdate.kept? (update : MemberUpdate) : Option Member :=
  if update.nickname = "" ∧ update.roles = ∅ then none else some ⟨update.nickname, update.roles⟩

/-- The last update of a guild in a series. -/
def MemberUpdate.lastOf? (guildId : String) (updates : List MemberUpdate) : Option MemberUpdate :=
  (updates.filter fun update => update.guildId = guildId).getLast?

/-- The first of some texts that is not empty, or else an empty one. -/
def firstFilled (texts : List String) : String := (texts.find? (· ≠ "")).getD ""

namespace User

/-- The changes from one record to another, in those of some aspects in which they differ. -/
def difference (u v : User) (aspects : List Aspect) : List Change :=
  (aspects.filter fun a => a.Differs u v).map (Aspect.change u v)

def updateAll (u : User) (updates : List MemberUpdate) : User :=
  updates.foldl (fun u update => (u.update update).1) u

end User

end GuildBot

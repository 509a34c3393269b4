import GuildBot.Rehearsal.Traffic
/-!
# Evidence for tracking a user

What a run has learned of the roles of guilds and of the roles that users hold, and when: by what the
platform answered and by pushed updates. Evidence that a user held a role by some instant is taken
from this journal alone.
-/

namespace GuildBot

open Platform

/-- Whether something that came at an instant is no older than `d`. -/
def Instant.IsFresh (since : Instant) (d : Duration) (now : Instant) : Prop :=
  since.nanoseconds ≤ now.nanoseconds ∧ now.nanoseconds < since.nanoseconds + d.nanoseconds

/-- What can be learned of roles. -/
inductive News where
  | guild (id : String) (record : Guild)
  | member (key : UserKey) (membership : Member)

namespace Platform

/-- A platform that answers only what was sent to it, and users without their memberships. -/
structure Candid (p : Behaviour) : Prop where
  sent_of_ok : ∀ ds c a, (p ds c).result = some (.ok a) → (p ds c).sent = true
  memberships : ∀ ds id (u : User), (p ds (.fetchUser id)).result = some (.ok u) → u.memberships = ∅

/-- What the platform's answer to a call says of roles. -/
def newsOf (p : Behaviour) (past : List Deed) : Deed → List News
  | .call (.fetchGuild id) => match (p past (.fetchGuild id)).result with
    | some (.ok record) => [.guild id record]
    | _ => []
  | .call (.fetchMember guildId userId) => match (p past (.fetchMember guildId userId)).result with
    | some (.ok membership) => [.member ⟨userId, guildId⟩ membership]
    | _ => []
  | _ => []

/-- What the answers to some deeds say of roles, after those of the past. -/
def newsIn (p : Behaviour) (past : List Deed) : List Deed → List News
  | [] => []
  | d :: rest => newsOf p past d ++ newsIn p (past ++ [d]) rest

end Platform

/-- What one bot was told and an earlier one had not been. -/
def Bot.newsSince (b b' : Bot) : List News :=
  newsIn b.platform b.deeds (b'.deeds.drop b.deeds.length)

/-- Whether one bot has tried to record the activity of a user that an earlier one had not: by a line
in the log, or by a message. -/
def Bot.RecordsSince (b b' : Bot) : Prop :=
  (∃ text : String, ⟨.info, s!"Recording activity: {text}"⟩ ∈ b'.log.drop b.log.length) ∨
    b.messagesSince b' ≠ []

namespace Rehearsal

/-- News, each with the instant at which it came. -/
abbrev Journal : Type := List (Instant × News)

/-- The membership under a key that came last. -/
def Journal.lastMember? (key : UserKey) (j : Journal) : Option (Instant × Member) :=
  (j.filterMap fun (t, news) => match news with
    | .member k m => if k = key then some (t, m) else none
    | .guild _ _ => none).getLast?

namespace Session

def news (b : Bot) (s : Step) : List News :=
  (match s with
    | .pushMember update => [.member ⟨update.userId, update.guildId⟩ update.member]
    | .process (.member update) => [.member ⟨update.userId, update.guildId⟩ update.member]
    | _ => []) ++ b.newsSince (stepBot b s).2.2

def journal : Bot → List Step → Journal
  | _, [] => []
  | b, s :: rest => (news b s).map (b.now, ·) ++ journal (stepBot b s).2.2 rest

end Session

/-- Whether a journal shows by an instant that a user holds a role of that name in a guild: it has a
record of the guild with such a role, and the last membership of the user holds the role. Neither may
be older than `d`. -/
def Evidence (j : Journal) (d : Duration) (role : String) (key : UserKey) (now : Instant) : Prop :=
  ∃ roleId,
    (∃ t guild, (t, .guild key.guildId guild) ∈ j ∧ t.IsFresh d now ∧
      guild.roles[roleId]? = some role) ∧
    ∃ t membership, j.lastMember? key = some (t, membership) ∧ t.IsFresh d now ∧
      membership.roles.contains roleId = true

/-- Whether in a run a user was decided to be tracked in a guild at an instant, and on evidence: at a
change in voice that was resolved to the user and the guild. -/
def Decided (b : Bot) (steps : List Step) (d : Duration) (role : String) (key : UserKey)
    (t : Instant) : Prop :=
  ∃ before raw after update, steps = before ++ .process (.voice raw) :: after ∧
    t = (Session.botAfter b before).now ∧
    Session.resolved? (Session.botAfter b before) raw = some update ∧
    key = ⟨update.user.id, update.guildId⟩ ∧
    Evidence (Session.journal b (before ++ [.process (.voice raw)])) d role key t

end Rehearsal

end GuildBot

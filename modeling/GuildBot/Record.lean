import Std.Data.ExtTreeMap
import Std.Data.ExtTreeSet
/-!
# Guilds, channels and users

Snapshots of what the platform knows. Roles, memberships and role holdings are finite maps and
sets in code point order of their keys, so equal contents are equal records.
-/

namespace GuildBot

open Std

/-- A guild and its roles, role id to role name. -/
structure Guild where
  id : String
  name : String := ""
  roles : ExtTreeMap String String := ∅
  /-- The ids of roles in the order in which they are gone through. Any that are not named here come
  after them, in code point order. -/
  roleOrder : List String := []
  deriving DecidableEq, Inhabited

structure Channel where
  id : String
  name : String := ""
  deriving DecidableEq, Inhabited, Repr

structure Member where
  nickname : String := ""
  roles : ExtTreeSet String := ∅
  deriving DecidableEq, Inhabited

structure User where
  id : String
  username : String := ""
  globalName : String := ""
  memberships : ExtTreeMap String Member := ∅
  deriving DecidableEq, Inhabited

/-- The id of a role with the given name, the first that is come upon. -/
def Guild.roleId? (g : Guild) (name : String) : Option String :=
  (g.roleOrder ++ g.roles.keys).find? fun id => g.roles[id]? = some name

/-- Without a nickname and without roles a membership says nothing. -/
def Member.isBlank (m : Member) : Bool := m.nickname.isEmpty && m.roles.isEmpty

namespace User

/-- The membership of a guild; one that is not known is blank. -/
def membership (u : User) (guildId : String) : Member := u.memberships.getD guildId {}

def roles (u : User) (guildId : String) : ExtTreeSet String := (u.membership guildId).roles

def hasRole (u : User) (guildId roleId : String) : Bool := (u.roles guildId).contains roleId

/-- The name to show in a guild: the first of nickname, global name and username that is not
empty, and the username at the last. -/
def displayName (u : User) (guildId : String) : String :=
  let nickname := (u.membership guildId).nickname
  if !nickname.isEmpty then nickname
  else if !u.globalName.isEmpty then u.globalName
  else u.username

end User

structure UserKey where
  userId : String
  guildId : String
  deriving DecidableEq, Repr, Inhabited

namespace UserKey

def toPair (k : UserKey) : String × String := (k.userId, k.guildId)

attribute [local instance] lexOrd in
/-- By the id of the user, then by that of the guild. -/
instance : Ord UserKey := ⟨fun a b => compare a.toPair b.toPair⟩

attribute [local instance] lexOrd in
instance : TransOrd UserKey where
  eq_swap {a b} :=
    (OrientedCmp.eq_swap : compare a.toPair b.toPair = (compare b.toPair a.toPair).swap)
  isLE_trans {a _ c} h₁ h₂ :=
    (TransCmp.isLE_trans h₁ h₂ : (compare a.toPair c.toPair).isLE = true)

attribute [local instance] lexOrd in
instance : LawfulEqOrd UserKey where
  eq_of_compare {a b} h := by
    have pair : compare a.toPair b.toPair = .eq := h
    have key : a.toPair = b.toPair := LawfulEqCmp.eq_of_compare pair
    cases a; cases b; simp_all [toPair]

end UserKey

end GuildBot

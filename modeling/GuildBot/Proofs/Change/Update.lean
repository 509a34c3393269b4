import GuildBot.Change.Account

/-!
# Updates part by part

What an update leaves of each part of a record.
-/

namespace GuildBot

open Std

namespace MemberUpdate

variable (update : MemberUpdate)

theorem isBlank_member_iff :
    update.member.isBlank = true ↔ update.nickname = "" ∧ update.roles = ∅ := by
  simp [Member.isBlank, member]

theorem kept?_eq : update.kept? = if update.member.isBlank then none else some update.member := by
  simp only [kept?, ← update.isBlank_member_iff]
  rfl

theorem getD_kept? : update.kept?.getD {} = update.member := by
  rw [kept?]
  split
  · next hblank =>
    rw [member, hblank.1, hblank.2]
    rfl
  · rfl

end MemberUpdate

namespace User

variable (u : User) (update : MemberUpdate)

theorem ext_parts {u v : User} (hid : u.id = v.id) (husername : u.username = v.username)
    (hglobalName : u.globalName = v.globalName)
    (hmemberships : ∀ guildId : String, u.memberships[guildId]? = v.memberships[guildId]?) : u = v := by
  cases u
  cases v
  simp only [mk.injEq]
  exact ⟨hid, husername, hglobalName, ExtTreeMap.ext_getElem? hmemberships⟩

theorem id_updateMembership : (u.updateMembership update).1.id = u.id := by
  rw [updateMembership]
  split <;> rfl

theorem username_updateMembership : (u.updateMembership update).1.username = u.username := by
  rw [updateMembership]
  split <;> rfl

theorem globalName_updateMembership : (u.updateMembership update).1.globalName = u.globalName := by
  rw [updateMembership]
  split <;> rfl

private theorem memberships_updateMembership : (u.updateMembership update).1.memberships =
    if update.member.isBlank then u.memberships.erase update.guildId
    else u.memberships.insert update.guildId update.member := by
  rw [updateMembership]
  split <;> rfl

private theorem getElem?_updateMembership (guildId : String) :
    (u.updateMembership update).1.memberships[guildId]? =
      if guildId = update.guildId then update.kept? else u.memberships[guildId]? := by
  have hkey : compare update.guildId guildId = .eq ↔ guildId = update.guildId := by
    rw [Std.compare_eq_iff_eq, eq_comm]
  rw [memberships_updateMembership, update.kept?_eq]
  split
  · rw [ExtTreeMap.getElem?_erase]
    simp only [hkey]
  · rw [ExtTreeMap.getElem?_insert]
    simp only [hkey]

theorem membership_eq (guildId : String) : u.membership guildId = u.memberships[guildId]?.getD {} :=
  ExtTreeMap.getD_eq_getD_getElem?

/-- A user has the membership that was reported last. -/
theorem membership_updateMembership :
    (u.updateMembership update).1.membership update.guildId = update.member := by
  rw [membership_eq, getElem?_updateMembership, if_pos rfl, update.getD_kept?]

theorem roles_updateMembership :
    (u.updateMembership update).1.roles update.guildId = update.member.roles :=
  congrArg Member.roles (membership_updateMembership u update)

theorem id_update : (u.update update).1.id = u.id := id_updateMembership _ update

theorem username_update : (u.update update).1.username = update.username :=
  username_updateMembership _ update

theorem globalName_update : (u.update update).1.globalName = update.globalName :=
  globalName_updateMembership _ update

theorem getElem?_update (guildId : String) : (u.update update).1.memberships[guildId]? =
    if guildId = update.guildId then update.kept? else u.memberships[guildId]? :=
  getElem?_updateMembership _ update guildId

end User

end GuildBot

import GuildBot.Proofs.Change.Difference
import Mathlib.Data.List.Basic
import Mathlib.Data.List.Induction

/-!
# The last update wins

What a series of updates leaves of a record hangs on the last update and on the last one of each guild.
Which updates came before these, in which order and how often, makes no difference.
-/

namespace GuildBot

open Std

namespace MemberUpdate

variable {guildId : String} {update : MemberUpdate} {updates : List MemberUpdate}

private theorem isSome_lastOf?_iff :
    (lastOf? guildId updates).isSome = true ↔ ∃ update ∈ updates, update.guildId = guildId := by
  simp [lastOf?, Option.isSome_iff_ne_none]

private theorem lastOf?_append (front back : List MemberUpdate) :
    lastOf? guildId (front ++ back) = (lastOf? guildId back).or (lastOf? guildId front) := by
  rw [lastOf?, List.filter_append, List.getLast?_append]
  rfl

private theorem lastOf?_cons_of_ne (h : update.guildId ≠ guildId) (back : List MemberUpdate) :
    lastOf? guildId (update :: back) = lastOf? guildId back := by
  simp [lastOf?, h]

private theorem lastOf?_singleton :
    lastOf? guildId [update] = if update.guildId = guildId then some update else none := by
  by_cases h : update.guildId = guildId <;> simp [lastOf?, h]

private theorem lastOf?_getLast (h : updates.getLast? = some update) :
    lastOf? update.guildId updates = some update := by
  obtain ⟨front, rfl⟩ := List.getLast?_eq_some_iff.1 h
  rw [lastOf?_append, lastOf?_singleton, if_pos rfl, Option.some_or]

/-- An update is not the last of any guild if one of its own guild follows. -/
private theorem lastOf?_absorbed {later : MemberUpdate} (h : later.guildId = update.guildId)
    (front mid back : List MemberUpdate) (guildId : String) :
    lastOf? guildId (front ++ update :: (mid ++ later :: back)) =
      lastOf? guildId (front ++ (mid ++ later :: back)) := by
  rw [lastOf?_append, lastOf?_append front]
  by_cases hguild : update.guildId = guildId
  · have hlater : (lastOf? guildId (mid ++ later :: back)).isSome = true :=
      isSome_lastOf?_iff.2 ⟨later, by simp, h.trans hguild⟩
    have hcons : lastOf? guildId (update :: (mid ++ later :: back)) =
        lastOf? guildId (mid ++ later :: back) := by
      rw [← List.singleton_append, lastOf?_append, Option.or_of_isSome hlater]
    rw [hcons]
  · rw [lastOf?_cons_of_ne hguild]

end MemberUpdate

private theorem firstFilled_cons (text : String) (rest : List String) :
    firstFilled (text :: rest) = if text = "" then firstFilled rest else text := by
  by_cases h : text = "" <;> simp [firstFilled, h]

open MemberUpdate

namespace User

variable (u : User)

private theorem displayName_eq (guildId : String) : u.displayName guildId =
    firstFilled [(u.membership guildId).nickname, u.globalName, u.username] := by
  have husername : firstFilled [u.username] = u.username := by
    by_cases h : u.username = "" <;> simp [firstFilled, h]
  simp only [displayName, firstFilled_cons _ (_ :: _), husername, Bool.not_eq_true',
    String.isEmpty_eq_false_iff, ne_eq, ite_not]

private theorem updateAll_concat (front : List MemberUpdate) (last : MemberUpdate) :
    u.updateAll (front ++ [last]) = ((u.updateAll front).update last).1 := by
  simp [updateAll]

private theorem id_updateAll (updates : List MemberUpdate) : (u.updateAll updates).id = u.id := by
  induction updates using List.reverseRecOn with
  | nil => rfl
  | append_singleton front last ih => rw [updateAll_concat, id_update, ih]

private theorem getElem?_updateAll (updates : List MemberUpdate) (guildId : String) :
    (u.updateAll updates).memberships[guildId]? =
      (lastOf? guildId updates).elim u.memberships[guildId]? kept? := by
  induction updates using List.reverseRecOn with
  | nil => rfl
  | append_singleton front last ih =>
    rw [updateAll_concat, getElem?_update, lastOf?_append, lastOf?_singleton]
    by_cases h : guildId = last.guildId
    · rw [if_pos h, if_pos h.symm]
      rfl
    · rw [if_neg h, if_neg (Ne.symm h), ih]
      rfl

section

variable {updates : List MemberUpdate} {last : MemberUpdate} (h : updates.getLast? = some last)

include h

private theorem username_updateAll : (u.updateAll updates).username = last.username := by
  obtain ⟨front, rfl⟩ := List.getLast?_eq_some_iff.1 h
  rw [updateAll_concat, username_update]

private theorem globalName_updateAll : (u.updateAll updates).globalName = last.globalName := by
  obtain ⟨front, rfl⟩ := List.getLast?_eq_some_iff.1 h
  rw [updateAll_concat, globalName_update]

/-- Two series leave the same of a record if they end alike, for every guild and on the whole. -/
private theorem updateAll_eq_of_lastOf? {others : List MemberUpdate} (hothers : others.getLast? = some last)
    (hlast : ∀ guildId, lastOf? guildId others = lastOf? guildId updates) :
    u.updateAll others = u.updateAll updates := by
  refine ext_parts ?_ ?_ ?_ fun guildId => ?_
  · rw [id_updateAll, id_updateAll]
  · rw [username_updateAll u hothers, username_updateAll u h]
  · rw [globalName_updateAll u hothers, globalName_updateAll u h]
  · rw [getElem?_updateAll, getElem?_updateAll, hlast]

private theorem update_updateAll : (u.updateAll updates).update last = (u.updateAll updates, []) := by
  have hsame : ((u.updateAll updates).update last).1 = u.updateAll updates := by
    refine (update_eq_self_iff _ last).2 ⟨username_updateAll u h, globalName_updateAll u h, ?_⟩
    rw [getElem?_updateAll, lastOf?_getLast h]
    rfl
  exact Prod.ext hsame ((changes_eq_nil_iff _ last).2 hsame)

end

private theorem membership_updateAll {updates : List MemberUpdate} {guildId : String} {update : MemberUpdate}
    (h : lastOf? guildId updates = some update) :
    (u.updateAll updates).membership guildId = update.member := by
  rw [membership_eq, getElem?_updateAll, h, Option.elim_some, getD_kept?]

/-- The names that a series of updates leaves are those of the last one, and each membership is that of
the last one of its guild. So all other updates make no difference, and neither does it to repeat the
last; a user is shown under the first name that is filled, and with the roles, of the last updates. -/
theorem last_update_wins {updates : List MemberUpdate} {last : MemberUpdate}
    (h : updates.getLast? = some last) :
    let after := u.updateAll updates
    (after.id = u.id ∧ after.username = last.username ∧ after.globalName = last.globalName) ∧
    (∀ guildId : String, after.memberships[guildId]? =
      (lastOf? guildId updates).elim u.memberships[guildId]? fun update =>
        if update.nickname = "" ∧ update.roles = ∅ then none
        else some ⟨update.nickname, update.roles⟩) ∧
    (∀ others : List MemberUpdate, others.getLast? = some last →
      (∀ guildId, lastOf? guildId others = lastOf? guildId updates) → u.updateAll others = after) ∧
    (∀ (front mid back : List MemberUpdate) (earlier later : MemberUpdate),
      updates = front ++ earlier :: (mid ++ later :: back) → later.guildId = earlier.guildId →
      u.updateAll (front ++ (mid ++ later :: back)) = after) ∧
    after.update last = (after, []) ∧
    ∀ (guildId : String) (update : MemberUpdate), lastOf? guildId updates = some update →
      after.displayName guildId = firstFilled [update.nickname, last.globalName, last.username] ∧
      after.roles guildId = update.roles := by
  refine ⟨⟨u.id_updateAll updates, u.username_updateAll h, u.globalName_updateAll h⟩,
    u.getElem?_updateAll updates, fun others hothers hlast => u.updateAll_eq_of_lastOf? h hothers hlast,
    ?_, u.update_updateAll h, fun guildId update hlast => ⟨?_, ?_⟩⟩
  · rintro front mid back earlier later rfl hguild
    have hend (cs : List MemberUpdate) :
        (cs ++ (mid ++ later :: back)).getLast? = (mid ++ later :: back).getLast? :=
      List.getLast?_append_of_ne_nil cs (by simp)
    refine u.updateAll_eq_of_lastOf? h ?_ fun guildId =>
      (lastOf?_absorbed hguild front mid back guildId).symm
    rw [← h, List.append_cons front, hend, hend]
  · rw [displayName_eq, membership_updateAll u hlast, u.globalName_updateAll h, u.username_updateAll h]
    rfl
  · exact congrArg Member.roles (membership_updateAll u hlast)

/-- Updates of a user in two guilds: a nickname that comes and goes in one, roles in the other, and
another name in the end. -/
def fickle : List MemberUpdate :=
  [{ guildId := "7", username := "bob", nickname := "Bob", roles := (∅ : ExtTreeSet String).insert "9" },
    { guildId := "8", username := "bob", roles := (∅ : ExtTreeSet String).insert "5" },
    { guildId := "7", username := "bob" },
    { guildId := "8", username := "rob", globalName := "Rob", nickname := "Robbie" }]

/-- The nickname of the first update is gone, and only the last one had to be told. -/
theorem last_update_wins_fickle :
    let u : User := { id := "42", memberships := (∅ : ExtTreeMap String Member).insert "7" {} }
    let after := u.updateAll fickle
    fickle.getLast? = some { guildId := "8", username := "rob", globalName := "Rob", nickname := "Robbie" } ∧
      after.memberships["7"]? = none ∧ after.displayName "7" = "Rob" ∧
      after.displayName "8" = "Robbie" ∧ after.roles "8" = ∅ ∧
      u.updateAll fickle.tail = after := by
  intro u after
  have hlast : fickle.getLast? =
    some { guildId := "8", username := "rob", globalName := "Rob", nickname := "Robbie" } := rfl
  obtain ⟨-, hmemberships, -, habsorbed, -, hshown⟩ := u.last_update_wins hlast
  refine ⟨hlast, hmemberships "7", (hshown "7" _ rfl).1, (hshown "8" _ rfl).1, (hshown "8" _ rfl).2, ?_⟩
  exact habsorbed [] [_] [_] _ _ rfl rfl

end User

end GuildBot

import GuildBot.Proofs.Change.Update

/-!
# The changes of an update are the difference it makes

An update lists the aspects that it reports in which the record after it differs from the record before
it, and no others. It lists nothing just when it leaves the record as it was.
-/

namespace GuildBot

open Std

private theorem Change.between_eq (property old new : String) :
    between property old new = if old ≠ new then [⟨property, old, new⟩] else [] := by
  rw [between, ite_not]

namespace User

variable (u v : User) (update : MemberUpdate)

private theorem difference_nil : u.difference v [] = [] := rfl

private theorem difference_cons (a : Aspect) (rest : List Aspect) :
    u.difference v (a :: rest) =
      (if a.Differs u v then [a.change u v] else []) ++ u.difference v rest := by
  unfold difference
  by_cases h : a.Differs u v <;> simp [h]

private theorem difference_append (as bs : List Aspect) :
    u.difference v (as ++ bs) = u.difference v as ++ u.difference v bs := by
  simp [difference]

private theorem difference_eq_nil_iff (as : List Aspect) :
    u.difference v as = [] ↔ ∀ a ∈ as, ¬ a.Differs u v := by
  simp [difference]

variable {v}

private theorem changes_of_names (husername : v.username = update.username)
    (hglobalName : v.globalName = update.globalName) :
    (u.updateNames update).2 = u.difference v [.username, .globalName] := by
  simp only [updateNames, Change.between_eq, difference_cons, difference_nil, Aspect.Differs,
    Aspect.change, Aspect.text, husername, hglobalName, List.append_nil]
  rfl

private theorem changes_of_membership {w : User} (hw : w.memberships = u.memberships)
    (hkept : v.memberships[update.guildId]? = update.kept?) :
    (w.updateMembership update).2 = u.difference v
      (if update.nickname = "" ∧ update.roles = ∅ then [.membership update.guildId]
        else [.nickname update.guildId, .roles update.guildId]) := by
  rw [updateMembership, membership, hw, ← membership]
  simp only [← update.isBlank_member_iff]
  rw [update.kept?_eq] at hkept
  split
  · next hblank =>
    rw [if_pos hblank] at hkept
    simp only [difference_cons, difference_nil, Aspect.Differs, Aspect.change, Aspect.text, hkept]
    cases u.memberships[update.guildId]? with
    | none => rfl
    | some removed => rfl
  · next hfilled =>
    rw [if_neg hfilled] at hkept
    have hmember : v.membership update.guildId = update.member := by
      rw [membership_eq, hkept]
      rfl
    simp only [Change.between_eq, difference_cons, difference_nil, Aspect.Differs, Aspect.change,
      Aspect.text, roles, hmember, List.append_nil, ite_not]
    rfl

/-- The changes of an update are the difference between the records before and after it. -/
theorem changes_eq_difference :
    (u.update update).2 = u.difference (u.update update).1 (Aspect.reportedBy update) := by
  have hsplit : (u.update update).2 =
    (u.updateNames update).2 ++ ((u.updateNames update).1.updateMembership update).2 := rfl
  have hkept : (u.update update).1.memberships[update.guildId]? = update.kept? :=
    (u.getElem?_update update update.guildId).trans (if_pos rfl)
  have hnames := changes_of_names u update (u.username_update update) (u.globalName_update update)
  have hmembership := changes_of_membership u update (w := (u.updateNames update).1) rfl hkept
  rw [hsplit, hnames, hmembership, Aspect.reportedBy, difference_append]

/-- An update leaves a record as it was just if the record has all that the update reports. -/
theorem update_eq_self_iff : (u.update update).1 = u ↔ u.username = update.username ∧
    u.globalName = update.globalName ∧ u.memberships[update.guildId]? = update.kept? := by
  constructor
  · intro h
    rw [← h]
    exact ⟨u.username_update update, u.globalName_update update,
      (u.getElem?_update update update.guildId).trans (if_pos rfl)⟩
  · rintro ⟨husername, hglobalName, hkept⟩
    refine ext_parts (u.id_update update) ((u.username_update update).trans husername.symm)
      ((u.globalName_update update).trans hglobalName.symm) fun guildId => ?_
    rw [getElem?_update]
    split
    · next hguild => rw [hguild, hkept]
    · rfl

private theorem getElem?_eq_some_of_membership {guildId : String} {m : Member} (hfilled : m.isBlank = false)
    (h : u.membership guildId = m) : u.memberships[guildId]? = some m := by
  rw [membership_eq] at h
  cases hu : u.memberships[guildId]? with
  | none =>
    rw [hu] at h
    subst h
    cases hfilled
  | some known =>
    rw [hu] at h
    exact congrArg some h

private theorem membership_aspects_agree_iff (hkept : v.memberships[update.guildId]? = update.kept?) :
    (∀ a ∈ (if update.nickname = "" ∧ update.roles = ∅ then [Aspect.membership update.guildId]
        else [.nickname update.guildId, .roles update.guildId]), ¬ a.Differs u v) ↔
      u.memberships[update.guildId]? = update.kept? := by
  simp only [← update.isBlank_member_iff]
  split
  · simp [Aspect.Differs, hkept]
  · next hfilled =>
    have hmember : v.membership update.guildId = update.member := by
      rw [membership_eq, hkept, update.getD_kept?]
    rw [update.kept?_eq, if_neg hfilled]
    simp only [List.mem_cons, List.not_mem_nil, or_false, forall_eq_or_imp, forall_eq, Aspect.Differs,
      roles, hmember, ne_eq, Decidable.not_not]
    constructor
    · rintro ⟨hnickname, hroles⟩
      refine u.getElem?_eq_some_of_membership (by simpa using hfilled) ?_
      cases hu : u.membership update.guildId
      rw [hu] at hnickname hroles
      cases hnickname
      cases hroles
      rfl
    · intro hu
      have : u.membership update.guildId = update.member := by
        rw [membership_eq, hu]
        rfl
      rw [this]
      exact ⟨rfl, rfl⟩

/-- An update reports nothing just if it leaves the record as it was. -/
theorem changes_eq_nil_iff : (u.update update).2 = [] ↔ (u.update update).1 = u := by
  have hkept : (u.update update).1.memberships[update.guildId]? = update.kept? :=
    (u.getElem?_update update update.guildId).trans (if_pos rfl)
  rw [changes_eq_difference, difference_eq_nil_iff, Aspect.reportedBy, List.forall_mem_append,
    membership_aspects_agree_iff u update hkept, update_eq_self_iff]
  simp only [List.mem_cons, List.not_mem_nil, or_false, forall_eq_or_imp, forall_eq, Aspect.Differs,
    username_update, globalName_update, ne_eq, Decidable.not_not, and_assoc]

/-- An update of a record that shows all that the update gives. A blank membership that was known is
removed, though nobody can tell it from none; otherwise there is no change. -/
theorem update_of_known (husername : u.username = update.username)
    (hglobalName : u.globalName = update.globalName)
    (hmember : u.memberships[update.guildId]? = some update.member) :
    u.update update = if update.member.isBlank then
      ({ u with memberships := u.memberships.erase update.guildId },
        [⟨s!"guild[{update.guildId}]", update.member.summary, ""⟩])
    else (u, []) := by
  split
  · next hblank =>
    have hnames : u.updateNames update = (u, []) := by
      rw [updateNames, ← husername, ← hglobalName]
      simp [Change.between]
    rw [User.update, hnames]
    simp only [updateMembership, hblank, if_true, hmember, List.nil_append]
  · next hfilled =>
    have hkept : u.memberships[update.guildId]? = update.kept? := by
      rw [hmember, update.kept?_eq, if_neg hfilled]
    have hsame := (u.update_eq_self_iff update).2 ⟨husername, hglobalName, hkept⟩
    exact Prod.ext hsame ((u.changes_eq_nil_iff update).2 hsame)

/-- An update leaves a record with what it reports and all else as it was. Its changes are one for each
aspect that it reports in which the records before and after it differ, in order, with how they read. -/
theorem update_exact :
    let after := (u.update update).1
    let changes := (u.update update).2
    (after.id = u.id ∧ after.username = update.username ∧ after.globalName = update.globalName) ∧
    (∀ guildId : String, after.memberships[guildId]? =
      if guildId = update.guildId then
        if update.nickname = "" ∧ update.roles = ∅ then none
        else some ⟨update.nickname, update.roles⟩
      else u.memberships[guildId]?) ∧
    changes = ((Aspect.reportedBy update).filter fun a => a.Differs u after).map
      (fun a => ⟨a.property, a.text u, a.text after⟩) ∧
    (changes = [] ↔ after = u) :=
  ⟨⟨u.id_update update, u.username_update update, u.globalName_update update⟩,
    u.getElem?_update update, u.changes_eq_difference update, u.changes_eq_nil_iff update⟩

end User

end GuildBot

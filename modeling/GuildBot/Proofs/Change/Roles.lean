import GuildBot.Proofs.Change.Difference
import Mathlib.Data.Set.Function

/-!
# Changes show what changed

The ids of a set of roles can be read off its text, if none is empty or has a comma in it. So the text
tells such sets apart, and a change of a user, also one of roles, always reads differently before and
after.
-/

namespace GuildBot

open Std

/-- An id that commas tell apart from others. -/
def IsPlainId (id : String) : Prop := id ≠ "" ∧ ',' ∉ id.toList

instance : DecidablePred IsPlainId := fun _ => inferInstanceAs (Decidable (_ ∧ _))

def ArePlain (roles : ExtTreeSet String) : Prop := ∀ id ∈ roles, IsPlainId id

/-- The roles in every membership that is known of the user are plain. -/
def User.HasPlainRoles (u : User) : Prop :=
  ∀ (guildId : String) (m : Member), u.memberships[guildId]? = some m → ArePlain m.roles

private theorem arePlain_ofList_iff {ids : List String} :
    ArePlain (.ofList ids) ↔ ∀ id ∈ ids, IsPlainId id := by
  simp [ArePlain, ExtTreeSet.mem_ofList]

private theorem splitOn_roleText {roles : ExtTreeSet String} (h : ArePlain roles) (hsome : roles ≠ ∅) :
    (roleText roles).toList.splitOn ',' = roles.toList.map String.toList := by
  rw [roleText, String.toList_intercalate]
  apply List.splitOn_intercalate
  · intro cs hcs
    obtain ⟨id, hid, rfl⟩ := List.mem_map.1 hcs
    exact (h id (ExtTreeSet.mem_toList.1 hid)).2
  · simpa using hsome

private theorem roleText_ne_empty {roles : ExtTreeSet String} (h : ArePlain roles) (hsome : roles ≠ ∅) :
    roleText roles ≠ "" := by
  intro hempty
  have hsplit := splitOn_roleText h hsome
  simp only [hempty, String.toList_empty, List.splitOn_nil] at hsplit
  -- the text of no roles reads as one role without a name
  obtain ⟨id, hid, hname⟩ : ∃ id ∈ roles.toList, id.toList = [] :=
    List.mem_map.1 (hsplit ▸ List.mem_singleton_self [])
  exact (h id (ExtTreeSet.mem_toList.1 hid)).1 (String.toList_eq_nil_iff.1 hname)

private theorem injOn_roleText : Set.InjOn roleText {roles | ArePlain roles} := by
  intro roles h roles' h' htext
  by_cases hnone : roles = ∅
  · by_cases hnone' : roles' = ∅
    · rw [hnone, hnone']
    · apply absurd htext.symm
      rw [hnone]
      exact roleText_ne_empty h' hnone'
  · have hnone' : roles' ≠ ∅ := by
      intro hempty
      rw [hempty] at htext
      exact roleText_ne_empty h hnone htext
    have hids : roles.toList.map String.toList = roles'.toList.map String.toList := by
      rw [← splitOn_roleText h hnone, htext, splitOn_roleText h' hnone']
    apply ExtTreeSet.toList_inj.1
    exact (List.map_inj_right fun _ _ => String.toList_inj.1).1 hids

private theorem Member.summary_ne_empty (m : Member) : m.summary ≠ "" := by
  simp [Member.summary, toString]

namespace User

variable {u : User} {update : MemberUpdate}

theorem HasPlainRoles.roles (h : u.HasPlainRoles) (guildId : String) : ArePlain (u.roles guildId) := by
  rw [User.roles, membership_eq]
  cases hu : u.memberships[guildId]? with
  | none => simp [ArePlain]
  | some m => exact h guildId m hu

private theorem HasPlainRoles.after_update (h : u.HasPlainRoles) (hupdate : ArePlain update.roles) :
    (u.update update).1.HasPlainRoles := by
  intro guildId m hm
  rw [getElem?_update] at hm
  split at hm
  · rw [MemberUpdate.kept?] at hm
    split at hm
    · cases hm
    · cases hm
      exact hupdate
  · exact h guildId m hm

/-- Where the records before and after an update differ in something that it reports, they read
differently. -/
private theorem text_ne_of_differs (hu : u.HasPlainRoles) (hupdate : ArePlain update.roles) {a : Aspect}
    (ha : a ∈ Aspect.reportedBy update) (hdiffers : a.Differs u (u.update update).1) :
    a.text u ≠ a.text (u.update update).1 := by
  cases a with
  | username => exact hdiffers
  | globalName => exact hdiffers
  | membership guildId =>
    -- only a membership that is removed is reported as a whole
    have hremoved : (u.update update).1.memberships[guildId]? = none := by
      by_cases hblank : update.nickname = "" ∧ update.roles = ∅
      · have hguild : guildId = update.guildId := by simpa [Aspect.reportedBy, hblank] using ha
        rw [getElem?_update, if_pos hguild, MemberUpdate.kept?, if_pos hblank]
      · simp [Aspect.reportedBy, hblank] at ha
    simp only [Aspect.Differs, hremoved] at hdiffers
    obtain ⟨m, hm⟩ := Option.ne_none_iff_exists'.1 hdiffers
    simpa [Aspect.text, hremoved, hm] using m.summary_ne_empty
  | nickname guildId => exact hdiffers
  | roles guildId =>
    intro htext
    have hafter : ArePlain ((u.update update).1.roles guildId) :=
      (hu.after_update hupdate).roles guildId
    exact hdiffers (injOn_roleText (hu.roles guildId) hafter htext)

/-- Sets of roles are told apart by their texts, and in every change that an update reports the old and the
new text differ, as long as no role has an id that is empty or has a comma in it. -/
theorem changes_show_difference :
    Set.InjOn roleText {roles | ArePlain roles} ∧
    ∀ (u : User) (update : MemberUpdate), u.HasPlainRoles → ArePlain update.roles →
      ∀ c ∈ (u.update update).2, c.old ≠ c.new := by
  refine ⟨injOn_roleText, ?_⟩
  intro u update hu hupdate c hc
  rw [changes_eq_difference] at hc
  obtain ⟨a, ha, rfl⟩ := List.mem_map.1 hc
  obtain ⟨hreported, hdiffers⟩ := List.mem_filter.1 ha
  exact text_ne_of_differs hu hupdate hreported (of_decide_eq_true hdiffers)

/-- Bob has two roles and is given one more. -/
theorem changes_show_difference_promotion :
    let joined : MemberUpdate := ⟨"G", "42", "bob", "", "Bob", .ofList ["1", "12"]⟩
    let promoted : MemberUpdate := ⟨"G", "42", "bob", "", "Bob", .ofList ["1", "12", "2"]⟩
    let bob : User := (User.update { id := "42" } joined).1
    bob.HasPlainRoles ∧ ArePlain promoted.roles ∧
      (bob.update promoted).2 = [⟨"guild[G].roles", "1,12", "1,12,2"⟩] ∧
      ∀ c ∈ (bob.update promoted).2, c.old ≠ c.new := by
  intro joined promoted bob
  have hjoined : ArePlain joined.roles := arePlain_ofList_iff.2 (by decide)
  have hpromoted : ArePlain promoted.roles := arePlain_ofList_iff.2 (by decide)
  have hbob : bob.HasPlainRoles := HasPlainRoles.after_update (by simp [HasPlainRoles]) hjoined
  exact ⟨hbob, hpromoted, by decide +kernel, changes_show_difference.2 bob promoted hbob hpromoted⟩

/-- With a comma in an id, one role reads like two. -/
example : roleText (.ofList ["1,2"]) = roleText (.ofList ["1", "2"]) := by decide +kernel

end User

end GuildBot

import GuildBot.Proofs.Bot.Kept
import GuildBot.Proofs.Change.Difference
import GuildBot.Proofs.Rehearsal.Step
import GuildBot.Rehearsal.Overlap

/-!
# Pushes that repeat what was fetched

A lookup keeps a membership as it was fetched, a pushed update keeps none that is blank. So a push that
repeats what was fetched goes unnoticed, but for a blank membership: the push removes it and reports a
change, though the user is in the guild just as before.
-/

namespace GuildBot

open Platform Std Directory

/-- The update that a platform pushes which has nothing new to tell of a user. -/
def MemberUpdate.echo (id guildId : String) (user : User) (member : Member) : MemberUpdate where
  guildId := guildId
  userId := id
  username := user.username
  globalName := user.globalName
  nickname := member.nickname
  roles := member.roles

private theorem Member.summary_of_isBlank {m : Member} (h : m.isBlank = true) :
    m.summary = "nickname= roles=" := by
  obtain ⟨hnickname, hroles⟩ := Bool.and_eq_true_iff.1 h
  rw [String.isEmpty_iff] at hnickname
  rw [summary, hnickname, ExtTreeSet.isEmpty_iff.1 hroles]
  rfl

namespace Directory

variable {b : Bot} {id guildId : String}

private theorem learnUser_of_answers {user : User} {member : Member} (hguild : guildId ≠ "")
    (huser : b.answer (.fetchUser id) = some (.ok user))
    (hmember : (b.asked (.fetchUser id)).answer (.fetchMember guildId id) = some (.ok member)) :
    b.learnUser id guildId =
      some (.ok { user with memberships := user.memberships.insert guildId member }) := by
  simp [Bot.learnUser, Bot.learnPart, huser, hmember, hguild]

private theorem eval_user_of_learned {record : User} (hid : id ≠ "")
    (hmiss : b.users.peek b.now ⟨id, guildId⟩ = none)
    (hroom : (b.now.add? b.users.lifetime).isSome = true)
    (hlearned : b.learnUser id guildId = some (.ok record)) :
    let r := Flow.eval Bot.respond (user id guildId) b
    r.1 = some (.ok (some record)) ∧
      b.users.insert? b.now ⟨id, guildId⟩ record = some r.2.users := by
  have hsought := sought_user hid guildId b
  rw [hlearned] at hsought
  dsimp only
  generalize Flow.eval Bot.respond (user id guildId) b = r at hsought ⊢
  cases hsought with
  | cached known hp =>
    have hp : b.users.peek b.now ⟨id, guildId⟩ = some known := hp
    rw [hmiss] at hp
    cases hp
  | fetched learned c lines _ _ hr hi =>
    cases hr
    exact ⟨rfl, hi⟩
  | full learned lines _ _ hr hi =>
    have hi : b.users.insert? b.now ⟨id, guildId⟩ learned = none := hi
    rw [← Cache.insert?_isSome_iff b.users b.now ⟨id, guildId⟩ learned, hi] at hroom
    cases hroom
  | partly p lines _ _ hr => cases hr
  | broken lines _ _ hr => cases hr

private theorem peek_users_absorbMember {update : MemberUpdate} {record : User} (hguild : update.guildId ≠ "")
    (hp : b.users.peek b.now ⟨update.userId, update.guildId⟩ = some record) :
    (Flow.eval Bot.respond (absorbMember update) b).2.users.peek b.now
      ⟨update.userId, update.guildId⟩ = some (record.update update).1 := by
  obtain ⟨users, habsorbed, heval⟩ := eval_absorbMember_of_peek b hp
  rw [heval]
  rw [absorbed?, hp] at habsorbed
  cases habsorbed
  have hnames : (⟨update.userId, update.guildId⟩ : UserKey) ≠ ⟨update.userId, ""⟩ :=
    fun h => hguild (congrArg UserKey.guildId h)
  simp [Cache.peek_update, hnames, hp]

end Directory

namespace Rehearsal.Session

private theorem stepBot_pushMember_of_known {b : Bot} (update : MemberUpdate) {record : User}
    (hguild : update.guildId ≠ "")
    (hp : b.users.peek b.now ⟨update.userId, update.guildId⟩ = some record)
    (husername : record.username = update.username)
    (hglobalName : record.globalName = update.globalName)
    (hmember : record.memberships[update.guildId]? = some update.member) :
    let pushed := stepBot b (.pushMember update)
    pushed.1 = .changes
      (if update.member.isBlank then [⟨s!"guild[{update.guildId}]", "nickname= roles=", ""⟩] else []) ∧
    pushed.2.2.users.peek b.now ⟨update.userId, update.guildId⟩ = some
      (if update.member.isBlank then
        { record with memberships := record.memberships.erase update.guildId }
      else record) := by
  obtain ⟨hresult, hafter⟩ := stepBot_pushMember b update
  obtain ⟨users, -, heval⟩ := eval_absorbMember_of_peek b hp
  have habsorbed := peek_users_absorbMember hguild hp
  have hupdate := record.update_of_known update husername hglobalName hmember
  dsimp only
  rw [hresult, hafter, habsorbed, heval, hupdate]
  split
  · next hblank =>
    rw [Member.summary_of_isBlank hblank]
    exact ⟨rfl, rfl⟩
  · exact ⟨rfl, rfl⟩

/-- What a lookup fetches of a user and a membership it finds, and that shows all that a push of the same
values gives. While the record is live such a push changes nothing and reports nothing, unless the
membership is blank: then it removes the membership, and reports a change to what nobody can tell apart. -/
theorem push_echoes_fetch {b : Bot} {id guildId : String} {user : User} {member : Member}
    (hid : id ≠ "") (hguild : guildId ≠ "")
    (hmiss : b.users.peek b.now ⟨id, guildId⟩ = none)
    (hroom : (b.now.add? b.users.lifetime).isSome = true)
    (huser : b.answer (.fetchUser id) = some (.ok user))
    (hmember : (b.asked (.fetchUser id)).answer (.fetchMember guildId id) = some (.ok member)) :
    let record : User := { user with memberships := user.memberships.insert guildId member }
    let update : MemberUpdate := .echo id guildId user member
    let fetched := stepBot b (.look (.user id guildId))
    fetched.1 = .found (.user (.ok (some record))) ∧ record.Shows update ∧
    ∀ later : Bot, later.users.entries[(⟨id, guildId⟩ : UserKey)]? =
        fetched.2.2.users.entries[(⟨id, guildId⟩ : UserKey)]? →
      (later.users.peek later.now ⟨id, guildId⟩).isSome = true →
      let pushed := stepBot later (.pushMember update)
      pushed.1 = .changes
        (if member.isBlank then [⟨s!"guild[{guildId}]", "nickname= roles=", ""⟩] else []) ∧
      pushed.2.2.users.peek later.now ⟨id, guildId⟩ = some
        (if member.isBlank then { record with memberships := record.memberships.erase guildId }
          else record) := by
  intro record update fetched
  have hknown : record.memberships[guildId]? = some member := by simp [record]
  obtain ⟨hfound, hstored⟩ :=
    eval_user_of_learned hid hmiss hroom (learnUser_of_answers hguild huser hmember)
  obtain ⟨hshown, hbot⟩ := stepBot_look b (.user id guildId)
  have hlook : (Query.user id guildId).look =
    (Directory.user id guildId).bind fun found => .done (.user found) := rfl
  rw [hlook, Flow.eval_bind_done] at hshown hbot
  refine ⟨?_, ⟨rfl, rfl, ?_⟩, fun later hentry hlive => ?_⟩
  · rw [hfound] at hshown
    exact hshown
  · rw [User.membership_eq]
    exact congrArg (Option.getD · {}) hknown
  · have hp : later.users.peek later.now ⟨id, guildId⟩ = some record := by
      obtain ⟨live, hp⟩ := Option.isSome_iff_exists.1 hlive
      obtain ⟨e, he, -, hvalue⟩ := Cache.peek_eq_some_iff.1 hp
      rw [hentry, hbot, Cache.getElem?_insert? hstored, if_pos rfl] at he
      cases he
      rw [hp, ← hvalue]
    exact stepBot_pushMember_of_known update hguild hp rfl rfl hknown

def botAmong (user : User) (member : Member) : Bot :=
  .ofSettings { token := "t" } platform .hand ⟨0⟩ ⟨0⟩
where
  platform : Behaviour := fun _ c =>
    match c with
    | .fetchUser _ => { result := some (.ok user) }
    | .fetchMember _ _ => { result := some (.ok member) }
    | _ => { result := none }

/-- A second after a user without a nickname and without roles was looked up, a push of what was fetched
reports that they have no membership any more. -/
theorem push_echoes_fetch_bare :
    let bob : User := { id := "42", username := "bob" }
    let fetched := stepBot (botAmong bob {}) (.look (.user "42" "7"))
    let later := (stepBot fetched.2.2 (.advance (.ofSeconds 1))).2.2
    (stepBot later (.pushMember (.echo "42" "7" bob {}))).1 =
      .changes [⟨"guild[7]", "nickname= roles=", ""⟩] := by
  intro bob fetched later
  have hmiss : (botAmong bob {}).users.peek (botAmong bob {}).now ⟨"42", "7"⟩ = none := rfl
  have hroom : ((botAmong bob {}).now.add? (botAmong bob {}).users.lifetime).isSome = true := by decide
  have hmember : ((botAmong bob {}).asked (.fetchUser "42")).answer (.fetchMember "7" "42") =
    some (.ok ({} : Member)) := rfl
  obtain ⟨-, -, hpush⟩ :=
    push_echoes_fetch (by decide : "42" ≠ "") (by decide : "7" ≠ "") hmiss hroom rfl hmember
  obtain ⟨hresult, -⟩ := hpush later (by decide +kernel) (by decide +kernel)
  exact hresult.trans (congrArg Shown.changes (by decide))

end Rehearsal.Session

end GuildBot

import GuildBot.Proofs.Flow.Blind
import GuildBot.Proofs.Rehearsal.Diary

/-!
# What is written about a guild

What a tracker writes about the changes in a guild hangs on these changes, on what it is answered at each,
and on where it last saw their users. It sees users in all guilds together: that is all that the changes
in other guilds have to do with it.
-/

namespace GuildBot.Rehearsal

open Activity Std

variable {policy : Policy} {guildId userId : String}

namespace Desk

/-- Whether two desks are alike for a change of a user in a guild. -/
structure Alike (guildId userId : String) (d d' : Desk) : Prop where
  occasion : d.occasion = d'.occasion
  now : d.now = d'.now
  sent : d.sent = d'.sent
  lastSeen : d.tracker.lastSeen[userId]? = d'.tracker.lastSeen[userId]?
  known : SameOf guildId d.tracker d'.tracker

private theorem blind_ask {α : Type} (question : Occasion → Reply α) :
    Flow.Blind respond (Alike guildId userId) (ask question) := by
  apply Flow.Blind.swap
  intro d d' h
  rw [h.occasion]
  exact ⟨rfl, rfl, rfl, h.sent, h.lastSeen, h.known⟩

private theorem blind_channels (guild : String) :
    Flow.Blind respond (Alike guildId userId) (tools.channels guild) := by
  refine (Flow.Blind.change fun d d' h => ?_).bind fun _ => blind_ask fun o => o.channels guild
  exact ⟨h.occasion, h.now, h.sent, h.lastSeen, h.known⟩

private theorem blind_send (channelId text : String) :
    Flow.Blind respond (Alike guildId userId) (tools.send channelId text) := by
  refine (Flow.Blind.change fun d d' h => ?_).bind fun _ => blind_ask fun o => o.send channelId text
  exact ⟨h.occasion, h.now, by rw [h.sent], h.lastSeen, h.known⟩

private theorem blind_makeDo {α : Type} (what : String) (found : Found α) :
    Flow.Blind respond (Alike guildId userId) (found.makeDo tools.note what) := by
  cases found with
  | ok found => exact .done _
  | error p => exact .done _

private theorem blind_holdsRole (role : String) :
    Flow.Blind respond (Alike guildId userId) (holdsRole tools role guildId userId) := by
  apply (blind_ask fun o => o.guild guildId).bind
  intro found
  apply (blind_makeDo "guild" found).bind
  intro guild
  cases guild.bind (·.roleId? role) with
  | none => exact .done _
  | some roleId =>
    apply (blind_ask fun o => o.user userId guildId).bind
    intro found
    apply (blind_makeDo "user" found).bind
    intro user
    by_cases hr : user.any (·.hasRole guildId roleId) = true
    · simp only [hr, if_true]
      exact .done _
    · simp only [hr]
      exact .done _

private theorem blind_decide (tracked : Bool) :
    Flow.Blind respond (Alike guildId userId) (place.decisions.store ⟨userId, guildId⟩ tracked) := by
  intro d d' h
  rw [Cache.Place.eval_store, Cache.Place.eval_store]
  have hexpiry : d.now.add? d.tracker.decisions.lifetime = d'.now.add? d'.tracker.decisions.lifetime := by
    rw [h.now, h.known.lifetime]
  simp only [place, Place.decisions, Cache.insert?, hexpiry]
  cases d'.now.add? d'.tracker.decisions.lifetime with
  | none => exact ⟨rfl, h⟩
  | some expiry =>
    refine ⟨rfl, h.occasion, h.now, h.sent, h.lastSeen, h.known.logChannel, h.known.lifetime, ?_⟩
    intro user
    simp only [Option.map_some, ExtTreeMap.getElem?_insert, h.known.decisions user]

private theorem blind_isTracked (policy : Policy) :
    Flow.Blind respond (Alike guildId userId) (isTracked tools policy place guildId userId) := by
  unfold isTracked
  cases policy.role with
  | none => exact .done _
  | some role =>
    refine (Flow.Blind.get ?_ blind_decide ?_).bind fun decision => ?_
    · intro d d' h
      simp only [place, Place.decisions, Cache.peek, h.now, h.known.decisions userId]
    · exact (blind_holdsRole role).bind fun _ => .done _
    · cases decision with
      | ok tracked => exact .done _
      | error e => exact e.elim

private theorem blind_logChannelId (policy : Policy) :
    Flow.Blind respond (Alike guildId userId) (logChannelId tools policy place guildId) := by
  apply (Flow.Blind.look fun d d' h => h.known.logChannel).bind
  intro known
  cases known with
  | some channelId => exact .done _
  | none =>
    apply (blind_channels guildId).bind
    intro channels
    cases channels with
    | error f => exact .done _
    | ok channels =>
      have hfind : Flow.Blind respond (Alike guildId userId)
          (findLogChannel tools policy.logChannel guildId channels) := by
        intro d d' h
        rw [eval_findLogChannel, eval_findLogChannel]
        exact ⟨rfl, h⟩
      apply hfind.bind
      intro found
      cases found with
      | none => exact .done _
      | some channelId =>
        refine (Flow.Blind.change fun d d' h => ?_).bind fun _ => .done _
        exact ⟨h.occasion, h.now, h.sent, h.lastSeen, by simp [place], h.known.lifetime,
          h.known.decisions⟩

private theorem blind_follow (policy : Policy) {update : VoiceUpdate} (hguild : update.guildId = guildId)
    (seen : Option Channel) :
    Flow.Blind respond (Alike guildId userId) (follow tools policy place update seen) := by
  have hrecount (previous : Option Channel) :
      Flow.Blind respond (Alike guildId userId) (recount tools policy place update previous) := by
    unfold recount
    split
    · exact .done _
    · rw [hguild]
      refine Flow.Blind.bind (.bind (.done ()) fun _ => ?_) fun _ => .done _
      apply (blind_logChannelId policy).bind
      intro found
      cases found with
      | error f => exact .done _
      | ok channelId => exact (blind_send channelId _).bind fun _ => .done _
  unfold follow
  split
  · exact .done _
  · cases seen with
    | none => exact hrecount none
    | some c =>
      have hrefresh : Flow.Blind respond (Alike guildId userId) (refresh tools c) := by
        apply (blind_ask fun o => o.channel c.id).bind
        rintro (p | _ | c')
        · exact .done _
        · exact .done _
        · exact .done _
      exact hrefresh.bind fun c' => hrecount (some c')

theorem lastSeen_see_self (t : Tracker) (userId : String) (channel : Option Channel) :
    (t.see userId channel).2.lastSeen[userId]? = channel := by
  rw [Sightings.lastSeen_see fun _ => rfl, Sightings.see, if_pos rfl]

private theorem blind_see {update : VoiceUpdate} (huser : update.user.id = userId) :
    Flow.Blind respond (Alike guildId userId) (see place update) := by
  apply Flow.Blind.swap
  intro d d' h
  have hseen := (lastSeen_see_self d.tracker userId update.channel).trans
    (lastSeen_see_self d'.tracker userId update.channel).symm
  rw [huser]
  exact ⟨h.lastSeen, h.occasion, h.now, h.sent, hseen, h.known.logChannel, h.known.lifetime,
    h.known.decisions⟩

private theorem blind_track (policy : Policy) {update : VoiceUpdate} (hguild : update.guildId = guildId)
    (huser : update.user.id = userId) :
    Flow.Blind respond (Alike guildId userId) (track tools policy place update) := by
  rw [track_eq, hguild, huser]
  apply (blind_isTracked policy).bind
  intro tracked
  cases tracked with
  | false => exact .done _
  | true => exact (blind_see huser).bind fun seen => blind_follow policy hguild seen

/-- A tracker handles a change of a user alike if it knows the same of the guild, and has last seen the
user in the same place. -/
private theorem handled_alike (policy : Policy) {t t' : Tracker} {o : Occasion}
    (hknown : SameOf o.update.guildId t t')
    (hseen : t.lastSeen[o.update.user.id]? = t'.lastSeen[o.update.user.id]?) :
    (handled policy t o).sent = (handled policy t' o).sent ∧
      SameOf o.update.guildId (handled policy t o).tracker (handled policy t' o).tracker := by
  rw [handled_eq, handled_eq]
  obtain ⟨-, h⟩ := blind_track policy rfl rfl (told t o) (told t' o) ⟨rfl, rfl, rfl, hseen, hknown⟩
  exact ⟨h.sent, h.known⟩

end Desk

/-- What is written about a guild by a tracker that is told of the guild's changes only, and for each of
where it last saw the user. -/
def replay (policy : Policy) : Tracker → List (Occasion × Option Channel) → List (String × String)
  | _, [] => []
  | t, (o, seen) :: rest =>
    let d := Desk.handled policy ({ t with lastSeen := ∅ }.see o.update.user.id seen).2 o
    d.sent ++ replay policy d.tracker rest

private theorem guildLog_cons (p : Page) (rest : List Page) :
    guildLog guildId (p :: rest) =
      if p.update.guildId = guildId then p.sent ++ guildLog guildId rest else guildLog guildId rest := by
  unfold guildLog
  by_cases hg : p.update.guildId = guildId
  · simp [hg]
  · simp [hg]

private theorem guildLog_diary {t t' : Tracker} {seen : Sightings} (hsame : Desk.SameOf guildId t t')
    (hseen : ∀ userId, t.lastSeen[userId]? = seen userId) (os : List Occasion) :
    guildLog guildId (diary policy t os) = replay policy t'
      ((os.filter fun o => o.update.guildId = guildId).zip
        (recollections guildId seen (diary policy t os))) := by
  induction os generalizing t t' seen with
  | nil => rfl
  | cons o rest ih =>
    rw [diary_cons]
    have hlater : ∀ userId, (Desk.handled policy t o).tracker.lastSeen[userId]? =
        (Desk.page policy t o).mark seen userId := Desk.lastSeen_handled hseen o
    by_cases hg : o.update.guildId = guildId
    · subst hg
      have hsame' : Desk.SameOf o.update.guildId t
          ({ t' with lastSeen := ∅ }.see o.update.user.id (seen o.update.user.id)).2 :=
        ⟨hsame.logChannel, hsame.lifetime, hsame.decisions⟩
      have hseen' : t.lastSeen[o.update.user.id]? =
          ({ t' with lastSeen := ∅ }.see o.update.user.id
            (seen o.update.user.id)).2.lastSeen[o.update.user.id]? := by
        rw [hseen, Desk.lastSeen_see_self]
      obtain ⟨hsent, hknown⟩ := Desk.handled_alike policy hsame' hseen'
      have hrest := ih hknown hlater
      have hpage : (Desk.page policy t o).update.guildId = o.update.guildId := rfl
      rw [guildLog_cons, if_pos hpage, recollections, if_pos hpage, List.filter_cons_of_pos (by simp),
        hrest]
      exact congrArg (· ++ _) hsent
    · have hsame' := (Desk.sameOf_handled policy t o (Ne.symm hg)).symm.trans hsame
      have hpage : (Desk.page policy t o).update.guildId ≠ guildId := hg
      rw [guildLog_cons, if_neg hpage, recollections, if_neg hpage,
        List.filter_cons_of_neg (by simpa using hg)]
      exact ih hsame' hlater

/-- Whether a channel is in none of the lists that a tracker is given of the channels of other guilds. -/
def IsOwn (guildId channelId : String) (os : List Occasion) : Prop :=
  ∀ o ∈ os, o.update.guildId ≠ guildId → ∀ channels, (o.channels o.update.guildId).answer = .ok channels →
    ∀ c ∈ channels, c.id ≠ channelId

private theorem Desk.exists_of_address?_wanted {d : Desk} {name channelId : String}
    (h : address? name guildId (d.wanted guildId) = some channelId) :
    ∃ channels, (d.occasion.channels guildId).answer = .ok channels ∧ ∃ c ∈ channels, c.id = channelId := by
  obtain ⟨before, channels, after, hlistings, -, hfind⟩ := isAddress_of_address? h
  have hmem : ⟨guildId, .ok channels⟩ ∈ d.wanted guildId := by
    rw [hlistings]
    exact List.mem_append_right _ List.mem_cons_self
  obtain ⟨c, hc, hid⟩ := Option.map_eq_some_iff.1 hfind
  refine ⟨channels, ?_, c, List.mem_of_find?_eq_some hc, hid⟩
  unfold wanted at hmem
  split at hmem
  · exact absurd hmem List.not_mem_nil
  · exact (congrArg Listing.answer (List.mem_singleton.1 hmem)).symm

private theorem Desk.handled_elsewhere (policy : Policy) {t : Tracker} {o : Occasion} {channelId : String}
    (hknown : t.logChannels[o.update.guildId]? ≠ some channelId)
    (hlisted : ∀ channels, (o.channels o.update.guildId).answer = .ok channels →
      ∀ c ∈ channels, c.id ≠ channelId) :
    (handled policy t o).tracker.logChannels[o.update.guildId]? ≠ some channelId ∧
      ∀ message ∈ (handled policy t o).sent, message.1 ≠ channelId := by
  obtain ⟨hreports, -⟩ := ends_track policy t o
  have hbefore : (told (sighted policy t o) o).tracker.logChannels[o.update.guildId]? ≠ some channelId :=
    logChannels_sighted policy t o ▸ hknown
  cases hnews : news? policy t o with
  | none =>
    rw [hnews] at hreports
    have hponders : Ponders o.update.guildId _ (handled policy t o) := hreports
    rw [hponders.logChannels, hponders.sent]
    exact ⟨hbefore, nofun⟩
  | some text =>
    rw [hnews] at hreports
    have hwrites : Writes policy.logChannel o.update.guildId text _ (handled policy t o) := hreports
    have hafter : (handled policy t o).tracker.logChannels[o.update.guildId]? ≠ some channelId := by
      intro heq
      rw [hwrites.found] at heq
      rcases Option.or_eq_some_iff.1 heq with hsame | ⟨-, haddress⟩
      · exact hbefore hsame
      · obtain ⟨channels, hlist, c, hc, hid⟩ := exists_of_address?_wanted haddress
        exact hlisted channels hlist c hc hid
    refine ⟨hafter, fun message hmessage => ?_⟩
    rw [hwrites.sent] at hmessage
    obtain ⟨known, hchannel, rfl⟩ := List.mem_map.1 hmessage
    rintro rfl
    exact hafter (Option.mem_toList.1 hchannel)

private theorem sent_elsewhere {channelId : String} {t : Tracker} {os : List Occasion}
    (hknown : ∀ other, other ≠ guildId → t.logChannels[other]? ≠ some channelId)
    (hown : IsOwn guildId channelId os) :
    ∀ p ∈ diary policy t os, p.update.guildId ≠ guildId → ∀ message ∈ p.sent,
      message.1 ≠ channelId := by
  induction os generalizing t with
  | nil => exact fun p hp => absurd hp List.not_mem_nil
  | cons o rest ih =>
    have helsewhere (hg : o.update.guildId ≠ guildId) :=
      Desk.handled_elsewhere policy (hknown _ hg) (hown o List.mem_cons_self hg)
    have hlater (other : String) (hother : other ≠ guildId) :
        (Desk.handled policy t o).tracker.logChannels[other]? ≠ some channelId := by
      by_cases hg : other = o.update.guildId
      · subst hg
        exact (helsewhere hother).1
      · rw [← (Desk.sameOf_handled policy t o hg).logChannel]
        exact hknown other hother
    intro p hp
    rw [diary_cons] at hp
    rcases List.mem_cons.1 hp with rfl | hp
    · intro hg
      exact (helsewhere hg).2
    · exact ih hlater (fun o ho => hown o (List.mem_cons_of_mem _ ho)) p hp

private theorem textsTo_eq {channelId : String} {pages : List Page}
    (h : ∀ p ∈ pages, p.update.guildId ≠ guildId → ∀ message ∈ p.sent, message.1 ≠ channelId) :
    textsTo channelId pages =
      ((guildLog guildId pages).filter fun message => message.1 = channelId).map Prod.snd := by
  unfold textsTo guildLog
  congr 1
  induction pages with
  | nil => rfl
  | cons p rest ih =>
    have hrest := ih fun q hq => h q (List.mem_cons_of_mem _ hq)
    rw [List.flatMap_cons, List.filter_append, hrest]
    change _ = (guildLog guildId (p :: rest)).filter _
    rw [guildLog_cons]
    by_cases hg : p.update.guildId = guildId
    · rw [if_pos hg, List.filter_append]
      rfl
    · have hnone : p.sent.filter (fun message => message.1 = channelId) = [] := by
        simpa using h p List.mem_cons_self hg
      rw [if_neg hg, hnone]
      rfl

/-- What is sent to a guild's log channel hangs on the changes in the guild, and on where their users were
last seen before each: changes in other guilds have no other part in it. -/
theorem textsTo_eq_of_recollections (policy : Policy) (d : Duration) {guildId channelId : String}
    {os os' : List Occasion} (hown : IsOwn guildId channelId os) (hown' : IsOwn guildId channelId os')
    (hsame : (os.filter fun o => o.update.guildId = guildId) =
      os'.filter fun o => o.update.guildId = guildId)
    (hseen : recollections guildId (fun _ => none) (diary policy (.ofDuration d) os) =
      recollections guildId (fun _ => none) (diary policy (.ofDuration d) os')) :
    textsTo channelId (diary policy (.ofDuration d) os) =
      textsTo channelId (diary policy (.ofDuration d) os') := by
  have hnothing (userId : String) : (Tracker.ofDuration d).lastSeen[userId]? = none := by
    simp [Tracker.ofDuration]
  have hknown (other : String) (_ : other ≠ guildId) :
      (Tracker.ofDuration d).logChannels[other]? ≠ some channelId := by
    simp [Tracker.ofDuration]
  rw [textsTo_eq (sent_elsewhere hknown hown), textsTo_eq (sent_elsewhere hknown hown'),
    guildLog_diary (.refl guildId _) hnothing, guildLog_diary (.refl guildId _) hnothing, hsame, hseen]

def everyone : Policy := ⟨"activity_log", none⟩

def entering : List Occasion := [bobSeen "7" 10 ∅ (some lounge)]

/-- Bob is in another guild's den before he joins the lounge. -/
def roaming : List Occasion := bobSeen "8" 5 ∅ (some den) :: entering

/-- Bob comes from another room of the other guild. -/
def rambling : List Occasion := bobSeen "8" 0 ∅ (some lounge) :: roaming

private theorem isOwn_rambling : IsOwn "7" "700" rambling := by
  intro o ho hg channels hlist c hc
  simp only [rambling, roaming, entering, List.mem_cons, List.not_mem_nil, or_false] at ho
  rcases ho with rfl | rfl | rfl
  · cases hlist
    obtain rfl := List.mem_singleton.1 hc
    decide
  · cases hlist
    obtain rfl := List.mem_singleton.1 hc
    decide
  · exact absurd rfl hg

private theorem isOwn_roaming : IsOwn "7" "700" roaming := fun o ho =>
  isOwn_rambling o (List.mem_cons_of_mem _ ho)

theorem textsTo_eq_of_recollections_rambling :
    textsTo "700" (diary everyone (.ofDuration (.ofSeconds 5)) rambling) =
        textsTo "700" (diary everyone (.ofDuration (.ofSeconds 5)) roaming) ∧
      textsTo "700" (diary everyone (.ofDuration (.ofSeconds 5)) roaming) =
        ["bob moved from den to lounge"] :=
  ⟨textsTo_eq_of_recollections everyone (.ofSeconds 5) isOwn_rambling isOwn_roaming rfl
    (by decide +kernel), by decide +kernel⟩

/-- Bob joins the lounge, but what is told is that he moved there from the den of the other guild. -/
theorem log_changed_by_other_guild :
    ((roaming.filter fun o => o.update.guildId = "7") =
      entering.filter fun o => o.update.guildId = "7") ∧
    IsOwn "7" "700" roaming ∧
    textsTo "700" (diary everyone (.ofDuration (.ofSeconds 5)) entering) = ["bob joined lounge"] ∧
    textsTo "700" (diary everyone (.ofDuration (.ofSeconds 5)) roaming) =
      ["bob moved from den to lounge"] :=
  ⟨rfl, isOwn_roaming, by decide +kernel, by decide +kernel⟩

end GuildBot.Rehearsal

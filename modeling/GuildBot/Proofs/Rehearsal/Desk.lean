import GuildBot.Proofs.Activity.Decision
import GuildBot.Proofs.Flow.SingleTask
import GuildBot.Rehearsal.Address

/-!
# A tracker at its desk

What a tracker comes to when it handles a change in voice: the lists of channels that it asks for, where
it finds the log channel, what it sends there, and what it leaves alone.
-/

namespace GuildBot

private theorem Failure.inContext_inj {context : String} {f f' : Failure} :
    f.inContext context = f'.inContext context ↔ f = f' := by
  cases f
  cases f'
  simp [inContext]

private theorem Outcome.inContext_eq_error_iff {α : Type} {context : String} {r : Outcome α}
    {f : Failure} : r.inContext context = .error (f.inContext context) ↔ r = .error f := by
  cases r with
  | ok a => simp [inContext]
  | error f' => simp [inContext, Failure.inContext_inj]

namespace Rehearsal

open Activity Std

section

variable {name guildId : String} {l : Listing} {listings listings' : List Listing}

/-- The id of the first channel of that name in a list, if it is one of the guild. -/
def Listing.address? (name guildId : String) (l : Listing) : Option String :=
  if l.guildId = guildId then
    match l.answer with
    | .ok channels => (channels.find? fun c => c.name = name).map Channel.id
    | .error _ => none
  else none

/-- The id of the first channel of that name in the first list of a guild that has one. -/
def address? (name guildId : String) (listings : List Listing) : Option String :=
  listings.findSome? (Listing.address? name guildId)

private theorem Listing.address?_eq_none_iff :
    l.address? name guildId = none ↔ (l.guildId = guildId → ¬l.Has name) := by
  obtain ⟨listed, answer⟩ := l
  unfold address? Has
  by_cases hg : listed = guildId
  · cases answer with
    | error f => simp
    | ok channels => simp [hg]
  · simp [hg]

theorem address?_append :
    address? name guildId (listings ++ listings') =
      (address? name guildId listings).or (address? name guildId listings') :=
  List.findSome?_append

theorem address?_eq_none_iff :
    address? name guildId listings = none ↔ ∀ l ∈ listings, l.guildId = guildId → ¬l.Has name := by
  simp only [address?, List.findSome?_eq_none_iff, Listing.address?_eq_none_iff]

theorem isAddress_of_address? {channelId : String} (h : address? name guildId listings = some channelId) :
    IsAddress name guildId listings channelId := by
  obtain ⟨before, l, after, rfl, hl, hbefore⟩ := List.findSome?_eq_some_iff.1 h
  obtain ⟨listed, answer⟩ := l
  have hearlier : ∀ x ∈ before, x.guildId = guildId → ¬x.Has name := by
    intro x hx
    exact Listing.address?_eq_none_iff.1 (hbefore x hx)
  unfold Listing.address? at hl
  by_cases hg : listed = guildId
  · subst hg
    cases answer with
    | error f => simp at hl
    | ok channels => exact ⟨before, channels, after, rfl, hearlier, by simpa using hl⟩
  · simp [hg] at hl

end

namespace Desk

variable {d d' d'' : Desk} {t t' : Tracker} {o : Occasion} {policy : Policy}
  {name guildId text : String} {news : Option String}

private theorem unhindered_ask {α : Type} (question : Occasion → Reply α) {uses : List Unit} :
    (ask question).Unhindered uses 0 :=
  .act _ fun _ => .done _

private theorem unhindered_tools : Tools.Unhindered tools [] 0 where
  guild id := unhindered_ask fun o => o.guild id
  channel id := unhindered_ask fun o => o.channel id
  user id guildId := unhindered_ask fun o => o.user id guildId
  channels guildId := .act _ fun _ => unhindered_ask fun o => o.channels guildId
  send channelId text := .act _ fun _ => unhindered_ask fun o => o.send channelId text
  note _ _ := .done _

private theorem perform_eq {β : Type} {f : Action β} {uses : List Unit} {n : Nat}
    (hf : f.Unhindered uses n) (hn : 2 * n < Machine.stepLimit) (d : Desk) :
    perform d f = ((Flow.eval respond f d).1.elim .panicked .value, (Flow.eval respond f d).2) := by
  obtain ⟨hending, hdesk⟩ := Machine.runAlone_ofProgram (δ := Unit) respond d hf hn
  exact Prod.ext hending hdesk

private theorem handle_eq (policy : Policy) (t : Tracker) (o : Occasion) :
    handle policy t o =
      ((Flow.eval respond (track tools policy place o.update) (told t o)).1.elim .panicked .value,
        (Flow.eval respond (track tools policy place o.update) (told t o)).2) :=
  perform_eq (unhindered_track unhindered_tools policy place List.not_mem_nil o.update) (by decide) _

theorem handled_eq (policy : Policy) (t : Tracker) (o : Occasion) :
    handled policy t o = (Flow.eval respond (track tools policy place o.update) (told t o)).2 :=
  congrArg Prod.snd (handle_eq policy t o)

private theorem goesBy_eq_true_iff :
    goesBy policy t o = true ↔ (Flow.eval respond
      (isTracked tools policy place o.update.guildId o.update.user.id) (told t o)).1 = some true := by
  have hf := unhindered_isTracked unhindered_tools policy place List.not_mem_nil o.update.guildId
    o.update.user.id
  rw [goesBy, decide_eq_true_iff, perform_eq hf (by decide)]
  cases (Flow.eval respond (isTracked tools policy place o.update.guildId o.update.user.id)
    (told t o)).1 with
  | none => simp
  | some tracked => simp

private theorem eval_channels (guildId : String) (d : Desk) :
    Flow.eval respond (tools.channels guildId) d =
      (some (d.occasion.channels guildId).answer,
        { d with
          now := (d.occasion.channels guildId).time
          listings := d.listings ++ [⟨guildId, (d.occasion.channels guildId).answer⟩] }) := rfl

private theorem eval_send (channelId text : String) (d : Desk) :
    Flow.eval respond (tools.send channelId text) d =
      (some (d.occasion.send channelId text).answer,
        { d with
          now := (d.occasion.send channelId text).time
          sent := d.sent ++ [(channelId, text)] }) := rfl

private theorem eval_see (update : VoiceUpdate) (d : Desk) :
    Flow.eval respond (see place update) d = (some d.tracker.lastSeen[update.user.id]?,
      { d with tracker := (d.tracker.see update.user.id update.channel).2 }) := rfl

private theorem eval_refresh (seen : Channel) (d : Desk) :
    Flow.eval respond (refresh tools seen) d =
      (some (refreshed d.occasion seen), { d with now := (d.occasion.channel seen.id).time }) := by
  have hchannel : Flow.eval respond (tools.channel seen.id) d =
      (some (d.occasion.channel seen.id).answer, { d with now := (d.occasion.channel seen.id).time }) :=
    rfl
  unfold refresh refreshed
  rw [Flow.bind_def, Flow.eval_bind, hchannel]
  rcases (d.occasion.channel seen.id).answer with f | _ | c
  · rfl
  · rfl
  · rfl

theorem eval_findLogChannel (name guildId : String) (channels : List Channel) (d : Desk) :
    Flow.eval respond (findLogChannel tools name guildId channels) d =
      (some ((channels.find? fun c => c.name = name).map Channel.id), d) := by
  rw [findLogChannel_of_silent fun _ _ => rfl, Flow.eval_done]

/-- Whether two trackers know and have decided the same of a guild. -/
structure SameOf (guildId : String) (t t' : Tracker) : Prop where
  logChannel : t.logChannels[guildId]? = t'.logChannels[guildId]?
  lifetime : t.decisions.lifetime = t'.decisions.lifetime
  decisions : ∀ userId : String, t.decisions.entries[(⟨userId, guildId⟩ : UserKey)]? =
    t'.decisions.entries[(⟨userId, guildId⟩ : UserKey)]?

namespace SameOf

theorem refl (guildId : String) (t : Tracker) : SameOf guildId t t := ⟨rfl, rfl, fun _ => rfl⟩

theorem symm (h : SameOf guildId t t') : SameOf guildId t' t :=
  ⟨h.logChannel.symm, h.lifetime.symm, fun userId => (h.decisions userId).symm⟩

theorem trans {t₁ t₂ t₃ : Tracker} (h : SameOf guildId t₁ t₂) (h' : SameOf guildId t₂ t₃) :
    SameOf guildId t₁ t₃ :=
  ⟨h.logChannel.trans h'.logChannel, h.lifetime.trans h'.lifetime,
    fun userId => (h.decisions userId).trans (h'.decisions userId)⟩

end SameOf

/-- What a tracker leaves alone when it finds out whether to track a user in a guild. -/
structure Ponders (guildId : String) (d d' : Desk) : Prop where
  occasion : d'.occasion = d.occasion
  sent : d'.sent = d.sent
  listings : d'.listings = d.listings
  lastSeen : d'.tracker.lastSeen = d.tracker.lastSeen
  logChannels : d'.tracker.logChannels = d.tracker.logChannels
  others : ∀ other, other ≠ guildId → SameOf other d.tracker d'.tracker

namespace Ponders

theorem clock (guildId : String) (d : Desk) (now : Instant) : Ponders guildId d { d with now } :=
  ⟨rfl, rfl, rfl, rfl, rfl, fun other _ => .refl other d.tracker⟩

theorem trans (h : Ponders guildId d d') (h' : Ponders guildId d' d'') : Ponders guildId d d'' :=
  ⟨h'.occasion.trans h.occasion, h'.sent.trans h.sent, h'.listings.trans h.listings,
    h'.lastSeen.trans h.lastSeen, h'.logChannels.trans h.logChannels,
    fun other hne => (h.others other hne).trans (h'.others other hne)⟩

private theorem decide {userId : String} {tracked : Bool} {now : Instant}
    {decisions : Cache UserKey Bool}
    (hi : d.tracker.decisions.insert? now ⟨userId, guildId⟩ tracked = some decisions) :
    Ponders guildId d (place.decisions.put decisions d) := by
  obtain ⟨expiry, -, rfl⟩ := Option.map_eq_some_iff.1 hi
  refine ⟨rfl, rfl, rfl, rfl, rfl, fun other hne => ⟨rfl, rfl, fun user => ?_⟩⟩
  have hkey : compare (⟨userId, guildId⟩ : UserKey) ⟨user, other⟩ ≠ .eq := by
    intro hcompare
    have heq := LawfulEqOrd.eq_of_compare hcompare
    exact hne (congrArg UserKey.guildId heq).symm
  exact (by simp [place, Place.decisions, ExtTreeMap.getElem?_insert, hkey])

end Ponders

private theorem keeps_ask {α : Type} (guildId : String) (d : Desk) (question : Occasion → Reply α) :
    Flow.Keeps (Ponders guildId d) respond (fun _ => True) (ask question) :=
  .act (fun d' h => h.trans (.clock guildId d' _)) fun _ _ => .done trivial

private theorem ends_isTracked (policy : Policy) (guildId userId : String) (d : Desk) :
    Flow.Ends respond (Ponders guildId d) (isTracked tools policy place guildId userId) d
      fun _ => Ponders guildId d := by
  have htools : tools.Keeps (Ponders guildId d) respond :=
    ⟨fun id => keeps_ask guildId d fun o => o.guild id,
      fun id guild => keeps_ask guildId d fun o => o.user id guild, fun _ _ => .done trivial⟩
  have hkeeps : Flow.Keeps (Ponders guildId d) respond (fun _ => True)
      (isTracked tools policy place guildId userId) :=
    keeps_isTracked htools (fun _ _ _ h hi => h.trans (.decide hi)) policy
  exact (hkeeps.ends (.clock guildId d d.now)).mono (fun _ h => h) fun _ _ h => h.2

/-- What a tracker has to ask for to know a guild's log channel. -/
def wanted (guildId : String) (d : Desk) : List Listing :=
  if d.tracker.logChannels[guildId]?.isSome then [] else [⟨guildId, (d.occasion.channels guildId).answer⟩]

/-- Whether a tracker has found out what it can about a guild's log channel. -/
structure Finds (name guildId : String) (d d' : Desk) : Prop where
  lastSeen : d'.tracker.lastSeen = d.tracker.lastSeen
  listings : d'.listings = d.listings ++ d.wanted guildId
  found : d'.tracker.logChannels[guildId]? =
    d.tracker.logChannels[guildId]?.or (address? name guildId (d.wanted guildId))
  others : ∀ other, other ≠ guildId → SameOf other d.tracker d'.tracker

/-- Whether a tracker has found out what it can about a guild's log channel, and has written a line there
if it has one. -/
structure Writes (name guildId text : String) (d d' : Desk) : Prop extends Finds name guildId d d' where
  sent : d'.sent = d.sent ++ d'.tracker.logChannels[guildId]?.toList.map (·, text)

private theorem Ponders.wanted_eq (h : Ponders guildId d d') : d'.wanted guildId = d.wanted guildId := by
  unfold wanted
  rw [h.logChannels, h.occasion]

theorem Ponders.writes (h : Ponders guildId d d') (hw : Writes name guildId text d' d'') :
    Writes name guildId text d d'' where
  lastSeen := hw.lastSeen.trans h.lastSeen
  listings := by rw [hw.listings, h.listings, h.wanted_eq]
  found := by rw [hw.found, h.logChannels, h.wanted_eq]
  others other hne := (h.others other hne).trans (hw.others other hne)
  sent := by rw [hw.sent, h.sent]

private theorem wanted_of_known {channelId : String}
    (h : d.tracker.logChannels[guildId]? = some channelId) : d.wanted guildId = [] := by
  simp [wanted, h]

private theorem wanted_of_unknown (h : d.tracker.logChannels[guildId]? = none) :
    d.wanted guildId = [⟨guildId, (d.occasion.channels guildId).answer⟩] := by
  simp [wanted, h]

private theorem address?_wanted_of_ne {other : String} (hne : other ≠ guildId) :
    address? name other (d.wanted guildId) = none := by
  refine address?_eq_none_iff.2 fun l hl => ?_
  unfold wanted at hl
  split at hl
  · exact absurd hl List.not_mem_nil
  · obtain rfl := List.mem_singleton.1 hl
    exact fun h => absurd h.symm hne

private theorem Finds.of_known {channelId : String}
    (h : d.tracker.logChannels[guildId]? = some channelId) : Finds name guildId d d where
  lastSeen := rfl
  listings := by rw [wanted_of_known h, List.append_nil]
  found := by simp [wanted_of_known h, address?]
  others other _ := .refl other d.tracker

private theorem Finds.of_missing (h : address? name guildId (d.wanted guildId) = none) (now : Instant) :
    Finds name guildId d { d with now, listings := d.listings ++ d.wanted guildId } where
  lastSeen := rfl
  listings := rfl
  found := by rw [h, Option.or_none]
  others other _ := .refl other d.tracker

private theorem Finds.remember {channelId : String} (hunknown : d.tracker.logChannels[guildId]? = none)
    (h : address? name guildId (d.wanted guildId) = some channelId) (now : Instant) :
    Finds name guildId d { d with
      now
      listings := d.listings ++ d.wanted guildId
      tracker := { d.tracker with logChannels := d.tracker.logChannels.insert guildId channelId } } where
  lastSeen := rfl
  listings := rfl
  found := by simp [hunknown, h]
  others other hne := by
    have hkey : compare guildId other ≠ .eq := fun h => hne (LawfulEqOrd.eq_of_compare h).symm
    exact ⟨by simp [ExtTreeMap.getElem?_insert, hkey], rfl, fun _ => rfl⟩

theorem Finds.logChannels_eq (h : Finds name guildId d d')
    (hnone : d'.tracker.logChannels[guildId]? = none) :
    d'.tracker.logChannels = d.tracker.logChannels := by
  apply ExtTreeMap.ext_getElem?
  intro other
  by_cases hg : other = guildId
  · subst hg
    have hfound := h.found
    rw [hnone] at hfound ⊢
    exact (Option.or_eq_none_iff.1 hfound.symm).1.symm
  · exact (h.others other hg).logChannel.symm

private theorem ends_logChannelId (policy : Policy) (guildId : String) (d : Desk) :
    Flow.Ends respond (fun _ => False) (logChannelId tools policy place guildId) d
      fun found d' => Finds policy.logChannel guildId d d' ∧ d'.sent = d.sent ∧
        found.toOption = d'.tracker.logChannels[guildId]? := by
  unfold logChannelId
  refine Flow.Ends.bind_of_eval (a := d.tracker.logChannels[guildId]?) rfl ?_
  cases hknown : d.tracker.logChannels[guildId]? with
  | some channelId => exact .done ⟨.of_known hknown, rfl, hknown.symm⟩
  | none =>
    have hwanted := wanted_of_unknown hknown
    apply Flow.Ends.bind_of_eval (eval_channels guildId d)
    rw [← hwanted]
    cases hlist : (d.occasion.channels guildId).answer with
    | error f =>
      have hmissing : address? policy.logChannel guildId (d.wanted guildId) = none := by
        simp [hwanted, hlist, address?, Listing.address?]
      exact .done ⟨.of_missing hmissing _, rfl, hknown.symm⟩
    | ok channels =>
      have haddress : address? policy.logChannel guildId (d.wanted guildId) =
          (channels.find? fun c => c.name = policy.logChannel).map Channel.id := by
        simp [hwanted, hlist, address?, Listing.address?]
      apply Flow.Ends.bind_of_eval (eval_findLogChannel policy.logChannel guildId channels _)
      rw [← haddress]
      cases hfind : address? policy.logChannel guildId (d.wanted guildId) with
      | none => exact .done ⟨.of_missing hfind _, rfl, hknown.symm⟩
      | some channelId =>
        refine Flow.Ends.bind_of_eval (a := ()) rfl (.done ⟨.remember hknown hfind _, rfl, ?_⟩)
        simp [place, Except.toOption]

private theorem ends_writeLine (policy : Policy) (guildId text : String) (d : Desk) :
    Flow.Ends respond (fun _ => False) (writeLine tools policy place guildId text) d
      fun r d' => Writes policy.logChannel guildId text d d' ∧
        ∀ f : Failure, r = .error (f.inContext "ensuring log channel exists") →
          d'.tracker.logChannels[guildId]? = none := by
  unfold writeLine
  refine Flow.Ends.bind_of_eval (a := ()) rfl ?_
  apply (ends_logChannelId policy guildId d).bind
  rintro found d' ⟨hfinds, hsent, hfound⟩
  cases found with
  | error f =>
    refine .done ⟨⟨hfinds, ?_⟩, fun _ _ => hfound.symm⟩
    rw [← hfound, hsent]
    simp [Except.toOption]
  | ok channelId =>
    apply Flow.Ends.bind_of_eval (eval_send channelId text d')
    refine .done ⟨⟨⟨hfinds.lastSeen, hfinds.listings, hfinds.found, hfinds.others⟩, ?_⟩, ?_⟩
    · rw [← hfound, ← hsent]
      rfl
    · intro f hastray
      cases hanswer : (d'.occasion.send channelId text).answer with
      | ok _ => simp [hanswer, Outcome.inContext] at hastray
      | error f' => simp [hanswer, Outcome.inContext, Failure.inContext] at hastray

/-- What a tracker does about the news of a change, if there is any. -/
def Reports (name guildId : String) (news : Option String) (d d' : Desk) : Prop :=
  match news with
  | none => Ponders guildId d d'
  | some text => Writes name guildId text d d'

namespace Reports

theorem lastSeen (h : Reports name guildId news d d') : d'.tracker.lastSeen = d.tracker.lastSeen := by
  cases news with
  | none => exact Ponders.lastSeen h
  | some text => exact (Writes.toFinds h).lastSeen

theorem others (h : Reports name guildId news d d') :
    ∀ other, other ≠ guildId → SameOf other d.tracker d'.tracker := by
  cases news with
  | none => exact Ponders.others h
  | some text => exact (Writes.toFinds h).others

/-- What a tracker knows when it has reported some news is what it knew, or else what it has asked for. -/
theorem known (h : Reports name guildId news d d') (hnothing : d.listings = []) (other : String) :
    d'.tracker.logChannels[other]? =
      d.tracker.logChannels[other]?.or (address? name other d'.listings) := by
  cases news with
  | none =>
    rw [Ponders.logChannels h, Ponders.listings h, hnothing]
    simp [address?]
  | some text =>
    have hfinds := Writes.toFinds h
    rw [hfinds.listings, hnothing, List.nil_append]
    by_cases hg : other = guildId
    · rw [hg, hfinds.found]
    · rw [address?_wanted_of_ne hg, Option.or_none, (hfinds.others other hg).logChannel]

end Reports

private theorem Ponders.reports (h : Ponders guildId d d') (hr : Reports name guildId news d' d'') :
    Reports name guildId news d d'' := by
  cases news with
  | none => exact h.trans hr
  | some text => exact h.writes hr

private theorem ends_recount (policy : Policy) (update : VoiceUpdate) (previous : Option Channel)
    (d : Desk) :
    let news := transitionText? (update.user.displayName update.guildId) previous update.channel
    Flow.Ends respond (fun _ => False) (recount tools policy place update previous) d
      fun r d' => Reports policy.logChannel update.guildId news d d' ∧
        (Strays r → news.isSome ∧ d'.tracker.logChannels[update.guildId]? = none) := by
  intro news
  have hnews : transitionText? (update.user.displayName update.guildId) previous update.channel = news := rfl
  unfold recount
  rw [hnews]
  clear_value news
  cases news with
  | none => exact .done ⟨.clock _ d d.now, by rintro ⟨_, ⟨⟩⟩⟩
  | some text =>
    apply (ends_writeLine policy update.guildId text d).bind
    rintro r d' ⟨hwrites, hastray⟩
    refine .done ⟨hwrites, ?_⟩
    rintro ⟨f, hr⟩
    exact ⟨rfl, hastray f (Outcome.inContext_eq_error_iff.1 hr)⟩

private theorem ends_follow (policy : Policy) (seen : Option Channel) (d : Desk) :
    let update := d.occasion.update
    let news := d.occasion.news? seen
    Flow.Ends respond (fun _ => False) (follow tools policy place update seen) d
      fun r d' => Reports policy.logChannel update.guildId news d d' ∧
        (Strays r → news.isSome ∧ d'.tracker.logChannels[update.guildId]? = none) := by
  intro update news
  unfold follow
  by_cases hid : seen.map Channel.id = update.channel.map Channel.id
  · have hnews : news = none := if_pos hid
    rw [if_pos hid, hnews]
    exact .done ⟨.clock _ d d.now, by rintro ⟨_, ⟨⟩⟩⟩
  · have hnews : news = _ := if_neg hid
    rw [if_neg hid, hnews]
    cases seen with
    | none => exact ends_recount policy update none d
    | some c =>
      apply Flow.Ends.bind_of_eval (eval_refresh c d)
      apply (ends_recount policy update _ _).mono (fun _ h => h)
      rintro r d' ⟨hreports, hastray⟩
      have hlater := Ponders.clock update.guildId d (d.occasion.channel c.id).time
      exact ⟨hlater.reports hreports, hastray⟩

/-- A tracker that has seen where the user is, if it tracks them. -/
def sighted (policy : Policy) (t : Tracker) (o : Occasion) : Tracker :=
  if goesBy policy t o then (t.see o.update.user.id o.update.channel).2 else t

theorem logChannels_sighted (policy : Policy) (t : Tracker) (o : Occasion) :
    (sighted policy t o).logChannels = t.logChannels := by
  unfold sighted
  split
  · rfl
  · rfl

private theorem sameOf_sighted (policy : Policy) (t : Tracker) (o : Occasion) (guildId : String) :
    SameOf guildId t (sighted policy t o) := by
  unfold sighted
  split
  · exact ⟨rfl, rfl, fun _ => rfl⟩
  · exact .refl guildId t

def news? (policy : Policy) (t : Tracker) (o : Occasion) : Option String :=
  if goesBy policy t o then o.news? t.lastSeen[o.update.user.id]? else none

/-- A tracker that is told of a change sees where the user is and reports the news, if it tracks the user. -/
theorem ends_track (policy : Policy) (t : Tracker) (o : Occasion) :
    Reports policy.logChannel o.update.guildId (news? policy t o) (told (sighted policy t o) o)
        (handled policy t o) ∧
      ∀ r, (handle policy t o).1 = .value r → Strays r →
        (news? policy t o).isSome ∧ (handled policy t o).tracker.logChannels[o.update.guildId]? = none := by
  have htracked : goesBy policy t o = true ↔ (Flow.eval respond
      (isTracked tools policy place o.update.guildId o.update.user.id) (told t o)).1 = some true :=
    goesBy_eq_true_iff
  have hponders := ends_isTracked policy o.update.guildId o.update.user.id (told t o)
  rw [handled, handle_eq, track_eq, Flow.eval_bind]
  unfold Flow.Ends at hponders
  generalize Flow.eval respond (isTracked tools policy place o.update.guildId o.update.user.id)
    (told t o) = r at hponders htracked ⊢
  have hignored (hfalse : goesBy policy t o = false) :
      sighted policy t o = t ∧ news? policy t o = none := by
    simp [sighted, news?, hfalse]
  rcases r with ⟨_ | _ | _, d₁⟩
  · -- The decision cannot be kept: the tracker panics.
    obtain ⟨hsame, hnone⟩ := hignored (by simpa using htracked)
    rw [hsame, hnone]
    refine ⟨hponders, ?_⟩
    rintro r ⟨⟩
  · obtain ⟨hsame, hnone⟩ := hignored (by simpa using htracked)
    rw [hsame, hnone]
    refine ⟨hponders, ?_⟩
    rintro r ⟨⟩ ⟨_, ⟨⟩⟩
  · have htrue : goesBy policy t o = true := by simpa using htracked
    have hsighted : sighted policy t o = (t.see o.update.user.id o.update.channel).2 := if_pos htrue
    have hnews : news? policy t o = o.news? t.lastSeen[o.update.user.id]? := if_pos htrue
    have hseen : d₁.tracker.lastSeen = t.lastSeen := hponders.lastSeen
    have hoccasion : d₁.occasion = o := hponders.occasion
    obtain ⟨d₂, hd₂⟩ : ∃ d₂ : Desk, d₂ =
        { d₁ with tracker := (d₁.tracker.see o.update.user.id o.update.channel).2 } := ⟨_, rfl⟩
    have hmet : Ponders o.update.guildId (told (sighted policy t o) o) d₂ := by
      rw [hd₂, hsighted]
      refine ⟨hoccasion, hponders.sent, hponders.listings, ?_, hponders.logChannels, ?_⟩
      · simp only [told, Tracker.see, hseen]
      · intro other hne
        have hother := hponders.others other hne
        exact ⟨hother.logChannel, hother.lifetime, hother.decisions⟩
    have htold : d₂.occasion = o := hmet.occasion
    have hends := ends_follow policy t.lastSeen[o.update.user.id]? d₂
    rw [htold] at hends
    obtain ⟨r, d₃, hfollow, hreports, hastray⟩ := hends.eval_eq
    simp only [if_true, Flow.eval_bind, eval_see, hseen, ← hd₂, hnews]
    rw [hfollow]
    refine ⟨hmet.reports hreports, ?_⟩
    rintro r ⟨⟩ hr
    exact hastray hr

/-- A tracker that has handled a change knows and has decided of other guilds what it had. -/
theorem sameOf_handled (policy : Policy) (t : Tracker) (o : Occasion) {other : String}
    (hne : other ≠ o.update.guildId) : SameOf other t (handled policy t o).tracker :=
  (sameOf_sighted policy t o other).trans ((ends_track policy t o).1.others other hne)

end Desk

end Rehearsal

end GuildBot

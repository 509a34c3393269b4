import GuildBot.Proofs.Rehearsal.Step

/-!
# Failed lookups opt users out

Whether a user holds the tracking role is found out from what lookups leave, and if one fails that is a
partial record, on which nobody has a role. The decision that is made of it is kept like any other. Until
it expires the user is ignored, even if lookups would show by then that they hold the role.
-/

namespace GuildBot

open Platform Std Directory Activity

namespace Directory

private theorem stub_of_guild {id : String} {b : Bot} {p : Partial Guild}
    (h : (Flow.eval Bot.respond (guild id) b).1 = some (.error p)) : p.stub = { id } := by
  by_cases hid : id = ""
  · subst hid
    cases h
  · have hsought := sought_guild hid b
    generalize Flow.eval Bot.respond (guild id) b = r at h hsought
    cases hsought with
    | cached | fetched | full | broken => cases h
    | partly p' lines _ _ hr =>
      cases h
      obtain ⟨answer, -, hanswer⟩ := Option.map_eq_some_iff.1 hr
      cases answer with
      | ok g => cases hanswer
      | error f => cases hanswer; rfl

private theorem roleId?_stub (id role : String) : ({ id } : Guild).roleId? role = none := by
  simp [Guild.roleId?]

end Directory

namespace Rehearsal

/-- Whether a lookup fails when it is to be found out whether a user holds a role in a guild: that of the
guild, or that of the user, of whom then nothing is left that shows the role. -/
inductive Misses (role : String) (key : UserKey) (b : Bot) : Prop where
  | guild (p : Partial Guild)
    (hguild : (Session.stepBot b (.look (.guild key.guildId))).1 = .found (.guild (.error p)))
  | user (g : Guild) (roleId : String) (p : Partial User)
    (hguild : (Session.stepBot b (.look (.guild key.guildId))).1 = .found (.guild (.ok (some g))))
    (hrole : g.roleId? role = some roleId)
    (huser : (Session.stepBot (Session.stepBot b (.look (.guild key.guildId))).2.2
      (.look (.user key.userId key.guildId))).1 = .found (.user (.error p)))
    (hstub : p.stub.hasRole key.guildId roleId = false)

namespace Session

variable {b : Bot}

private theorem eval_of_look {α : Type} {q : Query} {f : Action (Found α)} {wrap : Found α → Finding}
    (hq : q.look = f.bind fun found => .done (wrap found)) (hwrap : wrap.Injective) {found : Found α}
    (h : (stepBot b (.look q)).1 = .found (wrap found)) :
    Flow.eval Bot.respond f b = (some found, (stepBot b (.look q)).2.2) := by
  obtain ⟨hshown, hbot⟩ := stepBot_look b q
  rw [hq, Flow.eval_bind_done] at hshown hbot
  rw [hshown] at h
  rw [hbot]
  refine Prod.ext ?_ rfl
  cases hr : (Flow.eval Bot.respond f b).1 with
  | none => rw [hr] at h; cases h
  | some found' =>
    rw [hr] at h
    exact congrArg some (hwrap (Shown.found.inj h))

private theorem eval_guild_of_look {id : String} {found : Found Guild}
    (h : (stepBot b (.look (.guild id))).1 = .found (.guild found)) :
    Flow.eval Bot.respond (guild id) b = (some found, (stepBot b (.look (.guild id))).2.2) :=
  eval_of_look rfl (fun _ _ => Finding.guild.inj) h

private theorem eval_user_of_look {id guildId : String} {found : Found User}
    (h : (stepBot b (.look (.user id guildId))).1 = .found (.user found)) :
    Flow.eval Bot.respond (user id guildId) b =
      (some found, (stepBot b (.look (.user id guildId))).2.2) :=
  eval_of_look rfl (fun _ _ => Finding.user.inj) h

end Session

theorem Misses.ends_holdsRole {role guildId userId : String} {b : Bot}
    (h : Misses role ⟨userId, guildId⟩ b) :
    Flow.Ends Bot.respond (fun _ => False) (holdsRole Directory.tools role guildId userId) b
      fun tracked b' => tracked = false ∧ b.LooksUp b' := by
  have hlooks := looksUp_guild guildId b
  unfold holdsRole
  cases h with
  | guild p hguild =>
    have heval := Session.eval_guild_of_look hguild
    have hstub : p.stub = { id := guildId } := stub_of_guild (congrArg Prod.fst heval)
    rw [heval] at hlooks
    apply Flow.Ends.bind_of_eval heval
    obtain ⟨lines, hl, hmakeDo⟩ := eval_makeDo "guild" (.error p) (Session.stepBot b _).2.2
    apply Flow.Ends.bind_of_eval hmakeDo
    simp only [Found.record?, hstub, Option.bind_some, roleId?_stub]
    let line : Log.Line := ⟨.debug, s!"Guild has no `{role}` role."⟩
    have hline : Hushed [line] := by simp [Hushed, line]
    exact .of_eval rfl ⟨rfl, (hlooks.trans (.writeAll _ hl)).trans (.writeAll _ hline)⟩
  | user g roleId p hguild hrole huser hstub =>
    have heval := Session.eval_guild_of_look hguild
    have heval' := Session.eval_user_of_look huser
    have hlooks' := looksUp_user userId guildId (Session.stepBot b (.look (.guild guildId))).2.2
    rw [heval] at hlooks
    rw [heval'] at hlooks'
    apply Flow.Ends.bind_of_eval heval
    refine Flow.Ends.bind_of_eval (a := some g) rfl ?_
    simp only [Option.bind_some, hrole]
    apply Flow.Ends.bind_of_eval heval'
    obtain ⟨lines, hl, hmakeDo⟩ := eval_makeDo "user" (.error p) (Session.stepBot _ _).2.2
    apply Flow.Ends.bind_of_eval hmakeDo
    simp only [Found.record?, Option.any_some, hstub, Bool.false_eq_true, if_false]
    exact .of_eval rfl ⟨rfl, (hlooks.trans hlooks').trans (.writeAll _ hl)⟩

/-- A bot whose only listener has made other decisions. -/
def redecided (b : Bot) (e : Entry) (decisions : Cache UserKey Bool) : Bot :=
  { b with registry := [{ e with tracker := { e.tracker with decisions } }] }

section

variable {b : Bot} {e : Entry} (hreg : b.registry = [e]) (policy : Policy) {role : String}
  {key : UserKey}

include hreg

private theorem view_decisions {b₁ : Bot} (h : b.LooksUp b₁) :
    (Bot.trackerPlace e.id e.clock).decisions.view b₁ = e.tracker.decisions :=
  congrArg Tracker.decisions (Bot.view_trackerPlace e.clock (h.registry.trans hreg))

/-- With a lookup that fails, it is decided not to track the user, and the decision is kept. -/
theorem Misses.ends_isTracked (h : Misses role key b) (hrole : policy.role = some role)
    (hopen : e.tracker.decisions.peek (b.read e.clock) key = none)
    (hrange : ((b.read e.clock).add? e.tracker.decisions.lifetime).isSome = true) :
    Flow.Ends Bot.respond (fun _ => False)
      (isTracked Directory.tools policy (Bot.trackerPlace e.id e.clock) key.guildId key.userId) b
      fun tracked b' => tracked = false ∧ ∃ b₁ decisions, b.LooksUp b₁ ∧
        e.tracker.decisions.insert? (b.read e.clock) key false = some decisions ∧
        b' = redecided b₁ e decisions := by
  unfold isTracked
  rw [hrole]
  refine Flow.Ends.bind (Q := fun (decision : Except Empty Bool) b' => decision = .ok false ∧
    ∃ b₁ decisions, b.LooksUp b₁ ∧
      e.tracker.decisions.insert? (b.read e.clock) key false = some decisions ∧
      b' = redecided b₁ e decisions) (Cache.Place.ends_get Bot.respond _ key ?_ ?_) ?_
  · intro tracked hlive
    rw [view_decisions hreg (.refl b)] at hlive
    exact absurd (hopen.symm.trans hlive) nofun
  · intro _
    apply h.ends_holdsRole.bind
    rintro _ b₁ ⟨rfl, hlooks⟩
    apply Flow.Ends.done
    have hnow : (Bot.trackerPlace e.id e.clock).decisions.now b₁ = b.read e.clock :=
      hlooks.read e.clock
    dsimp only
    rw [view_decisions hreg hlooks, hnow]
    obtain ⟨decisions, hi⟩ := Option.isSome_iff_exists.1
      ((e.tracker.decisions.insert?_isSome_iff _ key false).2 hrange)
    have hreg₁ := hlooks.registry.trans hreg
    have hput := Bot.put_trackerPlace e.clock hreg₁ { e.tracker with decisions }
    rw [hi]
    refine ⟨rfl, b₁, decisions, hlooks, rfl, ?_⟩
    dsimp only [Place.decisions]
    rw [Bot.view_trackerPlace e.clock hreg₁]
    exact hput
  · rintro _ b' ⟨rfl, hb'⟩
    exact .done ⟨rfl, hb'⟩

private theorem eval_isTracked_of_peek (hrole : policy.role ≠ none) {tracked : Bool}
    (hlive : e.tracker.decisions.peek (b.read e.clock) key = some tracked) :
    Flow.eval Bot.respond
      (isTracked Directory.tools policy (Bot.trackerPlace e.id e.clock) key.guildId key.userId) b =
      (some tracked, b) := by
  obtain ⟨role, hrole⟩ := Option.ne_none_iff_exists'.1 hrole
  unfold isTracked
  rw [← view_decisions hreg (.refl b)] at hlive
  rw [hrole]
  dsimp only
  rw [Flow.bind_def, Flow.eval_bind, Cache.Place.eval_get]
  rw [show ((Bot.trackerPlace e.id e.clock).decisions.view b).peek
    ((Bot.trackerPlace e.id e.clock).decisions.now b) key = some tracked from hlive]
  rfl

end

private theorem eval_track_of_not_tracked {b b' : Bot} {policy : Policy} {id : String} {clock : Clock}
    {update : VoiceUpdate}
    (h : Flow.eval Bot.respond (isTracked Directory.tools policy (Bot.trackerPlace id clock)
      update.guildId update.user.id) b = (some false, b')) :
    Flow.eval Bot.respond (track Directory.tools policy (Bot.trackerPlace id clock) update) b =
      (some (.ok ()), b'.writeAll [⟨.debug, "Ignoring voice state change from opted-out user."⟩]) := by
  rw [track_eq, Flow.eval_bind, h]
  rfl

private theorem stepBot_voice_of_not_tracked {b b₁ b₂ : Bot} {e : Entry} (hreg : b.registry = [e])
    (he : e.listener = .activity) {raw : RawVoice} {update : VoiceUpdate}
    (hresolve : Flow.eval Bot.respond (Bot.resolveVoice raw) b = (some update, b₁))
    (h : Flow.eval Bot.respond (isTracked Directory.tools (Audience.policy b.settings)
      (Bot.trackerPlace e.id e.clock) update.guildId update.user.id) b₁ = (some false, b₂)) :
    ∃ lines, (Session.stepBot b (.process (.voice raw))).2.2 = b₂.writeAll lines := by
  obtain ⟨lines, -, hstep⟩ := Session.stepBot_voice hreg he raw
  rw [hresolve] at hstep
  dsimp only at hstep
  rw [eval_track_of_not_tracked h, Bot.writeAll_writeAll] at hstep
  exact ⟨_, hstep⟩

private theorem eval_resolveVoice_of_resolved {b : Bot} {raw : RawVoice} {update : VoiceUpdate}
    (h : Session.resolved? b raw = some update) :
    Flow.eval Bot.respond (Bot.resolveVoice raw) b =
      (some update, (Session.stepBot b (.resolveVoice raw)).2.2) := by
  rw [Session.resolved?_eq] at h
  exact Prod.ext h (Session.stepBot_resolveVoice b raw).2.symm

private theorem voice_ignored {b : Bot} {e : Entry} (hreg : b.registry = [e]) (he : e.listener = .activity)
    (hrole : b.settings.trackingRole ≠ none) {raw : RawVoice} {update : VoiceUpdate}
    (hresolved : Session.resolved? b raw = some update)
    (hlive : e.tracker.decisions.peek (b.read e.clock) ⟨update.user.id, update.guildId⟩ = some false) :
    let b' := (Session.stepBot b (.process (.voice raw))).2.2
    b.messagesSince b' = [] ∧ b'.registry = b.registry := by
  intro b'
  have hresolve := eval_resolveVoice_of_resolved hresolved
  have hlooks := Bot.looksUp_resolveVoice raw b
  rw [hresolve] at hlooks
  have hdecision := eval_isTracked_of_peek (hlooks.registry.trans hreg) (Audience.policy b.settings)
    hrole (by rw [hlooks.read]; exact hlive)
  obtain ⟨lines, hstep⟩ := stepBot_voice_of_not_tracked hreg he hresolve hdecision
  rw [show b' = _ from hstep]
  exact ⟨Bot.messagesSince_of_asks (hlooks.asks.trans (.of_deeds_eq rfl)), hlooks.registry⟩

/-- If a lookup fails when it is to be decided whether to track a user, they are ignored, and a decision
not to track them is kept. Until it expires they are ignored whatever lookups would show by then. -/
theorem failed_lookup_opts_out {b : Bot} {e : Entry} {role : String} (hreg : b.registry = [e])
    (he : e.listener = .activity) (hrole : b.settings.trackingRole = some role) {raw : RawVoice}
    {update : VoiceUpdate} (hresolved : Session.resolved? b raw = some update)
    (hopen : e.tracker.decisions.peek (b.read e.clock) ⟨update.user.id, update.guildId⟩ = none)
    (hmisses : Misses role ⟨update.user.id, update.guildId⟩
      (Session.stepBot b (.resolveVoice raw)).2.2)
    (hrange : ((b.read e.clock).add? e.tracker.decisions.lifetime).isSome = true) :
    let b' := (Session.stepBot b (.process (.voice raw))).2.2
    b.messagesSince b' = [] ∧
    ∃ decisions : Cache UserKey Bool,
      b'.registry = [{ e with tracker := { e.tracker with decisions } }] ∧
      (∀ t : Instant, t.nanoseconds <
          (b.read e.clock).nanoseconds + e.tracker.decisions.lifetime.nanoseconds →
        decisions.peek t ⟨update.user.id, update.guildId⟩ = some false) ∧
      ∀ later : Bot, later.registry = b'.registry → later.settings.trackingRole ≠ none →
        (later.read e.clock).nanoseconds <
          (b.read e.clock).nanoseconds + e.tracker.decisions.lifetime.nanoseconds →
        ∀ raw' update', Session.resolved? later raw' = some update' →
          update'.user.id = update.user.id → update'.guildId = update.guildId →
          let after := (Session.stepBot later (.process (.voice raw'))).2.2
          later.messagesSince after = [] ∧ after.registry = later.registry := by
  intro b'
  have hresolve := eval_resolveVoice_of_resolved hresolved
  have hlooks := Bot.looksUp_resolveVoice raw b
  rw [hresolve] at hlooks
  have hnow := hlooks.read e.clock
  obtain ⟨_, _, hdecision, rfl, b₁, decisions, hlooks₁, hi, rfl⟩ :=
    (hmisses.ends_isTracked (hlooks.registry.trans hreg) (Audience.policy b.settings) hrole
      (by rw [hnow]; exact hopen) (by rw [hnow]; exact hrange)).eval_eq
  rw [hnow] at hi
  obtain ⟨lines, hstep⟩ := stepBot_voice_of_not_tracked hreg he hresolve hdecision
  have hregistry : b'.registry = [{ e with tracker := { e.tracker with decisions } }] :=
    congrArg Bot.registry hstep
  have hlive (t : Instant) (ht : t.nanoseconds <
      (b.read e.clock).nanoseconds + e.tracker.decisions.lifetime.nanoseconds) :
      decisions.peek t ⟨update.user.id, update.guildId⟩ = some false := by
    rw [Cache.peek_insert? hi, if_pos rfl, if_pos ht]
  refine ⟨?_, decisions, hregistry, hlive, ?_⟩
  · rw [show b' = _ from hstep]
    exact Bot.messagesSince_of_asks ((hlooks.trans hlooks₁).asks.trans (.of_deeds_eq rfl))
  · intro later hsame hrole' ht raw' update' hresolved' huser hguild
    refine voice_ignored (hsame.trans hregistry) he hrole' hresolved' ?_
    rw [huser, hguild]
    exact hlive _ ht

/-- A platform that cannot be reached for guilds at first, and where then every guild has the role and
every member holds it. -/
def recoveringPlatform : Behaviour := fun ds c => { result := some (answer ds.length c) }
where
  answer (done : Nat) : (c : Call) → Outcome c.Payload
    | .fetchGuild id =>
      if done < 5 then .error (.of (.other "remote unavailable"))
      else .ok { id, roles := (∅ : ExtTreeMap String String).insert "9" "Tracked" }
    | .fetchChannel id => .ok { id, name := "lounge" }
    | .fetchUser id => .ok { id, username := "bob" }
    | .fetchMember _ _ => .ok { roles := (∅ : ExtTreeSet String).insert "9" }
    | .fetchGuildChannels _ => .ok [{ id := "100", name := "activity_log" }]
    | .sendMessage _ _ => .ok ()
    | .addReaction _ _ _ => .ok ()

def recoveringBot : Bot :=
  trackingBot { token := "t" } recoveringPlatform .hand ⟨0⟩ ⟨0⟩ "activity" .hand

def arriving : RawVoice := { guildId := "7", userId := "42", channelId := some "1" }

def movingOn : RawVoice := { arriving with channelId := some "2" }

/-- What a change in voice of the user is resolved to. -/
def placed (guild : Guild) (channelId : String) : VoiceUpdate where
  guild := some guild
  user :=
    { id := "42", username := "bob"
      memberships := (∅ : ExtTreeMap String Member).insert "7"
        { roles := (∅ : ExtTreeSet String).insert "9" } }
  channel := some { id := channelId, name := "lounge" }

/-- That the user moves on is not told, though a tracker that had decided nothing would tell it. -/
theorem failed_lookup_opts_out_recovering :
    let b := (Session.stepBot recoveringBot (.process (.voice arriving))).2.2
    let undecided : Bot := { b with registry := recoveringBot.registry }
    b.messagesSince (Session.stepBot b (.process (.voice movingOn))).2.2 = [] ∧
      undecided.messagesSince (Session.stepBot undecided (.process (.voice movingOn))).2.2 =
        [("100", "bob joined lounge")] := by
  intro b undecided
  refine ⟨?_, by decide⟩
  have hresolved : Session.resolved? recoveringBot arriving = some (placed { id := "7" } "1") := by
    decide +kernel
  have hresolved' : Session.resolved? b movingOn = some (placed
      { id := "7", roles := (∅ : ExtTreeMap String String).insert "9" "Tracked" } "2") := by
    decide +kernel
  obtain ⟨-, decisions, -, -, hignored⟩ :=
    failed_lookup_opts_out rfl rfl rfl hresolved rfl (.guild _ rfl) rfl
  exact (hignored b rfl (by decide) (by decide) movingOn _ hresolved' rfl rfl).1

end Rehearsal

end GuildBot

import GuildBot.Proofs.Activity.Parts
import GuildBot.Proofs.Flow.Stages
import GuildBot.Proofs.Rehearsal.Traffic
import GuildBot.Rehearsal.SharedTracker

/-!
# A strand of a shared tracker

How far a strand has come with its change in voice, and what it can do at each stage, whatever others do
meanwhile. It passes the gate as the gate says, sees its user at one moment only, and sends a message only
after that.
-/

namespace GuildBot.Rehearsal.SharedTracker

open Activity

/-- How far a strand has come. -/
inductive Stage where
  /-- It is at the gate, and has found this of the guild and of the user. -/
  | atGate (guild : Option (Found Guild)) (user : Option (Found User))
  /-- It is at the gate, and has found a decision. -/
  | decided (tracked : Bool)
  /-- It has found that its user is not to be tracked. -/
  | ignored
  /-- It has seen its user, who was in a channel before or in none, and knows this of that channel. -/
  | following (seen known : Option Channel)
  /-- It has told of the way of its user. -/
  | told (seen : Option Channel)

variable {policy : Policy} {update : VoiceUpdate} {s : Strand} {o o' : SharedTracker} {t t' : Stage}
  {live live' : Bool → Prop} {f : File} {seen : Option Channel} {tracked : Bool}

/-- Whether a strand has done nothing but to ask, and has not found that its user is not to be tracked. -/
structure File.IsPristine (f : File) : Prop where
  lookups : f.lookups = []
  sent : f.sent = []
  log : ignoredLine ∉ f.log

namespace Stage

def seen? : Stage → Option (Option Channel)
  | .following seen _ => some seen
  | .told seen => some seen
  | _ => none

def Decides (policy : Policy) (update : VoiceUpdate) : Stage → Bool → Prop
  | .atGate none _, tracked => policy.role = none ∧ tracked = true
  | .atGate (some guild) user, tracked => ∃ role, policy.role = some role ∧
    holdsRole? role update.guildId guild user = some tracked
  | .decided decision, tracked => policy.role ≠ none ∧ decision = tracked
  | _, _ => False

def Fits (policy : Policy) (update : VoiceUpdate) (live : Bool → Prop) (f : File) : Stage → Prop
  | .atGate guild user => f.guilds = (guild.map (update.guildId, ·)).toList ∧
    f.users = (user.map (keyOf update, ·)).toList ∧ f.IsPristine
  | .decided tracked => f.guilds = [] ∧ live tracked ∧ f.IsPristine
  | .ignored => SharedTracker.Decides policy (keyOf update) live f false ∧ f.lookups = [] ∧
    f.sent = [] ∧ ignoredLine ∈ f.log
  | .following seen known => SharedTracker.Decides policy (keyOf update) live f true ∧
    f.TellsFrom update seen ∧ f.sent = [] ∧ f.known seen = known ∧ ignoredLine ∉ f.log
  | .told seen => SharedTracker.Decides policy (keyOf update) live f true ∧
    f.TellsFrom update seen ∧ f.sent ≠ [] ∧ ignoredLine ∉ f.log

/-- What a strand can end with. It does not end well before it has told of the way of a user who has
changed places. -/
def Ends (update : VoiceUpdate) : Stage → Outcome Unit → Prop
  | .atGate _ _, _ => False
  | .decided _, _ => False
  | .ignored, _ => True
  | .following seen _, r => r = .ok () → seen.map Channel.id = update.channel.map Channel.id
  | .told _, _ => True

variable {r : Outcome Unit}

private theorem Decides.of_fits (h : t.Decides policy update tracked) (ht : t.Fits policy update live f) :
    SharedTracker.Decides policy (keyOf update) live f tracked := by
  unfold SharedTracker.Decides
  cases t with
  | atGate guild user =>
    cases guild with
    | none =>
      obtain ⟨hrole, htracked⟩ := h
      simpa only [hrole] using htracked
    | some guild =>
      obtain ⟨role, hrole, hholds⟩ := h
      obtain ⟨hguilds, husers, -⟩ := ht
      have huser : f.users.lookup (keyOf update) = user := by
        rw [husers]
        cases user <;> simp
      have hkey : (keyOf update).guildId = update.guildId := rfl
      simpa [hrole, hguilds, huser, hkey] using hholds
  | decided decision =>
    obtain ⟨hrole, rfl⟩ := h
    obtain ⟨role, hrole⟩ := Option.ne_none_iff_exists'.1 hrole
    obtain ⟨hguilds, hlive, -⟩ := ht
    simpa only [hrole, hguilds] using hlive
  | ignored => exact h.elim
  | following seen known => exact h.elim
  | told seen => exact h.elim

private theorem Decides.isPristine (h : t.Decides policy update tracked)
    (ht : t.Fits policy update live f) : f.IsPristine := by
  cases t with
  | atGate guild user => exact ht.2.2
  | decided decision => exact ht.2.2
  | ignored => exact h.elim
  | following seen known => exact h.elim
  | told seen => exact h.elim

private theorem Decides.seen?_eq (h : t.Decides policy update tracked) : t.seen? = none := by
  cases t with
  | atGate guild user => rfl
  | decided decision => rfl
  | ignored => rfl
  | following seen known => exact h.elim
  | told seen => exact h.elim

theorem Fits.mono (ht : t.Fits policy update live f) (h : ∀ b, live b → live' b) :
    t.Fits policy update live' f := by
  have hdecides {b : Bool} (hb : SharedTracker.Decides policy (keyOf update) live f b) :
      SharedTracker.Decides policy (keyOf update) live' f b := by
    unfold SharedTracker.Decides at hb ⊢
    split
    · next hrole => simpa only [hrole] using hb
    · next hrole hguilds =>
      simp only [hrole, hguilds] at hb
      exact h b hb
    · next hrole hguilds => simpa only [hrole] using hb
  cases t with
  | atGate guild user => exact ht
  | decided decision => exact ⟨ht.1, h _ ht.2.1, ht.2.2⟩
  | ignored => exact ⟨hdecides ht.1, ht.2⟩
  | following seen known => exact ⟨hdecides ht.1, ht.2⟩
  | told seen => exact ⟨hdecides ht.1, ht.2⟩

theorem Fits.of_some (h : t.Fits policy update live f) (ht : t.seen? = some seen) :
    SharedTracker.Decides policy (keyOf update) live f true ∧ f.TellsFrom update seen ∧
      ignoredLine ∉ f.log := by
  cases t with
  | following seen known =>
    cases ht
    exact ⟨h.1, h.2.1, h.2.2.2.2⟩
  | told seen =>
    cases ht
    exact ⟨h.1, h.2.1, h.2.2.2⟩
  | _ => cases ht

theorem Fits.of_none (h : t.Fits policy update live f) (ht : t.seen? = none) :
    f.lookups = [] ∧ f.sent = [] := by
  cases t with
  | atGate guild user => exact ⟨h.2.2.lookups, h.2.2.sent⟩
  | decided decision => exact ⟨h.2.2.lookups, h.2.2.sent⟩
  | ignored => exact ⟨h.2.1, h.2.2.1⟩
  | following seen known => cases ht
  | told seen => cases ht

theorem Ends.sent_ne_nil (hends : t.Ends update (.ok ())) (h : t.Fits policy update live f)
    (ht : t.seen? = some seen) (hmoved : seen.map Channel.id ≠ update.channel.map Channel.id) :
    f.sent ≠ [] := by
  cases t with
  | following seen known =>
    cases ht
    exact absurd (hends rfl) hmoved
  | told seen => exact h.2.2.1
  | _ => cases ht

theorem Ends.refused (hends : t.Ends update r) (h : t.Fits policy update live f) (ht : t.seen? = none) :
    SharedTracker.Decides policy (keyOf update) live f false ∧ ignoredLine ∈ f.log := by
  cases t with
  | atGate guild user => exact hends.elim
  | decided decision => exact hends.elim
  | ignored => exact ⟨h.1, h.2.2.2⟩
  | following seen known => cases ht
  | told seen => cases ht

end Stage

/-- What a strand can do. -/
inductive Step (policy : Policy) (update : VoiceUpdate) (s : Strand) :
    Stage → SharedTracker → SharedTracker → Stage → Prop where
  /-- What a strand has not asked for yet it finds as the others have left it. -/
  | quiet {t : Stage} {o o' : SharedTracker} (hseen : o'.tracker.lastSeen = o.tracker.lastSeen)
    (hfiles : o'.files = o.files)
    (hgate : t = .atGate none none → o'.tracker.decisions = o.tracker.decisions ∧ o'.now = o.now) :
    Step policy update s t o o' t
  | log {t : Stage} {o : SharedTracker} (line : Log.Line) (hline : line ≠ ignoredLine) :
    Step policy update s t o (o.write s fun f => { f with log := f.log ++ [line] }) t
  | find {o : SharedTracker} {tracked : Bool} (hrole : policy.role ≠ none)
    (hlive : o.tracker.decisions.peek o.now (keyOf update) = some tracked) :
    Step policy update s (.atGate none none) o o (.decided tracked)
  | askGuild {o : SharedTracker} (guild : Found Guild) :
    Step policy update s (.atGate none none) o
      (o.write s fun f => { f with guilds := f.guilds ++ [(update.guildId, guild)] })
      (.atGate (some guild) none)
  | askUser {o : SharedTracker} (guild : Found Guild) (user : Found User) :
    Step policy update s (.atGate (some guild) none) o
      (o.write s fun f => { f with users := f.users ++ [(keyOf update, user)] })
      (.atGate (some guild) (some user))
  | ignore {t : Stage} {o : SharedTracker} (h : t.Decides policy update false) :
    Step policy update s t o (o.write s fun f => { f with log := f.log ++ [ignoredLine] }) .ignored
  | see {t : Stage} {o : SharedTracker} (h : t.Decides policy update true) :
    Step policy update s t o
      { o with tracker := (o.tracker.see update.user.id update.channel).2 }
      (.following o.tracker.lastSeen[update.user.id]? o.tracker.lastSeen[update.user.id]?)
  | lookUp {o : SharedTracker} {before : Channel} {known : Option Channel} (found : Found Channel)
    (hid : ∀ c, found = .ok (some c) → c.id = before.id) :
    Step policy update s (.following (some before) known) o
      (o.write s fun f => { f with lookups := f.lookups ++ [(before.id, found)] })
      (.following (some before) (refreshed (some before) found))
  | tell {o : SharedTracker} {seen known : Option Channel} {text : String} (channelId : String)
    (hmoved : seen.map Channel.id ≠ update.channel.map Channel.id)
    (htext : transitionText? (update.user.displayName update.guildId) known update.channel =
      some text) :
    Step policy update s (.following seen known) o
      (o.write s fun f => { f with sent := f.sent ++ [(channelId, text)] }) (.told seen)

private theorem write_files (o : SharedTracker) (s : Strand) (f : File → File) :
    (o.write s f).files s = f (o.files s) :=
  if_pos rfl

private theorem write_files_ne (o : SharedTracker) {s s' : Strand} (hs : s' ≠ s) (f : File → File) :
    (o.write s f).files s' = o.files s' :=
  if_neg hs

namespace Step

/-- A strand leaves the files of others alone. -/
theorem files_ne (h : Step policy update s t o o' t') {s' : Strand} (hs : s' ≠ s) :
    o'.files s' = o.files s' := by
  cases h with
  | quiet _ hfiles _ => rw [hfiles]
  | see _ => rfl
  | find _ _ => rfl
  | _ => exact write_files_ne o hs _

private theorem fits_log {line : Log.Line} (hline : line ≠ ignoredLine)
    (ht : t.Fits policy update live f) :
    t.Fits policy update live { f with log := f.log ++ [line] } := by
  have hlog (h : ignoredLine ∉ f.log) : ignoredLine ∉ f.log ++ [line] := by
    simp [h, Ne.symm hline]
  have hpristine (h : f.IsPristine) : File.IsPristine { f with log := f.log ++ [line] } :=
    ⟨h.lookups, h.sent, hlog h.log⟩
  cases t with
  | atGate guild user => exact ⟨ht.1, ht.2.1, hpristine ht.2.2⟩
  | decided decision => exact ⟨ht.1, ht.2.1, hpristine ht.2.2⟩
  | ignored => exact ⟨ht.1, ht.2.1, ht.2.2.1, List.mem_append_left _ ht.2.2.2⟩
  | following seen known =>
    obtain ⟨hdecides, htells, hsent, hknown, hignored⟩ := ht
    exact ⟨hdecides, ⟨htells.1, htells.2, htells.3, htells.4, htells.5⟩, hsent, hknown, hlog hignored⟩
  | told seen =>
    obtain ⟨hdecides, htells, hsent, hignored⟩ := ht
    exact ⟨hdecides, ⟨htells.1, htells.2, htells.3, htells.4, htells.5⟩, hsent, hlog hignored⟩

private theorem tellsFrom_of_isPristine (h : f.IsPristine) (seen : Option Channel) :
    f.TellsFrom update seen ∧ f.known seen = seen := by
  have hknown : f.known seen = seen := by simp [File.known, h.lookups]
  refine ⟨⟨?_, ?_, ?_, fun _ => h.sent, ?_⟩, hknown⟩
  · simp [h.lookups]
  · rw [hknown]
  · simp [h.sent]
  · simp [h.sent]

private theorem tellsFrom_lookUp {before : Channel} {found : Found Channel}
    (hid : ∀ c, found = .ok (some c) → c.id = before.id) (htells : f.TellsFrom update (some before))
    (hsent : f.sent = []) :
    let f' : File := { f with lookups := f.lookups ++ [(before.id, found)] }
    f'.TellsFrom update (some before) ∧ f'.known (some before) = refreshed (some before) found := by
  intro f'
  have hknown : f'.known (some before) = refreshed (some before) found := by
    rw [File.known, List.getLast?_concat]
  refine ⟨⟨?_, ?_, ?_, fun _ => hsent, ?_⟩, hknown⟩
  · intro l hl
    rcases List.mem_append.1 hl with hl | hl
    · exact htells.lookups l hl
    · rw [List.mem_singleton.1 hl]
      rfl
  · rw [hknown]
    rcases found with _ | _ | c
    · rfl
    · rfl
    · exact congrArg some (hid c rfl)
  · simp [f', hsent]
  · simp [f', hsent]

/-- What is on file of a strand fits how far it has come. -/
theorem fits (h : Step policy update s t o o' t')
    (hlive : t = .atGate none none → ∀ b, o.tracker.decisions.peek o.now (keyOf update) = some b → live b)
    (ht : t.Fits policy update live (o.files s)) : t'.Fits policy update live (o'.files s) := by
  cases h with
  | quiet _ hfiles _ => rwa [hfiles]
  | log line hline =>
    rw [write_files]
    exact fits_log hline ht
  | find _ hpeek => exact ⟨ht.1, hlive rfl _ hpeek, ht.2.2⟩
  | askGuild guild =>
    rw [write_files]
    exact ⟨by simp [ht.1], ht.2.1, ⟨ht.2.2.lookups, ht.2.2.sent, ht.2.2.log⟩⟩
  | askUser guild user =>
    rw [write_files]
    exact ⟨ht.1, by simp [ht.2.1], ⟨ht.2.2.lookups, ht.2.2.sent, ht.2.2.log⟩⟩
  | ignore hdecides =>
    have hpristine := hdecides.isPristine ht
    have hstops := hdecides.of_fits ht
    rw [write_files]
    exact ⟨hstops, hpristine.lookups, hpristine.sent,
      List.mem_append_right _ List.mem_cons_self⟩
  | see hdecides =>
    have hpristine := hdecides.isPristine ht
    obtain ⟨htells, hknown⟩ := tellsFrom_of_isPristine hpristine o.tracker.lastSeen[update.user.id]?
    exact ⟨hdecides.of_fits ht, htells, hpristine.sent, hknown, hpristine.log⟩
  | lookUp found hid =>
    obtain ⟨hdecides, htells, hsent, -, hignored⟩ := ht
    rw [write_files]
    obtain ⟨htells', hknown⟩ := tellsFrom_lookUp hid htells hsent
    exact ⟨hdecides, htells', hsent, hknown, hignored⟩
  | @tell _ seen known text channelId hmoved htext =>
    obtain ⟨hdecides, htells, hsent, hknown, hignored⟩ := ht
    rw [write_files]
    refine ⟨hdecides, ⟨htells.lookups, htells.known, ?_, fun heq => absurd heq hmoved, ?_⟩, ?_, hignored⟩
    · simp [hsent]
    · intro message hmessage
      rw [hsent, List.nil_append, List.mem_singleton] at hmessage
      rw [hmessage]
      exact hknown ▸ htext
    · simp

/-- A strand that has not asked yet has left the decisions and the clock alone. -/
theorem peek_eq (h : Step policy update s t o o' (.atGate none none)) (key : UserKey) :
    t = .atGate none none ∧
      o'.tracker.decisions.peek o'.now key = o.tracker.decisions.peek o.now key := by
  cases h with
  | quiet _ _ hgate =>
    obtain ⟨hdecisions, hnow⟩ := hgate rfl
    exact ⟨rfl, by rw [hdecisions, hnow]⟩
  | log _ _ => exact ⟨rfl, rfl⟩

/-- A strand changes what the tracker remembers of users only when it sees its own. -/
theorem sees (h : Step policy update s t o o' t') :
    t'.seen? = t.seen? ∧ o'.tracker.lastSeen = o.tracker.lastSeen ∨
    t.seen? = none ∧ t'.seen? = some o.tracker.lastSeen[update.user.id]? ∧
      o'.tracker.lastSeen = (o.tracker.see update.user.id update.channel).2.lastSeen := by
  cases h with
  | quiet hseen _ _ => exact .inl ⟨rfl, hseen⟩
  | see hdecides => exact .inr ⟨hdecides.seen?_eq, rfl, rfl⟩
  | ignore hdecides => exact .inl ⟨hdecides.seen?_eq.symm, rfl⟩
  | _ => exact .inl ⟨rfl, rfl⟩

end Step

def stages (policy : Policy) (update : VoiceUpdate) (s : Strand) : Stages SharedTracker Stage where
  sound _ := True
  step := Step policy update s
  sound_step _ _ := trivial

abbrev Stays {α : Type} (policy : Policy) (update : VoiceUpdate) (s : Strand) (t : Stage) (f : Action α) :
    Prop :=
  f.Follows (stages policy update s) respond (fun t' _ => t' = t) t

private theorem stays_note {level : Log.Level} {message : String} (h : ⟨level, message⟩ ≠ ignoredLine) :
    Stays policy update s t ((tools s).note level message) :=
  .change fun _ _ => ⟨t, .log _ h, rfl⟩

private theorem ne_ignoredLine {level : Log.Level} {message : String}
    (h : message.toList.head? ≠ some 'I') : (⟨level, message⟩ : Log.Line) ≠ ignoredLine := by
  rintro ⟨⟩
  exact h rfl

private theorem stays_channels (guildId : String) : Stays policy update s t ((tools s).channels guildId) :=
  .call (c := Question.channels guildId) fun _ _ => ⟨t, .quiet rfl rfl fun _ => ⟨rfl, rfl⟩, rfl⟩

private theorem follows_makeDo {α : Type} (what : String) (found : Found α) :
    (found.makeDo (tools s).note what).Follows (stages policy update s) respond
      (fun t' record => t' = t ∧ record = found.record?) t := by
  cases found with
  | ok found => exact ⟨rfl, rfl⟩
  | error p => exact (stays_note (by simp [ignoredLine])).bind fun t' _ ht => ⟨ht, rfl⟩

private theorem follows_holdsRole {role : String} (hrole : policy.role = some role) :
    (holdsRole (tools s) role update.guildId update.user.id).Follows (stages policy update s) respond
      (fun t' tracked => t' ≠ .atGate none none ∧ t'.Decides policy update tracked)
      (.atGate none none) := by
  have hguild : ((tools s).guild update.guildId).Follows (stages policy update s) respond
      (fun t' guild => t' = .atGate (some guild) none) (.atGate none none) :=
    .call (c := Question.guild s update.guildId) fun o _ => ⟨_, .askGuild _, rfl⟩
  refine hguild.bind fun t' guild ht => ?_
  subst ht
  refine (follows_makeDo "guild" guild).bind fun t' record ht => ?_
  obtain ⟨rfl, rfl⟩ := ht
  cases hid : guild.record?.bind (·.roleId? role) with
  | none =>
    have hlacks : (Stage.atGate (some guild) none).Decides policy update false :=
      ⟨role, hrole, by rw [holdsRole?, hid]⟩
    exact (stays_note (ne_ignoredLine (by simp [toString]))).bind fun t' _ ht => ht ▸ ⟨nofun, hlacks⟩
  | some roleId =>
    have huser : ((tools s).user update.user.id update.guildId).Follows (stages policy update s) respond
        (fun t' user => t' = .atGate (some guild) (some user)) (.atGate (some guild) none) :=
      .call (c := Question.user s update.user.id update.guildId) fun o _ => ⟨_, .askUser _ _, rfl⟩
    refine huser.bind fun t' user ht => ?_
    subst ht
    refine (follows_makeDo "user" user).bind fun t' record ht => ?_
    obtain ⟨rfl, rfl⟩ := ht
    have hdecides : (Stage.atGate (some guild) (some user)).Decides policy update
        (user.record?.any (·.hasRole update.guildId roleId)) :=
      ⟨role, hrole, by rw [holdsRole?, hid]; rfl⟩
    split
    · next hholds =>
      rw [hholds] at hdecides
      exact (stays_note (by simp [ignoredLine])).bind fun t' _ ht => ht ▸ ⟨nofun, hdecides⟩
    · next hholds =>
      rw [Bool.eq_false_iff.2 hholds] at hdecides
      exact ⟨nofun, hdecides⟩

private theorem follows_isTracked :
    (isTracked (tools s) policy place update.guildId update.user.id).Follows (stages policy update s)
      respond (fun t' tracked => t'.Decides policy update tracked) (.atGate none none) := by
  unfold isTracked
  cases hrole : policy.role with
  | none => exact ⟨hrole, rfl⟩
  | some role =>
    have hsome : policy.role ≠ none := by simp [hrole]
    have hfetch : Flow.Follows (stages policy update s) respond
        (fun t' result => ∃ tracked, result = .ok tracked ∧ t' ≠ .atGate none none ∧
          t'.Decides policy update tracked) (.atGate none none)
        ((holdsRole (tools s) role update.guildId update.user.id).bind fun tracked =>
          .done (.ok tracked : Except Empty Bool)) :=
      (follows_holdsRole hrole).bind fun t' tracked ht => ⟨tracked, rfl, ht⟩
    have hget : (place.decisions.get (keyOf update)
        ((holdsRole (tools s) role update.guildId update.user.id).bind fun tracked =>
          .done (.ok tracked : Except Empty Bool))).Follows (stages policy update s) respond
        (fun t' result => ∃ tracked, result = .ok tracked ∧ t' ≠ .atGate none none ∧
          t'.Decides policy update tracked) (.atGate none none) := by
      refine .get (fun o _ _ => .quiet rfl rfl fun _ => ⟨rfl, rfl⟩) ?_ ?_ ?_ hfetch
      · exact fun o tracked _ hpeek =>
          ⟨.decided tracked, .find hsome hpeek, tracked, rfl, nofun, hsome, rfl⟩
      · exact fun t' o _ _ ⟨_, _, hasked, _⟩ => .quiet rfl rfl fun h => absurd h hasked
      · exact fun t' o c _ _ ⟨_, _, hasked, _⟩ _ => .quiet rfl rfl fun h => absurd h hasked
    refine hget.bind fun t' result ht => ?_
    obtain ⟨tracked, rfl, -, hdecides⟩ := ht
    exact hdecides

private theorem stays_findLogChannel (name guildId : String) (channels : List Channel) :
    Stays policy update s t (findLogChannel (tools s) name guildId channels) := by
  induction channels with
  | nil => rfl
  | cons c rest ih =>
    rw [findLogChannel_cons]
    refine (stays_note (ne_ignoredLine (by simp [toString]))).bind fun t' _ ht => ?_
    subst ht
    split
    · exact (stays_note (by simp [ignoredLine])).bind fun t' _ ht => ht
    · exact ih

private theorem stays_logChannelId (policy : Policy) (guildId : String) :
    Stays policy update s t (logChannelId (tools s) policy place guildId) := by
  have hlook : Stays policy update s t (Flow.look fun o => (place.view o).logChannels[guildId]?) :=
    .look (fun _ _ => .quiet rfl rfl fun _ => ⟨rfl, rfl⟩) fun _ _ => rfl
  refine hlook.bind fun t' known ht => ?_
  subst ht
  cases known with
  | some id => rfl
  | none =>
    refine (stays_channels guildId).bind fun t' listed ht => ?_
    subst ht
    cases listed with
    | error f => rfl
    | ok channels =>
      refine (stays_findLogChannel policy.logChannel guildId channels).bind fun t' found ht => ?_
      subst ht
      cases found with
      | none => rfl
      | some id => exact fun _ _ => ⟨t', .quiet rfl rfl fun _ => ⟨rfl, rfl⟩, rfl⟩

private theorem follows_refresh (before : Channel) :
    (refresh (tools s) before).Follows (stages policy update s) respond
      (fun t' c => t' = .following (some before) (some c) ∧ c.id = before.id)
      (.following (some before) (some before)) := by
  have hcall : ((tools s).channel before.id).Follows (stages policy update s) respond
      (fun t' found => t' = .following (some before) (refreshed (some before) found) ∧
        ∀ c, found = .ok (some c) → c.id = before.id) (.following (some before) (some before)) :=
    .call (c := Question.channel s before.id) fun o _ =>
      have hid := o.answers.channel_id before.id
      ⟨_, .lookUp _ hid, rfl, hid⟩
  refine hcall.bind fun t' found ht => ?_
  obtain ⟨rfl, hid⟩ := ht
  rcases found with p | _ | c
  · exact ⟨rfl, rfl⟩
  · exact ⟨rfl, rfl⟩
  · exact ⟨rfl, hid c rfl⟩

private theorem follows_writeLine (policy : Policy) (guildId : String) {seen known : Option Channel}
    {text : String}
    (hmoved : seen.map Channel.id ≠ update.channel.map Channel.id)
    (htext : transitionText? (update.user.displayName update.guildId) known update.channel =
      some text) :
    (writeLine (tools s) policy place guildId text).Follows (stages policy update s) respond
      (fun t' r => t' = .told seen ∨ t' = .following seen known ∧ r ≠ .ok ())
      (.following seen known) := by
  have hline : (⟨.info, s!"Recording activity: {text}"⟩ : Log.Line) ≠ ignoredLine := by
    simp [ignoredLine]
  refine (stays_note hline).bind fun t' _ ht => ?_
  subst ht
  refine (stays_logChannelId policy guildId).bind fun t' found ht => ?_
  subst ht
  cases found with
  | error f => exact .inr ⟨rfl, nofun⟩
  | ok channelId =>
    have hsend : ((tools s).send channelId text).Follows (stages policy update s) respond
        (fun t' _ => t' = .told seen) (.following seen known) :=
      .call (c := Question.send s channelId text) fun _ _ =>
        ⟨_, .tell channelId hmoved htext, rfl⟩
    exact hsend.bind fun t' _ ht => .inl ht

private theorem follows_recount (policy : Policy) {seen known : Option Channel}
    (hmoved : seen.map Channel.id ≠ update.channel.map Channel.id)
    (hknown : known.map Channel.id = seen.map Channel.id) :
    (recount (tools s) policy place update known).Follows (stages policy update s) respond
      (Stage.Ends update) (.following seen known) := by
  have hknown' : known.map Channel.id ≠ update.channel.map Channel.id := hknown ▸ hmoved
  have htext : transitionText? (update.user.displayName update.guildId) known update.channel =
      some (wayText (update.user.displayName update.guildId) (known.map Channel.name)
        (update.channel.map Channel.name)) := transitionText?_eq hknown'
  unfold recount
  rw [htext]
  refine (follows_writeLine policy update.guildId hmoved htext).bind fun t' r ht => ?_
  rcases ht with rfl | ⟨rfl, hr⟩
  · trivial
  · intro hok
    cases r with
    | ok u => exact absurd rfl hr
    | error f => cases hok

private theorem follows_follow (policy : Policy) (seen : Option Channel) :
    (follow (tools s) policy place update seen).Follows (stages policy update s) respond
      (Stage.Ends update) (.following seen seen) := by
  unfold follow
  split
  · next hstays => exact fun _ => hstays
  · next hmoved =>
    cases seen with
    | none => exact follows_recount policy hmoved rfl
    | some before =>
      refine (follows_refresh before).bind fun t' c ht => ?_
      obtain ⟨rfl, hid⟩ := ht
      exact follows_recount policy hmoved (congrArg some hid)

/-- Whatever others do, a strand passes the gate as the gate says, sees its user at one moment only, and ends
as it has to. -/
theorem follows_track (policy : Policy) :
    (track (tools s) policy place update).Follows (stages policy update s) respond (Stage.Ends update)
      (.atGate none none) := by
  rw [track_eq]
  refine follows_isTracked.bind fun t' tracked hdecides => ?_
  cases tracked with
  | true =>
    have hsee : (see place update : Action (Option Channel)).Follows (stages policy update s) respond
        (fun t' seen => t' = .following seen seen) t' := fun o _ => ⟨_, .see hdecides, rfl⟩
    refine hsee.bind fun t' seen ht => ?_
    subst ht
    exact follows_follow policy seen
  | false =>
    have hignore : ((tools s).note .debug
        "Ignoring voice state change from opted-out user.").Follows (stages policy update s) respond
        (fun t' _ => t' = .ignored) t' := .change fun _ _ => ⟨_, .ignore hdecides, rfl⟩
    exact hignore.bind fun t' _ ht => ht ▸ trivial

end GuildBot.Rehearsal.SharedTracker

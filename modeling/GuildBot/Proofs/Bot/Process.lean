import GuildBot.Bot.Process
import GuildBot.Proofs.Activity.Track

namespace GuildBot.Bot

open Platform Directory

def resolvePlace : Option String → Action (Option Channel)
  | some id => (channel id).bind fun found => found.makeDo Action.note "channel"
  | none => .done none

theorem resolveVoice_eq (raw : RawVoice) :
    resolveVoice raw = (guild raw.guildId).bind fun found =>
      (found.makeDo Action.note "guild").bind fun guild =>
        (resolvePlace raw.channelId).bind fun channel =>
          (user raw.userId raw.guildId).bind fun found =>
            (found.makeDo Action.note "user").bind fun user =>
              .done { guild, user := user.getD { id := raw.userId }, channel } := by
  unfold resolveVoice
  cases raw.channelId with
  | none => rfl
  | some id =>
    simp only [resolvePlace, Flow.bind_bind]
    rfl

section

variable {I P : Bot → Prop}

private theorem ends_makeDo {α : Type} {F : Option α → Prop} (what : String)
    (hwrite : ∀ b lines, Hushed lines → I b → I (b.writeAll lines)) {found : Found α} {b : Bot}
    (h : I b ∧ F found.record?) :
    Flow.Ends respond P (found.makeDo Action.note what) b fun record b' => I b' ∧ F record := by
  obtain ⟨lines, hl, heval⟩ := eval_makeDo what found b
  exact .of_eval heval ⟨hwrite b lines hl h.1, h.2⟩

theorem ends_resolveVoice (raw : RawVoice) {G : Option Guild → Prop} {C : Option Channel → Prop}
    {U : Option User → Prop} (hwrite : ∀ b lines, Hushed lines → I b → I (b.writeAll lines))
    (hguild : ∀ b, I b → Flow.Ends respond P (guild raw.guildId) b fun found b' =>
      I b' ∧ G found.record?)
    (hchannel : ∀ id, raw.channelId = some id → ∀ b, I b →
      Flow.Ends respond P (channel id) b fun found b' => I b' ∧ C found.record?)
    (hnone : raw.channelId = none → C none)
    (huser : ∀ b, I b → Flow.Ends respond P (user raw.userId raw.guildId) b fun found b' =>
      I b' ∧ U found.record?) {b : Bot} (h : I b) :
    Flow.Ends respond P (resolveVoice raw) b fun update b' =>
      I b' ∧ G update.guild ∧ C update.channel ∧
        ∃ user, U user ∧ update.user = user.getD { id := raw.userId } := by
  have hplace : ∀ b, I b → Flow.Ends respond P (resolvePlace raw.channelId) b fun record b' =>
      I b' ∧ C record := by
    intro b hb
    cases hc : raw.channelId with
    | none => exact .done ⟨hb, hnone hc⟩
    | some id =>
      exact (hchannel id hc b hb).bind fun found b' h' => ends_makeDo "channel" hwrite h'
  rw [resolveVoice_eq]
  apply (hguild b h).bind
  intro found b₁ h₁
  apply (ends_makeDo "guild" hwrite h₁).bind
  rintro guild b₂ ⟨h₂, hg⟩
  apply (hplace b₂ h₂).bind
  rintro channel b₃ ⟨h₃, hc⟩
  apply (huser b₃ h₃).bind
  intro found b₄ h₄
  apply (ends_makeDo "user" hwrite h₄).bind
  rintro user b₅ ⟨h₅, hu⟩
  exact .done ⟨h₅, hg, hc, user, hu, rfl⟩

theorem ends_resolveMessage (raw : RawMessage) {C : Option Channel → Prop}
    (hwrite : ∀ b lines, Hushed lines → I b → I (b.writeAll lines))
    (huser : ∀ b, I b → Flow.Ends respond P (user raw.authorId raw.guildId) b fun _ b' => I b')
    (hguild : ∀ b, I b → Flow.Ends respond P (guild raw.guildId) b fun _ b' => I b')
    (hchannel : ∀ b, I b → Flow.Ends respond P (channel raw.channelId) b fun found b' =>
      I b' ∧ C found.record?) {b : Bot} (h : I b) :
    Flow.Ends respond P (resolveMessage raw) b fun m b' =>
      I b' ∧ m.id = raw.messageId ∧ m.content = raw.content ∧
        ∃ channel, C channel ∧ m.channel = channel.getD { id := raw.channelId } := by
  have hmade {α : Type} (what : String) (found : Found α) (b : Bot) (hb : I b) :
      Flow.Ends respond P (found.makeDo Action.note what) b fun _ b' => I b' ∧ True :=
    ends_makeDo what hwrite ⟨hb, trivial⟩
  apply (huser b h).bind
  intro found b₁ h₁
  apply (hmade "author" found b₁ h₁).bind
  rintro author b₂ ⟨h₂, -⟩
  apply (hguild b₂ h₂).bind
  intro found b₃ h₃
  apply (hmade "guild" found b₃ h₃).bind
  rintro guild b₄ ⟨h₄, -⟩
  apply (hchannel b₄ h₄).bind
  intro found b₅ h₅
  apply (ends_makeDo "channel" hwrite h₅).bind
  rintro channel b₆ ⟨h₆, hc⟩
  exact .done ⟨h₆, rfl, rfl, channel, hc, rfl⟩

end

theorem unhindered_resolveMessage (raw : RawMessage) :
    (resolveMessage raw).Unhindered [.guilds, .channels, .users] 10 := by
  apply ((unhindered_user raw.authorId raw.guildId).mono (by simp) (Nat.le_refl _)).bind (n := 6)
  intro found
  apply (unhindered_makeDo "author" found).bind (n := 6)
  intro author
  apply ((unhindered_guild raw.guildId).mono (by simp) (Nat.le_refl _)).bind (n := 3)
  intro found
  apply (unhindered_makeDo "guild" found).bind (n := 3)
  intro guild
  apply ((unhindered_channel raw.channelId).mono (by simp) (Nat.le_refl _)).bind (n := 0)
  intro found
  exact (unhindered_makeDo "channel" found).bind fun channel => .done _

theorem unhindered_resolveVoice (raw : RawVoice) :
    (resolveVoice raw).Unhindered [.guilds, .channels, .users] 10 := by
  have hplace : (resolvePlace raw.channelId).Unhindered
      [Lock.guilds, Lock.channels, Lock.users] 3 := by
    cases raw.channelId with
    | none => exact (Flow.Unhindered.done _).mono (List.Subset.refl _) (Nat.zero_le _)
    | some id =>
      exact ((unhindered_channel id).mono (by simp) (Nat.le_refl _)).bind (n := 0)
        fun found => unhindered_makeDo "channel" found
  rw [resolveVoice_eq]
  apply ((unhindered_guild raw.guildId).mono (by simp) (Nat.le_refl _)).bind (n := 7)
  intro found
  apply (unhindered_makeDo "guild" found).bind (n := 7)
  intro guild
  apply hplace.bind (n := 4)
  intro channel
  apply ((unhindered_user raw.userId raw.guildId).mono (by simp) (Nat.le_refl _)).bind (n := 0)
  intro found
  exact (unhindered_makeDo "user" found).bind fun user => .done _

theorem looksUp_resolveVoice (raw : RawVoice) (b : Bot) :
    b.LooksUp (Flow.eval respond (resolveVoice raw) b).2 := by
  have hfind {α : Type} (f : Action (Found α)) (hf : ∀ b, b.LooksUp (Flow.eval respond f b).2)
      (b' : Bot) (hb' : b.LooksUp b') :
      Flow.Ends respond b.LooksUp f b' fun _ b' => b.LooksUp b' ∧ True :=
    (Flow.Ends.of_state (hb'.trans (hf b'))).mono (fun _ h => h) fun _ _ h => ⟨h, trivial⟩
  have h := ends_resolveVoice (I := b.LooksUp) (P := b.LooksUp) raw (G := fun _ => True)
    (C := fun _ => True) (U := fun _ => True) (fun b' lines hl h => h.trans (.writeAll b' hl))
    (hfind _ (looksUp_guild raw.guildId)) (fun id _ => hfind _ (looksUp_channel id))
    (fun _ => trivial) (hfind _ (looksUp_user raw.userId raw.guildId)) (.refl b)
  exact (h.mono (fun _ h => h) fun _ _ h => h.1).state

end GuildBot.Bot

namespace GuildBot.Audience

open Platform Directory

variable {settings : Settings} {e : Entry}

theorem unhindered_tell (he : e.listener = .activity) (update : VoiceUpdate) :
    (tell settings (.voice update) e).Unhindered
      [.decisions e.id, .guilds, .users, .channels] 22 := by
  have hhear : (hear settings e (.voice update)).Unhindered
      [Lock.decisions e.id, .guilds, .users, .channels] 22 := by
    simp only [hear, he]
    exact Activity.unhindered_track Activity.unhindered_tools _ (Bot.trackerPlace e.id e.clock)
      (by simp [Bot.trackerPlace]) _
  refine Flow.Unhindered.rescue (n := 0) (hhear.bind (n := 0) ?_)
    ((Action.unhindered_note _ _).bind fun _ => .done _)
  intro r
  cases r with
  | ok _ => exact .done _
  | error f => exact (Action.unhindered_note _ _).bind fun _ => .done _

/-- Telling an activity tracker of a change in voice is tracking it. A failure or a panic is noted, and
no more. -/
theorem eval_tell (settings : Settings) (he : e.listener = .activity) (update : VoiceUpdate) (b : Bot) :
    ∃ failed lines, Hushed lines ∧ Flow.eval Bot.respond (tell settings (.voice update) e) b =
      (some failed, (Flow.eval Bot.respond (Activity.track Directory.tools (policy settings)
        (Bot.trackerPlace e.id e.clock) update) b).2.writeAll lines) := by
  have hhear : hear settings e (.voice update) = Activity.track Directory.tools (policy settings)
      (Bot.trackerPlace e.id e.clock) update := by
    simp only [hear, he]
  unfold tell
  rw [hhear, Flow.eval_rescue]
  simp only [Flow.bind_def, Flow.eval_bind]
  rcases Flow.eval Bot.respond (Activity.track Directory.tools (policy settings)
    (Bot.trackerPlace e.id e.clock) update) b with ⟨_ | f | _, b'⟩
  · refine ⟨some e.id, [⟨.error, s!"Listener `{e.id}` panicked on {(Event.voice update).kind}."⟩],
      by simp [Hushed], ?_⟩
    simp
  · refine ⟨some e.id,
      [⟨.error, s!"Listener `{e.id}` failed on {(Event.voice update).kind}: {f.message}"⟩],
      by simp [Hushed], ?_⟩
    simp [Flow.eval_bind]
  · exact ⟨none, [], by simp [Hushed], by simp⟩

theorem eval_flag (update : VoiceUpdate) (failed : List String) (b : Bot) :
    ∃ lines, Hushed lines ∧
      Flow.eval Bot.respond (flag (.voice update) failed) b = (some failed, b.writeAll lines) := by
  by_cases hf : failed.isEmpty = true
  · exact ⟨[], by simp [Hushed], by simp [flag, hf]⟩
  · let names := ", ".intercalate failed
    refine ⟨[⟨.warn, s!"{failed.length} listener(s) failed on voice state update: {names}"⟩],
      by simp [Hushed], ?_⟩
    simp [flag, hf, Flow.eval_bind, names]

theorem unhindered_flag (update : VoiceUpdate) (failed : List String) {uses : List Lock} :
    (flag (.voice update) failed).Unhindered uses 0 := by
  by_cases hf : failed.isEmpty = true
  · simp only [flag, hf, if_true]
    exact .done _
  · simp only [flag, hf]
    exact (Action.unhindered_note _ _).bind fun _ => .done _

end GuildBot.Audience

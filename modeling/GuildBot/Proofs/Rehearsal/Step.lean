import GuildBot.Proofs.Bot.Process
import GuildBot.Proofs.Bot.Push
import GuildBot.Proofs.Flow.SingleTask
import GuildBot.Rehearsal.Traffic

namespace GuildBot

open Platform Std

namespace Bot

theorem messages_of_calls {calls : List Call} (hc : ∀ c ∈ calls, c.IsFetch) :
    (calls.map Deed.call).filterMap Deed.message? = [] := by
  rw [List.filterMap_map, List.filterMap_eq_nil_iff]
  intro c h
  have hfetch := hc c h
  cases c with
  | sendMessage channelId text => exact hfetch.elim
  | _ => rfl

theorem messagesSince_of_asks {b b' : Bot} (h : b.Asks b') : b.messagesSince b' = [] := by
  obtain ⟨calls, hc, hd⟩ := h
  rw [Bot.messagesSince, hd, List.drop_left]
  exact messages_of_calls hc

end Bot

namespace Rehearsal.Session

variable {α : Type} {uses : List Lock} {k : Nat}

private theorem act_eq {f : Action α} (hf : f.Unhindered uses k) (hk : 2 * k < Machine.stepLimit)
    (b : Bot) (show? : α → Shown) :
    let r := act b f show?
    r.1 = (Flow.eval Bot.respond f b).1.elim .panicked show? ∧
      r.2.2 = (Flow.eval Bot.respond f b).2 := by
  have h := Machine.runAlone_ofProgram (δ := Unit) Bot.respond b hf hk
  unfold act perform
  rcases hr : Machine.runAlone (δ := Unit) Bot.respond b (.ofProgram f) none with ⟨ending, time, b'⟩
  rw [hr] at h
  obtain ⟨hending, hb⟩ := h
  rcases heval : (Flow.eval Bot.respond f b).1 with _ | a
  · rw [heval] at hending
    cases hending
    exact ⟨rfl, hb⟩
  · rw [heval] at hending
    cases hending
    exact ⟨rfl, hb⟩

section

variable {f : Action α} (hf : f.Unhindered uses k) (hk : 2 * k < Machine.stepLimit) {b b' : Bot}
  {show? : α → Shown} {a : α}

include hf hk

theorem act_of_eval (heval : Flow.eval Bot.respond f b = (some a, b')) :
    (act b f show?).1 = show? a := by
  rw [(act_eq hf hk b show?).1, heval]
  rfl

theorem eval_of_act (hshow : Function.Injective show?) (hpanicked : ∀ a, show? a ≠ .panicked)
    (hact : (act b f show?).1 = show? a) :
    ∃ b', Flow.eval Bot.respond f b = (some a, b') := by
  rw [(act_eq hf hk b show?).1] at hact
  rcases heval : Flow.eval Bot.respond f b with ⟨_ | a', b'⟩
  · rw [heval] at hact
    exact absurd hact.symm (hpanicked a)
  · rw [heval] at hact
    exact ⟨b', by rw [hshow hact]⟩

end

private theorem unhindered_look (q : Query) : q.look.Unhindered [.guilds, .channels, .users] 4 := by
  have hsub {l : Lock} (hl : l ∈ [Lock.guilds, .channels, .users]) :
      [l] ⊆ [Lock.guilds, .channels, .users] := by simpa using hl
  cases q with
  | guild id =>
    exact ((Directory.unhindered_guild id).mono (hsub (by simp)) (by decide)).bind fun _ => .done _
  | channel id =>
    exact ((Directory.unhindered_channel id).mono (hsub (by simp)) (by decide)).bind fun _ => .done _
  | user id guildId =>
    exact ((Directory.unhindered_user id guildId).mono (hsub (by simp)) (by decide)).bind
      fun _ => .done _
  | channels guildId =>
    exact ((Directory.unhindered_channels guildId).mono (List.Subset.refl _) (by decide)).bind
      fun _ => .done _

theorem eval_look_snd (q : Query) (b : Bot) :
    (Flow.eval Bot.respond q.look b).2 = match q with
      | .guild id => (Flow.eval Bot.respond (Directory.guild id) b).2
      | .channel id => (Flow.eval Bot.respond (Directory.channel id) b).2
      | .user id guildId => (Flow.eval Bot.respond (Directory.user id guildId) b).2
      | .channels guildId => if guildId = "" then b else b.asked (.fetchGuildChannels guildId) := by
  cases q with
  | guild id =>
    exact congrArg Prod.snd (Flow.eval_bind_done Bot.respond (Directory.guild id) Finding.guild b)
  | channel id =>
    exact congrArg Prod.snd
      (Flow.eval_bind_done Bot.respond (Directory.channel id) Finding.channel b)
  | user id guildId =>
    exact congrArg Prod.snd
      (Flow.eval_bind_done Bot.respond (Directory.user id guildId) Finding.user b)
  | channels guildId =>
    exact (congrArg Prod.snd (Flow.eval_bind_done Bot.respond (Directory.channels guildId)
      Finding.channels b)).trans (Directory.eval_channels_snd guildId b)

theorem stepBot_look (b : Bot) (q : Query) :
    let r := stepBot b (.look q)
    r.1 = (Flow.eval Bot.respond q.look b).1.elim .panicked .found ∧
      r.2.2 = (Flow.eval Bot.respond q.look b).2 :=
  act_eq (unhindered_look q) (by decide) b .found

theorem stepBot_pushMember (b : Bot) (update : MemberUpdate) :
    let r := stepBot b (.pushMember update)
    r.1 = (Flow.eval Bot.respond (Directory.absorbMember update) b).1.elim .panicked .changes ∧
      r.2.2 = (Flow.eval Bot.respond (Directory.absorbMember update) b).2 :=
  have hf : (Directory.absorbMember update).Unhindered [] 0 :=
    Directory.unhindered_absorbMember update
  act_eq hf (by decide) b .changes

theorem stepBot_pushChannel (b : Bot) (update : ChannelUpdate) :
    let r := stepBot b (.pushChannel update)
    r.1 = (Flow.eval Bot.respond (Directory.absorbChannel update) b).1.elim .panicked .changes ∧
      r.2.2 = (Flow.eval Bot.respond (Directory.absorbChannel update) b).2 :=
  have hf : (Directory.absorbChannel update).Unhindered [] 0 :=
    Directory.unhindered_absorbChannel update
  act_eq hf (by decide) b .changes

theorem stepBot_resolveVoice (b : Bot) (raw : RawVoice) :
    let r := stepBot b (.resolveVoice raw)
    r.1 = (Flow.eval Bot.respond (Bot.resolveVoice raw) b).1.elim .panicked .voice ∧
      r.2.2 = (Flow.eval Bot.respond (Bot.resolveVoice raw) b).2 :=
  act_eq (Bot.unhindered_resolveVoice raw) (by decide) b .voice

theorem stepBot_advance (b : Bot) (d : Duration) :
    ∃ t, (stepBot b (.advance d)).2.2 = { b with handClock := t } := by
  simp only [stepBot]
  cases b.handClock.add? d.asAdvance with
  | none => exact ⟨b.handClock, rfl⟩
  | some t => exact ⟨t, rfl⟩

theorem resolved?_eq (b : Bot) (raw : RawVoice) :
    resolved? b raw = (Flow.eval Bot.respond (Bot.resolveVoice raw) b).1 := by
  unfold resolved?
  rw [(stepBot_resolveVoice b raw).1]
  cases (Flow.eval Bot.respond (Bot.resolveVoice raw) b).1 with
  | none => rfl
  | some update => rfl

private theorem stepBot_process (b : Bot) (raw : RawEvent) {m n : Nat}
    (hl : (Bot.process raw).Unhindered uses k) (hk : 2 * (k + m + n) < Machine.stepLimit)
    (hplan : ∀ plan s, Flow.eval Bot.respond (Bot.process raw) b = (some plan, s) →
      plan.branches.length ≤ 1 ∧ (∀ f ∈ plan.branches, f.Unhindered uses m) ∧
        ∀ ids, (plan.close ids).Unhindered uses n) :
    (stepBot b (.process raw)).2.2 =
      (Flow.eval Bot.respond ((Bot.process raw).bind Plan.inTurn) b).2 := by
  have h := (Machine.runAlone_ofPlan Bot.respond b hl hk hplan).2
  have hstep : stepBot b (.process raw) =
    perform b (.ofPlan (Bot.process raw)) (fun _ => .kind (.ok raw.kind)) none .panicked := rfl
  rw [hstep, perform]
  rcases hr : Machine.runAlone Bot.respond b (.ofPlan (Bot.process raw)) none with ⟨ending, time, b'⟩
  rw [hr] at h
  cases ending with
  | value r => exact h
  | timedOut => exact h
  | panicked => exact h

theorem stepBot_voice {b : Bot} {e : Entry} (hreg : b.registry = [e]) (he : e.listener = .activity)
    (raw : RawVoice) :
    ∃ lines, Directory.Hushed lines ∧ (stepBot b (.process (.voice raw))).2.2 =
      match Flow.eval Bot.respond (Bot.resolveVoice raw) b with
      | (some update, b') => (Flow.eval Bot.respond (Activity.track Directory.tools
          (Audience.policy b.settings) (Bot.trackerPlace e.id e.clock) update) b').2.writeAll lines
      | (none, b') => b' := by
  have hlooks : b.LooksUp (Flow.eval Bot.respond (Bot.resolveVoice raw) b).2 :=
    Bot.looksUp_resolveVoice raw b
  have hannounce (update : VoiceUpdate) (b' : Bot) (hb' : b.LooksUp b') :
      Flow.eval Bot.respond (Audience.announce (.voice update)) b' =
        (some ⟨[Audience.tell b.settings (.voice update) e],
          fun results => Audience.flag (.voice update) (results.filterMap id)⟩, b') := by
    simp only [Audience.announce, Audience.tellAll, Flow.look, Flow.eval_act, id_eq, Flow.eval_done,
      hb'.registry, hb'.settings, hreg, List.map_cons, List.map_nil]
  have hprocess : Bot.process (.voice raw) = (Bot.resolveVoice raw).bind fun update =>
      Audience.announce (.voice update) := rfl
  have hlead : (Bot.process (.voice raw)).Unhindered
      [Lock.decisions e.id, .guilds, .users, .channels] 10 :=
    ((Bot.unhindered_resolveVoice raw).mono (by simp) (Nat.le_refl _)).bind (n := 0)
      fun update => .act _ fun _ => .done _
  rw [stepBot_process b (.voice raw) (m := 22) (n := 0) hlead (by decide) ?_, Flow.eval_bind,
    hprocess, Flow.eval_bind]
  · generalize Flow.eval Bot.respond (Bot.resolveVoice raw) b = r at hlooks ⊢
    obtain ⟨_ | update, b'⟩ := r
    · exact ⟨[], by simp [Directory.Hushed], rfl⟩
    · obtain ⟨failed, lines, hl, htell⟩ :=
        Audience.eval_tell b.settings he update b'
      obtain ⟨lines', hl', hflag⟩ := Audience.eval_flag update ([failed].filterMap id)
        ((Flow.eval Bot.respond (Activity.track Directory.tools (Audience.policy b.settings)
          (Bot.trackerPlace e.id e.clock) update) b').2.writeAll lines)
      refine ⟨lines ++ lines', hl.append hl', ?_⟩
      dsimp only
      rw [hannounce update b' hlooks]
      dsimp only
      rw [Plan.inTurn_singleton, Flow.eval_bind, htell]
      dsimp only
      rw [hflag, Bot.writeAll_writeAll]
  · intro plan s heval
    rw [hprocess, Flow.eval_bind] at heval
    generalize Flow.eval Bot.respond (Bot.resolveVoice raw) b = r at hlooks heval
    obtain ⟨_ | update, b'⟩ := r
    · cases heval
    · dsimp only at heval
      rw [hannounce update b' hlooks] at heval
      cases heval
      refine ⟨Nat.le_refl 1, ?_, fun ids => Audience.unhindered_flag update _⟩
      intro f hf
      obtain rfl := List.mem_singleton.1 hf
      exact Audience.unhindered_tell he update

private theorem stepBot_absorbed (b : Bot) {raw : RawEvent} {f : Action (List Change)}
    (hf : f.Unhindered [] 0)
    (hraw : Bot.process raw = f.bind fun _ => .done Bot.nothingMore) :
    (stepBot b (.process raw)).2.2 = (Flow.eval Bot.respond f b).2 := by
  have hlead : (Bot.process raw).Unhindered [] 0 := by
    rw [hraw]
    exact hf.bind fun _ => .done _
  rw [stepBot_process b raw (m := 0) (n := 0) hlead (by decide) ?_, Flow.eval_bind, hraw,
    Flow.eval_bind_done]
  · rcases Flow.eval Bot.respond f b with ⟨_ | changes, b'⟩
    · rfl
    · rfl
  · intro plan s heval
    rw [hraw, Flow.eval_bind_done] at heval
    obtain ⟨changes, -, rfl⟩ := Option.map_eq_some_iff.1 (congrArg Prod.fst heval)
    refine ⟨Nat.zero_le 1, ?_, fun _ => .done []⟩
    intro f hf
    cases hf

theorem stepBot_member (b : Bot) (update : MemberUpdate) :
    (stepBot b (.process (.member update))).2.2 =
      (Flow.eval Bot.respond (Directory.absorbMember update) b).2 :=
  stepBot_absorbed b (Directory.unhindered_absorbMember update) rfl

theorem stepBot_channel (b : Bot) (update : ChannelUpdate) :
    (stepBot b (.process (.channel update))).2.2 =
      (Flow.eval Bot.respond (Directory.absorbChannel update) b).2 :=
  stepBot_absorbed b (Directory.unhindered_absorbChannel update) rfl

end Rehearsal.Session

end GuildBot

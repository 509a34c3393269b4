import GuildBot.Proofs.Bot.Faithful
import GuildBot.Proofs.Rehearsal.Traffic

/-!
# Ids get from the wire to the listeners

However the errands of a bot fall among one another, and whatever fails meanwhile, its records stay
faithful to the ids that they were asked for by. So does what it makes of an announced event.
-/

namespace GuildBot

open Platform Directory

namespace Bot.Ready

open Rehearsal.Session

variable {b : Bot}

private theorem shows_message (h : b.Ready) (raw : RawMessage) :
    ∃ m, (stepBot b (.resolveMessage raw)).1 = .message m := by
  have hends := ends_resolveMessage (I := Ready) (P := fun _ => False) raw (C := fun _ => True)
    (fun _ lines _ hb => hb.writeAll lines)
    (fun _ hb => (hb.ends_user _ _).mono (fun _ h => h) fun _ _ h => h.1)
    (fun _ hb => hb.ends_anyGuild _)
    (fun _ hb => (hb.ends_channel _).mono (fun _ h => h) fun _ _ h => ⟨h.1, trivial⟩) h
  obtain ⟨m, b', heval, -⟩ := hends.eval_eq
  exact ⟨m, act_of_eval (unhindered_resolveMessage raw) (by decide) heval⟩

private theorem shows_voice (h : b.Ready) (raw : RawVoice) :
    ∃ u, (stepBot b (.resolveVoice raw)).1 = .voice u := by
  have hends := ends_resolveVoice (I := Ready) (P := fun _ => False) raw (G := fun _ => True)
    (C := fun _ => True) (U := fun _ => True) (fun _ lines _ hb => hb.writeAll lines)
    (fun _ hb => (hb.ends_anyGuild _).mono (fun _ h => h) fun _ _ h => ⟨h, trivial⟩)
    (fun id _ _ hb => (hb.ends_channel id).mono (fun _ h => h) fun _ _ h => ⟨h.1, trivial⟩)
    (fun _ => trivial)
    (fun _ hb => (hb.ends_user _ _).mono (fun _ h => h) fun _ _ h => ⟨h.1, trivial⟩) h
  obtain ⟨u, b', heval, -⟩ := hends.eval_eq
  exact ⟨u, act_of_eval (unhindered_resolveVoice raw) (by decide) heval⟩

end Bot.Ready

namespace Rehearsal

open Session

namespace Errand

private theorem keeps_ofAction {α : Type} {f : Action α} (hf : f.IsFaithful fun _ => True) :
    (ofAction f).Keeps Bot.Faithful Bot.respond :=
  ⟨hf.bind fun _ _ => .done trivial, fun _ hb => hb⟩

private theorem faithful_look (q : Query) : q.look.IsFaithful fun _ => True := by
  cases q with
  | guild id => exact (faithful_guild id).bind fun _ _ => .done trivial
  | channel id => exact (faithful_channel id).bind fun _ _ => .done trivial
  | user id guildId => exact (faithful_user id guildId).bind fun _ _ => .done trivial
  | channels guildId =>
    have hchannels : faithful.keeps [] (channels guildId) := faithful.channels guildId
    exact Flow.Keeps.bind hchannels fun _ _ => .done trivial

private theorem keeps_task (settings : Settings) (e : Errand) :
    (e.task settings).Keeps Bot.Faithful Bot.respond := by
  cases e with
  | look q => exact keeps_ofAction (faithful_look q)
  | pushMember update => exact keeps_ofAction (faithful_absorbMember update)
  | pushChannel update => exact keeps_ofAction (faithful_absorbChannel update)
  | process raw =>
    refine ⟨(Bot.faithful_process raw).mono fun plan h => h.1, fun b hb => ?_⟩
    exact hb.of_beside ⟨⟨rfl, rfl, rfl, rfl, rfl⟩, rfl, rfl, rfl, rfl⟩

end Errand

namespace ConcurrentErrands

private theorem faithful_touch {b : Bot} (h : b.Faithful) (move : Move) : (touch move b).Faithful := by
  cases move with
  | register id listener clock => exact h.register id listener clock
  | setClock clock t =>
    cases clock with
    | hand => exact ⟨h.sound.same rfl rfl rfl rfl, h.honest, h.users⟩
    | wall => exact ⟨h.sound.same rfl rfl rfl rfl, h.honest, h.users⟩
  | connect p honest => exact ⟨h.sound.same rfl rfl rfl rfl, honest, h.users⟩
  | start e => exact h
  | turn number => exact h
  | pass milliseconds => exact h

private theorem keeps_step {m : EventMachine} (h : m.Keeps Bot.Faithful Bot.respond) (move : Move) :
    (step m move).Keeps Bot.Faithful Bot.respond := by
  have htouch : Machine.Keeps Bot.Faithful Bot.respond
      { m with hub := { m.hub with state := touch move m.hub.state } } :=
    ⟨faithful_touch h.holds move, h.tasks⟩
  cases move with
  | start e => exact h.spawn (Errand.keeps_task _ e)
  | turn number => exact h.pollTask number
  | pass milliseconds => exact ⟨by simpa [step] using h.holds, h.tasks⟩
  | register id listener clock => exact htouch
  | setClock clock t => exact htouch
  | connect p honest => exact htouch

private theorem keeps_after {b : Bot} (h : b.Faithful) (moves : List Move) :
    (after b moves).Keeps Bot.Faithful Bot.respond := by
  have hstart : Machine.Keeps Bot.Faithful Bot.respond (.ofState b : EventMachine) := ⟨h, nofun⟩
  unfold after
  generalize (Machine.ofState b : EventMachine) = m at hstart
  induction moves generalizing m with
  | nil => exact hstart
  | cons move moves ih => exact ih _ (keeps_step hstart move)

theorem Leads.faithful {b b' : Bot} (h : Leads b b') (hb : b.Faithful) : b'.Faithful := by
  obtain ⟨moves, rfl⟩ := h
  exact (keeps_after hb moves).holds

private theorem of_turns {α : Type} {Q : α → Prop} {f : Action α} (hf : f.IsFaithful Q) {me : Strand}
    {hubs : List (Hub Bot Lock)} (hhubs : ∀ h ∈ hubs, h.state.Faithful) {a : α}
    (hended : (Progress.start f).turns Bot.respond me hubs = .ended (some a)) : Q a := by
  have hkeeps := Progress.Keeps.turns (p := .start f) hf me hhubs
  rw [hended] at hkeeps
  exact hkeeps

private theorem isOf_of_message {b : Bot} (h : b.Faithful) {raw : RawMessage} {m : Message}
    (hm : (stepBot b (.resolveMessage raw)).1 = .message m) : m.IsOf raw := by
  obtain ⟨b', heval⟩ := eval_of_act (Bot.unhindered_resolveMessage raw) (by decide)
    (fun _ _ => Shown.message.inj) (fun _ heq => by cases heq) hm
  exact (Bot.faithful_resolveMessage raw).of_eval h heval

private theorem isOf_of_voice {b : Bot} (h : b.Faithful) {raw : RawVoice} {u : VoiceUpdate}
    (hu : (stepBot b (.resolveVoice raw)).1 = .voice u) : u.IsOf raw := by
  obtain ⟨b', heval⟩ := eval_of_act (Bot.unhindered_resolveVoice raw) (by decide)
    (fun _ _ => Shown.voice.inj) (fun _ heq => by cases heq) hu
  exact (Bot.faithful_resolveVoice raw).of_eval h heval

/-- Over an honest platform the records that a bot has cached are those of their keys, whatever it has
been given to do and whatever failed. So an event is resolved to the ids that were announced, also
while other errands are under way, and this is the event that listeners are told of. -/
theorem announced_ids_kept (settings : Settings) (p : Behaviour) (hp : Honest p) (clock : Clock)
    (handClock wallClock : Instant) :
    let Reached (b : Bot) : Prop := Leads (.ofSettings settings p clock handClock wallClock) b
    (∀ b, Reached b → b.KeepsIds) ∧
    (∀ (me : Strand) (hubs : List (Hub Bot Lock)), (∀ h ∈ hubs, Reached h.state) →
      (∀ raw m, (Progress.start (Bot.resolveMessage raw)).turns Bot.respond me hubs =
        .ended (some m) → m.IsOf raw) ∧
      (∀ raw u, (Progress.start (Bot.resolveVoice raw)).turns Bot.respond me hubs =
        .ended (some u) → u.IsOf raw) ∧
      ∀ raw plan, raw.IsTold → (Progress.start (Bot.process raw)).turns Bot.respond me hubs =
        .ended (some plan) → ∃ event : Event, event.IsOf raw ∧ Audience.IsAbout event plan) ∧
    ∀ b, Reached b →
      (∀ raw m, (stepBot b (.resolveMessage raw)).1 = .message m → m.IsOf raw) ∧
      (∀ raw u, (stepBot b (.resolveVoice raw)).1 = .voice u → u.IsOf raw) ∧
      ((∀ ds c, c.IsFetch → (b.platform ds c).result.isSome = true) →
        (b.now.add? b.lifetime).isSome = true →
        (∀ raw, ∃ m, (stepBot b (.resolveMessage raw)).1 = .message m ∧ m.IsOf raw) ∧
          ∀ raw, ∃ u, (stepBot b (.resolveVoice raw)).1 = .voice u ∧ u.IsOf raw) := by
  intro Reached
  have hfaithful (b : Bot) (hb : Reached b) : b.Faithful :=
    hb.faithful (.ofSettings settings hp clock handClock wallClock)
  refine ⟨fun b hb => (hfaithful b hb).keepsIds, ?_, ?_⟩
  · intro me hubs hreached
    have hhubs : ∀ h ∈ hubs, h.state.Faithful := fun h hmem => hfaithful h.state (hreached h hmem)
    refine ⟨?_, ?_, ?_⟩
    · intro raw m hm
      exact of_turns (Q := fun m => m.IsOf raw) (Bot.faithful_resolveMessage raw) hhubs hm
    · intro raw u hu
      exact of_turns (Q := fun u => u.IsOf raw) (Bot.faithful_resolveVoice raw) hhubs hu
    · intro raw plan htold hplan
      exact (of_turns (Bot.faithful_process raw) hhubs hplan).2 htold
  · intro b hb
    have hmessage (raw : RawMessage) (m : Message)
        (hm : (stepBot b (.resolveMessage raw)).1 = .message m) : m.IsOf raw :=
      isOf_of_message (hfaithful b hb) hm
    have hvoice (raw : RawVoice) (u : VoiceUpdate)
        (hu : (stepBot b (.resolveVoice raw)).1 = .voice u) : u.IsOf raw :=
      isOf_of_voice (hfaithful b hb) hu
    refine ⟨hmessage, hvoice, fun hanswers hrange => ?_⟩
    have hready : b.Ready :=
      ⟨(hfaithful b hb).sound, (hfaithful b hb).honest.toTruthful, hanswers, hrange⟩
    constructor
    · intro raw
      obtain ⟨m, hm⟩ := hready.shows_message raw
      exact ⟨m, hm, hmessage raw m hm⟩
    · intro raw
      obtain ⟨u, hu⟩ := hready.shows_voice raw
      exact ⟨u, hu, hvoice raw u hu⟩

private theorem honest_roughPlatform : Honest roughPlatform where
  toTruthful := dependable_roughPlatform.toTruthful
  memberships := by rintro _ _ _ ⟨⟩; rfl

/-- A user is pushed and looked up in another guild, where their membership cannot be fetched. -/
def greetings : List Move :=
  [.start (.pushMember { guildId := "8", userId := "42", nickname := "Bobby" }), .turn 0,
    .start (.look (.user "42" "7")), .turn 1, .setClock .hand ⟨5⟩]

theorem announced_ids_kept_greetings :
    let b := (after (.ofSettings { token := "t" } roughPlatform .hand ⟨0⟩ ⟨0⟩) greetings).hub.state
    let raw : RawMessage := { guildId := "7", channelId := "1", authorId := "42", content := "hi" }
    b.KeepsIds ∧ (b.users.entries[(⟨"42", "8"⟩ : UserKey)]?).isSome = true ∧
      ∃ m, (stepBot b (.resolveMessage raw)).1 = .message m ∧ m.IsOf raw := by
  obtain ⟨hids, -, hresolved⟩ :=
    announced_ids_kept { token := "t" } roughPlatform honest_roughPlatform .hand ⟨0⟩ ⟨0⟩
  refine ⟨hids _ ⟨greetings, rfl⟩, by decide, ?_⟩
  obtain ⟨-, -, hexists⟩ := hresolved _ ⟨greetings, rfl⟩
  exact (hexists (fun _ _ _ => rfl) (by decide)).1 _

end ConcurrentErrands

end Rehearsal

end GuildBot

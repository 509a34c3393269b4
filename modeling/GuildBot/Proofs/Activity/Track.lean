import GuildBot.Bot.Process
import GuildBot.Proofs.Activity.Parts
import GuildBot.Proofs.Bot.Kept

namespace GuildBot

open Platform Std Directory

namespace Bot

variable {b : Bot} {e : Entry} (clock : Clock)

theorem view_trackerPlace (h : b.registry = [e]) :
    (trackerPlace e.id clock).view b = e.tracker := by
  simp [trackerPlace, entry?, h]

theorem put_trackerPlace (h : b.registry = [e]) (tracker : Activity.Tracker) :
    (trackerPlace e.id clock).put tracker b = { b with registry := [{ e with tracker }] } := by
  simp [trackerPlace, h]

end Bot

namespace Activity

variable (b : Bot)

@[simp] theorem note_tools : (Directory.tools).note = Action.note := rfl

theorem unhindered_tools : Tools.Unhindered Directory.tools [.guilds, .users, .channels] 4 where
  guild id := (unhindered_guild id).mono (by simp) (by omega)
  channel id := (unhindered_channel id).mono (by simp) (by omega)
  user id guildId := (unhindered_user id guildId).mono (by simp) (Nat.le_refl _)
  channels guildId := (unhindered_channels guildId).mono (List.Subset.refl _) (by omega)
  send channelId text :=
    (Action.unhindered_call (.sendMessage channelId text)).mono (List.Subset.refl _) (by omega)
  note level message := Action.unhindered_note level message

theorem eval_findLogChannel (name guildId : String) (channels : List Channel) :
    ∃ lines, Flow.eval Bot.respond (findLogChannel Directory.tools name guildId channels) b =
      (some ((channels.find? fun c => c.name = name).map Channel.id), b.writeAll lines) := by
  induction channels generalizing b with
  | nil => exact ⟨[], by rw [Bot.writeAll_nil]; rfl⟩
  | cons c rest ih =>
    rw [findLogChannel_cons, Flow.eval_bind, note_tools, Action.eval_note]
    by_cases hc : c.name = name
    · simp only [hc, if_true, Flow.eval_bind, Action.eval_note, Bot.writeAll_writeAll,
        Flow.eval_done, List.find?_cons, decide_true, Option.map_some]
      exact ⟨_, rfl⟩
    · obtain ⟨lines, hl⟩ := ih (b.writeAll _)
      simp only [hc, if_false, List.find?_cons, decide_false]
      exact ⟨_, hl.trans (by rw [Bot.writeAll_writeAll])⟩

end Activity

end GuildBot

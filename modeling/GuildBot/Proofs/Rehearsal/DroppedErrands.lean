import GuildBot.Proofs.Bot.Rules
import GuildBot.Proofs.Bot.Stocked
import GuildBot.Proofs.Flow.Waiting
import GuildBot.Rehearsal.DroppedErrands

/-!
# Errands do not wait in a circle

Whatever errands a bot with the stock listeners is given, however their turns fall and whichever are
dropped, those who wait for a lock wait in the end for somebody who can go on.
-/

namespace GuildBot.Rehearsal

open Platform Directory
open GuildBot.Action (Obeys IsStocked)
open Relation (TransGen)

variable {α : Type}

namespace Errand

/-- Whether a task leaves the stock listeners and behaves from its first turn on. -/
def IsOrderly (t : Task Bot Lock Call.Answer (Option String) (List String)) : Prop :=
  t.Keeps Bot.HasStock Bot.respond ∧
  ∀ (number : Nat) (h : Hub Bot Lock), (∀ n, h.Claims ⟨number, some n⟩ []) →
    ⟨number, some 0⟩ ∈ h.woken → t.Behaves Bot.rules Bot.HasStock Bot.respond h number

private theorem isOrderly_ofAction {f : Action α} (hobeys : Obeys [] f)
    (hstocked : IsStocked (fun _ => True) f) : IsOrderly (ofAction f) := by
  have hobeys' : Obeys [] (f.bind fun _ => (.done [] : Action (List String))) :=
    hobeys.bind fun _ => .done _
  refine ⟨⟨hstocked.bind fun _ _ => .done trivial, fun _ hb => hb⟩, ?_⟩
  intro number h hclaims hwoken
  exact .start_program hclaims hwoken hobeys' rfl

private theorem isOrderly_of_property {f : Action α} (h : ∀ C : ListenerProperty, C.keeps [] f) :
    IsOrderly (ofAction f) :=
  isOrderly_ofAction (h lawful) (h stocked)

private theorem isOrderly_look (q : Query) : IsOrderly (ofAction q.look) := by
  have hbase := Lock.rank_lt_of_none 1
  apply isOrderly_of_property
  intro C
  cases q with
  | guild id => exact C.bind (C.guild id hbase) fun _ => C.done _
  | channel id => exact C.bind (C.channel id hbase) fun _ => C.done _
  | user id guildId => exact C.bind (C.user id guildId hbase) fun _ => C.done _
  | channels guildId => exact C.bind (C.channels guildId) fun _ => C.done _

private theorem isOrderly_process (settings : Settings) (raw : RawEvent) :
    IsOrderly (Shift.taskOf settings raw) := by
  have hstocked := Bot.stocked_process raw
  refine ⟨⟨hstocked.mono fun plan h => h.1, fun b hb => hb⟩, ?_⟩
  intro number h hclaims hwoken
  exact .start hclaims hwoken (Bot.obeys_process raw) (hstocked.mono fun plan h => h.2) rfl

private theorem isOrderly_task (settings : Settings) (e : Errand) : IsOrderly (e.task settings) := by
  cases e with
  | look q => exact isOrderly_look q
  | pushMember update =>
    exact isOrderly_ofAction (obeys_absorbMember update) (stocked_absorbMember update)
  | pushChannel update =>
    exact isOrderly_ofAction (obeys_absorbChannel update) (stocked_absorbChannel update)
  | process raw => exact isOrderly_process settings raw

end Errand

namespace DroppedErrands

/-- Whether all errands of a bot with the stock listeners behave. -/
abbrev Calm (m : EventMachine) : Prop := m.Behaves Bot.rules Bot.HasStock Bot.respond

private theorem calm_step {m : EventMachine} (h : Calm m) (move : Move) : Calm (step m move) := by
  cases move with
  | start e =>
    obtain ⟨hkeeps, hbegins⟩ := Errand.isOrderly_task m.hub.state.settings e
    exact h.spawn hkeeps (hbegins m.tasks.length)
  | turn number => exact h.pollTask number
  | drop number => exact h.abandon number
  | pass milliseconds => exact h.arrive (Nat.le_add_right _ _)
  | setClock clock t =>
    cases clock with
    | hand => exact h.setState h.keeps.holds
    | wall => exact h.setState h.keeps.holds
  | connect p => exact h.setState h.keeps.holds

private theorem calm_after {b : Bot} (hb : b.HasStock) (moves : List Move) : Calm (after b moves) := by
  have hstart : Calm (.ofState b) := .ofState hb
  unfold after
  generalize (Machine.ofState b : EventMachine) = m at hstart
  induction moves generalizing m with
  | nil => exact hstart
  | cons move moves ih => exact ih _ (calm_step hstart move)

/-- If anybody waits for a lock, then somebody holds one, or has just been handed it, who waits for no
lock and is in a call or to have a turn. Nobody waits for a lock that they hold, or in a circle. -/
theorem no_circular_waiting (b : Bot) (hb : b.HasStock) (moves : List Move) :
    let m := after b moves
    (∀ s l, m.WaitsFor s l → ∃ s' k, m.Holds s' k ∧ (∀ n j, ¬m.WaitsFor ⟨s'.task, some n⟩ j) ∧
      (m.IsCalling s' ∨ m.IsReady s')) ∧
    (∀ s s' l, m.WaitsFor s l → m.Holds s' l → s'.task ≠ s.task) ∧
    ∀ task, ¬TransGen m.BlockedBy task task := by
  have hcalm := calm_after hb moves
  refine ⟨fun s l hw => hcalm.goes_on hw, ?_, hcalm.not_blocked_by_self⟩
  intro s s' l hw hh htask
  exact hcalm.not_blocked_by_self s.task (.single ⟨s, s', l, rfl, htask, hw, hh⟩)

/-- A platform that takes a while to say that it is of no help. -/
def unhelpful : Behaviour := fun _ _ =>
  { duration := 5, result := some (.error (.of (.other "unavailable"))) }

def unhelpedBot : Bot := (Bot.ofSettings { token := "t" } unhelpful .hand ⟨0⟩ ⟨0⟩).registerStock.2

/-- Two users leave a guild's channels, and another guild is looked up between the lookups for them. -/
def departures : List Move :=
  [.start (.process (.voice { guildId := "7", userId := "42", channelId := none })),
    .start (.process (.voice { guildId := "7", userId := "43", channelId := none })),
    .start (.look (.guild "8")), .turn 0, .pass 5, .turn 0, .turn 1, .turn 2, .pass 5, .turn 0,
    .turn 1, .pass 2, .turn 2, .pass 3, .turn 1]

/-- The second user's event waits for a lock of the tracker, which the first one's holds; that waits for
the lookup of the other guild, which is in a call. -/
theorem no_circular_waiting_departures :
    let m := after unhelpedBot departures
    unhelpedBot.HasStock ∧ m.BlockedBy 1 0 ∧ m.BlockedBy 0 2 ∧ ¬m.BlockedBy 2 1 ∧
      ∃ s k, m.Holds s k ∧ (∀ n j, ¬m.WaitsFor ⟨s.task, some n⟩ j) ∧ (m.IsCalling s ∨ m.IsReady s) := by
  intro m
  obtain ⟨hgoes, -, hcircle⟩ := no_circular_waiting unhelpedBot rfl departures
  have hsecond : m.WaitsFor ⟨1, some 2⟩ (.decisions "activity") := ⟨rfl, rfl⟩
  have hfirst : m.WaitsFor ⟨0, some 2⟩ .guilds := ⟨rfl, rfl⟩
  have hblocked : m.BlockedBy 1 0 := ⟨_, ⟨0, some 2⟩, _, rfl, rfl, hsecond, rfl⟩
  have hblocked' : m.BlockedBy 0 2 := ⟨_, ⟨2, some 0⟩, _, rfl, rfl, hfirst, rfl⟩
  refine ⟨rfl, hblocked, hblocked', fun hback => ?_, hgoes _ _ hsecond⟩
  exact hcircle 1 (.head hblocked (.head hblocked' (.single hback)))

end DroppedErrands

end GuildBot.Rehearsal

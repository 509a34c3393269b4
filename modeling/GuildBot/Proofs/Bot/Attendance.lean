import GuildBot.Bot.Duty
import GuildBot.Proofs.Bot.Rules
import GuildBot.Proofs.Flow.Turns

/-!
# Accepted events are attended to

Each event that the bot has accepted is processed by a task of its own, from its beginning on and within
the time limit. No turn of a task, no other event and no passing of time changes that, and the time limit
is the same for all events, since nothing changes the settings.
-/

namespace GuildBot

open Platform

/-- Whether all tasks of a machine are those of events, one of each, and have had those turns. -/
structure Attended (settings : Settings) (events : List RawEvent)
    (turns : Nat → List (Turn Bot Lock)) (m : EventMachine) : Prop where
  settings_eq : m.hub.state.settings = settings
  serves : m.hub.Serves fun _ => True
  length_eq : m.tasks.length = events.length
  processes : ∀ (i : Nat) raw t, events[i]? = some raw → m.tasks[i]? = some t →
    t.Processes settings m.hub i (turns i) raw
  fresh : ∀ i, events.length ≤ i → turns i = []

namespace Shift

variable {settings : Settings} {raw : RawEvent} {turns : List (Turn Bot Lock)} {number : Nat}
  {t : Task Bot Lock Call.Answer (Option String) (List String)}

private theorem lawful_of_becomes (h : (taskOf settings raw).Becomes Bot.respond number turns t) :
    t.Lawful Bot.rules Bot.Steady := by
  induction h with
  | start => exact ⟨⟨[], Bot.obeys_process raw⟩, fun _ => ⟨rfl, rfl, rfl, rfl, rfl⟩⟩
  | turn _ _ turn ih => exact (ih.poll Bot.rules_confines number turn.woken turn.hub).1

private theorem keepsTo_of_becomes (h : (taskOf settings raw).Becomes Bot.respond number turns t) :
    t.limit = some (Bot.timeLimit settings) ∧ t.KeepsTo (Bot.timeLimit settings) turns :=
  h.keepsTo Bot.respond number rfl rfl rfl rfl

end Shift

open Shift

namespace Task.Processes

variable {settings : Settings} {h : Hub Bot Lock} {number : Nat} {turns : List (Turn Bot Lock)}
  {raw : RawEvent} {t : Task Bot Lock Call.Answer (Option String) (List String)}

/-- The time of an event is up at some point, once it has had a turn. -/
theorem exists_deadline (hp : t.Processes settings h number turns raw) (hgoing : t.ending = none)
    (turn : Turn Bot Lock) : ∃ deadline, (t.next Bot.respond number turn).deadline = some deadline := by
  have hk := (keepsTo_of_becomes (.turn hp.becomes hgoing turn)).2
  rw [hk.deadline, List.head?_append]
  cases turns.head? with
  | none => exact ⟨_, rfl⟩
  | some first => exact ⟨_, rfl⟩

theorem ends_of_late (hp : t.Processes settings h number turns raw) (hgoing : t.ending = none)
    (turn : Turn Bot Lock) {deadline : Nat} (hdeadline : t.deadline = some deadline)
    (hlate : deadline ≤ turn.time) : (t.next Bot.respond number turn).ending ≠ none := by
  intro hgoes
  have hk := (keepsTo_of_becomes (.turn hp.becomes hgoing turn)).2
  have hsame : (t.next Bot.respond number turn).deadline = some deadline := by
    have hbefore := hp.keepsTo.deadline
    rw [hdeadline] at hbefore
    rw [hk.deadline]
    cases turns with
    | nil => cases hbefore
    | cons first rest => exact hbefore.symm
  have hearly := hk.early hgoes deadline hsame turn (List.mem_append_right _ List.mem_cons_self)
  omega

end Task.Processes

namespace Attended

variable {settings : Settings} {events : List RawEvent} {turns : Nat → List (Turn Bot Lock)}
  {m : EventMachine}

theorem start (bot : Bot) : Attended bot.settings [] (fun _ => []) (.ofState bot) where
  settings_eq := rfl
  serves := ⟨nofun, nofun, nofun⟩
  length_eq := rfl
  processes i raw t hraw _ := by cases hraw
  fresh _ _ := rfl

theorem write (ha : Attended settings events turns m) (level : Log.Level) (message : String) :
    Attended settings events turns
      { m with hub := { m.hub with state := m.hub.state.write level message } } where
  settings_eq := ha.settings_eq
  serves := ⟨ha.serves.claims, ha.serves.timers, ha.serves.woken⟩
  length_eq := ha.length_eq
  processes i raw t hraw ht :=
    let hp := ha.processes i raw t hraw ht
    ⟨hp.becomes, hp.keepsTo, hp.watched⟩
  fresh := ha.fresh

theorem arrive (ha : Attended settings events turns m) {time : Nat} (hlater : m.hub.now ≤ time) :
    Attended settings events turns { m with hub := m.hub.arrive time } where
  settings_eq := (congrArg Bot.settings (Hub.arrive_state m.hub time)).trans ha.settings_eq
  serves := ha.serves.arrive time
  length_eq := ha.length_eq
  processes i raw t hraw ht :=
    let hp := ha.processes i raw t hraw ht
    ⟨hp.becomes, hp.keepsTo, fun hgoing => (hp.watched hgoing).arrive hlater⟩
  fresh := ha.fresh

theorem accept (ha : Attended settings events turns m) (raw : RawEvent) :
    Attended settings (events ++ [raw]) turns (Shift.accept m raw) where
  settings_eq := (congrArg Bot.settings (Hub.wake_state m.hub _)).trans ha.settings_eq
  serves := ha.serves.of_stroke trivial .wake
  length_eq := by
    rw [Shift.accept, Machine.spawn, List.length_append, List.length_append, ha.length_eq]
    rfl
  processes i raw' t hraw ht := by
    rw [Shift.accept, ha.settings_eq] at ht ⊢
    simp only [Machine.spawn] at ht ⊢
    rw [List.getElem?_append] at hraw ht
    by_cases hi : i < events.length
    · rw [if_pos hi] at hraw
      rw [ha.length_eq, if_pos hi] at ht
      have hp := ha.processes i raw' t hraw ht
      exact ⟨hp.becomes, hp.keepsTo, fun hgoing => (hp.watched hgoing).wake _⟩
    · rw [if_neg hi] at hraw
      rw [ha.length_eq, if_neg hi] at ht
      obtain ⟨hzero, rfl⟩ : i - events.length = 0 ∧ raw = raw' := by
        simpa [List.getElem?_singleton] using hraw
      obtain rfl : taskOf settings raw = t := by simpa [hzero] using ht
      have hbegins : (taskOf settings raw).Becomes Bot.respond i (turns i) (taskOf settings raw) := by
        rw [ha.fresh i (Nat.le_of_not_lt hi)]
        exact .start
      refine ⟨hbegins, (keepsTo_of_becomes hbegins).2, fun _ => ?_⟩
      have hfirst : m.tasks.length = i := by
        rw [ha.length_eq]
        omega
      exact ⟨⟨m.tasks.length, some 0⟩, Hub.mem_woken_wake.2 (.inr rfl), hfirst⟩
  fresh i hi := ha.fresh i (by rw [List.length_append] at hi; omega)

theorem acceptAll (ha : Attended settings events turns m) (raws : List RawEvent) :
    Attended settings (events ++ raws) turns (raws.foldl Shift.accept m) := by
  induction raws generalizing events m with
  | nil => rwa [List.append_nil]
  | cons raw raws ih =>
    rw [List.append_cons]
    exact ih (ha.accept raw)

section

variable (number : Nat)

private theorem of_unwoken (ha : Attended settings events turns m) (hnone : m.turnOf? number = none) :
    Attended settings events turns { m with hub := (m.turnFor number).hub } where
  settings_eq := ha.settings_eq
  serves := ⟨ha.serves.claims, ha.serves.timers, fun _ _ => trivial⟩
  length_eq := ha.length_eq
  processes i raw t hraw ht := by
    have hp := ha.processes i raw t hraw ht
    refine ⟨hp.becomes, hp.keepsTo, fun hgoing => ?_⟩
    by_cases hi : i = number
    · subst hi
      rw [Machine.turnOf?, show m.tasks[i]? = some t from ht] at hnone
      simp [hgoing] at hnone
    · exact (hp.watched hgoing).of_leaves (.unwoken m.hub number) hi
  fresh := ha.fresh

theorem turn (ha : Attended settings events turns m) :
    Attended settings events
      (fun i => if i = number then turns i ++ (m.turnOf? number).toList else turns i)
      (m.pollTask Bot.respond number) := by
  rcases m.pollTask_cases Bot.respond number with ⟨hnone, heq⟩ | ⟨t, ht, hgoing, hturn, heq⟩
  · rw [hnone, heq]
    simp only [Option.toList_none, List.append_nil, ite_self]
    exact ha.of_unwoken number hnone
  · obtain ⟨raw, hraw⟩ : ∃ raw, events[number]? = some raw := by
      obtain ⟨hlt, -⟩ := List.getElem?_eq_some_iff.1 ht
      exact ⟨_, List.getElem?_eq_getElem (ha.length_eq ▸ hlt)⟩
    have hp := ha.processes number raw t hraw ht
    have hserves : (m.turnFor number).hub.Serves fun _ => True :=
      ⟨ha.serves.claims, ha.serves.timers, fun _ _ => trivial⟩
    have hleaves := (Hub.Leaves.unwoken m.hub number).trans
      (t.poll_leaves Bot.respond number (m.turnFor number).woken (m.turnFor number).hub)
    rw [heq, hturn]
    refine ⟨?_, t.poll_serves Bot.respond number _ hserves, ?_, ?_, ?_⟩
    · have hsteady := ((lawful_of_becomes hp.becomes).poll Bot.rules_confines number
        (m.turnFor number).woken (m.turnFor number).hub).2
      exact hsteady.settings.trans ha.settings_eq
    · rw [List.length_set, ha.length_eq]
    · intro i raw' t' hraw' ht'
      by_cases hi : i = number
      · subst hi
        obtain ⟨hlt, -⟩ := List.getElem?_eq_some_iff.1 ht
        obtain rfl := Option.some.inj (hraw.symm.trans hraw')
        obtain rfl : t.next Bot.respond i (m.turnFor i) = t' := by
          simpa [List.getElem?_set_self hlt] using ht'
        have hbecomes := Task.Becomes.turn hp.becomes hgoing (m.turnFor i)
        rw [if_pos rfl]
        refine ⟨hbecomes, (keepsTo_of_becomes hbecomes).2, fun hgoes => ?_⟩
        exact t.poll_watches Bot.respond i (keepsTo_of_becomes hp.becomes).1 (hp.watched hgoing)
          (m.turnFor i) rfl rfl hgoes
      · rw [if_neg hi]
        rw [List.getElem?_set_ne (Ne.symm hi)] at ht'
        have hp' := ha.processes i raw' t' hraw' ht'
        exact ⟨hp'.becomes, hp'.keepsTo, fun hgoes => (hp'.watched hgoes).of_leaves hleaves hi⟩
    · intro i hi
      obtain ⟨hlt, -⟩ := List.getElem?_eq_some_iff.1 hraw
      rw [if_neg (by omega)]
      exact ha.fresh i hi

end

end Attended

end GuildBot

import GuildBot.Proofs.Bot.Attendance
import Mathlib.Data.List.Induction

/-!
# No event is lost in a shift

Whatever happens in a shift, in whatever order: the events that the bot has accepted, those that wait in
the stream, and those that the gateway has yet to forward are the events of the gateway, in its order. The
bot stops listening only when it was asked to shut down or nothing is left to accept, and returns only
when all events that it accepted have ended and the gateway has too.
-/

namespace GuildBot

open Platform

namespace Duty

/-- What holds of a shift whatever happens in it, where the bot has accepted those events so far. -/
structure Sound (bot : Bot) (spawned : List RawEvent) (script : GatewayScript)
    (shutdown : Option Shutdown) (accepted : List RawEvent) (d : Duty) : Prop where
  script_eq : d.shift.script = script
  shutdown_eq : d.shift.shutdown = shutdown
  attended : Attended bot.settings (spawned ++ accepted) d.turnsOf d.shift.machine
  events : script.events.map Prod.snd = accepted ++ (d.shift.stream ++ d.shift.phase.ahead)
  listening : d.shift.listening = true ↔ d.stage = .listening
  left : d.stage ≠ .listening →
    d.shift.isShutdown = true ∨ d.shift.stream = [] ∧ d.shift.phase = .closed
  drained : d.stage = .joining ∨ d.stage = .done → d.shift.machine.inFlight = 0
  joined : d.stage = .done → d.shift.phase = .closed

theorem inFlight_eq_zero {m : EventMachine} : m.inFlight = 0 ↔ ∀ t ∈ m.tasks, t.ending ≠ none := by
  simp [Machine.inFlight, List.filter_eq_nil_iff]

theorem turnsOf_append (d : Duty) (number : Nat) (new : List (Turn Bot Lock)) :
    ({ d with turns := d.turns ++ new.map (number, ·) } : Duty).turnsOf =
      fun i => if i = number then d.turnsOf i ++ new else d.turnsOf i := by
  funext i
  simp only [turnsOf, List.filter_append, List.map_append, List.filter_map, List.map_map]
  split
  · next hi => simp [hi, Function.comp_def]
  · next hi => simp [Function.comp_def, Ne.symm hi]

theorem isShutdown_of_le {s s' : Shift} (hs : s.isShutdown = true) (hshutdown : s'.shutdown = s.shutdown)
    (hnow : s.now ≤ s'.now) : s'.isShutdown = true := by
  simp only [Shift.isShutdown, hshutdown, Option.any_eq_true, decide_eq_true_eq] at hs ⊢
  obtain ⟨request, hrequest, hle⟩ := hs
  exact ⟨request, hrequest, Nat.le_trans hle hnow⟩

theorem pollTask_now (m : EventMachine) (number : Nat) :
    (m.pollTask Bot.respond number).hub.now = m.hub.now := by
  rcases m.pollTask_cases Bot.respond number with ⟨-, heq⟩ | ⟨t, -, -, -, heq⟩
  · rw [heq]
    rfl
  · rw [heq]
    exact (t.poll_leaves Bot.respond number _ _).now

/-- Where all tasks have ended, no task has a turn any more. -/
private theorem inFlight_pollTask {m : EventMachine} (h : m.inFlight = 0) (number : Nat) :
    (m.pollTask Bot.respond number).inFlight = 0 := by
  rcases m.pollTask_cases Bot.respond number with ⟨-, heq⟩ | ⟨t, ht, hgoing, -, -⟩
  · rw [heq]
    exact h
  · exact absurd hgoing (inFlight_eq_zero.1 h t (List.mem_of_getElem? ht))

namespace Sound

variable {bot : Bot} {spawned : List RawEvent} {script : GatewayScript} {shutdown : Option Shutdown}
  {accepted : List RawEvent} {d : Duty}

theorem start (bot : Bot) (spawned : List RawEvent) (script : GatewayScript)
    (shutdown : Option Shutdown) :
    Sound bot spawned script shutdown [] (Duty.start bot spawned script shutdown) where
  script_eq := rfl
  shutdown_eq := rfl
  attended := by
    rw [List.append_nil]
    exact ((Attended.start bot).acceptAll spawned).write .info "Listening for events ..."
  events := rfl
  listening := ⟨fun _ => rfl, fun _ => rfl⟩
  left hleft := absurd rfl hleft
  drained hdrained := by rcases hdrained with h | h <;> cases h
  joined hdone := by cases hdone

private theorem goOn (hs : Sound bot spawned script shutdown accepted d) {m : EventMachine}
    {turns : List (Nat × Turn Bot Lock)} (hnow : d.shift.machine.hub.now ≤ m.hub.now)
    (hflight : d.shift.machine.inFlight = 0 → m.inFlight = 0)
    (hattended : Attended bot.settings (spawned ++ accepted)
      ({ d with turns } : Duty).turnsOf m) :
    Sound bot spawned script shutdown accepted
      { d with shift := { d.shift with machine := m }, turns } where
  script_eq := hs.script_eq
  shutdown_eq := hs.shutdown_eq
  attended := hattended
  events := hs.events
  listening := hs.listening
  left hleft := by
    refine (hs.left hleft).imp (fun hshutdown => ?_) id
    exact isShutdown_of_le hshutdown rfl hnow
  drained hdrained := hflight (hs.drained hdrained)
  joined := hs.joined

theorem turn (hs : Sound bot spawned script shutdown accepted d) (number : Nat) :
    Sound bot spawned script shutdown accepted (d.step (.turn number)) := by
  simp only [step]
  split
  · refine hs.goOn (Nat.le_of_eq (pollTask_now _ number).symm)
      (fun h => inFlight_pollTask h number) ?_
    rw [turnsOf_append]
    exact hs.attended.turn number
  · exact hs

theorem pass (hs : Sound bot spawned script shutdown accepted d) (milliseconds : Nat) :
    Sound bot spawned script shutdown accepted (d.step (.pass milliseconds)) := by
  have hlater : d.shift.machine.hub.now ≤ d.shift.machine.hub.now + milliseconds := by omega
  refine hs.goOn ?_ id (hs.attended.arrive hlater)
  rwa [Hub.arrive_now]

private theorem move (hs : Sound bot spawned script shutdown accepted d)
    (hopen : d.shift.phase ≠ .closed) {stream : List RawEvent} {phase : GatewayPhase}
    (hevents : d.shift.stream ++ d.shift.phase.ahead = stream ++ phase.ahead) :
    Sound bot spawned script shutdown accepted
      { d with shift := { d.shift with stream, phase } } where
  script_eq := hs.script_eq
  shutdown_eq := hs.shutdown_eq
  attended := hs.attended
  events := hevents ▸ hs.events
  listening := hs.listening
  left hleft := .inl ((hs.left hleft).resolve_right fun h => hopen h.2)
  drained := hs.drained
  joined hdone := absurd (hs.joined hdone) hopen

theorem forward (hs : Sound bot spawned script shutdown accepted d) :
    Sound bot spawned script shutdown accepted (d.step .forward) := by
  simp only [step]
  split
  · next since delay raw rest hphase =>
    refine hs.move (by simp [hphase]) ?_
    simp [hphase, GatewayPhase.ahead]
  · exact hs

theorem settle (hs : Sound bot spawned script shutdown accepted d) (phase : GatewayPhase) :
    Sound bot spawned script shutdown accepted (d.step (.settle phase)) := by
  simp only [step]
  split
  · next h => exact hs.move h.2.2 (by rw [h.1, h.2.1])
  · exact hs

theorem accept (hs : Sound bot spawned script shutdown accepted d) (hstage : d.stage = .listening)
    (n : Nat) : Sound bot spawned script shutdown (accepted ++ d.shift.stream.take n)
      { d with shift := d.shift.take n } where
  script_eq := hs.script_eq
  shutdown_eq := hs.shutdown_eq
  attended := by
    rw [← List.append_assoc]
    exact hs.attended.acceptAll (d.shift.stream.take n)
  events := by
    rw [hs.events, List.append_assoc, ← List.append_assoc (d.shift.stream.take n)]
    exact congrArg (fun stream => accepted ++ (stream ++ d.shift.phase.ahead))
      (List.take_append_drop n d.shift.stream).symm
  listening := hs.listening
  left hleft := absurd hstage hleft
  drained hdrained := by rcases hdrained with h | h <;> simp [hstage] at h
  joined hdone := by simp [hstage] at hdone

/-- The bot stops listening. -/
private theorem close (hs : Sound bot spawned script shutdown accepted d)
    (hleft : d.shift.isShutdown = true ∨ d.shift.stream = [] ∧ d.shift.phase = .closed)
    (level : Log.Level) (reason : String) :
    Sound bot spawned script shutdown accepted
      { d with shift := d.shift.close level reason, stage := .draining } where
  script_eq := hs.script_eq
  shutdown_eq := hs.shutdown_eq
  attended := (hs.attended.write level reason).write .info _
  events := hs.events
  listening := ⟨(by cases ·), (by cases ·)⟩
  left _ := hleft
  drained hdrained := by rcases hdrained with h | h <;> cases h
  joined hdone := by cases hdone

theorem seeEnd (hs : Sound bot spawned script shutdown accepted d) :
    Sound bot spawned script shutdown accepted (d.step .seeEnd) := by
  simp only [step]
  split
  · next h => exact hs.close (.inr h.2) _ _
  · exact hs

theorem seeShutdown (hs : Sound bot spawned script shutdown accepted d) :
    Sound bot spawned script shutdown accepted (d.step .seeShutdown) := by
  simp only [step]
  split
  · next h => exact hs.close (.inl h.2) _ _
  · exact hs

/-- The bot, which no longer listens, goes on to the next stage. -/
private theorem proceed (hs : Sound bot spawned script shutdown accepted d) {stage : Stage}
    (hstage : d.stage ≠ .listening) (hnext : stage ≠ .listening)
    (hdrained : d.shift.machine.inFlight = 0) (hjoined : stage = .done → d.shift.phase = .closed) :
    Sound bot spawned script shutdown accepted { d with stage } where
  script_eq := hs.script_eq
  shutdown_eq := hs.shutdown_eq
  attended := hs.attended
  events := hs.events
  listening := ⟨fun h => absurd (hs.listening.1 h) hstage, fun h => absurd h hnext⟩
  left _ := hs.left hstage
  drained _ := hdrained
  joined := hjoined

theorem seeDrained (hs : Sound bot spawned script shutdown accepted d) :
    Sound bot spawned script shutdown accepted (d.step .seeDrained) := by
  simp only [step]
  split
  · next h => exact hs.proceed (by simp [h.1]) (by simp) h.2 (by simp)
  · exact hs

theorem join (hs : Sound bot spawned script shutdown accepted d) :
    Sound bot spawned script shutdown accepted (d.step .join) := by
  simp only [step]
  split
  · next h => exact hs.proceed (by simp [h.1]) (by simp) (hs.drained (.inl h.1)) fun _ => h.2
  · exact hs

/-- No move loses an event. -/
theorem step (hs : Sound bot spawned script shutdown accepted d) (move : Move) :
    ∃ accepted', Sound bot spawned script shutdown accepted' (d.step move) := by
  cases move with
  | turn number => exact ⟨accepted, hs.turn number⟩
  | pass milliseconds => exact ⟨accepted, hs.pass milliseconds⟩
  | forward => exact ⟨accepted, hs.forward⟩
  | settle phase => exact ⟨accepted, hs.settle phase⟩
  | accept =>
    simp only [Duty.step]
    split
    · next hstage => exact ⟨_, hs.accept hstage 1⟩
    · exact ⟨accepted, hs⟩
  | seeEnd => exact ⟨accepted, hs.seeEnd⟩
  | seeShutdown => exact ⟨accepted, hs.seeShutdown⟩
  | seeDrained => exact ⟨accepted, hs.seeDrained⟩
  | join => exact ⟨accepted, hs.join⟩

theorem after (hs : Sound bot spawned script shutdown accepted d) (moves : List Move) :
    ∃ accepted', Sound bot spawned script shutdown accepted' (d.after moves) := by
  induction moves generalizing d accepted with
  | nil => exact ⟨accepted, hs⟩
  | cons move moves ih =>
    obtain ⟨accepted', hs'⟩ := hs.step move
    exact ih hs'

end Sound

end Duty

end GuildBot

import GuildBot.Bot.Act
import GuildBot.Flow.Waiting
import GuildBot.Rehearsal.ConcurrentErrands

/-!
# Errands that may be dropped

A bot with the stock listeners is given any number of errands, which have their turns in any order and
may be dropped at any time, over a platform that may do anything.
-/

namespace GuildBot.Rehearsal.DroppedErrands

open Platform

inductive Move where
  | start (e : Errand)
  /-- The errand of that number has a turn. -/
  | turn (number : Nat)
  /-- The time of the errand of that number is up. -/
  | drop (number : Nat)
  | pass (milliseconds : Nat)
  | setClock (clock : Clock) (t : Instant)
  /-- From now on the platform behaves otherwise. -/
  | connect (p : Behaviour)

def touch : Move → Bot → Bot
  | .setClock .hand t, b => { b with handClock := t }
  | .setClock .wall t, b => { b with wallClock := t }
  | .connect p, b => { b with platform := p }
  | _, b => b

def step (m : EventMachine) : Move → EventMachine
  | .start e => m.spawn (e.task m.hub.state.settings)
  | .turn number => m.pollTask Bot.respond number
  | .drop number => m.abandon number
  | .pass milliseconds => { m with hub := m.hub.arrive (m.hub.now + milliseconds) }
  | move => { m with hub := { m.hub with state := touch move m.hub.state } }

def after (b : Bot) (moves : List Move) : EventMachine := moves.foldl step (.ofState b)

end GuildBot.Rehearsal.DroppedErrands

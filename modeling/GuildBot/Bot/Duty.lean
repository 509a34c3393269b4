import GuildBot.Bot.Shift
import GuildBot.Flow.Turns

/-!
# The course of a shift

What happens in a shift, piece by piece: an event that is processed has a turn, the gateway forwards an
event or ends, the bot accepts an event, or is asked to shut down, and time passes. Nothing is assumed
about the order. Every list of moves is a possible course of the shift, and a shift that is run takes one
of these.
-/

namespace GuildBot

open Platform

/-- The events that a gateway has yet to forward. -/
def GatewayPhase.ahead : GatewayPhase → List RawEvent
  | .forwarding _ rest => rest.map Prod.snd
  | _ => []

/-- What the bot does in a shift: it listens, waits for the events that it has accepted to end, waits for
the gateway to end, and returns the result. -/
inductive Stage where
  | listening
  | draining
  | joining
  | done
  deriving DecidableEq

structure Duty where
  shift : Shift
  stage : Stage
  /-- The turns that events have had, each with the number of its event. -/
  turns : List (Nat × Turn Bot Lock) := []

namespace Duty

inductive Move where
  /-- The event of that number has a turn, if it was woken. -/
  | turn (number : Nat)
  | pass (milliseconds : Nat)
  /-- The gateway forwards its next event. -/
  | forward
  /-- The gateway, which has nothing more to forward, waits, or ends. -/
  | settle (phase : GatewayPhase)
  /-- The bot accepts the next event. -/
  | accept
  /-- The bot sees that the gateway has ended and nothing is left in the stream. -/
  | seeEnd
  /-- The bot sees that a shutdown is asked for. -/
  | seeShutdown
  /-- The bot sees that all events have ended. -/
  | seeDrained
  /-- The bot sees how the gateway ended. -/
  | join
  deriving DecidableEq

def start (bot : Bot) (spawned : List RawEvent) (script : GatewayScript)
    (shutdown : Option Shutdown) : Duty :=
  let machine : EventMachine := spawned.foldl Shift.accept (.ofState bot)
  let s : Shift := { machine, script, phase := .forwarding 0 script.events, shutdown }
  { shift := s.note .info "Listening for events ...", stage := .listening }

def step (d : Duty) : Move → Duty
  | .turn number =>
    let m := d.shift.machine
    if m.hub.woken.any (·.task = number) then
      { d with
        shift := { d.shift with machine := m.pollTask Bot.respond number }
        turns := d.turns ++ (m.turnOf? number).toList.map (number, ·) }
    else d
  | .pass milliseconds =>
    let hub := d.shift.machine.hub
    { d with shift := { d.shift with
        machine := { d.shift.machine with hub := hub.arrive (hub.now + milliseconds) } } }
  | .forward => match d.shift.phase with
    | .forwarding since ((delay, raw) :: rest) =>
      { d with shift := { d.shift with
          stream := d.shift.stream ++ [raw], phase := .forwarding (since + delay) rest } }
    | _ => d
  | .settle phase =>
    if d.shift.phase.ahead = [] ∧ phase.ahead = [] ∧ d.shift.phase ≠ .closed then
      { d with shift := { d.shift with phase } }
    else d
  | .accept => if d.stage = .listening then { d with shift := d.shift.take 1 } else d
  | .seeEnd =>
    if d.stage = .listening ∧ d.shift.stream = [] ∧ d.shift.phase = .closed then
      { d with shift := d.shift.closeDeserted, stage := .draining }
    else d
  | .seeShutdown =>
    if d.stage = .listening ∧ d.shift.isShutdown then
      { d with shift := d.shift.closeOnRequest, stage := .draining }
    else d
  | .seeDrained =>
    if d.stage = .draining ∧ d.shift.machine.inFlight = 0 then { d with stage := .joining } else d
  | .join =>
    if d.stage = .joining ∧ d.shift.phase = .closed then { d with stage := .done } else d

def after (d : Duty) (moves : List Move) : Duty := moves.foldl step d

def turnsOf (d : Duty) (number : Nat) : List (Turn Bot Lock) :=
  (d.turns.filter (·.1 = number)).map Prod.snd

/-- What the bot returns in the end: how the gateway ended. -/
def result? (d : Duty) : Option (Outcome Unit) :=
  if d.stage = .done then some d.shift.outcome else none

end Duty

/-- Whether a task is the processing of an event: it had those turns from the beginning of the event's
processing on, kept to the time limit, and is not forgotten as long as it has not ended. -/
structure Task.Processes (settings : Settings) (h : Hub Bot Lock) (number : Nat)
    (turns : List (Turn Bot Lock)) (raw : RawEvent)
    (t : Task Bot Lock Call.Answer (Option String) (List String)) : Prop where
  becomes :
    let failure := Failure.of (.timedOut (.ofSeconds settings.eventTimeout))
    Task.Becomes Bot.respond number
      { work := .ofPlan (Bot.process raw)
        limit := some (Bot.timeLimit settings)
        onTimeout := Bot.write .error s!"Failed to process event: {failure.message}" } turns t
  keepsTo : t.KeepsTo (Bot.timeLimit settings) turns
  watched : t.ending = none → h.Watches number t

end GuildBot

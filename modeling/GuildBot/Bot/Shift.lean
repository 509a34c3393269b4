import GuildBot.Bot.Process
/-!
# A shift

During a shift the gateway of the platform forwards events, and the bot accepts them and processes
each as a task of its own. The bot stops accepting when the gateway closes or a shutdown is asked
for. The shift is over when every event that was accepted has ended, one way or another, and the
gateway has too; how the gateway ended is the result.
-/

namespace GuildBot

open Platform

inductive GatewayEnding where
  | well
  | failed (f : Failure)
  | panicked
  deriving DecidableEq, Repr, Inhabited

/-- How a gateway behaves: it forwards events, stays open until the shutdown if it is to hold, and
ends. -/
structure GatewayScript where
  /-- The events, each with the milliseconds that it comes after the one before. -/
  events : List (Nat × RawEvent) := []
  hold : Bool := false
  ending : GatewayEnding := .well
  deriving Inhabited

inductive GatewayPhase where
  /-- It is to forward events, and forwarded the last one at a time. -/
  | forwarding (since : Nat) (rest : List (Nat × RawEvent))
  | holding
  | closing (time : Nat)
  | closed
  deriving DecidableEq, Inhabited

structure Shutdown where
  time : Nat
  /-- When events and a shutdown wait for the bot at the same time, it may see either first. So
  many of the events it accepts before it sees the shutdown. -/
  head : Nat := 0
  deriving DecidableEq, Repr, Inhabited

abbrev EventMachine : Type := Machine Bot Lock Call.Answer (Option String) (List String)

structure Shift where
  machine : EventMachine
  script : GatewayScript
  phase : GatewayPhase
  /-- Events that the gateway has forwarded and the bot has not accepted yet. -/
  stream : List RawEvent := []
  /-- The request to shut down, if ever there is one. -/
  shutdown : Option Shutdown
  listening : Bool := true

namespace Shift

def now (s : Shift) : Nat := s.machine.hub.now

def note (level : Log.Level) (message : String) (s : Shift) : Shift :=
  let hub := s.machine.hub
  { s with machine := { s.machine with hub := { hub with state := hub.state.write level message } } }

/-- An event as a task. When its time is up, the log says so. -/
def taskOf (settings : Settings) (raw : RawEvent) :
    Task Bot Lock Call.Answer (Option String) (List String) :=
  let failure := Failure.of (.timedOut (.ofSeconds settings.eventTimeout))
  { work := Bot.work raw
    limit := some (Bot.timeLimit settings)
    onTimeout := Bot.write .error s!"Failed to process event: {failure.message}" }

def accept (m : EventMachine) (raw : RawEvent) : EventMachine :=
  m.spawn (taskOf m.hub.state.settings raw)

def isShutdown (s : Shift) : Bool := s.shutdown.any (·.time ≤ s.now)

def take (n : Nat) (s : Shift) : Shift :=
  { s with machine := (s.stream.take n).foldl accept s.machine, stream := s.stream.drop n }

def close (level : Log.Level) (reason : String) (s : Shift) : Shift :=
  { s with listening := false }.note level reason
    |>.note .info s!"Waiting for {s.machine.inFlight} in-flight event(s) ..."

def closeDeserted (s : Shift) : Shift := s.close .warn "Gateway closed its event stream."

def closeOnRequest (s : Shift) : Shift :=
  s.close .info "Shutdown requested, no longer accepting events."

/-- Attends to the stream. Without a shutdown everything in it is accepted, and then its end is
seen. With one, only the head that the request grants is. -/
def attend (s : Shift) : Shift :=
  if !s.listening then s
  else match s.shutdown.filter (·.time ≤ s.now) with
    | some request =>
      if s.stream.length < request.head ∧ s.phase = .closed then
        (s.take request.head).closeDeserted
      else (s.take request.head).closeOnRequest
    | none =>
      let s := s.take s.stream.length
      if s.phase = .closed then s.closeDeserted else s

/-- What a gateway forwards by a time: the events, when it forwarded the last one, and what is
left. -/
def forwarded (now since : Nat) : List (Nat × RawEvent) → List RawEvent × Nat × List (Nat × RawEvent)
  | [] => ([], since, [])
  | (delay, raw) :: rest =>
    if since + delay ≤ now then
      let (raws, since, rest) := forwarded now (since + delay) rest
      (raw :: raws, since, rest)
    else ([], since, (delay, raw) :: rest)

def forward (s : Shift) : Shift :=
  let held : GatewayPhase := if s.isShutdown then .closing (s.now + 1) else .holding
  match s.phase with
  | .forwarding since rest =>
    let (raws, since, rest) := forwarded s.now since rest
    let phase := match rest with
      | [] => if s.script.hold then held else .closed
      | _ => .forwarding since rest
    { s with stream := s.stream ++ raws, phase }
  | .holding => { s with phase := held }
  | .closing time => if time ≤ s.now then { s with phase := .closed } else s
  | .closed => s

def start (bot : Bot) (accepted : List RawEvent) (script : GatewayScript)
    (shutdown : Option Shutdown) : Shift :=
  let machine : EventMachine := accepted.foldl accept (.ofState bot)
  let s : Shift := { machine, script, phase := .forwarding 0 script.events, shutdown }
  (s.note .info "Listening for events ...").attend

def isOver (s : Shift) : Bool :=
  !s.listening && s.machine.inFlight == 0 && s.phase == .closed

def nextTime? (s : Shift) : Option Nat :=
  let gateway := match s.phase with
    | .forwarding since ((delay, _) :: _) => [since + delay]
    | .closing time => [time]
    | _ => []
  let shutdown := (s.shutdown.toList.map Shutdown.time).filter (s.now < ·)
  ((s.machine.hub.timers.map Prod.fst) ++ gateway ++ shutdown).min?

/-- Runs a shift, by up to `n` steps: events have their turns first, then the gateway and the
stream; when nobody has anything to do, time passes. -/
def run : Nat → Shift → Shift
  | 0, s => s
  | n + 1, s =>
    match s.machine.turn? Bot.respond with
    | some machine => run n { s with machine }
    | none =>
      let s := s.forward.attend
      if !s.machine.hub.woken.isEmpty then run n s
      else if s.isOver then s
      else match s.nextTime? with
        | none => s
        | some time => run n { s with machine := { s.machine with hub := s.machine.hub.arrive time } }

def outcome (s : Shift) : Outcome Unit :=
  match s.script.ending with
  | .well => .ok ()
  | .failed f => .error f
  | .panicked => .error (.of (.other "the gateway panicked"))

end Shift

end GuildBot

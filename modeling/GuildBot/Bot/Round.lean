import GuildBot.Bot.Audience
import GuildBot.Bot.Exchange
import GuildBot.Flow.Scene
/-!
# Rounds of telling

Who is registered after a number of listeners asked for it, and what it is for the listeners of a bot to
be told of an event, while others act on the bot in any way: a round, in which each listener is called
once, and after which a message is flagged if calls of listeners have failed.
-/

namespace GuildBot

open Platform

/-- A listener that asks to be registered. -/
structure Registration where
  id : String
  listener : Listener
  clock : Clock
  deriving DecidableEq

def Registration.firsts : List Registration → List Registration
  | [] => []
  | r :: rs => r :: (firsts rs).filter (·.id ≠ r.id)

namespace Bot

def registerAll (b : Bot) (rs : List Registration) : Bot :=
  rs.foldl (fun b r => (b.register r.id r.listener r.clock).2) b

def entry (b : Bot) (r : Registration) : Entry := ⟨r.id, r.listener, r.clock, b.freshTracker⟩

def unlogged (b : Bot) : Bot := { b with log := [] }

end Bot

def Deed.isHeard : Deed → Bool
  | .heard _ _ => true
  | .call _ => false

/-- Which script of a listener tells what it does about an event. -/
def Event.script : Event → String
  | .message _ => "message"
  | .voice _ => "voice"

def Event.flagCalls (emoji : String) (failed : List String) : Event → List Call
  | .message m => if failed = [] then [] else [.addReaction m.channel.id m.id emoji]
  | .voice _ => []

/-- A stock listener without a method of its own for an event. -/
def Listener.passes : Listener → Event → Bool
  | .dice, .voice _ => true
  | .ping, .voice _ => true
  | .activity, .message _ => true
  | .idle, _ => true
  | _, _ => false

/-- Whether a listener's call has failed: it ended with an error, or in a panic. -/
def Progress.hasFailed {σ ℓ γ : Type} {answer : γ → Type} :
    Progress σ ℓ answer (Outcome Unit) → Bool
  | .waiting _ _ => false
  | .ended (some (.ok ())) => false
  | .ended _ => true

namespace Visit

/-- The scripted listeners that were told of something in a turn. -/
def heard (v : Visit Bot Lock) : List Deed :=
  (v.after.state.deeds.drop v.before.state.deeds.length).filter (·.isHeard)

def unlogged (v : Visit Bot Lock) : Visit Bot Lock :=
  { v with after := { v.after with state := v.after.state.unlogged } }

end Visit

namespace Audience

/-- The method of a stock listener that an event calls: the dice and the ping listener answer messages,
and the activity listener follows voice updates. -/
inductive Calls (settings : Settings) (e : Entry) : Event → Action (Outcome Unit) → Prop where
  | roll (m : Message) (hdice : e.listener = .dice) :
    Calls settings e (.message m) (Listener.answerRoll Directory.tools m)
  | ping (m : Message) (hping : e.listener = .ping) :
    Calls settings e (.message m) (Listener.answerPing Directory.tools m)
  | track (u : VoiceUpdate) (hactivity : e.listener = .activity) :
    Calls settings e (.voice u)
      (Activity.track Directory.tools (policy settings) (Bot.trackerPlace e.id e.clock) u)

def opening (event : Event) : Scene Bot Lock Call.Answer (Option String) (List String) :=
  { work := .ofPlan (announce event) }

section

variable (event : Event) (task : Nat) (start : Hub Bot Lock) (told : List (Visit Bot Lock))

/-- The call of a listener, as far as it has come. The number is its place in the registry. -/
def hearing (n : Nat) (e : Entry) : Progress Bot Lock Call.Answer (Outcome Unit) :=
  .turns Bot.respond ⟨task, some n⟩ (.start (hear start.state.settings e event))
    (hubsOf (.branch n) told)

def failures : List String :=
  start.state.registry.zipIdx.filterMap fun (e, n) =>
    if (hearing event task start told n e).hasFailed then some e.id else none

end

/-- A round: listeners are told of an event whose registry was looked up in the hub `start`; `told` are
the turns of their calls, and `closed` those of what is done when all of them have ended. -/
structure Round (event : Event) (task : Nat) (start : Hub Bot Lock) (told closed : List (Visit Bot Lock))
    (s : Scene Bot Lock Call.Answer (Option String) (List String)) : Prop where
  visits : s.visits = ⟨.lead, start, start⟩ :: told ++ closed
  /-- Nobody is told who was not registered at the start. -/
  told_part : ∀ v ∈ told, ∃ n < start.state.registry.length, v.part = .branch n
  closed_part : ∀ v ∈ closed, v.part = .close
  /-- Whoever was registered is called once: the turns are those of a single call, but for the log. -/
  called : ∀ n e, start.state.registry[n]? = some e →
    (turnsOf (.branch n) told).map (·.unlogged) =
      (Progress.visited Bot.respond ⟨task, some n⟩ (.branch n)
        (.start (hear start.state.settings e event)) (hubsOf (.branch n) told)).map (·.unlogged)
  /-- A scripted listener has heard of the event once from its first turn on. -/
  heard : ∀ n e message voice, start.state.registry[n]? = some e →
    e.listener = .scripted message voice → turnsOf (.branch n) told ≠ [] →
      (turnsOf (.branch n) told).flatMap (·.heard) = [.heard e.id event.script]
  /-- A stock listener runs its method for the event, once. -/
  stock : ∀ n e method, start.state.registry[n]? = some e →
    Calls start.state.settings e event method →
    (turnsOf (.branch n) told).map (·.unlogged) =
      (Progress.visited Bot.respond ⟨task, some n⟩ (.branch n) (.start method)
        (hubsOf (.branch n) told)).map (·.unlogged)
  /-- A listener without a method for the event leaves all as it was. -/
  passed : ∀ n e, start.state.registry[n]? = some e → e.listener.passes event = true →
    ∀ v ∈ turnsOf (.branch n) told, v.after.state.unlogged = v.before.state.unlogged
  /-- Nothing is closed before all calls have ended. -/
  closed_last : closed ≠ [] → ∀ n e, start.state.registry[n]? = some e →
    ∃ result, hearing event task start told n e = .ended result
  /-- The closing program makes the calls that flag the event in its first turn, and no others. -/
  flagged : ∀ v rest, closed = v :: rest →
    v.after.state.unlogged = (v.before.state.askedAll
        (event.flagCalls v.before.state.settings.failureEmoji
          (failures event task start told))).unlogged ∧
      ∀ w ∈ rest, w.after.state.unlogged = w.before.state.unlogged
  /-- What is returned are the ids of those who failed, unless the client broke down when the event was
  to be flagged. -/
  returned : ∀ result, s.work.ending? = some result →
    ∃ v rest, closed = v :: rest ∧
      (result = some (failures event task start told) ∨
        result = none ∧ ∃ c ∈ event.flagCalls v.before.state.settings.failureEmoji
          (failures event task start told), v.before.state.answer c = none)

end Audience

end GuildBot

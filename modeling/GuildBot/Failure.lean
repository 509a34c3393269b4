import GuildBot.Time
namespace GuildBot

inductive Cause where
  | duplicateListener (id : String)
  | noLogChannel (guildId name : String)
  | invalidId (id : String)
  | timedOut (limit : Duration)
  /-- A cause known by its text only. -/
  | other (text : String)
  deriving DecidableEq, Repr, Inhabited

/-- A cause and what was being done when it arose, outermost first. -/
structure Failure where
  contexts : List String
  cause : Cause
  deriving DecidableEq, Repr, Inhabited

def Cause.message : Cause → String
  | .duplicateListener id => s!"listener id `{id}` already in use"
  | .noLogChannel guildId name => s!"no activity log channel named `{name}` in guild `{guildId}`"
  | .invalidId id => s!"invalid platform id `{id}`"
  | .timedOut limit => s!"event processing timed out after {limit.text}"
  | .other text => text

namespace Failure

def of (cause : Cause) : Failure := ⟨[], cause⟩

/-- The failure as seen by whoever was doing `context`. -/
def inContext (context : String) (f : Failure) : Failure := { f with contexts := context :: f.contexts }

/-- The contexts and the cause, outermost first. -/
def message (f : Failure) : String := ": ".intercalate (f.contexts ++ [f.cause.message])

@[simp] theorem cause_inContext (context : String) (f : Failure) :
    (f.inContext context).cause = f.cause := rfl

end Failure

abbrev Outcome (α : Type) := Except Failure α

def Outcome.inContext {α : Type} (context : String) : Outcome α → Outcome α
  | .ok a => .ok a
  | .error f => .error (f.inContext context)

end GuildBot

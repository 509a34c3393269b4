import GuildBot.Listener.Tools
/-!
# Replying to a message

A reply goes to the channel of the message it answers. Sending it is what matters; a reaction that
goes with it is left out if it fails.
-/

namespace GuildBot.Listener

variable {σ ℓ γ : Type} {answer : γ → Type}

def react (tools : Tools σ ℓ answer) (m : Message) (emoji : String) :
    Program σ ℓ answer (Outcome Unit) :=
  tools.react m.channel.id m.id emoji

/-- Answers a message, and then reacts to it if an emoji is given. -/
def respond (tools : Tools σ ℓ answer) (m : Message) (emoji : Option String) (text : String) :
    Program σ ℓ answer (Outcome Unit) := do
  match ← tools.send m.channel.id text with
  | .error f => return .error (f.inContext "replying to message")
  | .ok () =>
    match emoji with
    | none => return .ok ()
    | some emoji =>
      match ← react tools m emoji with
      | .ok () => return .ok ()
      | .error f =>
        tools.note .error s!"Error reacting to message: {f.message}"
        return .ok ()

/-- Answers a message that asks for something impossible, with the reason in the log. -/
def refuse (tools : Tools σ ℓ answer) (m : Message) (reason : Failure) (emoji text : String) :
    Program σ ℓ answer (Outcome Unit) := do
  tools.note .error s!"{text}: {reason.message}"
  respond tools m (some emoji) text

end GuildBot.Listener

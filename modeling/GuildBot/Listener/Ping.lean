import GuildBot.Listener.Reply
namespace GuildBot.Listener

variable {σ ℓ γ : Type} {answer : γ → Type}

def pingCommand : String := "!ping"

def pingEmoji : String := "👍"

def answerPing (tools : Tools σ ℓ answer) (m : Message) : Program σ ℓ answer (Outcome Unit) :=
  if m.content = pingCommand then react tools m pingEmoji else return .ok ()

end GuildBot.Listener

import GuildBot.Dice.Reply
import GuildBot.Dice.Roll
import GuildBot.Listener.Reply
namespace GuildBot.Listener

open GuildBot.Dice

variable {σ ℓ γ : Type} {answer : γ → Type}

def annoyed : String := "😒"

def sad : String := "😢"

/-- The words for dice, sides and offsets beyond the limits. -/
def tooManyDiceText : String := s!"but I only have {maxDice} dice... 😰"

def tooManySidesText : String := s!"but I only have dice with up to {maxSides} sides... 😰"

def offsetTooGreatText : String := s!"but I can only count up to ±{maxOffset}... 😰"

def carryOut (tools : Tools σ ℓ answer) (m : Message) (request : String) :
    Verdict → Program σ ℓ answer (Outcome Unit)
  | .malformed =>
    refuse tools m (.of (.other s!"no roll in `{request}`")) annoyed "malformed command"
  | .tooManyDice => respond tools m (some sad) tooManyDiceText
  | .noDice => react tools m annoyed
  | .tooManySides => respond tools m (some sad) tooManySidesText
  | .noSides => react tools m annoyed
  | .offsetTooGreat => respond tools m (some sad) offsetTooGreatText
  | .accepted roll => do
    tools.note .info
      s!"Rolling dice: Roll \x7b dice: {roll.dice}, sides: {roll.sides}, offset: {roll.offset} \x7d"
    let rolls ← tools.roll roll.dice roll.sides
    respond tools m none (describe m.author.id rolls roll.offset)

def answerRoll (tools : Tools σ ℓ answer) (m : Message) : Program σ ℓ answer (Outcome Unit) :=
  match request? m.content with
  | none => return .ok ()
  | some request => carryOut tools m request (judge request)

end GuildBot.Listener

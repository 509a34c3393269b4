import GuildBot.Text.Digit
import GuildBot.Text.Integer
import GuildBot.Text.Space
/-!
# Roll requests

`!roll 2d6+1` asks for two dice with six sides and one more. `request?` finds the request in a
message, `Pattern.find?` the first roll in a request, and `judge` decides what becomes of it.
-/

namespace GuildBot.Dice

/-- Dice to roll, sides of each, and what to add to their sum. -/
structure Roll where
  dice : Nat
  sides : Nat
  offset : Int
  deriving DecidableEq, Repr, Inhabited

/-- The command that a request follows. -/
def command : String := "!roll"

/-- The message without the spaces around it. Only `U+0020` counts as a space here. -/
def stripSpaces (cs : List Char) : List Char :=
  ((cs.dropWhile (· == ' ')).reverse.dropWhile (· == ' ')).reverse

def request? (content : String) : Option String :=
  let cs := stripSpaces content.toList
  match cs.dropWhile (· != ' ') with
  | _ :: rest => if cs.takeWhile (· != ' ') = command.toList then some (String.ofList rest) else none
  | [] => none

/-- The parts of a roll as they are written. -/
structure Pattern where
  dice : List Char
  sides : List Char
  /-- A sign and the digits after it. -/
  offset : Option (List Char)
  deriving DecidableEq, Repr

def digitRun (cs : List Char) : List Char × List Char :=
  (cs.takeWhile Text.isDigit, cs.dropWhile Text.isDigit)

def skipSpace (cs : List Char) : List Char := cs.dropWhile Text.isSpace

/-- A sign with digits after it, at the very start. -/
def signedRun? : List Char → Option (List Char)
  | [] => none
  | sign :: rest =>
    if (sign = '+' ∨ sign = '-') ∧ (digitRun rest).1 ≠ [] then some (sign :: (digitRun rest).1)
    else none

/-- The roll written at the very start: digits, `d`, digits and perhaps an offset, with white
space between them. -/
def Pattern.at? (cs : List Char) : Option Pattern :=
  let (dice, rest) := digitRun cs
  match skipSpace rest with
  | 'd' :: rest =>
    let (sides, rest) := digitRun (skipSpace rest)
    if dice = [] ∨ sides = [] then none
    else some ⟨dice, sides, signedRun? (skipSpace rest)⟩
  | _ => none

def Pattern.find? : List Char → Option Pattern
  | [] => none
  | c :: rest => (Pattern.at? (c :: rest)).or (Pattern.find? rest)

def maxDice : Nat := 30

def maxSides : Nat := 100

def maxOffset : Nat := 10000

/-- The number that digits write. What 32 bits do not hold, and what is not in ASCII digits,
counts as the greatest number that they do. -/
def count (digits : List Char) : Nat :=
  ((Text.digits? digits).filter (· ≤ Text.max32)).getD Text.max32

/-- The offset that a sign and digits write, within the limit. -/
def offset? (cs : List Char) : Option Int := Text.signed? (-maxOffset) maxOffset (String.ofList cs)

/-- What becomes of a request. -/
inductive Verdict where
  | malformed
  | tooManyDice
  | noDice
  | tooManySides
  | noSides
  | offsetTooGreat
  | accepted (roll : Roll)
  deriving DecidableEq, Repr

/-- The first objection to a roll, or the roll itself. -/
def Pattern.judge (p : Pattern) : Verdict :=
  let dice := count p.dice
  let sides := count p.sides
  if maxDice < dice then .tooManyDice
  else if dice < 1 then .noDice
  else if maxSides < sides then .tooManySides
  else if sides < 1 then .noSides
  else match p.offset with
    | none => .accepted ⟨dice, sides, 0⟩
    | some cs => match offset? cs with
      | some offset => .accepted ⟨dice, sides, offset⟩
      | none => .offsetTooGreat

def judge (request : String) : Verdict :=
  match Pattern.find? request.toList with
  | some p => p.judge
  | none => .malformed

example : judge "2d6 +1" = .accepted ⟨2, 6, 1⟩ := by decide +kernel
example : judge "x3d 8-" = .accepted ⟨3, 8, 0⟩ := by decide +kernel

end GuildBot.Dice

import GuildBot.Dice.Reply
import GuildBot.Dice.Roll
/-!
# How a roll is written

What a request is, said without scanning: the message between its spaces, the place where a roll
is written in a request, and the numbers that are written there, however long they are. Digits are
those of ASCII. At the end stands what dice can show.
-/

namespace GuildBot.Dice

/-- The text is `inner` with nothing but spaces around it, and `inner` has none at its ends. -/
structure Trims (cs inner : List Char) : Prop where
  around : ∃ left right, cs = List.replicate left ' ' ++ inner ++ List.replicate right ' '
  start : inner.head? ≠ some ' '
  stop : inner.getLast? ≠ some ' '

/-- Between the spaces around it, the message is the command, one space and the request. -/
def Requests (content request : String) : Prop :=
  Trims content.toList (command.toList ++ ' ' :: request.toList)

/-- The text has no decimal digits of other scripts. -/
def HasAsciiDigits (cs : List Char) : Prop := ∀ c ∈ cs, Text.isDigit c = true → c.isDigit = true

/-- A run of digits between two texts, as long as it can be. -/
structure IsRun (before run after : List Char) : Prop where
  nonempty : run ≠ []
  digits : ∀ c ∈ run, c.isDigit = true
  start : ∀ c ∈ before.getLast?, c.isDigit = false
  stop : ∀ c ∈ after.head?, c.isDigit = false

def IsGap (cs : List Char) : Prop := ∀ c ∈ cs, Text.isSpace c = true

/-- A text taken apart around a roll. -/
structure Writing where
  before : List Char
  dice : List Char
  /-- What stands between the dice and the `d`. -/
  gap : List Char
  /-- What stands between the `d` and the sides. -/
  space : List Char
  sides : List Char
  rest : List Char

namespace Writing

def afterDice (w : Writing) : List Char := w.gap ++ 'd' :: (w.space ++ (w.sides ++ w.rest))

/-- The text reads so: a run of digits, `d` and a run of digits, with white space between them. -/
structure IsIn (w : Writing) (cs : List Char) : Prop where
  text : cs = w.before ++ (w.dice ++ w.afterDice)
  dice : IsRun w.before w.dice w.afterDice
  gap : IsGap w.gap
  space : IsGap w.space
  sides : IsRun ('d' :: w.space) w.sides w.rest

/-- The text reads so, and no roll is written further to the left. -/
structure IsFirst (w : Writing) (cs : List Char) : Prop where
  isIn : w.IsIn cs
  least : ∀ v : Writing, v.IsIn cs → w.before.length ≤ v.before.length

/-- Behind the sides and any white space stand a sign and a run of digits. -/
def Adds (w : Writing) (sign : Char) (digits : List Char) : Prop :=
  ∃ gap after, IsGap gap ∧ w.rest = gap ++ sign :: (digits ++ after) ∧ IsRun [sign] digits after

end Writing

/-- The number that digits write. -/
def number (digits : List Char) : Nat :=
  digits.foldl (fun n c => 10 * n + (c.toNat - '0'.toNat)) 0

/-- What a written roll adds: the number behind its sides with its sign, or nothing. -/
inductive Writing.Offset (w : Writing) : Int → Prop
  | plus {digits : List Char} (h : w.Adds '+' digits) : w.Offset (number digits)
  | minus {digits : List Char} (h : w.Adds '-' digits) : w.Offset (-number digits)
  | nothing (h : ∀ digits, ¬ w.Adds '+' digits ∧ ¬ w.Adds '-' digits) : w.Offset 0

/-- What becomes of a roll with these numbers. -/
def assess (dice sides : Nat) (offset : Int) : Verdict :=
  if 30 < dice then .tooManyDice
  else if dice = 0 then .noDice
  else if 100 < sides then .tooManySides
  else if sides = 0 then .noSides
  else if -10000 ≤ offset ∧ offset ≤ 10000 then .accepted ⟨dice, sides, offset⟩
  else .offsetTooGreat

/-- What becomes of a request, by the first roll that is written in it. -/
inductive Decides (request : List Char) : Verdict → Prop
  | malformed (h : ∀ w : Writing, ¬ w.IsIn request) : Decides request .malformed
  | roll {w : Writing} {offset : Int} (hw : w.IsFirst request) (hoffset : w.Offset offset) :
    Decides request (assess (number w.dice) (number w.sides) offset)

/-- The dice of the roll can show these faces. Their sum leaves room for the offset. -/
structure Roll.Shows (r : Roll) (faces : List Nat) : Prop where
  length : faces.length = r.dice
  bounds : ∀ n ∈ faces, 1 ≤ n ∧ n ≤ r.sides
  least : (r.dice : Int) ≤ total faces
  greatest : total faces ≤ (r.dice * r.sides : Nat)
  exact : clamp (total faces + r.offset) = total faces + r.offset

end GuildBot.Dice

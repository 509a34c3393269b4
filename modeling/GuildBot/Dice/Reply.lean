import GuildBot.Text.Integer
/-!
# The reply to a roll

`describe` tells an author what was rolled, and `read?` takes such a text apart again. `redact`
hides the numbers in it that chance decides.
-/

namespace GuildBot.Dice

/-- Items with commas between them, and `and` before the last. -/
def listing : List String → String
  | [] => ""
  | [a] => a
  | [a, b] => a ++ " and " ++ b
  | a :: rest => a ++ ", " ++ listing rest

def withSign (n : Int) : String := if n < 0 then toString n else "+" ++ toString n

def clamp (n : Int) : Int := max Text.minSigned64 (min Text.maxSigned64 n)

def total (rolls : List Nat) : Int := Int.ofNat (rolls.foldr (· + ·) 0)

/-- The reply with its numbers given as texts: the rolls, their sum, and the sum with the
offset. The first sum is told of two or more rolls, the second with an offset. -/
def phrase (authorId : String) (rolls : List String) (sum : String) (offset : Int) (newSum : String) :
    String :=
  "<@" ++ authorId ++ "> rolled " ++ listing rolls ++
    (if 1 < rolls.length then " for a total of " ++ sum else "") ++
    (if offset ≠ 0 then ", with " ++ withSign offset ++ " the total becomes " ++ newSum else "")

def describe (authorId : String) (rolls : List Nat) (offset : Int) : String :=
  phrase authorId (rolls.map toString) (toString (total rolls)) offset
    (toString (clamp (total rolls + offset)))

def after? (mark : String) (cs : List Char) : Option (List Char) :=
  if mark.toList.isPrefixOf cs then some (cs.drop mark.toList.length) else none

def number? (cs : List Char) : Option (Nat × List Char) :=
  (Text.digits? (cs.takeWhile Char.isDigit)).map fun n => (n, cs.dropWhile Char.isDigit)

/-- Rolls with commas and `and` between them, and what follows. A comma belongs to the list only
if a number comes after it. -/
def readRolls : Nat → List Char → Option (List Nat × List Char)
  | 0, _ => none
  | fuel + 1, cs => do
    let (n, rest) ← number? cs
    match (after? ", " rest).filter (fun cs => (number? cs).isSome), after? " and " rest with
    | some more, _ =>
      let (ns, rest) ← readRolls fuel more
      some (n :: ns, rest)
    | none, some more =>
      let (last, rest) ← number? more
      some ([n, last], rest)
    | none, none => some ([n], rest)

def readOffset (cs : List Char) : Int :=
  let rest := match (after? " for a total of " cs).bind number? with
    | some (_, rest) => rest
    | none => cs
  match after? ", with " rest with
  | some ('+' :: rest) => ((number? rest).map fun p => (p.1 : Int)).getD 0
  | some ('-' :: rest) => ((number? rest).map fun p => -(p.1 : Int)).getD 0
  | _ => 0

/-- The rolls and the offset that a reply to an author tells of, if `describe` wrote it. -/
def read? (authorId text : String) : Option (List Nat × Int) := do
  let body ← after? ("<@" ++ authorId ++ "> rolled ") text.toList
  let (rolls, rest) := (readRolls (body.length + 1) body).getD ([], body)
  let offset := readOffset rest
  if describe authorId rolls offset = text then some (rolls, offset) else none

/-- The author whom a reply addresses. The mark behind the id is the last one, since no number and
no word after it repeats it. -/
def addressee? (text : String) : Option String := do
  let rest ← after? "<@" text.toList
  let mark := "> rolled ".toList
  let n ← (List.range rest.length).reverse.find? fun n => mark.isPrefixOf (rest.drop n)
  some (String.ofList (rest.take n))

/-- Puts `#` for each number that chance decides, in the reply to a roll of dice with that many
sides. Any other text stays as it is. -/
def redact (sides : Nat) (text : String) : String :=
  match (addressee? text).bind fun author => (read? author text).map (author, ·) with
  | some (author, rolls, offset) =>
    if rolls ≠ [] ∧ rolls.all (fun n => 1 ≤ n && n ≤ sides) then
      phrase author (rolls.map fun _ => "#") "#" offset "#"
    else text
  | none => text

example : describe "42" [1, 5, 6] 2 =
    "<@42> rolled 1, 5 and 6 for a total of 12, with +2 the total becomes 14" := by decide +kernel
example : redact 6 "<@42> rolled 1, 5 and 6 for a total of 12, with +2 the total becomes 14" =
    "<@42> rolled #, # and # for a total of #, with +2 the total becomes #" := by decide +kernel

end GuildBot.Dice

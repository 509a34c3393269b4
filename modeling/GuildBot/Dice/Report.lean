import GuildBot.Dice.Reply
namespace GuildBot.Dice

/-- The numbers that a reply tells of. Of the rolls it tells each, of the others perhaps none. -/
structure Report where
  rolls : List Nat
  sum : Option Nat
  offset : Option Int
  newSum : Option Int
  deriving DecidableEq, Repr

def integer? : List Char → Option (Int × List Char)
  | '+' :: rest => (number? rest).map fun p => ((p.1 : Int), p.2)
  | '-' :: rest => (number? rest).map fun p => (-(p.1 : Int), p.2)
  | cs => (number? cs).map fun p => ((p.1 : Int), p.2)

/-- What is read behind a mark, if the mark stands at the front, and what follows. -/
def behind {α : Type} (mark : String) (read : List Char → Option (α × List Char)) (cs : List Char) :
    Option α × List Char :=
  match (after? mark cs).bind read with
  | some (a, rest) => (some a, rest)
  | none => (none, cs)

/-- The numbers of a reply to an author, with no text left over. -/
def Report.read? (authorId text : String) : Option Report := do
  let body ← after? ("<@" ++ authorId ++ "> rolled ") text.toList
  let (rolls, rest) := (readRolls (body.length + 1) body).getD ([], body)
  let (sum, rest) := behind " for a total of " number? rest
  let (offset, rest) := behind ", with " integer? rest
  let (newSum, rest) := behind " the total becomes " integer? rest
  if rest = [] then some ⟨rolls, sum, offset, newSum⟩ else none

/-- The sum of rolls on top of what stands before them, made from the left in 64 bits with a sign, if it
never overflows. -/
def sumFrom? (sum : Int) : List Nat → Option Int
  | [] => some sum
  | n :: rest => if sum + n ≤ Text.maxSigned64 then sumFrom? (sum + n) rest else none

example : Report.read? "42" "<@42> rolled 1, 5 and 6 for a total of 12, with -2 the total becomes 10" =
    some ⟨[1, 5, 6], some 12, some (-2), some 10⟩ := by decide +kernel

end GuildBot.Dice

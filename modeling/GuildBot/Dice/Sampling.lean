/-!
# Sampling dice

A die is drawn from a stream of random 32-bit words. The first word, scaled to the number of
sides, gives the face; a second one is drawn only if it can still decide between two faces.
-/

namespace GuildBot.Dice

def wordRange : Nat := 4294967296

/-- Whether the first word leaves the face open. -/
def needsSecond (sides x : Nat) : Bool := wordRange - sides < x * sides % wordRange

/-- The face that the first word and, where it is drawn, the second one give. -/
def face (sides x y : Nat) : Nat :=
  let carry := needsSecond sides x && wordRange ≤ x * sides % wordRange + y * sides / wordRange
  1 + x * sides / wordRange + carry.toNat

/-- The word at the start of a stream, and the stream after it. Zeros follow the given words. -/
def nextWord : List Nat → Nat × List Nat
  | [] => (0, [])
  | x :: rest => (x, rest)

/-- Rolls one die: the face, the number of words drawn and the words after them. -/
def rollDie (sides : Nat) (words : List Nat) : Nat × Nat × List Nat :=
  let (x, rest) := nextWord words
  if needsSecond sides x then
    let (y, rest) := nextWord rest
    (face sides x y, 2, rest)
  else (face sides x 0, 1, rest)

/-- Rolls dice one after another: the faces, the number of words drawn and the words after
them. -/
def rollAll (sides : Nat) : Nat → List Nat → List Nat × Nat × List Nat
  | 0, words => ([], 0, words)
  | dice + 1, words =>
    let (face, drawn, rest) := rollDie sides words
    let (faces, more, rest) := rollAll sides dice rest
    (face :: faces, drawn + more, rest)

def roll? (dice sides : Nat) (words : List Nat) : Option (List Nat × Nat × List Nat) :=
  if sides = 0 ∧ dice ≠ 0 then none else some (rollAll sides dice words)

end GuildBot.Dice

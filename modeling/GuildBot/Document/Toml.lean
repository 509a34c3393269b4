import GuildBot.Document.Toml.Draft
import GuildBot.Document.Toml.Scalar
/-!
# TOML documents

Statements of a TOML file, line by line: settings `name = value`, table headers and comments.
`ofToml?` reads a whole file and answers nothing for one that is malformed. Dates are not read.
-/

namespace GuildBot.Document.Toml

def lineRest? (cs : Input) : Option Input :=
  match skipBlanks cs with
  | '#' :: rest =>
    let after := rest.dropWhile fun c => !isControl c
    if after.isEmpty then some [] else lineEnd? after
  | [] => some []
  | rest => lineEnd? rest

/-- Skips blanks, line ends and comments, as they may stand between the items of a list. -/
def skipLines : Nat → Input → Input
  | 0, cs => cs
  | fuel + 1, cs =>
    match skipBlanks cs with
    | [] => []
    | rest =>
      match lineRest? rest with
      | some after => skipLines fuel after
      | none => rest

def namePart? (cs : Input) : Option (String × Input) :=
  let bare (c : Char) : Bool := c.isAlphanum || c == '_' || c == '-'
  match cs with
  | '\x22' :: rest => (quotedBody rest).map fun (xs, rest) => (String.ofList xs, rest)
  | '\x27' :: rest => (literalBody rest).map fun (xs, rest) => (String.ofList xs, rest)
  | _ =>
    if (cs.takeWhile bare).isEmpty then none
    else some (String.ofList (cs.takeWhile bare), cs.dropWhile bare)

def name? : Nat → Input → Option (Path × Input)
  | 0, _ => none
  | fuel + 1, cs => do
    let (part, rest) ← namePart? (skipBlanks cs)
    match skipBlanks rest with
    | '.' :: rest =>
      let (parts, rest) ← name? fuel rest
      some (part :: parts, rest)
    | rest => some ([part], rest)

mutual

def value? : Nat → Input → Option (Document × Input)
  | 0, _ => none
  | fuel + 1, cs =>
    match cs with
    | '[' :: rest => (items? fuel (skipLines fuel rest)).map fun (xs, rest) => (.list xs, rest)
    | '{' :: rest =>
      match skipBlanks rest with
      | '}' :: rest => some (.record [], rest)
      | rest => (pairs? fuel {} rest).map fun (d, rest) => (d, rest)
    | '\x22' :: _ => (text? cs).map fun (s, rest) => (.text s, rest)
    | '\x27' :: _ => (text? cs).map fun (s, rest) => (.text s, rest)
    | cs => word? cs

/-- The items of a list and its end. A comma may follow the last item. -/
def items? : Nat → Input → Option (List Document × Input)
  | 0, _ => none
  | fuel + 1, cs =>
    match cs with
    | ']' :: rest => some ([], rest)
    | cs => do
      let (x, rest) ← value? fuel cs
      match skipLines fuel rest with
      | ']' :: rest => some ([x], rest)
      | ',' :: rest =>
        let (xs, rest) ← items? fuel (skipLines fuel rest)
        some (x :: xs, rest)
      | _ => none

def pairs? : Nat → Draft → Input → Option (Document × Input)
  | 0, _, _ => none
  | fuel + 1, draft, cs => do
    let (name, value, rest) ← setting? fuel cs
    let draft ← draft.set? name value
    match skipBlanks rest with
    | '}' :: rest => some (draft.root, rest)
    | ',' :: rest => pairs? fuel draft rest
    | _ => none

def setting? : Nat → Input → Option (Path × Document × Input)
  | 0, _ => none
  | fuel + 1, cs => do
    let (name, rest) ← name? fuel cs
    let '=' :: rest := rest | none
    let (value, rest) ← value? fuel (skipBlanks rest)
    some (name, value, rest)

end

/-- Reads one statement that is not blank into the draft. -/
def statement? (fuel : Nat) (draft : Draft) : Input → Option (Draft × Input)
  | '[' :: '[' :: cs => do
    let (path, rest) ← name? fuel cs
    let ']' :: ']' :: rest := rest | none
    let draft ← draft.openItem? path
    some (draft, rest)
  | '[' :: cs => do
    let (path, rest) ← name? fuel cs
    let ']' :: rest := rest | none
    let draft ← draft.openTable? path
    some (draft, rest)
  | cs => do
    let (name, value, rest) ← setting? fuel cs
    let draft ← draft.set? name value
    some (draft, rest)

/-- Reads statements to the end of the file. Each takes a character at least, so the length of the
file bounds their number. -/
def statements? : Nat → Draft → Input → Option Draft
  | 0, _, _ => none
  | fuel + 1, draft, cs =>
    match skipLines (fuel + 1) cs with
    | [] => some draft
    | cs => do
      let (draft, rest) ← statement? (fuel + 1) draft cs
      let rest ← lineRest? rest
      statements? fuel draft rest

end Toml

/-- The document that a TOML file holds. A byte order mark may stand in front. -/
def ofToml? (file : String) : Option Document :=
  let cs := match file.toList with
    | '\ufeff' :: rest => rest
    | cs => cs
  (Toml.statements? (2 * cs.length + 8) {} cs).map (·.root)

end GuildBot.Document

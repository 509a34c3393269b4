import GuildBot.Document
import GuildBot.Text.Integer
/-!
# TOML scalars

Texts, whole numbers, fractions and truth values as a TOML file writes them. Each reader takes the
characters that are left and answers with what it read and what is left after it, or not at all.
-/

namespace GuildBot.Document.Toml

open GuildBot.Decimal

abbrev Input := List Char

/-- Characters that may not stand in a file outside of line ends; the tab may. -/
def isControl (c : Char) : Bool := (c.toNat < 0x20 && c != '\t') || c == '\x7f'

def isBlankChar (c : Char) : Bool := c == ' ' || c == '\t'

def skipBlanks (cs : Input) : Input := cs.dropWhile isBlankChar

def lineEnd? : Input → Option Input
  | '\n' :: rest => some rest
  | '\r' :: '\n' :: rest => some rest
  | _ => none

def digit? (base : Nat) (c : Char) : Option Nat :=
  let n :=
    if '0' ≤ c ∧ c ≤ '9' then some (c.toNat - '0'.toNat)
    else if 'a' ≤ c ∧ c ≤ 'f' then some (c.toNat - 'a'.toNat + 10)
    else if 'A' ≤ c ∧ c ≤ 'F' then some (c.toNat - 'A'.toNat + 10)
    else none
  n.filter (· < base)

def digits? (base : Nat) (cs : List Char) : Option Nat :=
  if cs.isEmpty then none
  else cs.foldlM (fun acc c => (digit? base c).map (acc * base + ·)) 0

/-- The character with a code point written in hexadecimal, if there is one. -/
def codePoint? (cs : List Char) : Option Char := do
  let n ← digits? 16 cs
  if h : n.isValidChar then some (Char.ofNatAux n h) else none

/-- The character that a one-letter escape stands for. -/
def escape? : Char → Option Char
  | 'b' => some '\x08'
  | 't' => some '\t'
  | 'n' => some '\n'
  | 'f' => some '\x0c'
  | 'r' => some '\r'
  | '\x22' => some '\x22'
  | '\\' => some '\\'
  | _ => none

/-- The rest of a quoted text on one line, after its opening quote. -/
def quotedBody : Input → Option (List Char × Input)
  | [] => none
  | '\x22' :: rest => some ([], rest)
  | '\\' :: 'u' :: a :: b :: c :: d :: rest => do
    let x ← codePoint? [a, b, c, d]
    let (xs, rest) ← quotedBody rest
    some (x :: xs, rest)
  | '\\' :: 'U' :: a :: b :: c :: d :: e :: f :: g :: h :: rest => do
    let x ← codePoint? [a, b, c, d, e, f, g, h]
    let (xs, rest) ← quotedBody rest
    some (x :: xs, rest)
  | '\\' :: c :: rest => do
    let x ← escape? c
    let (xs, rest) ← quotedBody rest
    some (x :: xs, rest)
  | c :: rest =>
    if isControl c then none
    else (quotedBody rest).map fun (xs, rest) => (c :: xs, rest)

def literalBody : Input → Option (List Char × Input)
  | [] => none
  | c :: rest =>
    if c = '\x27' then some ([], rest)
    else if isControl c then none
    else (literalBody rest).map fun (xs, rest) => (c :: xs, rest)

/-- Where a reader of a text over several lines stands: in the text, after a backslash that has to
end its line, or in the blank that such a backslash takes with it. -/
inductive LinePlace where
  | text
  | mustEnd
  | skipping

/-- The rest of a quoted text over several lines. It ends with three quotes; up to two more before
them belong to the text. -/
def quotedLines : LinePlace → Input → Option (List Char × Input)
  | _, [] => none
  | .mustEnd, c :: rest =>
    if isBlankChar c then quotedLines .mustEnd rest
    else if c = '\n' then quotedLines .skipping rest
    else if c = '\r' ∧ rest.head? = some '\n' then quotedLines .mustEnd rest
    else none
  | .skipping, c :: rest =>
    if isBlankChar c ∨ c = '\n' then quotedLines .skipping rest
    else if c = '\r' ∧ rest.head? = some '\n' then quotedLines .skipping rest
    else quotedLines .text (c :: rest)
  | .text, '\x22' :: '\x22' :: '\x22' :: '\x22' :: '\x22' :: rest =>
    some (['\x22', '\x22'], rest)
  | .text, '\x22' :: '\x22' :: '\x22' :: '\x22' :: rest => some (['\x22'], rest)
  | .text, '\x22' :: '\x22' :: '\x22' :: rest => some ([], rest)
  | .text, '\\' :: 'u' :: a :: b :: c :: d :: rest => do
    let x ← codePoint? [a, b, c, d]
    let (xs, rest) ← quotedLines .text rest
    some (x :: xs, rest)
  | .text, '\\' :: 'U' :: a :: b :: c :: d :: e :: f :: g :: h :: rest => do
    let x ← codePoint? [a, b, c, d, e, f, g, h]
    let (xs, rest) ← quotedLines .text rest
    some (x :: xs, rest)
  | .text, '\\' :: c :: rest =>
    match escape? c with
    | some x => (quotedLines .text rest).map fun (xs, rest) => (x :: xs, rest)
    | none => quotedLines .mustEnd (c :: rest)
  | .text, '\r' :: '\n' :: rest => (quotedLines .text rest).map fun (xs, rest) => ('\n' :: xs, rest)
  | .text, c :: rest =>
    if isControl c ∧ c ≠ '\n' then none
    else (quotedLines .text rest).map fun (xs, rest) => (c :: xs, rest)
termination_by place cs => (cs.length, match place with | .skipping => 1 | _ => 0)

/-- The rest of a text in single quotes over several lines. -/
def literalLines : Input → Option (List Char × Input)
  | [] => none
  | '\x27' :: '\x27' :: '\x27' :: '\x27' :: '\x27' :: rest => some (['\x27', '\x27'], rest)
  | '\x27' :: '\x27' :: '\x27' :: '\x27' :: rest => some (['\x27'], rest)
  | '\x27' :: '\x27' :: '\x27' :: rest => some ([], rest)
  | '\r' :: '\n' :: rest => (literalLines rest).map fun (xs, rest) => ('\n' :: xs, rest)
  | c :: rest =>
    if isControl c ∧ c ≠ '\n' then none
    else (literalLines rest).map fun (xs, rest) => (c :: xs, rest)

/-- The input without a line end at its start, if there is one. -/
def skipLineEnd (cs : Input) : Input := (lineEnd? cs).getD cs

def text? : Input → Option (String × Input)
  | '\x22' :: '\x22' :: '\x22' :: rest => (quotedLines .text (skipLineEnd rest)).map finish
  | '\x27' :: '\x27' :: '\x27' :: rest => (literalLines (skipLineEnd rest)).map finish
  | '\x22' :: rest => (quotedBody rest).map finish
  | '\x27' :: rest => (literalBody rest).map finish
  | _ => none
where
  finish : List Char × Input → String × Input
    | (cs, rest) => (String.ofList cs, rest)

/-- Digits of one base, of which single underscores may separate any two. -/
def groupedDigits? (base : Nat) (cs : List Char) : Option (List Char) :=
  let groups := cs.splitOn '_'
  if groups.all fun g => !g.isEmpty && g.all fun c => (digit? base c).isSome then
    some (groups.flatten)
  else none

def signed : List Char → Bool × List Char
  | '+' :: rest => (false, rest)
  | '-' :: rest => (true, rest)
  | cs => (false, cs)

/-- A whole number of 64 bits. Decimal digits may not start with a needless zero. -/
def whole? (cs : List Char) : Option Int :=
  let inBase (base : Nat) (body : List Char) : Option Int := do
    let ds ← groupedDigits? base body
    let n ← digits? base ds
    if n ≤ Text.maxSigned64 then some n else none
  match cs with
  | '0' :: 'x' :: body => inBase 16 body
  | '0' :: 'o' :: body => inBase 8 body
  | '0' :: 'b' :: body => inBase 2 body
  | _ => do
    let (negative, body) := signed cs
    let ds ← groupedDigits? 10 body
    if 1 < ds.length ∧ ds.head? = some '0' then none
    let n ← digits? 10 ds
    let value : Int := if negative then -n else n
    if Text.minSigned64 ≤ value ∧ value ≤ Text.maxSigned64 then some value else none

def splitAtFirst (p : Char → Bool) (cs : List Char) : List Char × Option (List Char) :=
  match cs.dropWhile (!p ·) with
  | [] => (cs, none)
  | _ :: rest => (cs.takeWhile (!p ·), some rest)

/-- A fraction: a whole part, then decimals, an exponent or both. One too great for its bits is
refused. -/
def fraction? (cs : List Char) : Option Binary := do
  let (negative, body) := signed cs
  if body = "inf".toList then some (.infinite negative)
  else if body = "nan".toList then some .nan
  else
    let (mantissa, exponent) := splitAtFirst (fun c => c == 'e' || c == 'E') body
    let (wholePart, decimals) := splitAtFirst (· == '.') mantissa
    if decimals.isNone ∧ exponent.isNone then none
    let ws ← groupedDigits? 10 wholePart
    if 1 < ws.length ∧ ws.head? = some '0' then none
    let ds ← match decimals with
      | some ds => groupedDigits? 10 ds
      | none => some []
    let (down, es) := signed (exponent.getD ['0'])
    let es ← groupedDigits? 10 es
    let n ← digits? 10 (ws ++ ds)
    let e ← digits? 10 es
    match Binary.ofDecimal negative n ((if down then -(e : Int) else e) - ds.length) with
    | .infinite _ => none
    | x => some x

/-- Characters of which words other than texts are made. -/
def isWordChar (c : Char) : Bool := c.isAlphanum || c == '+' || c == '-' || c == '_' || c == '.'

def word? (cs : Input) : Option (Document × Input) :=
  let word := cs.takeWhile isWordChar
  let rest := cs.dropWhile isWordChar
  if word = "true".toList then some (.flag true, rest)
  else if word = "false".toList then some (.flag false, rest)
  else match whole? word with
    | some n => some (.whole n, rest)
    | none => (fraction? word).map fun x => (.real x, rest)

end GuildBot.Document.Toml

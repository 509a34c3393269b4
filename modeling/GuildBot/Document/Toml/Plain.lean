import GuildBot.Document.Toml
/-!
# Plain TOML files

Files in which every line is blank, a comment or a setting `name = value`. Names stand without quotes, and
values on one line, with no others in them.
-/

namespace GuildBot.Document.Toml

/-- Characters of names that stand without quotes. -/
def isBareChar (c : Char) : Bool := c.isAlphanum || c == '_' || c == '-'

def IsName (name : String) : Prop := name ≠ "" ∧ name.toList.all isBareChar = true

instance : DecidablePred IsName := fun _ => inferInstanceAs (Decidable (_ ∧ _))

def IsGap (cs : Input) : Prop := ∀ c ∈ cs, isBlankChar c = true

/-- How a plain value is written: as a text in quotes of either kind, as a word, that is a number or a truth
value, or as an empty list or table. -/
inductive Literal : Input → Document → Prop
  | quoted {cs xs : Input} (h : quotedBody cs = some (xs, [])) :
    Literal ('\x22' :: cs) (.text (String.ofList xs))
  | raw {cs xs : Input} (h : literalBody cs = some (xs, [])) :
    Literal ('\x27' :: cs) (.text (String.ofList xs))
  | word {cs : Input} {d : Document} (h : word? cs = some (d, [])) : Literal cs d
  | list : Literal ['[', ']'] (.list [])
  | record : Literal ['\x7b', '\x7d'] (.record [])

/-- A plain file and its settings, from the first to the last. -/
inductive IsPlain : Input → List (String × Document) → Prop
  | nil : IsPlain [] []
  | blank {cs rest : Input} {fields : List (String × Document)} (hsome : cs ≠ [])
    (hline : lineRest? cs = some rest) (hrest : IsPlain rest fields) : IsPlain cs fields
  | setting {name : String} {d : Document} {indent left right value tail rest : Input}
    {fields : List (String × Document)} (hname : IsName name) (hvalue : Literal value d)
    (hindent : IsGap indent) (hleft : IsGap left) (hright : IsGap right)
    (hline : lineRest? tail = some rest) (hrest : IsPlain rest fields) :
    IsPlain (indent ++ (name.toList ++ (left ++ '=' :: (right ++ (value ++ tail)))))
      ((name, d) :: fields)

end GuildBot.Document.Toml

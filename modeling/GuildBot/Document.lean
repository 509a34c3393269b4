import GuildBot.Decimal.Binary
/-!
# Documents

Nested data of the kind that settings files and scripts hold: records of named fields, lists and
plain values. `patch` changes a record in place by another one.
-/

namespace GuildBot

inductive Document where
  | null
  | flag (b : Bool)
  | whole (n : Int)
  | real (x : Decimal.Binary)
  | text (s : String)
  | list (items : List Document)
  | record (fields : List (String × Document))
  deriving Repr, Inhabited

namespace Document

/-- Replaces the field of that name, or adds one at the end. -/
def setField (name : String) (value : Document) : List (String × Document) → List (String × Document)
  | [] => [(name, value)]
  | field :: rest =>
    if field.1 = name then (name, value) :: rest else field :: setField name value rest

def dropField (name : String) (fields : List (String × Document)) : List (String × Document) :=
  fields.filter fun field => field.1 ≠ name

def fields : Document → List (String × Document)
  | record fs => fs
  | _ => []

def field? (d : Document) (name : String) : Option Document := d.fields.lookup name

/-- The field of that name, `null` if there is none. -/
def field (d : Document) (name : String) : Document := (d.field? name).getD null

def at? (d : Document) : List String → Option Document
  | [] => some d
  | name :: rest => (d.field? name).bind (·.at? rest)

mutual

/-- Applies a patch. A record replaces, adds and, by `null`, removes single fields of what it is
applied to; any other patch replaces the whole. -/
def patch (target : Document) : Document → Document
  | .record changes => .record (patchFields target.fields changes)
  | other => other

def patchFields (fields : List (String × Document)) :
    List (String × Document) → List (String × Document)
  | [] => fields
  | (name, .null) :: rest => patchFields (dropField name fields) rest
  | (name, change) :: rest =>
    patchFields (setField name (patch ((fields.lookup name).getD .null) change) fields) rest

end

def asText : Document → String
  | text s => s
  | _ => ""

def asList : Document → List Document
  | list items => items
  | _ => []

/-- A whole number that is not negative; anything else reads as zero. -/
def asNat : Document → Nat
  | whole n => n.toNat
  | _ => 0

def isTrue : Document → Bool
  | flag b => b
  | _ => false

def isNull : Document → Bool
  | null => true
  | _ => false

end Document

end GuildBot

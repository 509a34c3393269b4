import GuildBot.Document
/-!
# Assembling a TOML document

A file is a list of statements, each of which sets a field or opens a table. `Draft` is the
document as far as it is known, with the record of how each table came about that decides whether
a statement may still touch it.
-/

namespace GuildBot.Document.Toml

abbrev Path := List String

structure Draft where
  root : Document := .record []
  /-- The table that fields are set in. -/
  place : Path := []
  /-- Tables opened by a header of their own. -/
  opened : List Path := []
  /-- Tables that a dotted name brought about. -/
  dotted : List Path := []
  /-- Values that are complete as they stand. -/
  complete : List Path := []
  /-- Lists whose items are tables with headers. -/
  lists : List Path := []

def reach? : Path → Document → Option Document
  | [], d => some d
  | name :: rest, d =>
    let table := match d with
      | .list items => items.getLast?.getD .null
      | d => d
    (table.field? name).bind (reach? rest)

/-- Stores a value at a path, making tables on the way where there is nothing yet. -/
def store? (value : Document) : Path → Document → Option Document
  | [], _ => some value
  | name :: rest, .record fields => do
    let inner ← store? value rest ((fields.lookup name).getD (.record []))
    some (.record (setField name inner fields))
  | name :: rest, .list items => do
    let .record fields := items.getLast?.getD .null | none
    let inner ← store? value rest ((fields.lookup name).getD (.record []))
    some (.list (items.dropLast ++ [.record (setField name inner fields)]))
  | _, _ => none

/-- The paths strictly between two, the outer one first. -/
def between (outer : Path) (inner : Path) : List Path :=
  (List.range inner.length).filterMap fun n =>
    if n = 0 then none else some (outer ++ inner.take n)

namespace Draft

/-- Whether a table on the way to a field may be walked through by a dotted name. -/
def walkable (d : Draft) (p : Path) : Bool :=
  match reach? p d.root with
  | none => true
  | some (.record _) => !(d.opened.contains p || d.complete.contains p)
  | some _ => false

/-- Sets a field of the present table. A name may be set once. -/
def set? (d : Draft) (name : Path) (value : Document) : Option Draft :=
  let p := d.place ++ name
  let way := between d.place name
  if way.all d.walkable && (reach? p d.root).isNone then
    (store? value p d.root).map fun root =>
      { d with root, dotted := way ++ d.dotted, complete := p :: d.complete }
  else none

/-- Whether a header may lead through what stands at a path. -/
def passable (d : Draft) (p : Path) : Bool :=
  match reach? p d.root with
  | none => true
  | some (.record _) => !d.complete.contains p
  | some (.list _) => d.lists.contains p
  | some _ => false

/-- Opens a table. One that is there already may be opened only if it came about as part of the
path of another. -/
def openTable? (d : Draft) (p : Path) : Option Draft :=
  if (between [] p).all d.passable then
    match reach? p d.root with
    | none => (store? (.record []) p d.root).map fun root =>
        { d with root, place := p, opened := p :: d.opened }
    | some (.record _) =>
      if d.opened.contains p || d.dotted.contains p || d.complete.contains p then none
      else some { d with place := p, opened := p :: d.opened }
    | some _ => none
  else none

/-- Forgets how the tables inside a path came about. -/
def forgetInside (p : Path) (ps : List Path) : List Path :=
  ps.filter fun q => !(p.isPrefixOf q && p.length < q.length)

/-- Opens one more table of a list of tables. -/
def openItem? (d : Draft) (p : Path) : Option Draft :=
  if (between [] p).all d.passable then
    let items := match reach? p d.root with
      | none => some []
      | some (.list items) => if d.lists.contains p then some items else none
      | some _ => none
    items.bind fun items =>
      (store? (.list (items ++ [.record []])) p d.root).map fun root =>
        { d with
          root
          place := p
          opened := forgetInside p d.opened
          dotted := forgetInside p d.dotted
          complete := forgetInside p d.complete
          lists := p :: forgetInside p d.lists }
  else none

end Draft

end GuildBot.Document.Toml

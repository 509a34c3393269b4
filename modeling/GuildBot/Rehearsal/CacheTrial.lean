import GuildBot.Cache.Fetch
import GuildBot.Flow.Machine
namespace GuildBot.Rehearsal

/-- The cache on trial, its clock, and the keys fetched during the present step. -/
structure CacheTrial where
  cache : Cache String String
  now : Instant
  fetched : List String := []

structure Lookup where
  key : String
  pauses : Nat := 0
  answer : Except String String

inductive CacheStep where
  | get (lookup : Lookup)
  /-- Lookups side by side. -/
  | join (lookups : List Lookup)
  | peek (key : String)
  | insert (key value : String)
  /-- Adds a text to the live value. -/
  | append (key text : String)
  | clear (key : String)
  | advance (d : Duration)
  | set (t : Instant)

inductive CacheResult where
  | nothing
  | value (v : Option String)
  | flag (b : Bool)
  | fetched (r : Except String String)
  | joined (rs : List (Except String String))
  | panicked

namespace CacheTrial

abbrev Action (α : Type) : Type := Program CacheTrial Unit (fun _ : Empty => Unit) α

def place : Cache.Place CacheTrial Unit String String where
  view t := t.cache
  put cache t := { t with cache }
  now t := t.now
  lock := ()

def pauses : Nat → Action Unit
  | 0 => .done ()
  | n + 1 => do
    Program.pause
    pauses n

def fetch (lookup : Lookup) : Action (Except String String) := do
  Flow.change fun t => { t with fetched := t.fetched ++ [lookup.key] }
  pauses lookup.pauses
  return lookup.answer

def get (lookup : Lookup) : Action (Except String String) := place.get lookup.key (fetch lookup)

def join (lookups : List Lookup) :
    Work CacheTrial Unit (fun _ : Empty => Unit) (Except String String)
      (List (Except String String)) :=
  .ofPlan (.done ⟨lookups.map get, .done⟩)

def respond : Respond CacheTrial (fun _ : Empty => Unit) := fun _ c => c.elim

/-- Takes a step. A step that panics changes nothing but what its lookups had done before. -/
def step (t : CacheTrial) : CacheStep → CacheResult × CacheTrial
  | .get lookup => run [lookup] fun
      | [r] => .fetched r
      | _ => .panicked
  | .join lookups => run lookups .joined
  | .peek key => (.value (t.cache.peek t.now key), t)
  | .insert key value => match t.cache.insert? t.now key value with
    | some cache => (.nothing, { t with cache })
    | none => (.panicked, t)
  | .append key text =>
    let (live, cache) := t.cache.update t.now key (· ++ text)
    (.flag live, { t with cache })
  | .clear key => (.nothing, { t with cache := t.cache.clear key })
  | .advance d => match t.now.add? d.asAdvance with
    | some now => (.nothing, { t with now })
    | none => (.panicked, t)
  | .set now => (.nothing, { t with now })
where
  run (lookups : List Lookup) (show? : List (Except String String) → CacheResult) :
      CacheResult × CacheTrial :=
    match Machine.runAlone respond t (join lookups) none with
    | (.value rs, _, t) => (show? rs, t)
    | (_, _, t) => (.panicked, t)

def steps : CacheTrial → List CacheStep → List (CacheResult × CacheTrial)
  | _, [] => []
  | t, s :: rest =>
    let shown := step { t with fetched := [] } s
    shown :: steps shown.2 rest

end CacheTrial

end GuildBot.Rehearsal

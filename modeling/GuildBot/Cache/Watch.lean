import GuildBot.Cache.Fetch
import GuildBot.Flow.Crowd
/-!
# Watching the lookups of a cache

Lookups through one cache, by any number of strands, with a chronicle of what matters about them:
when a fetch began and ended, what was stored, and what was cleared.
-/

namespace GuildBot.Cache

open Std

/-- Something that the chronicle of a cache tells. -/
inductive Event (κ β : Type) where
  /-- The fetch of a strand's lookup began at an instant. -/
  | began (s : Strand) (key : κ) (time : Instant)
  /-- The fetch of a strand's lookup is over. -/
  | finished (s : Strand)
  /-- A strand's lookup returned at an instant what its own fetch had answered. Told with it is the
  entry that the cache has for the key then. -/
  | stored (s : Strand) (key : κ) (time : Instant) (entry : Option (Entry β))
  | cleared (key : κ)

structure Watched (κ β : Type) [Ord κ] where
  cache : Cache κ β
  now : Instant
  chronicle : List (Event κ β) := []

/-- One suspension of a fetch. -/
inductive Suspension where
  | pause
  | wait (milliseconds : Nat)
  deriving DecidableEq, Repr, Inhabited

/-- A lookup: its key, how its fetch suspends itself, and how that ends, with an answer or else in
a panic. -/
structure Lookup (κ β ε : Type) where
  key : κ
  suspensions : List Suspension := []
  outcome : Option (Except ε β)

/-- What others do with a cache meanwhile. -/
inductive Touch (κ β : Type) where
  | peek (key : κ)
  | insert (key : κ) (value : β)
  | update (key : κ) (f : β → β)
  | clear (key : κ)
  | setClock (t : Instant)

namespace Watched

variable {κ β ε : Type} [Ord κ] [TransOrd κ]

abbrev Action (κ β : Type) [Ord κ] (α : Type) : Type :=
  Program (Watched κ β) Unit (fun _ : Empty => Unit) α

def place : Cache.Place (Watched κ β) Unit κ β where
  view w := w.cache
  put cache w := { w with cache }
  now w := w.now
  lock := ()

def tell (e : Event κ β) (w : Watched κ β) : Watched κ β := { w with chronicle := w.chronicle ++ [e] }

def hasBegun (w : Watched κ β) (s : Strand) : Bool :=
  w.chronicle.any fun
    | .began s' _ _ => s' = s
    | _ => false

def suspend : List Suspension → Action κ β Unit
  | [] => .done ()
  | .pause :: rest => .ask .pause fun _ => suspend rest
  | .wait n :: rest => .ask (.wait n) fun _ => suspend rest

/-- The rest of a fetch that has begun. -/
def awaited (s : Strand) (suspensions : List Suspension) (outcome : Option (Except ε β)) :
    Action κ β (Except ε β) :=
  (suspend suspensions).bind fun _ =>
    .act (tell (.finished s)) fun _ =>
      match outcome with
      | some r => .done r
      | none => .panic

def fetch (s : Strand) (l : Lookup κ β ε) : Action κ β (Except ε β) :=
  .act (fun w => w.tell (.began s l.key w.now)) fun _ => awaited s l.suspensions l.outcome

/-- Tells of a lookup that returned what its own fetch had answered. -/
def tellStored (s : Strand) (key : κ) (w : Watched κ β) : Watched κ β :=
  if w.hasBegun s then w.tell (.stored s key w.now w.cache.entries[key]?) else w

/-- Tells how a lookup ended, if it did well. -/
def report (s : Strand) (key : κ) : Except ε β → Action κ β (Except ε β)
  | .ok value => .act (tellStored s key) fun _ => .done (.ok value)
  | .error e => .done (.error e)

def lookUp (s : Strand) (l : Lookup κ β ε) : Action κ β (Except ε β) :=
  (place.get l.key (fetch s l)).bind (report s l.key)

def branches (gets : List (Lookup κ β ε)) : List (Action κ β (Except ε β)) :=
  gets.mapIdx fun n l => lookUp ⟨0, some n⟩ l

def respond : Respond (Watched κ β) (fun _ : Empty => Unit) := fun _ c => c.elim

/-- What others do. An insertion that fails changes nothing. -/
def touch : Touch κ β → Watched κ β → Watched κ β
  | .peek _, w => w
  | .insert key value, w => match w.cache.insert? w.now key value with
    | some cache => { w with cache }
    | none => w
  | .update key f, w => { w with cache := (w.cache.update w.now key f).2 }
  | .clear key, w => { w with cache := w.cache.clear key }.tell (.cleared key)
  | .setClock t, w => { w with now := t }

abbrev Lookups (κ β ε : Type) [Ord κ] : Type :=
  Crowd (Watched κ β) Unit (fun _ : Empty => Unit) (Except ε β)

def start (cache : Cache κ β) (now : Instant) (lookups : Strand → Lookup κ β ε) : Lookups κ β ε :=
  Crowd.start { cache, now } fun s => lookUp s (lookups s)

def after (c : Lookups κ β ε) (moves : List (Crowd.Move (Touch κ β))) : Lookups κ β ε :=
  Crowd.run respond touch c moves

def GoesForward (now : Instant) : Crowd.Move (Touch κ β) → Prop
  | .outside (.setClock t) => now.nanoseconds ≤ t.nanoseconds
  | _ => True

def NeverGoesBack : Lookups κ β ε → List (Crowd.Move (Touch κ β)) → Prop
  | _, [] => True
  | c, m :: rest => GoesForward c.hub.state.now m ∧ NeverGoesBack (Crowd.step respond touch c m) rest

def IsFetching (c : Lookups κ β ε) (s : Strand) : Prop :=
  (∃ obstacle rest, c.progress s = .waiting obstacle rest) ∧
    (∃ key time, .began s key time ∈ c.hub.state.chronicle) ∧
    .finished s ∉ c.hub.state.chronicle

end Watched

end GuildBot.Cache

import GuildBot.Cache.Fetch
import GuildBot.Flow.Machine
/-!
# The history of a cache

Operations on a cache one after another, while its clock is set to and fro. The history tells what
was done, and when; from it alone can be said what stands in the cache.
-/

namespace GuildBot.Cache

open Std

/-- Where a lookup fetches from: it takes its time, the clock may be set meanwhile, and in the end
there is an answer. -/
structure Supplier (β ε : Type) where
  delay : Nat := 0
  clock : Option Instant := none
  answer : Except ε β

/-- An operation on a cache, or a move of its clock. -/
inductive Operation (κ β ε : Type) where
  | get (key : κ) (supplier : Supplier β ε)
  | insert (key : κ) (value : β)
  | update (key : κ) (f : β → β)
  | clear (key : κ)
  | peek (key : κ)
  | setClock (t : Instant)

def Operation.key? {κ β ε : Type} : Operation κ β ε → Option κ
  | .get key _ => some key
  | .insert key _ => some key
  | .update key _ => some key
  | .clear key => some key
  | .peek key => some key
  | .setClock _ => none

/-- An operation that was carried out, with the reading of the clock at its end, and whether a
supplier was called for it. -/
structure Occasion (κ β ε : Type) where
  operation : Operation κ β ε
  time : Instant
  called : Bool

inductive Shown (β ε : Type) where
  | nothing
  | value (v : Option β)
  | flag (b : Bool)
  | fetched (r : Except ε β)
  | panicked

/-- What a lookup shows when it has ended. Without a time limit it can only return or panic. -/
def Shown.ofEnding {β ε : Type} : Ending (Except ε β) → Shown β ε
  | .value r => .fetched r
  | .panicked => .panicked
  | .timedOut => .panicked

/-- A cache, its clock, whether a supplier was called for the present operation, and the history. -/
structure Traced (κ β ε : Type) [Ord κ] where
  cache : Cache κ β
  now : Instant
  called : Bool := false
  history : List (Occasion κ β ε) := []

namespace Traced

variable {κ β ε : Type} [Ord κ] [TransOrd κ]

abbrev Action (κ β ε : Type) [Ord κ] (α : Type) : Type :=
  Program (Traced κ β ε) Unit (fun _ : Empty => Unit) α

def place : Cache.Place (Traced κ β ε) Unit κ β where
  view w := w.cache
  put cache w := { w with cache }
  now w := w.now
  lock := ()

def supply (s : Supplier β ε) : Action κ β ε (Except ε β) := do
  Flow.change fun w => { w with called := true }
  Program.wait s.delay
  Flow.change fun w => { w with now := s.clock.getD w.now }
  return s.answer

def respond : Respond (Traced κ β ε) (fun _ : Empty => Unit) := fun _ c => c.elim

/-- Carries an operation out. One that panics stores nothing. -/
def perform (w : Traced κ β ε) : Operation κ β ε → Shown β ε × Traced κ β ε
  | .get key supplier =>
    let lookup : Work (Traced κ β ε) Unit (fun _ : Empty => Unit) Unit (Except ε β) :=
      .ofProgram (place.get key (supply supplier))
    let (ending, _, w) := Machine.runAlone respond { w with called := false } lookup none
    (.ofEnding ending, w)
  | .insert key value => match w.cache.insert? w.now key value with
    | some cache => (.nothing, { w with cache, called := false })
    | none => (.panicked, { w with called := false })
  | .update key f =>
    let (live, cache) := w.cache.update w.now key f
    (.flag live, { w with cache, called := false })
  | .clear key => (.nothing, { w with cache := w.cache.clear key, called := false })
  | .peek key => (.value (w.cache.peek w.now key), { w with called := false })
  | .setClock t => (.nothing, { w with now := t, called := false })

/-- Carries an operation out and tells of it. -/
def step (w : Traced κ β ε) (op : Operation κ β ε) : Traced κ β ε :=
  let w := (w.perform op).2
  { w with history := w.history ++ [⟨op, w.now, w.called⟩] }

def start (d : Duration) (now : Instant) : Traced κ β ε := { cache := .ofDuration d, now }

def after (w : Traced κ β ε) (ops : List (Operation κ β ε)) : Traced κ β ε := ops.foldl step w

end Traced

variable {κ β ε : Type} [DecidableEq κ]

namespace Occasion

/-- Whether a clock can show when something expires that was stored by then. -/
def fits (lifetime : Duration) (x : Occasion κ β ε) : Bool := (x.time.add? lifetime).isSome

/-- What was stored for a key: the value of an insertion, or what a supplier that was called had
answered. -/
def stored? (lifetime : Duration) (key : κ) (x : Occasion κ β ε) : Option β :=
  match x.operation with
  | .insert k value => if k = key ∧ x.fits lifetime then some value else none
  | .get k supplier => if k = key ∧ x.called ∧ x.fits lifetime then supplier.answer.toOption else none
  | .update _ _ => none
  | .clear _ => none
  | .peek _ => none
  | .setClock _ => none

/-- How a key's value was to be changed at an instant before `expiry`. -/
def change? (key : κ) (expiry : Instant) (x : Occasion κ β ε) : Option (β → β) :=
  match x.operation with
  | .update k f => if k = key ∧ x.time.before expiry then some f else none
  | .get _ _ => none
  | .insert _ _ => none
  | .clear _ => none
  | .peek _ => none
  | .setClock _ => none

end Occasion

/-- A value with the updates of its key that came before its expiry, one after another. -/
def amend (key : κ) (expiry : Instant) (later : List (Occasion κ β ε)) (first : β) : β :=
  (later.filterMap (Occasion.change? key expiry)).foldl (fun value f => f value) first

/-- By the history a key has a value at an instant: one was stored, and since then neither stored
anew nor cleared; the instant is within its lifetime, and the updates made within its lifetime have
changed it. -/
def Stands (lifetime : Duration) (history : List (Occasion κ β ε)) (key : κ) (t : Instant)
    (value : β) : Prop :=
  ∃ earlier x later first,
    history = earlier ++ x :: later ∧ x.stored? lifetime key = some first ∧
      (∀ y ∈ later, y.stored? lifetime key = none ∧ y.operation ≠ .clear key) ∧
      t.nanoseconds < x.time.nanoseconds + lifetime.nanoseconds ∧
      amend key ⟨x.time.nanoseconds + lifetime.nanoseconds⟩ later first = value

end GuildBot.Cache

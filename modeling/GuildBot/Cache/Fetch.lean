import GuildBot.Cache
import GuildBot.Flow
/-!
# Fetching through a cache

A lookup that finds no live value fetches one. Each cache has one lock for fetching, whatever the
key, so at most one fetch runs at a time; a lookup that had to wait for the lock looks again
before it fetches. What a failed fetch answers is not stored.
-/

namespace GuildBot.Cache

open Std

/-- Where programs find a cache in their state, the clock it goes by, and its lock. -/
structure Place (σ ℓ κ β : Type) [Ord κ] where
  view : σ → Cache κ β
  put : Cache κ β → σ → σ
  now : σ → Instant
  lock : ℓ

variable {σ ℓ γ κ β ε : Type} {answer : γ → Type} [Ord κ] [TransOrd κ]

namespace Place

def peek (p : Place σ ℓ κ β) (key : κ) : Program σ ℓ answer (Option β) :=
  Flow.look fun s => (p.view s).peek (p.now s) key

def store (p : Place σ ℓ κ β) (key : κ) (value : β) : Program σ ℓ answer Unit :=
  .act (fun s => match (p.view s).insert? (p.now s) key value with
      | some c => p.put c s
      | none => s)
    fun s => if ((p.view s).insert? (p.now s) key value).isSome then .done () else .panic

def storeResult (p : Place σ ℓ κ β) (key : κ) : Except ε β → Program σ ℓ answer (Except ε β)
  | .ok value => do
    p.store key value
    return .ok value
  | .error e => return .error e

/-- The live value of a key, or else what a fetch answers. -/
def get (p : Place σ ℓ κ β) (key : κ) (fetch : Program σ ℓ answer (Except ε β)) :
    Program σ ℓ answer (Except ε β) := do
  match ← p.peek key with
  | some value => return .ok value
  | none =>
    Program.holding p.lock do
      match ← p.peek key with
      | some value => return .ok value
      | none =>
        let result ← fetch
        p.storeResult key result

end Place

end GuildBot.Cache

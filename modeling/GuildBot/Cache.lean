import Std.Data.ExtTreeMap
import GuildBot.Time
/-!
# Caches whose entries expire

An entry is live until its lifetime after it was stored. Nothing removes expired entries; they
count as absent, and become live again if the clock goes back. `peek` is the view of a cache.
-/

namespace GuildBot

open Std

/-- A stored value and the instant from which it is no longer live. -/
structure Cache.Entry (β : Type) where
  value : β
  expiry : Instant
  deriving DecidableEq, Repr, Inhabited

/-- A cache with one lifetime for all its entries. -/
structure Cache (κ β : Type) [Ord κ] where
  lifetime : Duration
  entries : ExtTreeMap κ (Cache.Entry β) := ∅

namespace Cache

variable {κ β : Type} [Ord κ] [TransOrd κ]

def ofDuration (d : Duration) : Cache κ β := { lifetime := d.asLifetime }

def peek (c : Cache κ β) (now : Instant) (key : κ) : Option β :=
  (c.entries[key]?.filter fun e => now.before e.expiry).map Entry.value

/-- Stores a value. That fails if the clock ends before the value would expire. -/
def insert? (c : Cache κ β) (now : Instant) (key : κ) (value : β) : Option (Cache κ β) :=
  (now.add? c.lifetime).map fun expiry =>
    { c with entries := c.entries.insert key ⟨value, expiry⟩ }

/-- Changes a live value in place, which leaves its expiry as it is. Tells whether there was a live
value. -/
def update (c : Cache κ β) (now : Instant) (key : κ) (f : β → β) : Bool × Cache κ β :=
  match c.entries[key]? with
  | some e =>
    if now.before e.expiry then
      (true, { c with entries := c.entries.insert key { e with value := f e.value } })
    else (false, c)
  | none => (false, c)

def clear (c : Cache κ β) (key : κ) : Cache κ β := { c with entries := c.entries.erase key }

theorem peek_ofDuration (d : Duration) (now : Instant) (key : κ) :
    (ofDuration d : Cache κ β).peek now key = none := by
  simp [ofDuration, peek]

/-- A stored value is live until its lifetime is over; other keys keep what they had. -/
theorem peek_insert? [LawfulEqOrd κ] [DecidableEq κ] {c c' : Cache κ β} {stored : Instant}
    {key : κ} {value : β} (h : c.insert? stored key value = some c') (now : Instant) (other : κ) :
    c'.peek now other =
      if other = key then
        if now.nanoseconds < stored.nanoseconds + c.lifetime.nanoseconds then some value else none
      else c.peek now other := by
  obtain ⟨expiry, he, rfl⟩ := Option.map_eq_some_iff.1 h
  obtain ⟨he, -⟩ := Instant.add?_eq_some_iff.1 he
  simp only [peek, ExtTreeMap.getElem?_insert]
  by_cases ho : other = key
  · subst ho
    simp [Option.filter, Instant.before, he]
  · have hne : compare key other ≠ .eq := fun h => ho (LawfulEqOrd.eq_of_compare h).symm
    simp [ho, hne]

theorem update_fst (c : Cache κ β) (now : Instant) (key : κ) (f : β → β) :
    (c.update now key f).1 = (c.peek now key).isSome := by
  unfold update peek
  split
  · next e he => split <;> simp_all [Option.filter]
  · next he => simp [he]

theorem peek_update [LawfulEqOrd κ] [DecidableEq κ] (c : Cache κ β) (earlier now : Instant)
    (key other : κ) (f : β → β) :
    (c.update earlier key f).2.peek now other =
      if other = key ∧ (c.peek earlier key).isSome = true then (c.peek now other).map f
      else c.peek now other := by
  rw [← update_fst c earlier key f]
  unfold update
  split
  · next e he =>
    split
    · next hl =>
      simp only [peek, ExtTreeMap.getElem?_insert]
      by_cases ho : other = key
      · subst ho
        simp [he, Option.filter]
      · have hne : compare key other ≠ .eq := fun h => ho (LawfulEqOrd.eq_of_compare h).symm
        simp [ho, hne]
    · simp
  · simp

theorem peek_clear [LawfulEqOrd κ] [DecidableEq κ] (c : Cache κ β) (now : Instant)
    (key other : κ) : (c.clear key).peek now other = if other = key then none else c.peek now other := by
  simp only [peek, clear, ExtTreeMap.getElem?_erase]
  by_cases ho : other = key
  · subst ho
    simp
  · have hne : compare key other ≠ .eq := fun h => ho (LawfulEqOrd.eq_of_compare h).symm
    simp [ho, hne]

end Cache

end GuildBot

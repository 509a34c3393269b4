import GuildBot.Proofs.Cache.Entry
import GuildBot.Proofs.Cache.SingleFlight
import GuildBot.Settings

namespace GuildBot

open Std

namespace Duration

private theorem asLifetime_ofSeconds (n : Nat) :
    (ofSeconds n).asLifetime = if n ≤ longestSpan.seconds then ofSeconds n else year := by
  have hfits : (ofSeconds n).nanoseconds ≤ longestSpan.nanoseconds ↔ n ≤ longestSpan.seconds := by
    rw [seconds, Nat.le_div_iff_mul_le (by decide)]
    rfl
  simp only [asLifetime, hfits]

end Duration

namespace Instant

/-- Whether an instant is no earlier than the epoch, and no later than the year 9999. -/
def IsCivil (t : Instant) : Prop :=
  0 ≤ t.nanoseconds ∧ t.nanoseconds < (ofSeconds 253402300800).nanoseconds

private theorem add?_eq_none_iff {t : Instant} {d : Duration} :
    t.add? d = none ↔ latest.nanoseconds < t.nanoseconds + d.nanoseconds := by
  simp [add?]

private theorem add?_asLifetime_eq_none_iff {t : Instant} (ht : t.IsCivil) (n : Nat) :
    t.add? (Duration.ofSeconds n).asLifetime = none ↔
      n ≤ Duration.longestSpan.seconds ∧
        latest.nanoseconds < t.nanoseconds + (Duration.ofSeconds n).nanoseconds := by
  obtain ⟨-, hlt⟩ := ht
  rw [add?_eq_none_iff, Duration.asLifetime_ofSeconds]
  split
  · next hn => rw [and_iff_right hn]
  · next hn =>
    -- A year after the year 9999 the clock has not ended.
    have hyear : (ofSeconds 253402300800).nanoseconds + Duration.year.nanoseconds ≤
      latest.nanoseconds := by decide
    exact ⟨fun h => absurd hyear (by omega), fun h => absurd h.1 hn⟩

end Instant

namespace Settings

private theorem unstorable_accepted {settings : Settings} (h : settings.flaw? = none) :
    let s : Settings := { settings with
      cacheTtl := Duration.longestSpan.seconds
      optInTtl := Duration.longestSpan.seconds }
    s.flaw? = none ∧ ∀ ttl ∈ [s.cacheTtl, s.optInTtl], ∀ now : Instant, now.IsCivil →
      now.add? (Duration.ofSeconds ttl).asLifetime = none := by
  intro s
  obtain ⟨htoken, -, htimeout, hchannel⟩ := flaw?_eq_none_iff.1 h
  have hlong : Duration.longestSpan.seconds ≠ 0 := by decide
  refine ⟨flaw?_eq_none_iff.2 ⟨htoken, ⟨hlong, hlong⟩, htimeout, hchannel⟩, fun ttl httl now hnow => ?_⟩
  obtain rfl : ttl = Duration.longestSpan.seconds := by simpa [s] using httl
  have hpast : Instant.latest.nanoseconds <
    (Duration.ofSeconds Duration.longestSpan.seconds).nanoseconds := by decide
  have hnonneg := hnow.1
  exact (Instant.add?_asLifetime_eq_none_iff hnow _).2 ⟨Nat.le_refl _, by omega⟩

end Settings

namespace Cache.Watched

variable {κ β ε : Type} [Ord κ] [TransOrd κ] {lookups : Strand → Lookup κ β ε}

private theorem Finishes.lifetime {s : Strand} {l : Lookup κ β ε} {w w' : Watched κ β}
    {r : Option (Except ε β)} (h : Finishes s l w r w') : w'.cache.lifetime = w.cache.lifetime := by
  cases h with
  | panicked | failed => rfl
  | stored _ hi => exact lifetime_insert? hi

private theorem Entered.lifetime {s : Strand} {l : Lookup κ β ε} {w w' : Watched κ β}
    {q q' : List Strand} (h : Entered s l w q w' q') : w'.cache.lifetime = w.cache.lifetime := by
  cases h with
  | again => rfl
  | granted => rfl

private theorem Turned.lifetime {s : Strand} {l : Lookup κ β ε} {w w' : Watched κ β}
    {q q' : List Strand} {p p' : Progress (Watched κ β) Unit (fun _ : Empty => Unit) (Except ε β)}
    (h : Turned s l w q p p' w' q') : w'.cache.lifetime = w.cache.lifetime := by
  cases h with
  | blocked => rfl
  | joined => rfl
  | found => rfl
  | suspended he => exact he.lifetime
  | finished he hf => exact hf.lifetime.trans he.lifetime

private theorem lifetime_touch (deed : Touch κ β) (w : Watched κ β) :
    (touch deed w).cache.lifetime = w.cache.lifetime := by
  cases deed with
  | insert key value =>
    simp only [touch]
    cases hi : w.cache.insert? w.now key value with
    | none => rfl
    | some c => exact lifetime_insert? hi
  | update key f => exact lifetime_update _ _ _ _
  | peek | clear | setClock => rfl

private theorem Orderly.lifetime_step {c : Lookups κ β ε} (h : Orderly lookups c)
    (m : Crowd.Move (Touch κ β)) :
    (Crowd.step respond touch c m).hub.state.cache.lifetime = c.hub.state.cache.lifetime := by
  cases m with
  | turn s => exact (turned (h.stage s) h.nodup).lifetime
  | drop task => simp [Crowd.step]
  | pass milliseconds => simp [Crowd.step]
  | outside deed => exact lifetime_touch deed c.hub.state

private theorem lifetime_after {c : Lookups κ β ε} (h : Orderly lookups c)
    (moves : List (Crowd.Move (Touch κ β))) :
    (after c moves).hub.state.cache.lifetime = c.hub.state.cache.lifetime := by
  induction moves generalizing c with
  | nil => rfl
  | cons m moves ih => exact (ih (h.step m)).trans (h.lifetime_step m)

/-- Whatever was done with a cache before, storing fails just if the number of seconds for which entries
are to live is one that a clock can express, and takes the clock past its end. There are such numbers that
settings are accepted with, and with the greatest nothing can ever be stored. -/
theorem storing_fails_iff (ttl : Nat) (start : Instant) (lookups : Strand → Lookup κ β ε)
    (moves : List (Crowd.Move (Touch κ β))) :
    (let w := (after (Watched.start (.ofDuration (.ofSeconds ttl)) start lookups) moves).hub.state
    w.now.IsCivil → ∀ key value,
      (w.cache.insert? w.now key value = none ↔ ttl ≤ Duration.longestSpan.seconds ∧
        Instant.latest.nanoseconds < w.now.nanoseconds + (Duration.ofSeconds ttl).nanoseconds)) ∧
    ∀ settings : Settings, settings.flaw? = none →
      let s : Settings := { settings with
        cacheTtl := Duration.longestSpan.seconds
        optInTtl := Duration.longestSpan.seconds }
      s.flaw? = none ∧ ∀ ttl ∈ [s.cacheTtl, s.optInTtl], ∀ now : Instant, now.IsCivil →
        now.add? (Duration.ofSeconds ttl).asLifetime = none := by
  refine ⟨fun hnow key value => ?_, fun settings => Settings.unstorable_accepted⟩
  let w := (after (Watched.start (.ofDuration (.ofSeconds ttl)) start lookups) moves).hub.state
  have hlife : w.cache.lifetime = (Duration.ofSeconds ttl).asLifetime :=
    lifetime_after (start_orderly _ start lookups) moves
  rw [insert?, Option.map_eq_none_iff, hlife]
  exact Instant.add?_asLifetime_eq_none_iff hnow ttl

/-- Lookups that all fetch the same. -/
def sameLookups : Strand → Lookup String String Empty :=
  fun _ => { key := "7", outcome := some (.ok "guild") }

/-- With entries that are to live for nine trillion seconds nothing is stored, by a lookup or otherwise. -/
theorem storing_fails_iff_trillions :
    let w := (after (start (.ofDuration (.ofSeconds 9000000000000)) ⟨0⟩ sameLookups)
      [.turn ⟨0, none⟩]).hub.state
    let span := Duration.longestSpan.seconds
    let s : Settings := { token := "t", cacheTtl := span, optInTtl := span }
    w.now.IsCivil ∧ w.cache.insert? w.now "7" "guild" = none ∧ s.flaw? = none := by
  intro w span s
  have hnow : w.now.IsCivil := ⟨by decide, by decide⟩
  obtain ⟨hfails, haccepted⟩ := storing_fails_iff 9000000000000 ⟨0⟩ sameLookups [.turn ⟨0, none⟩]
  exact ⟨hnow, (hfails hnow "7" "guild").2 ⟨by decide, by decide⟩,
    (haccepted { token := "t" } (by decide)).1⟩

end Cache.Watched

end GuildBot

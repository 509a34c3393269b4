import GuildBot.Proofs.Cache.Entry
import GuildBot.Rehearsal.Ledger

namespace GuildBot.Rehearsal

open Std

variable {κ α : Type} [Ord κ] [TransOrd κ]
  {d : Duration} {now : Instant} {c c' : Cache κ α} {hs : Holdings κ α} {key : κ} {record : α}

/-- A cache after a lookup that has learned something. -/
def stored (c : Cache κ α) (now : Instant) (key : κ) (learned : Option (Except (Partial α) α)) :
    Cache κ α :=
  match learned with
  | some (.ok record) => (c.insert? now key record).getD c
  | _ => c

structure Records (d : Duration) (now : Instant) (c : Cache κ α) (hs : Holdings κ α) : Prop where
  lifetime : c.lifetime = d
  isSome_eq : ∀ k, c.entries[k]?.isSome = (hs k).isSome
  entry : ∀ k e h, c.entries[k]? = some e → hs k = some h →
    e.expiry.nanoseconds = h.since.nanoseconds + d.nanoseconds ∧
      (now.nanoseconds < e.expiry.nanoseconds → e.value = h.record)

namespace Records

theorem ofDuration (d : Duration) (now : Instant) :
    Records d.asLifetime now (.ofDuration d : Cache κ α) fun _ => none := by
  refine ⟨rfl, ?_, ?_⟩
  · intro k
    simp [Cache.ofDuration]
  · intro k e h he hh
    cases hh

theorem peek_eq (h : Records d now c hs) (key : κ) : c.peek now key = hs.live? d now key := by
  have hsome := h.isSome_eq key
  unfold Cache.peek Holdings.live?
  cases he : c.entries[key]? with
  | none =>
    have hn : hs key = none := by simpa [he] using hsome
    simp [hn]
  | some e =>
    obtain ⟨k, hk⟩ := Option.isSome_iff_exists.1 (hsome.symm.trans (by rw [he]; rfl))
    obtain ⟨hx, hv⟩ := h.entry key e k he hk
    by_cases hl : now.nanoseconds < e.expiry.nanoseconds
    · simp [hk, Option.filter, Instant.before, ← hx, hl, hv hl]
    · simp [hk, Option.filter, Instant.before, ← hx, hl]

theorem later (h : Records d now c hs) {now' : Instant}
    (hle : now.nanoseconds ≤ now'.nanoseconds) : Records d now' c hs := by
  refine ⟨h.lifetime, h.isSome_eq, ?_⟩
  intro k e hk he hh
  obtain ⟨hx, hv⟩ := h.entry k e hk he hh
  exact ⟨hx, fun hl => hv (by omega)⟩

variable [DecidableEq κ]

theorem put_of_insert?_eq_none (h : Records d now c hs) (hi : c.insert? now key record = none) :
    hs.put d now key record = hs := by
  have hadd : ¬(now.add? d).isSome = true := by
    rw [← h.lifetime, ← Cache.insert?_isSome_iff, hi]
    simp
  rw [Holdings.put, if_neg hadd]

variable [LawfulEqOrd κ]

theorem put (h : Records d now c hs) (hi : c.insert? now key record = some c') :
    Records d now c' (hs.put d now key record) := by
  have hadd : (now.add? d).isSome = true := by
    rw [← h.lifetime, ← Cache.insert?_isSome_iff, hi]
    rfl
  have hentry := Cache.getElem?_insert? hi
  unfold Holdings.put
  rw [if_pos hadd]
  refine ⟨(Cache.lifetime_insert? hi).trans h.lifetime, ?_, ?_⟩
  · intro k
    rw [hentry]
    by_cases hk : k = key
    · simp [hk]
    · simp [hk, h.isSome_eq k]
  · intro k e hk he hh
    rw [hentry] at he
    by_cases hkey : k = key
    · rw [if_pos hkey] at he hh
      cases he
      cases hh
      exact ⟨by rw [Cache.expiryFrom, h.lifetime], fun _ => rfl⟩
    · rw [if_neg hkey] at he hh
      exact h.entry k e hk he hh

/-- An entry that is not live is left as it is, but then it does not count. -/
theorem revise (h : Records d now c hs) (key : κ) (f : α → α) :
    Records d now (c.update now key f).2 (hs.revise key f) := by
  have hentry := Cache.getElem?_update c now key f
  refine ⟨(Cache.lifetime_update c now key f).trans h.lifetime, ?_, ?_⟩
  · intro k
    rw [hentry, Holdings.revise]
    by_cases hk : k = key
    · rw [if_pos hk, if_pos hk, Option.isSome_map, Option.isSome_map, h.isSome_eq]
    · rw [if_neg hk, if_neg hk, h.isSome_eq]
  · intro k e hk he hh
    rw [hentry] at he
    rw [Holdings.revise] at hh
    by_cases hkey : k = key
    · rw [if_pos hkey] at he hh
      obtain ⟨e₀, he₀, rfl⟩ := Option.map_eq_some_iff.1 he
      obtain ⟨h₀, hh₀, rfl⟩ := Option.map_eq_some_iff.1 hh
      obtain ⟨hx, hv⟩ := h.entry k e₀ h₀ he₀ hh₀
      by_cases hl : now.before e₀.expiry = true
      · simp only [hl, if_true]
        exact ⟨hx, fun hl => by rw [hv hl]⟩
      · simp only [hl]
        refine ⟨hx, fun hl' => absurd (Instant.before_iff.2 hl') hl⟩
    · rw [if_neg hkey] at he hh
      exact h.entry k e hk he hh

theorem lookUp (h : Records d now c hs) (hl : c.peek now key = none)
    (learned : Option (Except (Partial α) α)) :
    Records d now (stored c now key learned) (hs.lookUp d now key learned) := by
  unfold Holdings.lookUp stored
  rw [← h.peek_eq, hl]
  rcases learned with _ | p | record
  · exact h
  · exact h
  · cases hi : c.insert? now key record with
    | none => simpa [hi, h.put_of_insert?_eq_none hi] using h
    | some c' => simpa [hi] using h.put hi

end Records

end GuildBot.Rehearsal

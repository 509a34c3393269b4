import GuildBot.Cache

namespace GuildBot.Cache

open Std

variable {κ β : Type} [Ord κ]

def expiryFrom (c : Cache κ β) (stored : Instant) : Instant :=
  ⟨stored.nanoseconds + c.lifetime.nanoseconds⟩

theorem nanoseconds_expiryFrom {c : Cache κ β} {d : Duration} (h : c.lifetime = d)
    (stored : Instant) :
    (c.expiryFrom stored).nanoseconds = stored.nanoseconds + d.nanoseconds := by
  rw [expiryFrom, h]

variable [TransOrd κ]

theorem peek_eq_some_iff {c : Cache κ β} {now : Instant} {key : κ} {value : β} :
    c.peek now key = some value ↔
      ∃ e, c.entries[key]? = some e ∧ now.nanoseconds < e.expiry.nanoseconds ∧ e.value = value := by
  simp [peek, Option.filter_eq_some_iff, Instant.before_iff, and_assoc]

theorem peek_eq_none_iff {c : Cache κ β} {now : Instant} {key : κ} :
    c.peek now key = none ↔
      ∀ e, c.entries[key]? = some e → e.expiry.nanoseconds ≤ now.nanoseconds := by
  simp [peek, Option.filter_eq_none_iff, Instant.before]

theorem peek_unique {c : Cache κ β} {now now' : Instant} {key : κ} {value value' : β}
    (h : c.peek now key = some value) (h' : c.peek now' key = some value') : value = value' := by
  obtain ⟨e, he, -, rfl⟩ := peek_eq_some_iff.1 h
  obtain ⟨e', he', -, rfl⟩ := peek_eq_some_iff.1 h'
  rw [Option.some.inj (he.symm.trans he')]

theorem update_of_peek_eq_none {c : Cache κ β} {now : Instant} {key : κ}
    (h : c.peek now key = none) (f : β → β) : (c.update now key f).2 = c := by
  unfold update
  cases he : c.entries[key]? with
  | none => rfl
  | some e =>
    have hle := peek_eq_none_iff.1 h e he
    have hb : now.before e.expiry = false := by simp [Instant.before, hle]
    simp [hb]

theorem insert?_isSome_iff (c : Cache κ β) (now : Instant) (key : κ) (value : β) :
    (c.insert? now key value).isSome = true ↔ (now.add? c.lifetime).isSome = true := by
  simp [insert?]

variable {c c' : Cache κ β} {now : Instant} {key : κ} {value : β}

theorem lifetime_insert? (h : c.insert? now key value = some c') : c'.lifetime = c.lifetime := by
  obtain ⟨expiry, -, rfl⟩ := Option.map_eq_some_iff.1 h
  rfl

theorem lifetime_update (c : Cache κ β) (now : Instant) (key : κ) (f : β → β) :
    (c.update now key f).2.lifetime = c.lifetime := by
  unfold update
  split
  · split <;> rfl
  · rfl

/-- Whether a cache has an entry for a key, live or not, with such a value. -/
def Holds (c : Cache κ β) (key : κ) (P : β → Prop) : Prop := ∃ e, c.entries[key]? = some e ∧ P e.value

variable {P : β → Prop}

theorem Holds.of_peek (h : c.Holds key P) (hp : c.peek now key = some value) : P value := by
  obtain ⟨e, he, hvalue⟩ := h
  obtain ⟨e', he', -, rfl⟩ := peek_eq_some_iff.1 hp
  cases he.symm.trans he'
  exact hvalue

/-- Whether all entries of a cache, live or not, have such values for their keys. -/
def Every (P : κ → β → Prop) (c : Cache κ β) : Prop := ∀ k e, c.entries[k]? = some e → P k e.value

variable {R : κ → β → Prop}

theorem every_ofDuration (R : κ → β → Prop) (d : Duration) :
    (Cache.ofDuration d : Cache κ β).Every R := by
  intro k e he
  simp [Cache.ofDuration] at he

theorem Every.of_peek (h : c.Every R) (hp : c.peek now key = some value) : R key value := by
  obtain ⟨e, he, -, rfl⟩ := peek_eq_some_iff.1 hp
  exact h key e he

variable [LawfulEqOrd κ] [DecidableEq κ]

theorem getElem?_insert? (h : c.insert? now key value = some c') (k : κ) :
    c'.entries[k]? = if k = key then some ⟨value, c.expiryFrom now⟩ else c.entries[k]? := by
  obtain ⟨expiry, he, rfl⟩ := Option.map_eq_some_iff.1 h
  obtain ⟨he, -⟩ := Instant.add?_eq_some_iff.1 he
  have hexpiry : expiry = c.expiryFrom now := by
    cases expiry
    simpa [expiryFrom] using he
  by_cases hk : k = key
  · subst hk; simp [hexpiry]
  · have hne : compare key k ≠ .eq := fun h => hk (LawfulEqOrd.eq_of_compare h).symm
    simp [ExtTreeMap.getElem?_insert, hk, hne]

theorem getElem?_update (c : Cache κ β) (now : Instant) (key : κ) (f : β → β) (k : κ) :
    (c.update now key f).2.entries[k]? =
      if k = key then
        c.entries[k]?.map fun e => if now.before e.expiry then { e with value := f e.value } else e
      else c.entries[k]? := by
  unfold update
  cases he : c.entries[key]? with
  | none => by_cases hk : k = key <;> simp_all
  | some e =>
    by_cases hl : now.before e.expiry = true
    · by_cases hk : k = key
      · subst hk; simp [hl, he]
      · have hne : compare key k ≠ .eq := fun h => hk (LawfulEqOrd.eq_of_compare h).symm
        simp [hl, ExtTreeMap.getElem?_insert, hk, hne]
    · by_cases hk : k = key <;> simp_all

theorem getElem?_clear (c : Cache κ β) (key k : κ) :
    (c.clear key).entries[k]? = if k = key then none else c.entries[k]? := by
  by_cases hk : k = key
  · subst hk; simp [clear]
  · have hne : compare key k ≠ .eq := fun h => hk (LawfulEqOrd.eq_of_compare h).symm
    simp [clear, ExtTreeMap.getElem?_erase, hk, hne]

theorem Every.insert? (h : c.Every R) (hi : c.insert? now key value = some c') (hv : R key value) :
    c'.Every R := by
  intro k e he
  rw [getElem?_insert? hi] at he
  by_cases hk : k = key
  · rw [if_pos hk] at he
    cases he
    exact hk ▸ hv
  · rw [if_neg hk] at he
    exact h k e he

theorem Every.update (h : c.Every R) (now : Instant) (key : κ) {f : β → β}
    (hf : ∀ value, R key value → R key (f value)) : (c.update now key f).2.Every R := by
  intro k e he
  rw [getElem?_update] at he
  by_cases hk : k = key
  · rw [if_pos hk] at he
    obtain ⟨e₀, he₀, rfl⟩ := Option.map_eq_some_iff.1 he
    have hvalue := h k e₀ he₀
    subst hk
    split
    · exact hf _ hvalue
    · exact hvalue
  · rw [if_neg hk] at he
    exact h k e he

theorem isSome_peek_insert? (h : c.insert? now key value = some c')
    (hd : 0 < c.lifetime.nanoseconds) : (c'.peek now key).isSome = true := by
  rw [peek_insert? h, if_pos rfl, if_pos (by omega)]
  rfl

theorem isSome_peek_update (hp : (c.peek now key).isSome = true) (earlier : Instant) (other : κ)
    (f : β → β) : ((c.update earlier other f).2.peek now key).isSome = true := by
  rw [peek_update]
  split
  · rw [Option.isSome_map]
    exact hp
  · exact hp

theorem holds_insert? (h : c.insert? now key value = some c') (hv : P value) : c'.Holds key P :=
  ⟨_, by rw [getElem?_insert? h, if_pos rfl], hv⟩

theorem Holds.update {f : β → β} (h : c.Holds key P) (hf : ∀ value, P value → P (f value))
    (now : Instant) (other : κ) : (c.update now other f).2.Holds key P := by
  obtain ⟨e, he, hvalue⟩ := h
  unfold Holds
  rw [getElem?_update, he, Option.map_some]
  by_cases hother : key = other
  · rw [if_pos hother]
    by_cases hlive : now.before e.expiry = true
    · rw [if_pos hlive]
      exact ⟨_, rfl, hf _ hvalue⟩
    · rw [if_neg hlive]
      exact ⟨e, rfl, hvalue⟩
  · rw [if_neg hother]
    exact ⟨e, rfl, hvalue⟩

theorem holds_update {f : β → β} (hp : (c.peek now key).isSome = true) (hf : ∀ value, P (f value)) :
    (c.update now key f).2.Holds key P := by
  obtain ⟨value, hp⟩ := Option.isSome_iff_exists.1 hp
  obtain ⟨e, he, hbefore, -⟩ := peek_eq_some_iff.1 hp
  unfold Holds
  rw [getElem?_update, if_pos rfl, he, Option.map_some, if_pos (Instant.before_iff.2 hbefore)]
  exact ⟨_, rfl, hf e.value⟩

end GuildBot.Cache

import GuildBot.Cache.History
import GuildBot.Proofs.Cache.Entry
import GuildBot.Proofs.Cache.Fetch
import GuildBot.Proofs.Flow.SingleTask
import Mathlib.Data.List.Induction

/-!
# What stands in a cache can be told from its history

Each operation makes of a key's entry what its place in the history says, so the entries are what
the history makes of none. An entry whose lifetime is over is neither changed nor removed, and it
stands again if the clock goes back.
-/

namespace GuildBot.Cache

open Std

variable {κ β ε : Type}

section

variable [DecidableEq κ]

def Operation.clears (key : κ) : Operation κ β ε → Bool
  | .clear k => k = key
  | .get _ _ => false
  | .insert _ _ => false
  | .update _ _ => false
  | .peek _ => false
  | .setClock _ => false

private theorem Operation.clears_iff {key : κ} {op : Operation κ β ε} :
    op.clears key = true ↔ op = .clear key := by
  cases op <;> simp [clears]

/-- A value as an update leaves it, if one was made before it expired. -/
def Entry.changed (e : Entry β) (f : Option (β → β)) : Entry β :=
  { e with value := f.elim e.value (· e.value) }

namespace Occasion

/-- What becomes of a key's entry. -/
def alter (lifetime : Duration) (key : κ) (x : Occasion κ β ε) (entry : Option (Entry β)) :
    Option (Entry β) :=
  ((x.stored? lifetime key).map fun value =>
    (⟨value, ⟨x.time.nanoseconds + lifetime.nanoseconds⟩⟩ : Entry β)).or
      (if x.operation.clears key then none
      else entry.map fun e => e.changed (x.change? key e.expiry))

end Occasion

namespace Occasion

variable {lifetime : Duration} {key : κ} {x : Occasion κ β ε} {entry : Option (Entry β)}

private theorem alter_of_stored {value : β} (hs : x.stored? lifetime key = some value) :
    x.alter lifetime key entry =
      some ⟨value, ⟨x.time.nanoseconds + lifetime.nanoseconds⟩⟩ := by
  rw [alter, hs, Option.map_some, Option.some_or]

private theorem alter_of_clears (hs : x.stored? lifetime key = none) (hc : x.operation.clears key = true) :
    x.alter lifetime key entry = none := by
  rw [alter, hs, Option.map_none, Option.none_or, if_pos hc]

private theorem alter_of_kept (hs : x.stored? lifetime key = none) (hc : x.operation.clears key = false) :
    x.alter lifetime key entry = entry.map fun e => e.changed (x.change? key e.expiry) := by
  rw [alter, hs, Option.map_none, Option.none_or, if_neg (ne_true_of_eq_false hc)]

private theorem alter_of_idle (hs : x.stored? lifetime key = none) (hc : x.operation.clears key = false)
    (hf : ∀ expiry, x.change? key expiry = none) : x.alter lifetime key entry = entry := by
  simp only [alter_of_kept hs hc, hf]
  exact Option.map_id_apply

private theorem alter_of_ne (hk : x.operation.key? ≠ some key) : x.alter lifetime key entry = entry := by
  have hne : ∀ k, x.operation.key? = some k → k ≠ key := fun k h hkey => hk (hkey ▸ h)
  obtain ⟨op, time, called⟩ := x
  apply alter_of_idle
  · cases op <;> simp_all [stored?, Operation.key?]
  · cases op <;> simp_all [Operation.clears, Operation.key?]
  · intro expiry
    cases op <;> simp_all [change?, Operation.key?]

end Occasion

/-- What a history makes of a key's entry, where there was none before. -/
def entryOf (lifetime : Duration) (history : List (Occasion κ β ε)) (key : κ) : Option (Entry β) :=
  history.foldl (fun entry x => x.alter lifetime key entry) none

variable {lifetime : Duration} {history : List (Occasion κ β ε)} {key : κ}

private theorem amend_concat (expiry : Instant) (later : List (Occasion κ β ε)) (x : Occasion κ β ε)
    (first : β) :
    amend key expiry (later ++ [x]) first =
      (x.change? key expiry).elim (amend key expiry later first) (· (amend key expiry later first)) := by
  rw [amend, List.filterMap_append, List.foldl_append]
  cases hx : x.change? key expiry with
  | none => simp [hx, amend]
  | some f => simp [hx, amend]

private theorem entryOf_concat (x : Occasion κ β ε) :
    entryOf lifetime (history ++ [x]) key = x.alter lifetime key (entryOf lifetime history key) := by
  simp [entryOf]

/-- Whether a history gives a key an entry by a store that nothing made void since. -/
def Leaves (lifetime : Duration) (history : List (Occasion κ β ε)) (key : κ) (e : Entry β) : Prop :=
  ∃ earlier x later first,
    history = earlier ++ x :: later ∧ x.stored? lifetime key = some first ∧
      (∀ y ∈ later, y.stored? lifetime key = none ∧ y.operation ≠ .clear key) ∧
      e.expiry = ⟨x.time.nanoseconds + lifetime.nanoseconds⟩ ∧
      amend key e.expiry later first = e.value

private theorem leaves_concat_iff {x : Occasion κ β ε} {e : Entry β} :
    Leaves lifetime (history ++ [x]) key e ↔
      (∃ first, x.stored? lifetime key = some first ∧
        e = ⟨first, ⟨x.time.nanoseconds + lifetime.nanoseconds⟩⟩) ∨
      (x.stored? lifetime key = none ∧ x.operation ≠ .clear key) ∧
        ∃ e₀, Leaves lifetime history key e₀ ∧ e = e₀.changed (x.change? key e₀.expiry) := by
  constructor
  · rintro ⟨earlier, y, later, first, hsplit, hstored, hlater, hexpiry, hvalue⟩
    rcases later.eq_nil_or_concat with rfl | ⟨later, z, rfl⟩
    · obtain ⟨-, hy⟩ := List.append_inj' hsplit rfl
      obtain rfl := List.singleton_inj.mp hy
      exact .inl ⟨first, hstored, by cases e; cases hexpiry; cases hvalue; rfl⟩
    · rw [List.concat_eq_append, ← List.cons_append, ← List.append_assoc] at hsplit
      obtain ⟨rfl, hz⟩ := List.append_inj' hsplit rfl
      obtain rfl := List.singleton_inj.mp hz
      rw [List.concat_eq_append] at hlater hvalue
      refine .inr ⟨hlater x (by simp), ⟨amend key e.expiry later first, e.expiry⟩,
        ⟨earlier, y, later, first, rfl, hstored, fun z hz => hlater z (by simp [hz]), hexpiry, rfl⟩, ?_⟩
      rw [amend_concat] at hvalue
      rw [Entry.changed, hvalue]
  · rintro (⟨first, hstored, rfl⟩ | ⟨hx, e₀, hleaves, rfl⟩)
    · exact ⟨history, x, [], first, rfl, hstored, by simp, rfl, rfl⟩
    · obtain ⟨earlier, y, later, first, rfl, hstored, hlater, hexpiry, hvalue⟩ := hleaves
      refine ⟨earlier, y, later ++ [x], first, by simp, hstored, fun z hz => ?_, hexpiry, ?_⟩
      · rcases List.mem_append.mp hz with hz | hz
        · exact hlater z hz
        · exact List.mem_singleton.mp hz ▸ hx
      · rw [Entry.changed, amend_concat, hvalue]

/-- By the history a key has an entry just when one was stored and left. -/
private theorem entryOf_eq_some_iff {e : Entry β} :
    entryOf lifetime history key = some e ↔ Leaves lifetime history key e := by
  induction history using List.reverseRecOn generalizing e with
  | nil => simp [entryOf, Leaves]
  | append_singleton history x ih =>
    rw [entryOf_concat, Occasion.alter, leaves_concat_iff]
    cases hs : x.stored? lifetime key with
    | some value => simp only [Option.map_some, Option.some_or, Option.some.injEq, exists_eq_left',
        reduceCtorEq, false_and, or_false, @eq_comm _ e]
    | none =>
      cases hc : x.operation.clears key with
      | true => simp [Operation.clears_iff.mp hc]
      | false =>
        have hne : x.operation ≠ .clear key := fun h => by simp [Operation.clears_iff.mpr h] at hc
        simp only [Option.map_none, Option.none_or, Bool.false_eq_true, if_false,
          Option.map_eq_some_iff, reduceCtorEq, false_and, exists_false, false_or, ne_eq, hne,
          not_false_eq_true, and_self, true_and, ← ih, @eq_comm _ e]

private theorem stands_iff {t : Instant} {value : β} :
    Stands lifetime history key t value ↔
      ∃ e, entryOf lifetime history key = some e ∧ t.nanoseconds < e.expiry.nanoseconds ∧
        e.value = value := by
  simp only [entryOf_eq_some_iff]
  constructor
  · rintro ⟨earlier, x, later, first, hsplit, hstored, hlater, ht, hvalue⟩
    exact ⟨⟨value, _⟩, ⟨earlier, x, later, first, hsplit, hstored, hlater, rfl, hvalue⟩, ht, rfl⟩
  · rintro ⟨⟨_, _⟩, ⟨earlier, x, later, first, hsplit, hstored, hlater, hexpiry, hvalue⟩, ht, rfl⟩
    cases hexpiry
    exact ⟨earlier, x, later, first, hsplit, hstored, hlater, ht, hvalue⟩

end

namespace Traced

variable [Ord κ] [TransOrd κ]

section

variable {w : Traced κ β ε} {key : κ} {s : Supplier β ε}

omit [TransOrd κ] in
private theorem unhindered_supply (s : Supplier β ε) :
    (supply s : Action κ β ε (Except ε β)).Unhindered [] 1 :=
  .act _ fun _ => ⟨⟨0, rfl, fun _ _ => trivial⟩, fun _ _ _ _ => rfl⟩

omit [TransOrd κ] in
private theorem eval_supply (s : Supplier β ε) (w : Traced κ β ε) :
    Flow.eval respond (supply s) w =
      (some s.answer, { w with called := true, now := s.clock.getD w.now }) := rfl

private theorem perform_get (w : Traced κ β ε) (key : κ) (s : Supplier β ε) :
    w.perform (.get key s) =
      ((Flow.eval respond (place.get key (supply s)) { w with called := false }).1.elim .panicked
          .fetched,
        (Flow.eval respond (place.get key (supply s)) { w with called := false }).2) := by
  have hfree : (place.get key (supply s) : Action κ β ε (Except ε β)).Unhindered [()] 3 :=
    Place.unhindered_get place key (unhindered_supply s) (by simp)
  obtain ⟨hresult, hstate⟩ := Machine.runAlone_ofProgram (δ := Unit) respond { w with called := false }
    hfree (by decide)
  refine Prod.ext ?_ hstate
  rw [perform]
  dsimp only at hresult ⊢
  rw [hresult]
  cases (Flow.eval respond (place.get key (supply s)) { w with called := false }).1 with
  | none => rfl
  | some r => rfl

private theorem perform_get_of_peek {value : β} (hp : w.cache.peek w.now key = some value) :
    w.perform (.get key s) = (.fetched (.ok value), { w with called := false }) := by
  rw [perform_get, Place.eval_get]
  simp [place, hp]

private theorem perform_get_of_error (hp : w.cache.peek w.now key = none) {e : ε} (ha : s.answer = .error e) :
    w.perform (.get key s) =
      (.fetched (.error e), { w with called := true, now := s.clock.getD w.now }) := by
  rw [perform_get, Place.eval_get]
  simp [place, hp, eval_supply, ha]

private theorem perform_get_of_ok (hp : w.cache.peek w.now key = none) {value : β} {cache : Cache κ β}
    (ha : s.answer = .ok value)
    (hi : w.cache.insert? (s.clock.getD w.now) key value = some cache) :
    w.perform (.get key s) =
      (.fetched (.ok value), { w with cache, called := true, now := s.clock.getD w.now }) := by
  rw [perform_get, Place.eval_get]
  simp [place, hp, eval_supply, ha, hi]

private theorem perform_get_of_overflow (hp : w.cache.peek w.now key = none) {value : β}
    (ha : s.answer = .ok value) (hi : w.cache.insert? (s.clock.getD w.now) key value = none) :
    w.perform (.get key s) =
      (.panicked, { w with called := true, now := s.clock.getD w.now }) := by
  rw [perform_get, Place.eval_get]
  simp [place, hp, eval_supply, ha, hi]

private theorem shown_get_of_peek_eq_none (hp : w.cache.peek w.now key = none) :
    (w.perform (.get key s)).1 =
      if s.answer.isOk ∧ (s.clock.getD w.now).add? w.cache.lifetime = none then .panicked
      else .fetched s.answer := by
  cases ha : s.answer with
  | error e => rw [perform_get_of_error hp ha, if_neg fun h => Bool.false_ne_true h.1]
  | ok value =>
    have hfits := insert?_isSome_iff w.cache (s.clock.getD w.now) key value
    cases hi : w.cache.insert? (s.clock.getD w.now) key value with
    | none =>
      rw [hi] at hfits
      rw [perform_get_of_overflow hp ha hi, if_pos ⟨rfl, by simpa using hfits⟩]
    | some cache =>
      rw [hi] at hfits
      rw [perform_get_of_ok hp ha hi, if_neg fun h => by simp [h.2] at hfits]

private theorem called_perform_get : (w.perform (.get key s)).2.called = true ↔
    w.cache.peek w.now key = none := by
  cases hp : w.cache.peek w.now key with
  | some value => simp [perform_get_of_peek hp]
  | none =>
    cases ha : s.answer with
    | error e => simp [perform_get_of_error hp ha]
    | ok value =>
      cases hi : w.cache.insert? (s.clock.getD w.now) key value with
      | none => simp [perform_get_of_overflow hp ha hi]
      | some cache => simp [perform_get_of_ok hp ha hi]

end

variable [LawfulEqOrd κ] [DecidableEq κ] {w : Traced κ β ε}

def occasion (w : Traced κ β ε) (op : Operation κ β ε) : Occasion κ β ε :=
  ⟨op, (w.perform op).2.now, (w.perform op).2.called⟩

/-- An operation makes of every entry what its place in the history says. -/
structure Performs (w : Traced κ β ε) (x : Occasion κ β ε) (w' : Traced κ β ε) : Prop where
  lifetime : w'.cache.lifetime = w.cache.lifetime
  history : w'.history = w.history
  entries : ∀ key : κ, w'.cache.entries[key]? = x.alter w.cache.lifetime key w.cache.entries[key]?

private theorem getElem?_stored {k : κ} {value : β} {t : Instant} {cache : Cache κ β}
    (hi : w.cache.insert? t k value = some cache) {x : Occasion κ β ε} (ht : x.time = t)
    (hs : ∀ key, x.stored? w.cache.lifetime key = if k = key then some value else none)
    (hc : ∀ key, x.operation.clears key = false) (hf : ∀ key expiry, x.change? key expiry = none)
    (key : κ) : cache.entries[key]? = x.alter w.cache.lifetime key w.cache.entries[key]? := by
  rw [getElem?_insert? hi key]
  by_cases hk : key = k
  · rw [if_pos hk, Occasion.alter_of_stored ((hs key).trans (if_pos hk.symm)), ht]
    rfl
  · rw [if_neg hk, Occasion.alter_of_idle ((hs key).trans (if_neg (Ne.symm hk))) (hc key) (hf key)]

private theorem performs_get (w : Traced κ β ε) (k : κ) (s : Supplier β ε) :
    w.Performs (w.occasion (.get k s)) (w.perform (.get k s)).2 := by
  rw [occasion]
  cases hp : w.cache.peek w.now k with
  | some value =>
    rw [perform_get_of_peek hp]
    exact ⟨rfl, rfl, fun key =>
      (Occasion.alter_of_idle (by simp [Occasion.stored?]) rfl fun _ => rfl).symm⟩
  | none =>
    cases ha : s.answer with
    | error e =>
      rw [perform_get_of_error hp ha]
      exact ⟨rfl, rfl, fun key => (Occasion.alter_of_idle
        (by simp [Occasion.stored?, ha, Except.toOption]) rfl fun _ => rfl).symm⟩
    | ok value =>
      have hfits := Bool.eq_iff_iff.mpr (insert?_isSome_iff w.cache (s.clock.getD w.now) k value)
      cases hi : w.cache.insert? (s.clock.getD w.now) k value with
      | none =>
        rw [perform_get_of_overflow hp ha hi]
        rw [hi] at hfits
        exact ⟨rfl, rfl, fun key => (Occasion.alter_of_idle
          (by simp [Occasion.stored?, Occasion.fits, ← hfits]) rfl fun _ => rfl).symm⟩
      | some cache =>
        rw [perform_get_of_ok hp ha hi]
        rw [hi] at hfits
        refine ⟨lifetime_insert? hi, rfl, getElem?_stored hi rfl (fun key => ?_) (fun _ => rfl)
          fun _ _ => rfl⟩
        simp [Occasion.stored?, Occasion.fits, ← hfits, ha, Except.toOption]

/-- Whatever is done, the entries become what the history says of them. -/
private theorem performs (w : Traced κ β ε) (op : Operation κ β ε) :
    w.Performs (w.occasion op) (w.perform op).2 := by
  cases op with
  | get k s => exact performs_get w k s
  | insert k value =>
    have hfits := Bool.eq_iff_iff.mpr (insert?_isSome_iff w.cache w.now k value)
    rw [occasion, perform]
    cases hi : w.cache.insert? w.now k value with
    | none =>
      rw [hi] at hfits
      exact ⟨rfl, rfl, fun key => (Occasion.alter_of_idle
        (by simp [Occasion.stored?, Occasion.fits, ← hfits]) rfl fun _ => rfl).symm⟩
    | some cache =>
      rw [hi] at hfits
      refine ⟨lifetime_insert? hi, rfl, getElem?_stored hi rfl (fun key => ?_) (fun _ => rfl)
        fun _ _ => rfl⟩
      simp [Occasion.stored?, Occasion.fits, ← hfits]
  | update k f =>
    have hs (key : κ) : (w.occasion (.update k f)).stored? w.cache.lifetime key = none := rfl
    refine ⟨lifetime_update _ _ _ _, rfl, fun key => (getElem?_update w.cache w.now k f key).trans ?_⟩
    by_cases hk : key = k
    · have hchange (e : Entry β) : (if w.now.before e.expiry then { e with value := f e.value } else e) =
          e.changed ((w.occasion (.update k f)).change? key e.expiry) := by
        by_cases hlive : w.now.before e.expiry = true
        · simp [Occasion.change?, occasion, perform, hk, hlive, Entry.changed]
        · simp [Occasion.change?, occasion, perform, hk, hlive, Entry.changed]
      simp only [Occasion.alter_of_kept (hs key) rfl, if_pos hk, hchange]
    · have hidle (expiry : Instant) : (w.occasion (.update k f)).change? key expiry = none :=
        if_neg fun h => hk h.1.symm
      rw [if_neg hk, Occasion.alter_of_idle (hs key) rfl hidle]
  | clear k =>
    have hs (key : κ) : (w.occasion (.clear k)).stored? w.cache.lifetime key = none := rfl
    refine ⟨rfl, rfl, fun key => (getElem?_clear w.cache k key).trans ?_⟩
    by_cases hk : key = k
    · rw [if_pos hk, Occasion.alter_of_clears (hs key) (decide_eq_true hk.symm)]
    · rw [if_neg hk, Occasion.alter_of_idle (hs key) (decide_eq_false (Ne.symm hk)) fun _ => rfl]
  | peek k =>
    exact ⟨rfl, rfl, fun key => (Occasion.alter_of_idle rfl rfl fun _ => rfl).symm⟩
  | setClock t =>
    exact ⟨rfl, rfl, fun key => (Occasion.alter_of_idle rfl rfl fun _ => rfl).symm⟩

structure IsTold (d : Duration) (w : Traced κ β ε) : Prop where
  lifetime : w.cache.lifetime = d
  entries : ∀ key : κ, w.cache.entries[key]? = entryOf d w.history key

theorem IsTold.step {d : Duration} (h : w.IsTold d) (op : Operation κ β ε) : (w.step op).IsTold d := by
  have hp := performs w op
  have hhistory : (w.step op).history = w.history ++ [w.occasion op] := by
    rw [Traced.step, hp.history]
    rfl
  refine ⟨hp.lifetime.trans h.lifetime, fun key => ?_⟩
  rw [hhistory, entryOf_concat, ← h.entries, ← h.lifetime]
  exact hp.entries key

private theorem isTold_after (d : Duration) (now : Instant) (ops : List (Operation κ β ε)) :
    ((start d now).after ops).IsTold d.asLifetime := by
  induction ops using List.reverseRecOn with
  | nil => exact ⟨rfl, fun key => by simp [start, after, ofDuration, entryOf]⟩
  | append_singleton ops op ih =>
    rw [after, List.foldl_append]
    exact ih.step op

omit [LawfulEqOrd κ] in
theorem IsTold.peek_eq_some_iff {d : Duration} (h : w.IsTold d) {key : κ} {t : Instant} {value : β} :
    w.cache.peek t key = some value ↔ Stands d w.history key t value := by
  rw [Cache.peek_eq_some_iff, h.entries key, stands_iff]

omit [LawfulEqOrd κ] in
theorem IsTold.peek_eq_none_iff {d : Duration} (h : w.IsTold d) {key : κ} {t : Instant} :
    w.cache.peek t key = none ↔ ∀ value, ¬ Stands d w.history key t value := by
  simp only [Option.eq_none_iff_forall_ne_some, ne_eq, h.peek_eq_some_iff]

/-- An operation on one key does not show at another, at any instant. -/
private theorem peek_perform_of_ne {op : Operation κ β ε} {key : κ} (hk : op.key? ≠ some key) (t : Instant) :
    (w.perform op).2.cache.peek t key = w.cache.peek t key := by
  rw [peek, (performs w op).entries key, Occasion.alter_of_ne hk]
  rfl

/-- What stands in a cache follows from what was done with it: a value is there at an instant just
when the history has it. Then a glance and a lookup show it; else a glance shows nothing, and a
lookup what its supplier answered. The supplier is called just when no value is there, an update
tells whether one is, a failed supplier leaves all as it was, and no operation shows at any other
key. -/
theorem contents_follow_history (d : Duration) (now : Instant) (ops : List (Operation κ β ε)) :
    let w := (start d now).after ops
    (d.nanoseconds ≤ Duration.longestSpan.nanoseconds → d.asLifetime = d) ∧
    (∀ key t value, w.cache.peek t key = some value ↔ Stands d.asLifetime w.history key t value) ∧
    (∀ key value, Stands d.asLifetime w.history key w.now value →
      (w.perform (.peek key)).1 = .value (some value) ∧
      ∀ supplier, (w.perform (.get key supplier)).1 = .fetched (.ok value)) ∧
    (∀ key, (∀ value, ¬ Stands d.asLifetime w.history key w.now value) →
      (w.perform (.peek key)).1 = .value none ∧
      ∀ supplier, (w.perform (.get key supplier)).1 =
        if supplier.answer.isOk ∧ (supplier.clock.getD w.now).add? d.asLifetime = none then .panicked
        else .fetched supplier.answer) ∧
    (∀ key supplier, (w.perform (.get key supplier)).2.called = true ↔
      ∀ value, ¬ Stands d.asLifetime w.history key w.now value) ∧
    (∀ key f, (w.perform (.update key f)).1 = .flag true ↔
      ∃ value, Stands d.asLifetime w.history key w.now value) ∧
    (∀ key supplier e, supplier.answer = .error e →
      (w.perform (.get key supplier)).2.cache = w.cache) ∧
    ∀ op key, op.key? ≠ some key → ∀ t,
      (w.perform op).2.cache.peek t key = w.cache.peek t key := by
  intro w
  have htold : w.IsTold d.asLifetime := isTold_after d now ops
  refine ⟨fun hd => if_pos hd, fun key t value => htold.peek_eq_some_iff, fun key value hstands => ?_,
    fun key hnone => ?_, fun key supplier => ?_, fun key f => ?_, fun key supplier e he => ?_,
    fun op key hk t => peek_perform_of_ne hk t⟩
  · have hp := htold.peek_eq_some_iff.mpr hstands
    exact ⟨congrArg Shown.value hp, fun supplier => by rw [perform_get_of_peek hp]⟩
  · have hp := htold.peek_eq_none_iff.mpr hnone
    exact ⟨congrArg Shown.value hp, fun supplier =>
      htold.lifetime ▸ shown_get_of_peek_eq_none hp⟩
  · rw [called_perform_get, htold.peek_eq_none_iff]
  · have hflag : (w.perform (.update key f)).1 = .flag (w.cache.peek w.now key).isSome :=
      congrArg Shown.flag (update_fst w.cache w.now key f)
    simp only [hflag, Shown.flag.injEq, Option.isSome_iff_exists, htold.peek_eq_some_iff]
  · cases hp : w.cache.peek w.now key with
    | some value => rw [perform_get_of_peek hp]
    | none => rw [perform_get_of_error hp he]

/-- The clock passes the end of a lifetime and comes back. An update made beyond the end is void, one
made after the return is not. -/
theorem contents_follow_history_beyondAndBack :
    let ops : List (Operation String Nat Unit) :=
      [.insert "a" 1, .setClock ⟨5⟩, .update "a" (· + 10), .setClock ⟨4⟩, .update "a" (· + 100)]
    let w := (start ⟨5⟩ ⟨0⟩).after ops
    w.cache.peek ⟨4⟩ "a" = some 101 ∧
      (w.perform (.get "a" { answer := .error () })).1 = .fetched (.ok 101) ∧
      Duration.asLifetime ⟨5⟩ = ⟨5⟩ := by
  intro ops w
  obtain ⟨hlifetime, hcontents, hlive, -⟩ := contents_follow_history ⟨5⟩ ⟨0⟩ ops
  have hstands : Stands (Duration.asLifetime ⟨5⟩) w.history "a" ⟨4⟩ 101 :=
    ⟨[], ⟨.insert "a" 1, ⟨0⟩, false⟩, _, 1, rfl, rfl, by simp [Occasion.stored?], by decide, rfl⟩
  exact ⟨(hcontents "a" ⟨4⟩ 101).mpr hstands, (hlive "a" 101 hstands).2 _, hlifetime (by decide)⟩

end Traced

end GuildBot.Cache

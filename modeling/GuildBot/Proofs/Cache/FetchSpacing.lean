import GuildBot.Proofs.Cache.Entry
import GuildBot.Proofs.Cache.SingleFlight

/-!
# Fetches one after another

While the clock does not go back, a fetch for a key begins only when what an earlier fetch stored
for it has expired, unless the key was cleared in between.
-/

namespace GuildBot.Cache.Watched

open Std Progress

variable {κ β ε : Type} [Ord κ] [TransOrd κ] {lookups : Strand → Lookup κ β ε}

/-- What holds of a stored value at all later times. `before` and `after` are what the chronicle
tells before and after the storing, `gone` are the strands that have ended by now. -/
structure Settled (d : Duration) (gone : Strand → Prop) (w : Watched κ β)
    (before after : List (Event κ β)) (s : Strand) (key : κ) (time : Instant)
    (entry : Option (Entry β)) : Prop where
  began : ∃ u, .began s key u ∈ before
  entry : ∃ e, entry = some e ∧ e.expiry.nanoseconds = time.nanoseconds + d.nanoseconds
  past : time.nanoseconds ≤ w.now.nanoseconds
  /-- The entry of the key may be replaced, but by none that expires earlier. -/
  kept : .cleared key ∉ after → ∃ e, w.cache.entries[key]? = some e ∧
    time.nanoseconds + d.nanoseconds ≤ e.expiry.nanoseconds
  spaced : ∀ m t u n, after = m ++ .began t key u :: n → .cleared key ∉ m →
    time.nanoseconds + d.nanoseconds ≤ u.nanoseconds
  /-- Whoever had begun to fetch by then is over, and the chronicle tells no more of them. -/
  gone : ∀ t k u, .began t k u ∈ before → gone t ∧ ∀ e ∈ after, e.strand? ≠ some t

structure Spaced (d : Duration) (gone : Strand → Prop) (w : Watched κ β) : Prop where
  lifetime : w.cache.lifetime = d
  settled : ∀ before s key time entry after,
    w.chronicle = before ++ .stored s key time entry :: after →
    Settled d gone w before after s key time entry

private theorem append_singleton_eq {α : Type} {xs before after : List α} {x y : α}
    (h : xs ++ [x] = before ++ y :: after) :
    (after = [] ∧ before = xs ∧ y = x) ∨ ∃ rest, after = rest ++ [x] ∧ xs = before ++ y :: rest := by
  rcases List.eq_nil_or_concat' after with rfl | ⟨rest, z, rfl⟩
  · obtain ⟨hb, hx⟩ := List.append_inj' h rfl
    exact .inl ⟨rfl, hb.symm, by simpa using hx.symm⟩
  · right
    rw [← List.cons_append, ← List.append_assoc] at h
    obtain ⟨hb, hx⟩ := List.append_inj' h rfl
    obtain rfl : x = z := by simpa using hx
    exact ⟨rest, rfl, hb⟩

/-- How entries may change without the chronicle telling of it: they keep their expiry, or are
stored anew. -/
def Renewed (d : Duration) (w w' : Watched κ β) (key : κ) : Prop :=
  ∀ e, w.cache.entries[key]? = some e → ∃ e', w'.cache.entries[key]? = some e' ∧
    (e'.expiry = e.expiry ∨ e'.expiry.nanoseconds = w.now.nanoseconds + d.nanoseconds)

private theorem Renewed.refl (d : Duration) (w : Watched κ β) (key : κ) : Renewed d w w key :=
  fun e he => ⟨e, he, .inl rfl⟩

private theorem Settled.kept_of_renewed {d : Duration} {gone : Strand → Prop} {w w' : Watched κ β}
    {before after : List (Event κ β)} {s : Strand} {key : κ} {time : Instant}
    {entry : Option (Entry β)} (h : Settled d gone w before after s key time entry)
    (hr : Renewed d w w' key) (hc : .cleared key ∉ after) :
    ∃ e, w'.cache.entries[key]? = some e ∧
      time.nanoseconds + d.nanoseconds ≤ e.expiry.nanoseconds := by
  obtain ⟨e, he, hle⟩ := h.kept hc
  obtain ⟨e', he', hx | hx⟩ := hr e he
  · exact ⟨e', he', by rw [hx]; exact hle⟩
  · exact ⟨e', he', by have := h.past; omega⟩

private theorem Spaced.renew {d : Duration} {gone gone' : Strand → Prop} {w w' : Watched κ β}
    (h : Spaced d gone w) (hc : w'.chronicle = w.chronicle) (hl : w'.cache.lifetime = d)
    (hn : w.now.nanoseconds ≤ w'.now.nanoseconds) (hr : ∀ key, Renewed d w w' key)
    (ho : ∀ s, gone s → gone' s) : Spaced d gone' w' := by
  refine ⟨hl, ?_⟩
  intro before s key time entry after hs
  have hold := h.settled before s key time entry after (by rw [← hc, hs])
  exact ⟨hold.began, hold.entry, Int.le_trans hold.past hn, hold.kept_of_renewed (hr key), hold.spaced,
    fun t k u ht => ⟨ho t (hold.gone t k u ht).1, (hold.gone t k u ht).2⟩⟩

private theorem Spaced.tell {d : Duration} {gone : Strand → Prop} {w w' : Watched κ β}
    {e : Event κ β} (h : Spaced d gone w) (hc : w'.chronicle = w.chronicle ++ [e])
    (hl : w'.cache.lifetime = d) (hn : w'.now = w.now)
    (hr : ∀ key, e ≠ .cleared key → Renewed d w w' key)
    (ho : ∀ s, e.strand? = some s → ¬gone s)
    (hb : ∀ s key u, e = .began s key u → u = w.now ∧ w.cache.peek w.now key = none)
    (hs : ∀ s key time entry, e ≠ .stored s key time entry) : Spaced d gone w' := by
  refine ⟨hl, ?_⟩
  intro before s key time entry after hsplit
  rcases append_singleton_eq (hc.symm.trans hsplit) with ⟨-, -, he⟩ | ⟨rest, rfl, hw⟩
  · exact absurd he.symm (hs s key time entry)
  have hold := h.settled before s key time entry rest hw
  refine ⟨hold.began, hold.entry, by rw [hn]; exact hold.past, ?_, ?_, ?_⟩
  · intro hnc
    simp only [List.mem_append, List.mem_singleton, not_or] at hnc
    exact hold.kept_of_renewed (hr key (Ne.symm hnc.2)) hnc.1
  · intro m t u n hm hnc
    rcases append_singleton_eq hm with ⟨-, rfl, he⟩ | ⟨n', -, hrest⟩
    · obtain ⟨rfl, hpeek⟩ := hb t key u he.symm
      obtain ⟨x, hx, hle⟩ := hold.kept hnc
      exact Int.le_trans hle (peek_eq_none_iff.1 hpeek x hx)
    · exact hold.spaced m t u n' hrest hnc
  · intro t k u ht
    obtain ⟨hgone, hrest⟩ := hold.gone t k u ht
    refine ⟨hgone, ?_⟩
    intro x hx
    rcases List.mem_append.1 hx with hx | hx
    · exact hrest x hx
    · rw [List.mem_singleton.1 hx]
      exact fun hxs => ho t hxs hgone

private theorem Spaced.tellStored {d : Duration} {gone gone' : Strand → Prop} {w : Watched κ β}
    (h : Spaced d gone w) {s : Strand} {key : κ} {value : β} {c : Cache κ β} [LawfulEqOrd κ]
    [DecidableEq κ] (hc : w.cache.insert? w.now key value = some c) (hs : ¬gone s)
    (hb : ∃ u, .began s key u ∈ w.chronicle) (ho : ∀ t, gone t → gone' t)
    (hbegan : ∀ t k u, .began t k u ∈ w.chronicle → gone' t) :
    Spaced d gone' (({ w with cache := c } : Watched κ β).tell
      (.stored s key w.now c.entries[key]?)) := by
  have hentry := getElem?_insert? hc
  have hl : c.lifetime = d := (lifetime_insert? hc).trans h.lifetime
  have hx : (w.cache.expiryFrom w.now).nanoseconds = w.now.nanoseconds + d.nanoseconds := by
    simp [expiryFrom, h.lifetime]
  refine ⟨hl, ?_⟩
  intro before t k time entry after hsplit
  rcases append_singleton_eq hsplit with ⟨rfl, rfl, he⟩ | ⟨rest, rfl, hw⟩
  · cases he
    refine ⟨hb, ⟨_, by rw [hentry, if_pos rfl], hx⟩, Int.le_refl _, ?_, ?_, ?_⟩
    · intro _
      exact ⟨_, (hentry key).trans (if_pos rfl), Int.le_of_eq hx.symm⟩
    · intro m t u n hm
      simp at hm
    · exact fun t k u ht => ⟨hbegan t k u ht, by simp⟩
  · have hold := h.settled before t k time entry rest hw
    refine ⟨hold.began, hold.entry, hold.past, ?_, ?_, ?_⟩
    · intro hnc
      simp only [List.mem_append, List.mem_singleton, not_or] at hnc
      refine hold.kept_of_renewed ?_ hnc.1
      intro e he
      by_cases hk : k = key
      · exact ⟨_, (hentry k).trans (if_pos hk), .inr hx⟩
      · exact ⟨e, (hentry k).trans ((if_neg hk).trans he), .inl rfl⟩
    · intro m t u n hm hnc
      rcases append_singleton_eq hm with ⟨-, -, he⟩ | ⟨n', -, hrest⟩
      · cases he
      · exact hold.spaced m t u n' hrest hnc
    · intro t k u ht
      obtain ⟨hgone, hrest⟩ := hold.gone t k u ht
      refine ⟨ho t hgone, ?_⟩
      intro x hx
      rcases List.mem_append.1 hx with hx | hx
      · exact hrest x hx
      · rw [List.mem_singleton.1 hx]
        rintro ⟨⟩
        exact hs hgone

def IsOver (c : Lookups κ β ε) (s : Strand) : Prop := ∃ r, c.progress s = .ended r

private theorem Entered.spaced {d : Duration} {gone : Strand → Prop} {s : Strand}
    {l : Lookup κ β ε} {w w' : Watched κ β} {q q' : List Strand} (he : Entered s l w q w' q')
    (h : Spaced d gone w) (hs : ¬gone s) : Spaced d gone w' := by
  cases he with
  | again => exact h
  | granted hq hh hn hw hp =>
    refine h.tell rfl h.lifetime rfl (fun key _ => .refl d w key) ?_ ?_ (by simp)
    · rintro t ⟨⟩; exact hs
    · rintro t k u ⟨⟩; exact ⟨rfl, hp⟩

/-- While a strand is inside its fetch, all others that had begun theirs are over. -/
private theorem Orderly.over_of_began {c : Lookups κ β ε} (h : Orderly lookups c) {s t : Strand}
    {w : Watched κ β} {q : List Strand}
    (he : Entered s (lookups s) c.hub.state (c.hub.queue ()) w q) (ht : t ≠ s) {k : κ}
    {u : Instant} (hb : .began t k u ∈ w.chronicle) : IsOver c t := by
  have hold : .began t k u ∈ c.hub.state.chronicle := by
    cases he with
    | again => exact hb
    | granted =>
      rcases List.mem_append.1 hb with hb | hb
      · exact hb
      · simp [ht] at hb
  have hstage := h.stage t
  cases hp : c.progress t with
  | ended r => exact ⟨r, hp⟩
  | waiting obstacle rest =>
    rw [hp] at hstage
    exfalso
    cases hstage with
    | fresh _ hw => exact hw _ hold rfl
    | queued _ hw => exact hw _ hold rfl
    | fetching hq =>
      have hhead : (c.hub.queue ()).head? = some s := by
        cases he with
        | again hs => exact hs
        | granted hor hs =>
          rcases hor with rfl | rfl
          · exact hs
          · simpa [hq] using hs
      exact ht (Option.some.inj (hq.symm.trans hhead))

section

variable [LawfulEqOrd κ] [DecidableEq κ]

private theorem Turned.spaced {d : Duration} {c : Lookups κ β ε} (ho : Orderly lookups c)
    (h : Spaced d (IsOver c) c.hub.state) {s : Strand} {w : Watched κ β} {q : List Strand}
    {p : Progress (Watched κ β) Unit (fun _ : Empty => Unit) (Except ε β)} (hs : ¬IsOver c s)
    {gone : Strand → Prop} (hgone : ∀ t, IsOver c t → gone t)
    (hself : (∃ r, p = .ended r) → gone s)
    (ht : Turned s (lookups s) c.hub.state (c.hub.queue ()) (c.progress s) p w q) :
    Spaced d gone w := by
  have same : Spaced d gone c.hub.state :=
    h.renew rfl h.lifetime (Int.le_refl _) (fun key => .refl d _ key) hgone
  cases ht with
  | blocked => exact same
  | joined => exact same
  | found => exact same
  | suspended he =>
    have hw := he.spaced h hs
    exact hw.renew rfl hw.lifetime (Int.le_refl _) (fun key => .refl d _ key) hgone
  | @finished r w' w'' q' he hf =>
    have hw := he.spaced h hs
    have hfinished : Spaced d (IsOver c) (w'.tell (.finished s)) := by
      refine hw.tell rfl hw.lifetime rfl (fun key _ => .refl d w' key) ?_ (by simp) (by simp)
      rintro t ⟨⟩; exact hs
    cases hf with
    | panicked | failed =>
      exact hfinished.renew rfl hw.lifetime (Int.le_refl _) (fun key => .refl d _ key) hgone
    | stored _ hc =>
      refine hfinished.tellStored hc hs ?_ hgone ?_
      · obtain ⟨-, -, ⟨time, hb⟩, -⟩ := he.facts ho.nodup
        exact ⟨time, List.mem_append_left _ hb⟩
      · intro t k u hb
        have hb : .began t k u ∈ w'.chronicle := by simpa [tell] using hb
        by_cases hts : t = s
        · rw [hts]; exact hself ⟨_, rfl⟩
        · exact hgone t (ho.over_of_began he hts hb)

private theorem touch_spaced {d : Duration} {gone : Strand → Prop} {w : Watched κ β}
    (h : Spaced d gone w) (deed : Touch κ β)
    (hf : GoesForward w.now (.outside deed)) : Spaced d gone (touch deed w) := by
  cases deed with
  | peek key => exact h
  | insert key value =>
    simp only [touch]
    cases hc : w.cache.insert? w.now key value with
    | none => exact h
    | some c =>
      refine h.renew rfl ((lifetime_insert? hc).trans h.lifetime) (Int.le_refl _) ?_ fun _ => id
      intro k e he
      by_cases hk : k = key
      · exact ⟨_, (getElem?_insert? hc k).trans (if_pos hk), .inr (by simp [expiryFrom, h.lifetime])⟩
      · exact ⟨e, (getElem?_insert? hc k).trans ((if_neg hk).trans he), .inl rfl⟩
  | update key f =>
    refine h.renew rfl ((lifetime_update _ _ _ _).trans h.lifetime) (Int.le_refl _) ?_ fun _ => id
    intro k e he
    have hu := getElem?_update w.cache w.now key f k
    by_cases hk : k = key
    · rw [if_pos hk, he] at hu
      refine ⟨_, hu, .inl ?_⟩
      dsimp only
      split <;> rfl
    · exact ⟨e, hu.trans ((if_neg hk).trans he), .inl rfl⟩
  | clear key =>
    refine h.tell rfl h.lifetime rfl ?_ (by simp [Event.strand?]) (by simp)
      (by simp)
    intro k hk e he
    have hne : k ≠ key := fun h => hk (by rw [h])
    exact ⟨e, (getElem?_clear w.cache key k).trans ((if_neg hne).trans he), .inl rfl⟩
  | setClock t => exact h.renew rfl h.lifetime hf (fun key => .refl d w key) fun _ => id

/-- Every move that does not set the clock back keeps the stored values settled. -/
theorem Spaced.step {d : Duration} {c : Lookups κ β ε} (ho : Orderly lookups c)
    (h : Spaced d (IsOver c) c.hub.state) {m : Crowd.Move (Touch κ β)}
    (hf : GoesForward c.hub.state.now m) :
    Spaced d (IsOver (Crowd.step respond touch c m)) (Crowd.step respond touch c m).hub.state := by
  cases m with
  | turn s =>
    by_cases hs : IsOver c s
    · obtain ⟨r, hr⟩ := hs
      refine h.renew (by simp [Crowd.step, hr, poll]) (by simp [Crowd.step, hr, poll, h.lifetime])
        (by simp [Crowd.step, hr, poll]) ?_ ?_
      · intro key
        simpa [Crowd.step, hr, poll] using Renewed.refl d c.hub.state key
      · rintro t ⟨r', ht⟩
        by_cases hts : t = s
        · exact ⟨r, by simp [Crowd.step, hr, poll, hts]⟩
        · exact ⟨r', by simp [Crowd.step, hts, ht]⟩
    · refine (turned (ho.stage s) ho.nodup).spaced ho h hs ?_ ?_
      · rintro t ⟨r, ht⟩
        have hts : t ≠ s := by rintro rfl; exact hs ⟨r, ht⟩
        exact ⟨r, by simp [Crowd.step, hts, ht]⟩
      · rintro ⟨r, hr⟩
        exact ⟨r, by simpa [Crowd.step] using hr⟩
  | drop task =>
    refine h.renew (by simp [Crowd.step]) (by simp [Crowd.step, h.lifetime])
      (by simp [Crowd.step]) ?_ ?_
    · intro key
      simpa [Crowd.step] using Renewed.refl d c.hub.state key
    · rintro t ⟨r, ht⟩
      exact ⟨r, by simp [Crowd.step, ht, abandon]⟩
  | pass milliseconds =>
    change Spaced d (IsOver c) (c.hub.arrive _).state
    rw [Hub.arrive_state]
    exact h
  | outside deed => exact touch_spaced h deed hf

private theorem after_spaced {d : Duration} {c : Lookups κ β ε} (ho : Orderly lookups c)
    (h : Spaced d (IsOver c) c.hub.state) {moves : List (Crowd.Move (Touch κ β))}
    (hf : NeverGoesBack c moves) : Spaced d (IsOver (after c moves)) (after c moves).hub.state := by
  induction moves generalizing c with
  | nil => exact h
  | cons m moves ih => exact ih (ho.step m) (h.step ho hf.1) hf.2

/-- At most one fetch runs at a time, whatever the keys. And while the clock does not go back, of
two fetches for a key whose answers were stored the later began after the earlier was stored, and,
if the key was not cleared in between, no earlier than what was stored first expired. -/
theorem fetches_single_and_spaced (cache : Cache κ β) (now : Instant)
    (lookups : Strand → Lookup κ β ε) (moves : List (Crowd.Move (Touch κ β))) :
    (∀ s t, IsFetching (after (start cache now lookups) moves) s →
      IsFetching (after (start cache now lookups) moves) t → s = t) ∧
    (NeverGoesBack (start cache now lookups) moves →
      ∀ earlier between later s t key u v entry entry',
        (after (start cache now lookups) moves).hub.state.chronicle =
          earlier ++ .stored s key u entry :: (between ++ .stored t key v entry' :: later) →
        ∃ (e : Entry β) (m : List (Event κ β)) (w : Instant) (n : List (Event κ β)),
          entry = some e ∧
          e.expiry.nanoseconds = u.nanoseconds + cache.lifetime.nanoseconds ∧
          between = m ++ .began t key w :: n ∧
          (.cleared key ∉ m → e.expiry.nanoseconds ≤ w.nanoseconds)) := by
  have ho := after_orderly (start_orderly cache now lookups) moves
  refine ⟨fun s t hs ht => ?_, fun hf earlier between later s t key u v entry entry' hc => ?_⟩
  · exact Option.some.inj ((ho.head_of_isFetching hs).symm.trans (ho.head_of_isFetching ht))
  have hstart : Spaced cache.lifetime (IsOver (start cache now lookups))
      (start cache now lookups).hub.state := ⟨rfl, by simp [start, Crowd.start]⟩
  have h := after_spaced (start_orderly cache now lookups) hstart hf
  have hfirst := h.settled _ _ _ _ _ _ hc
  have hsecond := h.settled (earlier ++ .stored s key u entry :: between) t key v entry' later
    (by rw [hc]; simp)
  obtain ⟨w, hw⟩ := hsecond.began
  have hbetween : .began t key w ∈ between := by
    rcases List.mem_append.1 hw with hw | hw
    · exact absurd rfl ((hfirst.gone t key w hw).2 (.stored t key v entry') (by simp))
    · simpa using hw
  obtain ⟨m, n, rfl⟩ := List.append_of_mem hbetween
  obtain ⟨e, he, hx⟩ := hfirst.entry
  refine ⟨e, m, w, n, he, hx, rfl, ?_⟩
  intro hm
  rw [hx]
  exact hfirst.spaced m t w (n ++ .stored t key v entry' :: later) (by simp) hm

end

/-- Two lookups of one key, the second made while the first fetches. -/
def twoLookups (s : Strand) : Lookup Nat Nat Empty :=
  if s.task = 0 then { key := 1, suspensions := [.pause], outcome := some (.ok 10) }
  else { key := 1, suspensions := [.wait 3], outcome := some (.ok 11) }

/-- Moves in which the second lookup waits until what the first one stored has expired. -/
def longWait : List (Crowd.Move (Touch Nat Nat)) :=
  [.turn ⟨0, none⟩, .turn ⟨1, none⟩, .turn ⟨0, none⟩, .outside (.update 1 (· + 5)),
    .outside (.setClock ⟨7⟩), .turn ⟨1, none⟩, .pass 3, .turn ⟨1, none⟩]

theorem fetches_spaced_longWait :
    (IsFetching (after (start { lifetime := ⟨5⟩ } ⟨0⟩ twoLookups) (longWait.take 2)) ⟨0, none⟩ ∧
      ∀ t, IsFetching (after (start { lifetime := ⟨5⟩ } ⟨0⟩ twoLookups) (longWait.take 2)) t →
        ⟨0, none⟩ = t) ∧
    NeverGoesBack (start { lifetime := ⟨5⟩ } ⟨0⟩ twoLookups) longWait ∧
    (after (start { lifetime := ⟨5⟩ } ⟨0⟩ twoLookups) longWait).hub.state.chronicle =
      [.began ⟨0, none⟩ 1 ⟨0⟩, .finished ⟨0, none⟩] ++
        .stored ⟨0, none⟩ 1 ⟨0⟩ (some ⟨10, ⟨5⟩⟩) ::
          ([.began ⟨1, none⟩ 1 ⟨7⟩, .finished ⟨1, none⟩] ++
            .stored ⟨1, none⟩ 1 ⟨7⟩ (some ⟨11, ⟨12⟩⟩) :: []) ∧
    ∃ (e : Entry Nat) (m : List (Event Nat Nat)) (w : Instant) (n : List (Event Nat Nat)),
      some ⟨10, ⟨5⟩⟩ = some e ∧ e.expiry.nanoseconds = 0 + 5 ∧
      [.began ⟨1, none⟩ 1 ⟨7⟩, .finished ⟨1, none⟩] = m ++ .began ⟨1, none⟩ 1 w :: n ∧
      (.cleared 1 ∉ m → e.expiry.nanoseconds ≤ w.nanoseconds) := by
  have hfetching : IsFetching
      (after (start { lifetime := ⟨5⟩ } ⟨0⟩ twoLookups) (longWait.take 2)) ⟨0, none⟩ := by
    refine ⟨⟨.turn, _, rfl⟩, ⟨1, ⟨0⟩, List.mem_singleton.2 rfl⟩, ?_⟩
    rintro (_ | ⟨_, ⟨⟩⟩)
  have hforward : NeverGoesBack (start { lifetime := ⟨5⟩ } ⟨0⟩ twoLookups) longWait :=
    ⟨trivial, trivial, trivial, trivial, (by decide : (0 : Int) ≤ 7), trivial, trivial, trivial, trivial⟩
  have hchronicle : (after (start { lifetime := ⟨5⟩ } ⟨0⟩ twoLookups) longWait).hub.state.chronicle =
      [.began ⟨0, none⟩ 1 ⟨0⟩, .finished ⟨0, none⟩] ++
        .stored ⟨0, none⟩ 1 ⟨0⟩ (some ⟨10, ⟨5⟩⟩) ::
          ([.began ⟨1, none⟩ 1 ⟨7⟩, .finished ⟨1, none⟩] ++
            .stored ⟨1, none⟩ 1 ⟨7⟩ (some ⟨11, ⟨12⟩⟩) :: []) := rfl
  refine ⟨⟨hfetching, ?_⟩, hforward, hchronicle, ?_⟩
  · intro t
    exact (fetches_single_and_spaced { lifetime := ⟨5⟩ } ⟨0⟩ twoLookups (longWait.take 2)).1 _ t
      hfetching
  · exact (fetches_single_and_spaced { lifetime := ⟨5⟩ } ⟨0⟩ twoLookups longWait).2 hforward
      _ _ _ _ _ _ _ _ _ _ hchronicle

end GuildBot.Cache.Watched

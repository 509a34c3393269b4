import GuildBot.Proofs.Cache.FetchSpacing
import GuildBot.Proofs.Flow.Crowd

/-!
# What lookups leave behind

The entries of a cache are what others wrote and what those lookups stored that ended with the answer of
their own fetch. A lookup that was abandoned, failed or panicked leaves nothing behind, and the fetch lock
is never held by one that is over.
-/

namespace GuildBot.Cache.Watched

open Std Progress

variable {κ β ε : Type} [Ord κ] [TransOrd κ] {lookups : Strand → Lookup κ β ε}

/-- Whether a strand has been handed the fetch lock and is about to look again. -/
structure IsHanded (lookups : Strand → Lookup κ β ε) (c : Lookups κ β ε) (s : Strand) : Prop where
  waits : c.progress s = .waiting (.lock ()) (queued s (lookups s))
  granted : c.hub.grants () s = true
  woken : s ∈ c.hub.woken

/-- Whether a move is neither what others do nor a turn of a lookup that has ended, in a crowd that the
move led to, with a value. -/
def IsFruitless (c : Lookups κ β ε) : Crowd.Move (Touch κ β) → Prop
  | .turn s => ∀ value, c.progress s ≠ .ended (some (.ok value))
  | .drop _ => True
  | .pass _ => True
  | .outside _ => False

/-- What a move writes: what others do, or the answer of its own fetch with which a lookup ends. -/
def writing (lookups : Strand → Lookup κ β ε) (c : Lookups κ β ε) (m : Crowd.Move (Touch κ β)) :
    List (Touch κ β) :=
  let c' := Crowd.step respond touch c m
  match m with
  | .turn s => match c.progress s, c'.progress s with
    | .waiting _ _, .ended (some (.ok value)) =>
      if c'.hub.state.hasBegun s then [.insert (lookups s).key value] else []
    | _, _ => []
  | .outside deed => [deed]
  | .drop _ => []
  | .pass _ => []

/-- All that is written in a run, in order. -/
def writings (lookups : Strand → Lookup κ β ε) :
    Lookups κ β ε → List (Crowd.Move (Touch κ β)) → List (Touch κ β)
  | _, [] => []
  | c, m :: rest => writing lookups c m ++ writings lookups (Crowd.step respond touch c m) rest

/-- Does one thing after another to a cache. -/
def touchAll (deeds : List (Touch κ β)) (w : Watched κ β) : Watched κ β :=
  deeds.foldl (fun w deed => touch deed w) w

/-- Whether two watched caches are the same but for what is told of them. -/
def Agrees (w w' : Watched κ β) : Prop := w.cache = w'.cache ∧ w.now = w'.now

theorem Agrees.touch {w w' : Watched κ β} (h : Agrees w w') (deed : Touch κ β) :
    Agrees (touch deed w) (touch deed w') := by
  obtain ⟨hcache, hnow⟩ := h
  cases deed with
  | peek key => exact ⟨hcache, hnow⟩
  | insert key value =>
    simp only [Watched.touch, hcache, hnow]
    cases w'.cache.insert? w'.now key value with
    | none => exact ⟨hcache, hnow⟩
    | some c => exact ⟨rfl, by simp⟩
  | update key f => exact ⟨by simp only [Watched.touch, hcache, hnow], hnow⟩
  | clear key => exact ⟨by simp only [Watched.touch, tell, hcache], hnow⟩
  | setClock t => exact ⟨hcache, rfl⟩

private theorem Agrees.touchAll {w w' : Watched κ β} (h : Agrees w w') (deeds : List (Touch κ β)) :
    Agrees (touchAll deeds w) (touchAll deeds w') := by
  induction deeds generalizing w w' with
  | nil => exact h
  | cons deed deeds ih => exact ih (h.touch deed)

private theorem Entered.agrees {s : Strand} {l : Lookup κ β ε} {w w' : Watched κ β}
    {q q' : List Strand} (h : Entered s l w q w' q') : Agrees w' w := by
  cases h with
  | again => exact ⟨rfl, rfl⟩
  | granted => exact ⟨rfl, rfl⟩

private theorem Turned.writes {s : Strand} {l : Lookup κ β ε} {w w' : Watched κ β} {q q' : List Strand}
    {obstacle : Obstacle Unit} {rest : Action κ β (Except ε β)}
    {p' : Progress (Watched κ β) Unit (fun _ : Empty => Unit) (Except ε β)} (hn : q.Nodup)
    (h : Turned s l w q (.waiting obstacle rest) p' w' q') :
    (Agrees w' w ∧ ((∀ value, p' ≠ .ended (some (.ok value))) ∨ w'.hasBegun s = false)) ∨
    ∃ value, p' = .ended (some (.ok value)) ∧ w'.hasBegun s = true ∧
      Agrees w' (Watched.touch (.insert l.key value) w) := by
  cases h with
  | blocked => exact .inl ⟨⟨rfl, rfl⟩, .inl nofun⟩
  | joined => exact .inl ⟨⟨rfl, rfl⟩, .inl nofun⟩
  | found hw => exact .inl ⟨⟨rfl, rfl⟩, .inr hw.hasBegun⟩
  | suspended he => exact .inl ⟨he.agrees, .inl nofun⟩
  | @finished r w' w'' q' he hf =>
    have hagrees := he.agrees
    cases hf with
    | panicked => exact .inl ⟨hagrees, .inl nofun⟩
    | failed => exact .inl ⟨hagrees, .inl nofun⟩
    | @stored value cache ho hc =>
      refine .inr ⟨value, rfl, ?_, ?_⟩
      · obtain ⟨-, -, ⟨time, hb⟩, -⟩ := he.facts hn
        exact (hasBegun_iff _ s).2
          ⟨l.key, time, List.mem_append_left _ (List.mem_append_left _ hb)⟩
      · rw [hagrees.1, hagrees.2] at hc
        simp only [Watched.touch, hc]
        exact ⟨rfl, hagrees.2⟩

private theorem writing_turn (lookups : Strand → Lookup κ β ε) {c : Lookups κ β ε} {s : Strand}
    {obstacle : Obstacle Unit} {rest : Action κ β (Except ε β)}
    (hp : c.progress s = .waiting obstacle rest)
    {p' : Progress (Watched κ β) Unit (fun _ : Empty => Unit) (Except ε β)}
    {h' : Hub (Watched κ β) Unit}
    (hpoll : (Progress.waiting obstacle rest).poll respond s c.hub = (p', h')) :
    (∀ value, p' = .ended (some (.ok value)) → h'.state.hasBegun s = true →
      writing lookups c (.turn s) = [.insert (lookups s).key value]) ∧
    ((∀ value, p' ≠ .ended (some (.ok value))) ∨ h'.state.hasBegun s = false →
      writing lookups c (.turn s) = []) := by
  simp only [writing, Crowd.step, hp, hpoll, if_true]
  constructor
  · intro value hvalue hbegun
    simp only [hvalue, hbegun, if_true]
  · intro hnot
    rcases p' with _ | _ | _ | value
    · rfl
    · rfl
    · rfl
    · rcases hnot with hnot | hnot
      · exact absurd rfl (hnot value)
      · simp [hnot]

/-- A move does to the cache what it is said to write. -/
private theorem step_agrees {c : Lookups κ β ε} (ho : Orderly lookups c) (m : Crowd.Move (Touch κ β)) :
    Agrees (Crowd.step respond touch c m).hub.state (touchAll (writing lookups c m) c.hub.state) := by
  cases m with
  | turn s =>
    cases hp : c.progress s with
    | ended r => simp [Agrees, Crowd.step, writing, hp, poll, touchAll]
    | waiting obstacle rest =>
      have hturned := turned (ho.stage s) ho.nodup
      rw [hp] at hturned
      rcases hpoll : (Progress.waiting obstacle rest).poll respond s c.hub with ⟨p', h'⟩
      rw [hpoll] at hturned
      have hstate : (Crowd.step respond touch c (.turn s)).hub.state = h'.state := by
        simp only [Crowd.step, hp, hpoll]
      obtain ⟨hinsert, hnothing⟩ := writing_turn lookups hp hpoll
      rw [hstate]
      rcases hturned.writes ho.nodup with ⟨hagrees, hnot⟩ | ⟨value, hvalue, hbegun, hagrees⟩
      · rw [hnothing hnot]
        exact hagrees
      · rw [hinsert value hvalue hbegun]
        exact hagrees
  | drop task => exact ⟨by simp [Crowd.step, writing, touchAll], by simp [Crowd.step, writing, touchAll]⟩
  | pass ms => exact ⟨by simp [Crowd.step, writing, touchAll], by simp [Crowd.step, writing, touchAll]⟩
  | outside deed => exact ⟨rfl, rfl⟩

private theorem after_agrees {c : Lookups κ β ε} (ho : Orderly lookups c) {w : Watched κ β}
    (h : Agrees c.hub.state w) (moves : List (Crowd.Move (Touch κ β))) :
    Agrees (after c moves).hub.state (touchAll (writings lookups c moves) w) := by
  induction moves generalizing c w with
  | nil => exact h
  | cons m moves ih =>
    have hstep := step_agrees ho m
    have hw := h.touchAll (writing lookups c m)
    rw [writings, touchAll, List.foldl_append]
    exact ih (ho.step m) ⟨hstep.1.trans hw.1, hstep.2.trans hw.2⟩

private theorem ended_step {c : Lookups κ β ε} {s : Strand} {r : Option (Except ε β)}
    (h : c.progress s = .ended r) (m : Crowd.Move (Touch κ β)) :
    (Crowd.step respond touch c m).progress s = .ended r := by
  cases m with
  | turn t =>
    by_cases hst : s = t
    · subst hst
      simp [Crowd.step, h, poll]
    · simp [Crowd.step, hst, h]
  | drop task => simp [Crowd.step, h, abandon]
  | pass ms => exact h
  | outside deed => exact h

private theorem ended_after {c : Lookups κ β ε} {s : Strand} {r : Option (Except ε β)}
    (h : c.progress s = .ended r) (moves : List (Crowd.Move (Touch κ β))) :
    (after c moves).progress s = .ended r := by
  induction moves generalizing c with
  | nil => exact h
  | cons m moves ih => exact ih (ended_step h m)

theorem after_append (c : Lookups κ β ε) (before later : List (Crowd.Move (Touch κ β))) :
    after c (before ++ later) = after (after c before) later := by
  simp [after, Crowd.run, List.foldl_append]

private theorem writing_eq_nil {c : Lookups κ β ε} {m : Crowd.Move (Touch κ β)}
    {later : List (Crowd.Move (Touch κ β))}
    (h : IsFruitless (after (Crowd.step respond touch c m) later) m) : writing lookups c m = [] := by
  cases m with
  | turn s =>
    simp only [writing]
    split
    · next value _ hended =>
      exact absurd (ended_after hended later) (h value)
    · rfl
  | drop task => rfl
  | pass ms => rfl
  | outside deed => exact h.elim

private theorem Orderly.holder?_eq_some_iff {c : Lookups κ β ε} (ho : Orderly lookups c) (hh : c.Heeds)
    (s : Strand) :
    c.hub.holder? () = some s ↔ IsFetching c s ∨ IsHanded lookups c s := by
  rw [Hub.holder?_eq]
  constructor
  · intro hhead
    have hmem := List.mem_of_mem_head? hhead
    have hstage := ho.stage s
    generalize hp : c.progress s = p at hstage
    cases hstage with
    | fresh hq => exact absurd hmem hq
    | ended hq => exact absurd hmem hq
    | fetching _ hb hf =>
      obtain ⟨time, hb⟩ := hb
      exact .inl ⟨⟨_, _, hp⟩, ⟨_, time, hb⟩, hf⟩
    | queued hq hw =>
      have hgranted : c.hub.grants () s = true := (Hub.grants_iff_head ho.nodup).2 hhead
      have hheeded := (hh s).resolve_left (by rw [hp]; rintro ⟨f, ⟨⟩⟩)
      rw [hp] at hheeded
      exact .inr ⟨hp, hgranted, Obstacle.Heeded.woken hheeded hgranted⟩
  · rintro (hs | hs)
    · exact ho.head_of_isFetching hs
    · exact (Hub.grants_iff_head ho.nodup).1 hs.granted

private theorem Orderly.not_waiting {c : Lookups κ β ε} (ho : Orderly lookups c)
    (hfree : c.hub.holder? () = none) (s : Strand) (rest : Action κ β (Except ε β)) :
    c.progress s ≠ .waiting (.lock ()) rest := by
  intro hp
  rw [Hub.holder?_eq, List.head?_eq_none_iff] at hfree
  have hstage := ho.stage s
  rw [hp, hfree] at hstage
  cases hstage with
  | queued hq => cases hq
  | fetching hq => cases hq

/-- Whatever lookups are made, abandoned or broken off, the entries of the cache are those that others
wrote and that were stored by lookups which have ended with a value. The fetch lock is held by nobody but
the lookup that is fetching or that has just been handed the lock, nobody waits while it is free, and it is
free when all lookups are over. -/
theorem broken_lookups_leave_no_trace (cache : Cache κ β) (now : Instant)
    (lookups : Strand → Lookup κ β ε) (moves : List (Crowd.Move (Touch κ β))) :
    let c := after (start cache now lookups) moves
    (∀ before m later, moves = before ++ m :: later → IsFruitless c m →
      (after (start cache now lookups) (before ++ [m])).hub.state.cache =
        (after (start cache now lookups) before).hub.state.cache) ∧
    c.hub.state.cache =
      (touchAll (writings lookups (start cache now lookups) moves) { cache, now }).cache ∧
    (∀ s, c.hub.holder? () = some s ↔ IsFetching c s ∨ IsHanded lookups c s) ∧
    (c.hub.holder? () = none → ∀ s rest, c.progress s ≠ .waiting (.lock ()) rest) ∧
    ((∀ s, .turn s ∈ moves → IsOver c s) → c.hub.claims = []) := by
  have hstart := start_orderly cache now lookups
  intro c
  have ho : Orderly lookups c := after_orderly hstart moves
  have hh : c.Heeds := Crowd.run_heeds respond touch _ _ moves
  refine ⟨?_, (after_agrees hstart ⟨rfl, rfl⟩ moves).1, ho.holder?_eq_some_iff hh, ho.not_waiting, ?_⟩
  · intro before m later hmoves hm
    have hbefore := after_orderly hstart before
    have hc : c = after (Crowd.step respond touch (after (start cache now lookups) before) m) later := by
      simp only [c, hmoves, after_append]
      rfl
    have hnil : writing lookups (after (start cache now lookups) before) m = [] :=
      writing_eq_nil (hc ▸ hm)
    have hstep := (step_agrees hbefore m).1
    rw [hnil] at hstep
    rw [after_append]
    exact hstep
  · intro hover
    rw [List.eq_nil_iff_forall_not_mem]
    rintro ⟨⟨⟩, s⟩ hclaim
    have hs : IsOver c s :=
      hover s (Crowd.turn_mem_of_claim respond touch _ _ moves hclaim)
    obtain ⟨r, hr⟩ := hs
    have hqueue : s ∈ c.hub.queue () := List.mem_map.2 ⟨((), s), by simpa using hclaim, rfl⟩
    have hstage := ho.stage s
    rw [hr] at hstage
    cases hstage with
    | ended hq => exact hq hqueue

/-- Lookups of one key: the first fetches slowly, the second panics, the third fails, the fourth is
answered. -/
def fourLookups (s : Strand) : Lookup Nat Nat Unit where
  key := 1
  suspensions := if s.task = 0 then [.wait 5] else []
  outcome := match s.task with
    | 0 => some (.ok 10)
    | 1 => none
    | 2 => some (.error ())
    | _ => some (.ok 7)

/-- All four wait for the first, which is abandoned while it fetches. -/
def abandonedFirst : List (Crowd.Move (Touch Nat Nat)) :=
  [.turn ⟨0, none⟩, .turn ⟨1, none⟩, .turn ⟨2, none⟩, .turn ⟨3, none⟩, .drop 0,
    .turn ⟨1, none⟩, .turn ⟨2, none⟩, .turn ⟨3, none⟩]

theorem broken_lookups_leave_no_trace_abandonedFirst :
    let c := after (start { lifetime := ⟨5⟩ } ⟨0⟩ fourLookups) abandonedFirst
    IsFruitless c (.turn ⟨0, none⟩) ∧ (∀ s, .turn s ∈ abandonedFirst → IsOver c s) ∧
      c.hub.claims = [] ∧ c.hub.state.cache.entries[1]? = some ⟨7, ⟨5⟩⟩ ∧
      (after (start { lifetime := ⟨5⟩ } ⟨0⟩ fourLookups) (abandonedFirst.take 5)).hub.holder? () =
        some ⟨1, none⟩ := by
  intro c
  have hover : ∀ s, .turn s ∈ abandonedFirst → IsOver c s := by
    intro s hs
    simp only [abandonedFirst, List.mem_cons, Crowd.Move.turn.injEq, List.not_mem_nil, reduceCtorEq,
      or_false, false_or] at hs
    rcases hs with rfl | rfl | rfl | rfl | rfl | rfl | rfl <;> exact ⟨_, rfl⟩
  obtain ⟨-, -, -, -, hfree⟩ :=
    broken_lookups_leave_no_trace { lifetime := ⟨5⟩ } ⟨0⟩ fourLookups abandonedFirst
  exact ⟨nofun, hover, hfree hover, rfl, rfl⟩

end GuildBot.Cache.Watched

import GuildBot.Cache.Watch
import GuildBot.Proofs.Cache.Fetch
import GuildBot.Proofs.Flow.Queue

/-!
# The turns of a watched lookup

A strand that looks something up is fresh, queued for the fetch lock, fetching, or has ended. All
that one turn can do from there, to the watched cache and to the queue, is listed in `Turned`.
-/

namespace GuildBot.Cache

open Std Progress

def Event.strand? {κ β : Type} : Event κ β → Option Strand
  | .began s _ _ => some s
  | .finished s => some s
  | .stored s _ _ _ => some s
  | .cleared _ => none

namespace Watched

variable {κ β ε : Type} [Ord κ]

@[simp] theorem place_view (w : Watched κ β) : place.view w = w.cache := rfl

@[simp] theorem place_now (w : Watched κ β) : place.now w = w.now := rfl

@[simp] theorem place_lock : (place : Place (Watched κ β) Unit κ β).lock = () := rfl

variable [TransOrd κ]

def Silent (w : Watched κ β) (s : Strand) : Prop := ∀ e ∈ w.chronicle, e.strand? ≠ some s

def queued (s : Strand) (l : Lookup κ β ε) : Action κ β (Except ε β) :=
  (place.locked l.key (fetch s l)).bind (report s l.key)

def running (s : Strand) (l : Lookup κ β ε) (rest : List Suspension) : Action κ β (Except ε β) :=
  (place.fetching l.key (awaited s rest l.outcome)).bind (report s l.key)

/-- How a lookup ends when its fetch is over, and what that does to the watched cache. A lookup that
could not store its answer panics. -/
inductive Finishes (s : Strand) (l : Lookup κ β ε) (w : Watched κ β) :
    Option (Except ε β) → Watched κ β → Prop
  | panicked (h : l.outcome = none ∨
        ∃ value, l.outcome = some (.ok value) ∧ w.cache.insert? w.now l.key value = none) :
      Finishes s l w none (w.tell (.finished s))
  | failed {e : ε} (h : l.outcome = some (.error e)) :
      Finishes s l w (some (.error e)) (w.tell (.finished s))
  | stored {value : β} {c : Cache κ β} (h : l.outcome = some (.ok value))
      (hc : w.cache.insert? w.now l.key value = some c) :
      Finishes s l w (some (.ok value))
        (({ w.tell (.finished s) with cache := c } : Watched κ β).tell
          (.stored s l.key w.now c.entries[l.key]?))

/-- How a turn comes to be inside the fetch: it was before, or it has got the lock and misses. -/
inductive Entered (s : Strand) (l : Lookup κ β ε) (w : Watched κ β) (q : List Strand) :
    Watched κ β → List Strand → Prop
  | again (hq : q.head? = some s) (hb : ∃ time, .began s l.key time ∈ w.chronicle)
      (hf : .finished s ∉ w.chronicle) : Entered s l w q w q
  | granted {q' : List Strand} (hq : q' = q ∨ q' = q ++ [s]) (hs : q'.head? = some s)
      (hn : q'.Nodup) (hw : w.Silent s) (hp : w.cache.peek w.now l.key = none) :
      Entered s l w q (w.tell (.began s l.key w.now)) q'

/-- Where a strand is in its lookup. -/
inductive Stage (s : Strand) (l : Lookup κ β ε) (w : Watched κ β) (q : List Strand) :
    Progress (Watched κ β) Unit (fun _ : Empty => Unit) (Except ε β) → Prop
  | fresh (hq : s ∉ q) (hw : w.Silent s) : Stage s l w q (.start (lookUp s l))
  | queued (hq : s ∈ q) (hw : w.Silent s) : Stage s l w q (.waiting (.lock ()) (queued s l))
  | fetching {obstacle : Obstacle Unit} {rest : List Suspension} (hq : q.head? = some s)
      (hb : ∃ time, .began s l.key time ∈ w.chronicle) (hf : .finished s ∉ w.chronicle) :
      Stage s l w q (.waiting obstacle (running s l rest))
  | ended {r : Option (Except ε β)} (hq : s ∉ q) : Stage s l w q (.ended r)

/-- What a turn can come to. -/
inductive Turned (s : Strand) (l : Lookup κ β ε) (w : Watched κ β) (q : List Strand)
    (p : Progress (Watched κ β) Unit (fun _ : Empty => Unit) (Except ε β)) :
    Progress (Watched κ β) Unit (fun _ : Empty => Unit) (Except ε β) →
      Watched κ β → List Strand → Prop
  | blocked (hp : ∀ f, p ≠ .start f) : Turned s l w q p p w q
  | joined (hq : s ∉ q) (hw : w.Silent s) (hp : w.cache.peek w.now l.key = none) :
      Turned s l w q p (.waiting (.lock ()) (queued s l)) w (q ++ [s])
  | found {value : β} (hw : w.Silent s) (hp : w.cache.peek w.now l.key = some value) :
      Turned s l w q p (.ended (some (.ok value))) w (q.erase s)
  | suspended {obstacle : Obstacle Unit} {rest : List Suspension} {w' : Watched κ β}
      {q' : List Strand} (h : Entered s l w q w' q') :
      Turned s l w q p (.waiting obstacle (running s l rest)) w' q'
  | finished {r : Option (Except ε β)} {w' w'' : Watched κ β} {q' : List Strand}
      (h : Entered s l w q w' q') (hf : Finishes s l w' r w'') :
      Turned s l w q p (.ended r) w'' (q'.erase s)

omit [TransOrd κ] in
theorem hasBegun_iff (w : Watched κ β) (s : Strand) :
    w.hasBegun s = true ↔ ∃ key time, .began s key time ∈ w.chronicle := by
  simp only [hasBegun, List.any_eq_true]
  constructor
  · rintro ⟨e, he, h⟩
    cases e with
    | began s' key time => simp only [decide_eq_true_eq] at h; exact ⟨key, time, h ▸ he⟩
    | finished | stored | cleared => simp at h
  · rintro ⟨key, time, he⟩
    exact ⟨_, he, by simp⟩

omit [TransOrd κ] in
private theorem hasBegun_finished {w : Watched κ β} {s : Strand} (c : Cache κ β)
    (hb : w.hasBegun s = true) :
    ({ w.tell (.finished s) with cache := c } : Watched κ β).hasBegun s = true := by
  rw [hasBegun_iff] at hb ⊢
  obtain ⟨key, time, hb⟩ := hb
  exact ⟨key, time, List.mem_append_left _ hb⟩

omit [TransOrd κ] in
private theorem run_awaited (s : Strand) (outcome : Option (Except ε β)) (rest : List Suspension)
    (h : Hub (Watched κ β) Unit) :
    (∃ obstacle rest' h', run respond s (awaited s rest outcome) h =
        (.waiting obstacle (awaited s rest' outcome), h') ∧
      h'.state = h.state ∧ h'.queue () = h.queue ()) ∨
    run respond s (awaited s rest outcome) h =
      (.ended outcome, { h with state := h.state.tell (.finished s) }) := by
  induction rest generalizing h with
  | nil => right; cases outcome <;> rfl
  | cons suspension rest ih =>
    cases suspension with
    | pause => exact .inl ⟨.turn, rest, h.wake s, rfl, by simp, by simp⟩
    | wait n =>
      cases n with
      | zero => exact ih h
      | succ n => exact .inl ⟨.time (h.now + n + 1), rest, _, rfl, rfl, rfl⟩

private theorem run_running (s : Strand) (l : Lookup κ β ε) (rest : List Suspension)
    (h : Hub (Watched κ β) Unit) (hb : h.state.hasBegun s = true) :
    (∃ obstacle rest' h', run respond s (running s l rest) h =
        (.waiting obstacle (running s l rest'), h') ∧
      h'.state = h.state ∧ h'.queue () = h.queue ()) ∨
    (∃ r h', run respond s (running s l rest) h = (.ended r, h') ∧
      Finishes s l h.state r h'.state ∧ h'.queue () = (h.queue ()).erase s) := by
  rw [running, run_bind, Place.run_fetching]
  rcases run_awaited s l.outcome rest h with ⟨obstacle, rest', h', hr, hs, hq⟩ | hr
  · exact .inl ⟨obstacle, rest', h', by rw [hr]; rfl, hs, hq⟩
  · right
    rw [hr]
    cases ho : l.outcome with
    | none =>
      exact ⟨_, _, rfl, by simpa using .panicked (.inl ho), by simp [Hub.queue_release, place]⟩
    | some r =>
      cases r with
      | error e =>
        exact ⟨_, _, rfl, by simpa [run] using .failed ho, by simp [Hub.queue_release, place]⟩
      | ok value =>
        simp only [Place.conclude, place, tell]
        cases hc : h.state.cache.insert? h.state.now l.key value with
        | none =>
          have hpanicked : Finishes s l h.state none (h.state.tell (.finished s)) :=
            .panicked (.inr ⟨value, ho, hc⟩)
          exact ⟨_, _, rfl, by simpa [tell] using hpanicked, by simp [Hub.queue_release]⟩
        | some c =>
          refine ⟨_, _, rfl, ?_, by simp [Hub.queue_release]⟩
          have hb' := hasBegun_finished c hb
          simp only [tell] at hb'
          simp only [Hub.release_state, tellStored, hb', if_true]
          exact .stored ho hc

private theorem turned_running {s : Strand} {l : Lookup κ β ε} {w : Watched κ β} {q : List Strand}
    {h : Hub (Watched κ β) Unit} (he : Entered s l w q h.state (h.queue ())) (rest : List Suspension)
    (p : Progress (Watched κ β) Unit (fun _ : Empty => Unit) (Except ε β)) :
    Turned s l w q p (run respond s (running s l rest) h).1
      (run respond s (running s l rest) h).2.state
      ((run respond s (running s l rest) h).2.queue ()) := by
  have hb : h.state.hasBegun s = true := by
    rw [hasBegun_iff]
    generalize h.state = w', h.queue () = q' at he
    cases he with
    | again _ hb _ => exact ⟨_, hb⟩
    | granted => exact ⟨_, _, List.mem_append_right _ (List.mem_singleton_self _)⟩
  rcases run_running s l rest h hb with ⟨obstacle, rest', h', hr, hs, hq⟩ | ⟨r, h', hr, hf, hq⟩
  · rw [hr]
    simp only [hs, hq]
    exact .suspended he
  · rw [hr]
    simp only [hq]
    exact .finished he hf

omit [TransOrd κ] in
theorem Silent.hasBegun {w : Watched κ β} {s : Strand} (hw : w.Silent s) :
    w.hasBegun s = false := by
  rw [Bool.eq_false_iff]
  intro hb
  obtain ⟨key, time, he⟩ := (hasBegun_iff w s).1 hb
  exact hw _ he rfl

private theorem run_report {s : Strand} (key : κ) (value : β) {h : Hub (Watched κ β) Unit}
    (hw : h.state.Silent s) :
    run respond s (report s key (.ok value) : Action κ β (Except ε β)) h =
      (.ended (some (.ok value)), h) := by
  simp [report, run, tellStored, hw.hasBegun]

private theorem turned_queued {s : Strand} {l : Lookup κ β ε} {q : List Strand}
    {h : Hub (Watched κ β) Unit} (hq : h.queue () = q ∨ h.queue () = q ++ [s])
    (hs : (h.queue ()).head? = some s) (hn : (h.queue ()).Nodup)
    (he : (h.queue ()).erase s = q.erase s) (hw : h.state.Silent s)
    (p : Progress (Watched κ β) Unit (fun _ : Empty => Unit) (Except ε β)) :
    Turned s l h.state q p (run respond s (queued s l) h).1
      (run respond s (queued s l) h).2.state ((run respond s (queued s l) h).2.queue ()) := by
  cases hp : h.state.cache.peek h.state.now l.key with
  | some value =>
    have hr : run respond s (queued s l) h = (.ended (some (.ok value)), h.release () s) := by
      rw [queued, run_bind, Place.run_locked, place_view, place_now, hp]
      exact run_report l.key value (by rwa [Hub.release_state])
    rw [hr]
    simp only [Hub.release_state, Hub.queue_release, if_true, he]
    exact .found hw hp
  | none =>
    have hr : run respond s (queued s l) h =
        run respond s (running s l l.suspensions)
          { h with state := h.state.tell (.began s l.key h.state.now) } := by
      rw [queued, running, run_bind, run_bind, Place.run_locked, Place.run_fetching, place_view,
        place_now, hp]
      rfl
    rw [hr]
    exact turned_running (.granted hq hs hn hw hp) _ p

/-- All that a turn of a watched lookup can come to. -/
theorem turned {s : Strand} {l : Lookup κ β ε} {h : Hub (Watched κ β) Unit}
    {p : Progress (Watched κ β) Unit (fun _ : Empty => Unit) (Except ε β)}
    (hp : Stage s l h.state (h.queue ()) p) (hn : (h.queue ()).Nodup) :
    Turned s l h.state (h.queue ()) p (p.poll respond s h).1 (p.poll respond s h).2.state
      ((p.poll respond s h).2.queue ()) := by
  cases hp with
  | fresh hq hw =>
    rw [Progress.start, poll, isClear, if_pos rfl, lookUp, run_bind, Place.run_get, place_view,
      place_now]
    cases hv : h.state.cache.peek h.state.now l.key with
    | some value =>
      simp only [andThen, run_report l.key value hw]
      have hfound : Turned s l h.state (h.queue ()) (Progress.start (lookUp s l))
          (.ended (some (.ok value))) h.state ((h.queue ()).erase s) := .found hw hv
      rwa [List.erase_of_not_mem hq] at hfound
    | none =>
      by_cases hg : (h.claim () s).grants () s = true
      · have hempty := (Hub.grants_claim_iff hq).1 hg
        have hqueue : (h.claim () s).queue () = [s] := by simp [Hub.queue_claim, hempty]
        simp only [place_lock, hg, if_true]
        rw [← run_bind]
        exact turned_queued (l := l) (h := h.claim () s) (.inr (by simp [hqueue, hempty]))
          (by simp [hqueue]) (by simp [hqueue]) (by simp [hqueue, hempty]) hw _
      · simp only [place_lock, hg, andThen, Hub.queue_claim, Hub.claim_state, if_true,
          Bool.false_eq_true, if_false]
        exact .joined hq hw hv
  | queued hq hw =>
    rw [poll, isClear]
    by_cases hg : h.grants () s = true
    · rw [if_pos hg]
      exact turned_queued (.inl rfl) ((Hub.grants_iff_head hn).1 hg) hn rfl hw _
    · rw [if_neg hg]
      refine .blocked ?_
      intro f hf
      cases hf
  | @fetching obstacle rest hq hb hf =>
    rw [poll]
    split
    · exact turned_running (.again hq hb hf) rest _
    · next hblocked =>
      refine .blocked ?_
      rintro f ⟨⟩
      exact hblocked rfl
  | ended hq =>
    refine .blocked ?_
    intro f hf
    cases hf

end Watched

end GuildBot.Cache

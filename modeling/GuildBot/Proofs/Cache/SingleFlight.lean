import GuildBot.Proofs.Cache.WatchTurn

/-!
# One fetch at a time

Whatever the order of moves, the queue for the fetch lock lists exactly the lookups that are queued
or fetching, and only its head is fetching.
-/

namespace GuildBot.Cache.Watched

open Std Progress

variable {κ β ε : Type} [Ord κ] [TransOrd κ] {lookups : Strand → Lookup κ β ε}

/-- What holds of a crowd of lookups at all times. -/
structure Orderly (lookups : Strand → Lookup κ β ε) (c : Lookups κ β ε) : Prop where
  nodup : (c.hub.queue ()).Nodup
  stage : ∀ s, Stage s (lookups s) c.hub.state (c.hub.queue ()) (c.progress s)

/-- The chronicle tells nothing new of a strand, and the queue treats it as before. -/
structure Undisturbed (s : Strand) (w w' : Watched κ β) (q q' : List Strand) : Prop where
  chronicle : ∀ e : Event κ β, e.strand? = some s → (e ∈ w'.chronicle ↔ e ∈ w.chronicle)
  mem : s ∈ q' ↔ s ∈ q
  head : q.head? = some s → q'.head? = some s

theorem Stage.frame {s : Strand} {l : Lookup κ β ε} {w w' : Watched κ β} {q q' : List Strand}
    {p : Progress (Watched κ β) Unit (fun _ : Empty => Unit) (Except ε β)} (h : Stage s l w q p)
    (hu : Undisturbed s w w' q q') : Stage s l w' q' p := by
  have silent (hw : w.Silent s) : w'.Silent s :=
    fun e he hs => hw e ((hu.chronicle e hs).1 he) hs
  cases h with
  | fresh hq hw => exact .fresh (fun h => hq (hu.mem.1 h)) (silent hw)
  | queued hq hw => exact .queued (hu.mem.2 hq) (silent hw)
  | fetching hq hb hf =>
    obtain ⟨time, hb⟩ := hb
    exact .fetching (hu.head hq) ⟨time, (hu.chronicle _ rfl).2 hb⟩
      fun h => hf ((hu.chronicle _ rfl).1 h)
  | ended hq => exact .ended fun h => hq (hu.mem.1 h)

private theorem head?_erase_of_ne {q : List Strand} {s t : Strand} (hs : q.head? = some s)
    (hn : s ≠ t) : (q.erase t).head? = some s := by
  cases q with
  | nil => simp at hs
  | cons a q =>
    obtain rfl : a = s := by simpa using hs
    simp [List.erase_cons_tail, hn]

omit [TransOrd κ] in
private theorem tell_mem {w : Watched κ β} {e e' : Event κ β} {s t : Strand} (he : e'.strand? = some s)
    (hs : e.strand? = some t) (hn : t ≠ s) : e ∈ (w.tell e').chronicle ↔ e ∈ w.chronicle := by
  simp only [tell, List.mem_append, List.mem_singleton, or_iff_left_iff_imp]
  rintro rfl
  exact absurd (Option.some.inj (hs.symm.trans he)) hn

private theorem Finishes.chronicle {s t : Strand} {l : Lookup κ β ε} {w w' : Watched κ β}
    {r : Option (Except ε β)} (h : Finishes s l w r w') (hn : t ≠ s) (e : Event κ β)
    (he : e.strand? = some t) : e ∈ w'.chronicle ↔ e ∈ w.chronicle := by
  cases h with
  | panicked | failed => exact tell_mem rfl he hn
  | stored _ hc => exact (tell_mem rfl he hn).trans (tell_mem (w := w) rfl he hn)

private theorem Entered.undisturbed {s t : Strand} {l : Lookup κ β ε} {w w' : Watched κ β}
    {q q' : List Strand} (h : Entered s l w q w' q') (hn : t ≠ s) : Undisturbed t w w' q q' := by
  cases h with
  | again hq hb hf => exact ⟨fun _ _ => Iff.rfl, Iff.rfl, id⟩
  | granted hq hs _ hw hp =>
    refine ⟨fun e he => tell_mem rfl he hn, ?_, ?_⟩
    · rcases hq with rfl | rfl <;> simp [hn]
    · intro ht
      rcases hq with rfl | rfl
      · exact ht
      · simp [ht]

theorem Entered.facts {s : Strand} {l : Lookup κ β ε} {w w' : Watched κ β}
    {q q' : List Strand} (h : Entered s l w q w' q') (hn : q.Nodup) :
    q'.Nodup ∧ q'.head? = some s ∧ (∃ time, .began s l.key time ∈ w'.chronicle) ∧
      .finished s ∉ w'.chronicle := by
  cases h with
  | again hq hb hf => exact ⟨hn, hq, hb, hf⟩
  | granted hq hs hn' hw hp =>
    refine ⟨hn', hs, ⟨w.now, List.mem_append_right _ (List.mem_singleton_self _)⟩, ?_⟩
    intro hf
    rcases List.mem_append.1 hf with hf | hf
    · exact hw _ hf rfl
    · simp at hf

/-- A turn leaves its own strand at a stage of its lookup and does not disturb the others. -/
theorem Turned.frame {s : Strand} {l : Lookup κ β ε} {w w' : Watched κ β}
    {q q' : List Strand} {p p' : Progress (Watched κ β) Unit (fun _ : Empty => Unit) (Except ε β)}
    (h : Turned s l w q p p' w' q') (hp : Stage s l w q p) (hn : q.Nodup) :
    q'.Nodup ∧ Stage s l w' q' p' ∧ ∀ t, t ≠ s → Undisturbed t w w' q q' := by
  cases h with
  | blocked => exact ⟨hn, hp, fun t _ => ⟨fun _ _ => Iff.rfl, Iff.rfl, id⟩⟩
  | joined hq hw hp =>
    refine ⟨?_, .queued (by simp) hw, fun t ht => ⟨fun _ _ => Iff.rfl, by simp [ht], ?_⟩⟩
    · exact List.nodup_append.2 ⟨hn, by simp, by rintro a ha b hb rfl; simp_all⟩
    · intro h
      simp [h]
  | found =>
    exact ⟨hn.erase s, .ended hn.not_mem_erase,
      fun t ht => ⟨fun _ _ => Iff.rfl, List.mem_erase_of_ne ht, fun h => head?_erase_of_ne h ht⟩⟩
  | suspended he =>
    obtain ⟨hn', hs, hb, hf⟩ := he.facts hn
    exact ⟨hn', .fetching hs hb hf, fun t ht => he.undisturbed ht⟩
  | finished he hf =>
    obtain ⟨hn', -, -, -⟩ := he.facts hn
    refine ⟨hn'.erase s, .ended hn'.not_mem_erase, ?_⟩
    intro t ht
    have hu := he.undisturbed ht
    exact ⟨fun e h => (hf.chronicle ht e h).trans (hu.chronicle e h),
      (List.mem_erase_of_ne ht).trans hu.mem, fun h => head?_erase_of_ne (hu.head h) ht⟩

theorem start_orderly (cache : Cache κ β) (now : Instant) (lookups : Strand → Lookup κ β ε) :
    Orderly lookups (start cache now lookups) where
  nodup := List.nodup_nil
  stage s := .fresh (by simp [start, Crowd.start, Hub.queue, Hub.queueIn])
    (by simp [Silent, start, Crowd.start])

private theorem touch_chronicle (deed : Touch κ β) (w : Watched κ β) (e : Event κ β) {s : Strand}
    (he : e.strand? = some s) : e ∈ (touch deed w).chronicle ↔ e ∈ w.chronicle := by
  cases deed with
  | insert key value => simp only [touch]; split <;> rfl
  | clear key =>
    simp only [touch, tell, List.mem_append, List.mem_singleton, or_iff_left_iff_imp]
    rintro rfl
    cases he
  | peek | update | setClock => rfl

theorem Orderly.step {c : Lookups κ β ε} (h : Orderly lookups c) (m : Crowd.Move (Touch κ β)) :
    Orderly lookups (Crowd.step respond touch c m) := by
  cases m with
  | turn s =>
    obtain ⟨hn, hs, ho⟩ := (turned (h.stage s) h.nodup).frame (h.stage s) h.nodup
    refine ⟨hn, ?_⟩
    intro t
    by_cases ht : t = s
    · subst ht; simpa [Crowd.step] using hs
    · simpa [Crowd.step, ht] using (h.stage t).frame (ho t ht)
  | drop task =>
    have hq : (c.hub.forget task).queue () = (c.hub.queue ()).filter fun s => s.task ≠ task :=
      Hub.queue_forget c.hub task ()
    refine ⟨by simp only [Crowd.step, hq]; exact h.nodup.filter _, ?_⟩
    intro t
    simp only [Crowd.step, hq, Hub.forget_state]
    by_cases ht : t.task = task
    · rw [if_pos ht]
      have hmem : t ∉ (c.hub.queue ()).filter fun s => s.task ≠ task := by simp [ht]
      cases c.progress t <;> exact .ended hmem
    · rw [if_neg ht]
      refine (h.stage t).frame ⟨fun _ _ => Iff.rfl, by simp [ht], ?_⟩
      intro hh
      cases hc : c.hub.queue () with
      | nil => simp [hc] at hh
      | cons a q =>
        obtain rfl : a = t := by simpa [hc] using hh
        simp [ht]
  | pass milliseconds => exact ⟨by simpa [Crowd.step] using h.nodup,
      fun t => by simpa [Crowd.step] using h.stage t⟩
  | outside deed =>
    exact ⟨h.nodup, fun t =>
      (h.stage t).frame ⟨fun e he => touch_chronicle deed _ e he, Iff.rfl, id⟩⟩

theorem after_orderly {c : Lookups κ β ε} (h : Orderly lookups c)
    (moves : List (Crowd.Move (Touch κ β))) : Orderly lookups (after c moves) := by
  induction moves generalizing c with
  | nil => exact h
  | cons m moves ih => exact ih (h.step m)

theorem Orderly.head_of_isFetching {c : Lookups κ β ε} (h : Orderly lookups c) {s : Strand}
    (hs : IsFetching c s) : (c.hub.queue ()).head? = some s := by
  obtain ⟨⟨obstacle, rest, hp⟩, ⟨key, time, hb⟩, -⟩ := hs
  have hstage := h.stage s
  rw [hp] at hstage
  cases hstage with
  | fresh _ hw => exact absurd rfl (hw _ hb)
  | queued _ hw => exact absurd rfl (hw _ hb)
  | fetching hq => exact hq

end GuildBot.Cache.Watched

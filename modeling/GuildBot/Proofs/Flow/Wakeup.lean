import GuildBot.Proofs.Flow.Step
import Mathlib.Logic.Relation

/-!
# Nobody who could go on is forgotten

A strand that waits is heeded: if what it waits for is there it is to have a turn, and if it waits for
a time there is a timer for it. Turns keep every strand heeded. So where nobody is to have a turn,
nobody could make use of one.
-/

namespace GuildBot

open Relation (ReflTransGen)

variable {σ ℓ γ : Type} [DecidableEq ℓ] {answer : γ → Type} {α β δ : Type}

namespace Hub

/-- What a strand can do to the hub while it has its turn, piece by piece. -/
inductive Stroke (me : Strand) (h : Hub σ ℓ) : Hub σ ℓ → Prop where
  | change (state : σ) : Stroke me h { h with state }
  | claim (l : ℓ) : Stroke me h (h.claim l me)
  | release (l : ℓ) : Stroke me h (h.release l me)
  | setTimer (time : Nat) (ht : h.now < time) : Stroke me h (h.setTimer time me)
  | wake : Stroke me h (h.wake me)

/-- What a strand's turn leaves alone. A lock that comes to another strand by it wakes that strand. -/
structure Spares (me : Strand) (h h' : Hub σ ℓ) : Prop where
  now : h'.now = h.now
  woken : h.woken ⊆ h'.woken
  timers : h.timers ⊆ h'.timers
  grants : ∀ l s, s ≠ me → h'.grants l s = true → h.grants l s = true ∨ s ∈ h'.woken

/-- All that a hub has to do with are strands of one kind, and its timers are yet to run out. -/
structure Serves (kind : Strand → Prop) (h : Hub σ ℓ) : Prop where
  claims : ∀ claim ∈ h.claims, kind claim.2
  timers : ∀ timer ∈ h.timers, kind timer.2 ∧ h.now < timer.1
  woken : ∀ s ∈ h.woken, kind s

namespace Spares

variable {me : Strand} {h h' h'' : Hub σ ℓ}

theorem refl (me : Strand) (h : Hub σ ℓ) : Spares me h h :=
  ⟨rfl, List.Subset.refl _, List.Subset.refl _, fun _ _ _ hg => .inl hg⟩

theorem trans (h₁ : Spares me h h') (h₂ : Spares me h' h'') : Spares me h h'' := by
  refine ⟨h₂.now.trans h₁.now, List.Subset.trans h₁.woken h₂.woken,
    List.Subset.trans h₁.timers h₂.timers, ?_⟩
  intro l s hs hg
  rcases h₂.grants l s hs hg with hg | hw
  · exact (h₁.grants l s hs hg).imp id fun hw => h₂.woken hw
  · exact .inr hw

theorem of_queue (hnow : h'.now = h.now) (hwoken : h.woken ⊆ h'.woken)
    (htimers : h.timers ⊆ h'.timers) (hqueue : ∀ l, h'.queue l = h.queue l) : Spares me h h' := by
  refine ⟨hnow, hwoken, htimers, fun l s _ hg => .inl ?_⟩
  rw [grants_iff] at hg ⊢
  rwa [hqueue] at hg

private theorem claim (me : Strand) (h : Hub σ ℓ) (l : ℓ) : Spares me h (h.claim l me) := by
  refine ⟨rfl, List.Subset.refl _, List.Subset.refl _, fun l' s hs hg => .inl ?_⟩
  rw [grants_iff, queue_claim] at hg
  rw [grants_iff]
  by_cases hl : l' = l
  · rw [if_pos hl, List.count_append, List.count_singleton, if_neg (by simpa using Ne.symm hs)] at hg
    cases hq : h.queue l' with
    | nil => exact absurd (by simpa [hq] using hg.1) (Ne.symm hs)
    | cons t rest => simpa [hq] using hg
  · rwa [if_neg hl] at hg

private theorem release (me : Strand) (h : Hub σ ℓ) (l : ℓ) : Spares me h (h.release l me) := by
  refine ⟨withdraw_now _ _, fun s hs => mem_woken_withdraw.2 (.inl hs), ?_, ?_⟩
  · exact fun timer htimer => (withdraw_timers h _).symm ▸ htimer
  · intro l' s hs hg
    by_cases hold : (h.queue l').head? = some s
    · refine .inl ((grants_iff h l' s).2 ⟨hold, ?_⟩)
      rw [grants_iff, queue_release] at hg
      by_cases hl : l' = l
      · rw [if_pos hl, List.count_erase_of_ne hs] at hg
        exact hg.2
      · rw [if_neg hl] at hg
        exact hg.2
    · refine .inr (mem_woken_withdraw.2 (.inr (mem_heirs ?_ hold)))
      have hclaims : (h.release l me).claims = h.claims.erase (l, me) := withdraw_claims h _
      rw [← hclaims]
      exact ((grants_iff _ l' s).1 hg).1

theorem of_stroke (hs : Stroke me h h') : Spares me h h' := by
  cases hs with
  | change state => exact of_queue rfl (List.Subset.refl _) (List.Subset.refl _) fun _ => rfl
  | claim l => exact claim me h l
  | release l => exact release me h l
  | setTimer time ht =>
    exact of_queue rfl (List.Subset.refl _) (List.subset_append_left _ _) fun _ => rfl
  | wake =>
    exact of_queue (wake_now h me) (fun s hs => mem_woken_wake.2 (.inl hs))
      (fun timer htimer => (wake_timers h me).symm ▸ htimer) fun l => queue_wake h me l

theorem of_strokes (hs : ReflTransGen (Stroke me) h h') : Spares me h h' := by
  induction hs with
  | refl => exact refl me h
  | tail _ hstroke ih => exact ih.trans (of_stroke hstroke)

end Spares

namespace Serves

variable {kind : Strand → Prop} {me : Strand} {h h' : Hub σ ℓ}

theorem of_stroke (hme : kind me) (hs : Stroke me h h') (hh : h.Serves kind) : h'.Serves kind := by
  cases hs with
  | change state => exact ⟨hh.claims, hh.timers, hh.woken⟩
  | claim l =>
    refine ⟨fun claim hclaim => ?_, hh.timers, hh.woken⟩
    rcases List.mem_append.1 hclaim with hclaim | hclaim
    · exact hh.claims claim hclaim
    · exact List.mem_singleton.1 hclaim ▸ hme
  | release l =>
    have hclaims : ∀ claim ∈ h.claims.erase (l, me), kind claim.2 :=
      fun claim hclaim => hh.claims claim (List.mem_of_mem_erase hclaim)
    refine ⟨?_, ?_, ?_⟩
    · simpa [release] using hclaims
    · simpa [release] using hh.timers
    · intro s hs
      rcases mem_woken_withdraw.1 hs with hs | hs
      · exact hh.woken s hs
      · obtain ⟨claim, hclaim, rfl⟩ := List.mem_map.1 hs
        exact hclaims claim (List.mem_filter.1 hclaim).1
  | setTimer time ht =>
    refine ⟨hh.claims, fun timer htimer => ?_, hh.woken⟩
    rcases List.mem_append.1 htimer with htimer | htimer
    · exact hh.timers timer htimer
    · exact List.mem_singleton.1 htimer ▸ ⟨hme, ht⟩
  | wake =>
    refine ⟨by simpa using hh.claims, by simpa using hh.timers, fun s hs => ?_⟩
    rcases mem_woken_wake.1 hs with hs | rfl
    · exact hh.woken s hs
    · exact hme

omit [DecidableEq ℓ] in
theorem arrive (hh : h.Serves kind) (time : Nat) : (h.arrive time).Serves kind := by
  refine ⟨by simpa using hh.claims, ?_, ?_⟩
  · intro timer htimer
    rw [arrive_timers, List.mem_filter, decide_eq_true_eq] at htimer
    exact ⟨(hh.timers timer htimer.1).1, by simpa using htimer.2⟩
  · intro s hs
    rcases mem_woken_arrive.1 hs with hs | ⟨t, -, ht⟩
    · exact hh.woken s hs
    · exact (hh.timers (t, s) ht).1

end Serves

end Hub

open Hub

/-- Whether a strand that waits for something is heeded. -/
structure Obstacle.Heeded (o : Obstacle ℓ) (h : Hub σ ℓ) (s : Strand) : Prop where
  timed : ∀ t, o = .time t → h.now < t → (t, s) ∈ h.timers
  woken : Progress.isClear h s o = true → s ∈ h.woken

namespace Obstacle.Heeded

variable {o : Obstacle ℓ} {s me : Strand} {h h' : Hub σ ℓ}

theorem of_spares (ho : o.Heeded h s) (hs : s ≠ me) (hh : Spares me h h') : o.Heeded h' s := by
  refine ⟨fun t ht hlt => hh.timers (ho.timed t ht (hh.now ▸ hlt)), fun hclear => ?_⟩
  cases o with
  | start => exact hh.woken (ho.woken rfl)
  | turn => exact hh.woken (ho.woken rfl)
  | time t => exact hh.woken (ho.woken (by simpa [Progress.isClear, hh.now] using hclear))
  | lock l =>
    rcases hh.grants l s hs hclear with hg | hw
    · exact hh.woken (ho.woken hg)
    · exact hw

theorem arrive (ho : o.Heeded h s) {time : Nat} (hlater : h.now ≤ time) :
    o.Heeded (h.arrive time) s := by
  refine ⟨fun t ht hlt => ?_, fun hclear => ?_⟩
  · rw [arrive_now] at hlt
    rw [arrive_timers, List.mem_filter]
    exact ⟨ho.timed t ht (Nat.lt_of_le_of_lt hlater hlt), by simpa using hlt⟩
  · rw [mem_woken_arrive]
    cases o with
    | start => exact .inl (ho.woken rfl)
    | turn => exact .inl (ho.woken rfl)
    | lock l =>
      refine .inl (ho.woken ?_)
      simp only [Progress.isClear] at hclear ⊢
      rw [grants_iff] at hclear ⊢
      rwa [queue_arrive] at hclear
    | time t =>
      simp only [Progress.isClear, arrive_now, decide_eq_true_eq] at hclear
      by_cases hlt : h.now < t
      · exact .inr ⟨t, hclear, ho.timed t rfl hlt⟩
      · exact .inl (ho.woken (by simpa [Progress.isClear] using hlt))

end Obstacle.Heeded

namespace Progress

variable (respond : Respond σ answer) (me : Strand)

private theorem run_strokes (f : Program σ ℓ answer α) (h : Hub σ ℓ) :
    ReflTransGen (Stroke me) h (run respond me f h).2 := by
  induction f generalizing h with
  | done a => exact .refl
  | panic => exact .refl
  | act update next ih => exact .head (.change _) (ih h.state _)
  | ask request next ih =>
    cases request with
    | lock l =>
      simp only [run]
      split
      · exact .head (.claim l) (ih () _)
      · exact .single (.claim l)
    | unlock l => exact .head (.release l) (ih () _)
    | wait t =>
      cases t with
      | zero => exact ih () h
      | succ t => exact .single (.setTimer _ (by omega))
    | pause => exact .single .wake
    | call c =>
      simp only [run]
      split
      · exact .head (.change _) (ih _ _)
      · next hd => exact .head (.change _) (.single (.setTimer _ (Nat.lt_add_of_pos_right (by omega))))

theorem poll_strokes (p : Progress σ ℓ answer α) (h : Hub σ ℓ) :
    ReflTransGen (Stroke me) h (p.poll respond me h).2 := by
  cases p with
  | ended result => exact .refl
  | waiting obstacle rest =>
    simp only [poll]
    split
    · exact run_strokes respond me rest h
    · exact .refl

def Heeded (h : Hub σ ℓ) (s : Strand) : Progress σ ℓ answer α → Prop
  | .waiting obstacle _ => obstacle.Heeded h s
  | .ended _ => True

/-- Whether there is a timer for a program that waits for a time. -/
def Timed (h : Hub σ ℓ) (s : Strand) : Progress σ ℓ answer α → Prop
  | .waiting obstacle _ => ∀ t, obstacle = .time t → h.now < t → (t, s) ∈ h.timers
  | .ended _ => True

omit [DecidableEq ℓ] in
theorem Timed.start (f : Program σ ℓ answer α) (h : Hub σ ℓ) (s : Strand) :
    (Progress.start f).Timed h s := by
  intro t ht
  cases ht

/-- Whether a program that has begun can make no use of a turn. -/
def Blocked (h : Hub σ ℓ) (s : Strand) : Progress σ ℓ answer α → Prop
  | .waiting obstacle _ => isClear h s obstacle = false
  | .ended _ => True

variable {me} {p : Progress σ ℓ answer α} {s : Strand} {h h' : Hub σ ℓ}

theorem Heeded.timed (hp : p.Heeded h s) : p.Timed h s := by
  cases p with
  | waiting obstacle rest => exact Obstacle.Heeded.timed hp
  | ended result => trivial

theorem Heeded.imp (hp : p.Heeded h s) (ho : ∀ o : Obstacle ℓ, o.Heeded h s → o.Heeded h' s) :
    p.Heeded h' s := by
  cases p with
  | waiting obstacle rest => exact ho obstacle hp
  | ended result => trivial

theorem Heeded.of_spares (hp : p.Heeded h s) (hs : s ≠ me) (hh : Spares me h h') : p.Heeded h' s :=
  hp.imp fun _ ho => ho.of_spares hs hh

theorem Heeded.arrive (hp : p.Heeded h s) {time : Nat} (hlater : h.now ≤ time) :
    p.Heeded (h.arrive time) s :=
  hp.imp fun _ ho => ho.arrive hlater

theorem Timed.of_spares (hp : p.Timed h s) (hh : Spares me h h') : p.Timed h' s := by
  cases p with
  | waiting obstacle rest => exact fun t ht hlt => hh.timers (hp t ht (hh.now ▸ hlt))
  | ended result => trivial

/-- A strand that is not to have a turn could make no use of one. -/
theorem Heeded.blocked (hp : p.Heeded h s) (hs : s ∉ h.woken) : p.Blocked h s := by
  cases p with
  | waiting obstacle rest => exact Bool.eq_false_iff.2 fun hclear => hs (hp.woken hclear)
  | ended result => trivial

theorem Timed.heeded_of_blocked (ht : p.Timed h s) (hb : p.Blocked h s) : p.Heeded h s := by
  cases p with
  | waiting obstacle rest => exact ⟨ht, fun hclear => absurd hclear (by simp [show _ = false from hb])⟩
  | ended result => trivial

theorem Blocked.poll_eq (hp : p.Blocked h s) : p.poll respond s h = (p, h) := by
  cases p with
  | waiting obstacle rest => simp only [poll, show isClear h s obstacle = false from hp]; rfl
  | ended result => rfl

private theorem run_heeded (f : Program σ ℓ answer α) (h : Hub σ ℓ) :
    (run respond me f h).1.Heeded (run respond me f h).2 me := by
  induction f generalizing h with
  | done a => trivial
  | panic => trivial
  | act update next ih => exact ih h.state _
  | ask request next ih =>
    have htimer (t : Nat) (h : Hub σ ℓ) (ht : h.now < t) :
        (Obstacle.time t).Heeded (h.setTimer t me) me := by
      refine ⟨?_, fun hclear => ?_⟩
      · rintro t' ⟨rfl⟩ -
        exact List.mem_append_right _ (List.mem_singleton.2 rfl)
      · exact absurd (of_decide_eq_true hclear) (by simpa [setTimer] using ht)
    cases request with
    | lock l =>
      simp only [run]
      split
      · exact ih () _
      · next hg => exact ⟨nofun, fun hclear => absurd hclear hg⟩
    | unlock l => exact ih () _
    | wait t =>
      cases t with
      | zero => exact ih () h
      | succ t => exact htimer _ h (by omega)
    | pause => exact ⟨nofun, fun _ => mem_woken_wake.2 (.inr rfl)⟩
    | call c =>
      simp only [run]
      split
      · exact ih _ _
      · next hd => exact htimer _ _ (Nat.lt_add_of_pos_right (by omega))

/-- Whoever has had a turn is heeded. -/
theorem Timed.poll (hp : p.Timed h s) :
    (p.poll respond s h).1.Heeded (p.poll respond s h).2 s := by
  by_cases hb : p.Blocked h s
  · rw [hb.poll_eq]
    exact hp.heeded_of_blocked hb
  · cases p with
    | ended result => exact absurd trivial hb
    | waiting obstacle rest =>
      have hclear : isClear h s obstacle = true := by
        simpa [Blocked] using hb
      simp only [Progress.poll, hclear, if_true]
      exact run_heeded respond rest h

end Progress

end GuildBot

import GuildBot.Proofs.Flow.Wakeup
import Mathlib.Data.List.Induction

namespace GuildBot

open Relation (ReflTransGen)

variable {σ ℓ γ ι : Type} [DecidableEq ℓ] {answer : γ → Type} {α : Type}

namespace Hub

/-- During its turn a strand asks for locks only on its own behalf. -/
theorem Stroke.mem_claims {me : Strand} {h h' : Hub σ ℓ} (hs : Stroke me h h') {claim : ℓ × Strand}
    (hc : claim ∈ h'.claims) : claim ∈ h.claims ∨ claim.2 = me := by
  cases hs with
  | change state => exact .inl hc
  | claim l =>
    rcases List.mem_append.1 hc with hc | hc
    · exact .inl hc
    · exact .inr (congrArg Prod.snd (List.mem_singleton.1 hc))
  | release l =>
    have hclaims : (h.release l me).claims = h.claims.erase (l, me) := withdraw_claims h _
    exact .inl (List.mem_of_mem_erase (hclaims ▸ hc))
  | setTimer time ht => exact .inl hc
  | wake => exact .inl (by simpa using hc)

private theorem mem_claims_of_strokes {me : Strand} {h h' : Hub σ ℓ} (hs : ReflTransGen (Stroke me) h h')
    {claim : ℓ × Strand} (hc : claim ∈ h'.claims) : claim ∈ h.claims ∨ claim.2 = me := by
  induction hs with
  | refl => exact .inl hc
  | tail _ hstroke ih =>
    rcases hstroke.mem_claims hc with hc | hme
    · exact ih hc
    · exact .inr hme

@[simp] theorem forget_claims (h : Hub σ ℓ) (task : Nat) :
    (h.forget task).claims = h.claims.filter fun claim => claim.2.task ≠ task := by
  simp [forget]

private theorem forget_timers (h : Hub σ ℓ) (task : Nat) :
    (h.forget task).timers = h.timers.filter fun timer => timer.2.task ≠ task := by
  simp [forget]

private theorem mem_woken_forget {h : Hub σ ℓ} {task : Nat} {s : Strand} (hs : s.task ≠ task) :
    s ∈ (h.forget task).woken ↔
      s ∈ h.woken ∨ s ∈ heirs h.claims (h.claims.filter fun claim => claim.2.task ≠ task) := by
  simp [forget, mem_woken_withdraw, hs]

end Hub

open Hub

theorem Obstacle.Heeded.forget {o : Obstacle ℓ} {h : Hub σ ℓ} {s : Strand} (ho : o.Heeded h s)
    {task : Nat} (hs : s.task ≠ task) : o.Heeded (h.forget task) s := by
  refine ⟨fun t ht hlt => ?_, fun hclear => (mem_woken_forget hs).2 ?_⟩
  · rw [forget_timers, List.mem_filter]
    exact ⟨ho.timed t ht (by simpa using hlt), by simpa using hs⟩
  · cases o with
    | start => exact .inl (ho.woken rfl)
    | turn => exact .inl (ho.woken rfl)
    | time t => exact .inl (ho.woken (by simpa [Progress.isClear] using hclear))
    | lock l =>
      simp only [Progress.isClear, grants_iff, queue_forget] at hclear
      by_cases hold : (h.queue l).head? = some s
      · refine .inl (ho.woken ((grants_iff h l s).2 ⟨hold, ?_⟩))
        rw [← hclear.2, List.count_filter (by simpa using hs)]
      · refine .inr (mem_heirs ?_ hold)
        have hqueue := queue_forget h task l
        rw [queue, forget_claims] at hqueue
        rw [hqueue]
        exact hclear.1

namespace Crowd

variable (respond : Respond σ answer) (act : ι → σ → σ)

theorem run_concat (c : Crowd σ ℓ answer α) (moves : List (Move ι)) (m : Move ι) :
    run respond act c (moves ++ [m]) = step respond act (run respond act c moves) m := by
  simp [run, List.foldl_append]

/-- What can be said after any move, if it could be said before, can be said all along a run: there is a
history that grows with the moves. -/
theorem exists_history {H : Type} {I : List (Move ι) → H → Prop} {grows : Move ι → H → H → Prop}
    (hstep : ∀ moves past m, I moves past → ∃ present, grows m past present ∧ I (moves ++ [m]) present)
    {origin : H} (hbegun : I [] origin) :
    ∃ history : List (Move ι) → H, history [] = origin ∧
      (∀ moves m, grows m (history moves) (history (moves ++ [m]))) ∧
      ∀ moves, I moves (history moves) := by
  let next (p : { p : List (Move ι) × H // I p.1 p.2 }) (m : Move ι) :
      { p : List (Move ι) × H // I p.1 p.2 } :=
    ⟨(p.1.1 ++ [m], (hstep p.1.1 p.1.2 m p.2).choose), (hstep p.1.1 p.1.2 m p.2).choose_spec.2⟩
  let along (moves : List (Move ι)) := moves.foldl next ⟨([], origin), hbegun⟩
  have hmoves (moves : List (Move ι)) : (along moves).1.1 = moves := by
    induction moves using List.reverseRecOn with
    | nil => rfl
    | append_singleton moves m ih =>
      have hnext : (along (moves ++ [m])).1.1 = (along moves).1.1 ++ [m] := by simp [along, next]
      rw [hnext, ih]
  refine ⟨fun moves => (along moves).1.2, rfl, fun moves m => ?_, fun moves => ?_⟩
  · simp only [along, List.foldl_append]
    exact (hstep (along moves).1.1 (along moves).1.2 m (along moves).2).choose_spec.1
  · have hI := (along moves).2
    rwa [hmoves] at hI

theorem turn_mem_of_claim (state : σ) (programs : Strand → Program σ ℓ answer α)
    (moves : List (Move ι)) {claim : ℓ × Strand}
    (hc : claim ∈ (run respond act (start state programs) moves).hub.claims) :
    .turn claim.2 ∈ moves := by
  induction moves using List.reverseRecOn with
  | nil => cases hc
  | append_singleton moves m ih =>
    rw [run_concat] at hc
    rw [List.mem_append, List.mem_singleton]
    cases m with
    | turn s =>
      rcases mem_claims_of_strokes (Progress.poll_strokes respond s _ _) hc with hc | hs
      · exact .inl (ih hc)
      · exact .inr (congrArg Move.turn hs)
    | drop task =>
      refine .inl (ih ?_)
      simp only [step, forget_claims] at hc
      exact List.mem_of_mem_filter hc
    | pass milliseconds => exact .inl (ih (by simpa [step] using hc))
    | outside deed => exact .inl (ih hc)

/-- Whether every strand that has begun is heeded. -/
def Heeds (c : Crowd σ ℓ answer α) : Prop :=
  ∀ s, (∃ f, c.progress s = .start f) ∨ (c.progress s).Heeded c.hub s

theorem Heeds.step {c : Crowd σ ℓ answer α} (h : c.Heeds) (m : Move ι) :
    (c.step respond act m).Heeds := by
  intro s
  cases m with
  | turn t =>
    by_cases hst : s = t
    · subst hst
      right
      have htimed : (c.progress s).Timed c.hub s := by
        rcases h s with ⟨f, hf⟩ | hs
        · rw [hf]
          exact nofun
        · exact hs.timed
      simpa [Crowd.step] using htimed.poll respond
    · rcases h s with ⟨f, hf⟩ | hs
      · exact .inl ⟨f, by simpa [Crowd.step, hst] using hf⟩
      · right
        have hspares := Spares.of_strokes (Progress.poll_strokes respond t (c.progress t) c.hub)
        simpa [Crowd.step, hst] using hs.of_spares hst hspares
  | drop task =>
    simp only [Crowd.step]
    by_cases hs : s.task = task
    · rw [if_pos hs]
      right
      cases c.progress s <;> trivial
    · rw [if_neg hs]
      rcases h s with hf | hheeded
      · exact .inl hf
      · exact .inr (hheeded.imp fun _ ho => ho.forget hs)
  | pass milliseconds =>
    exact (h s).imp id fun hs => hs.arrive (Nat.le_add_right _ _)
  | outside deed =>
    refine (h s).imp id fun hs => hs.imp fun o ho => ⟨ho.timed, fun hclear => ho.woken ?_⟩
    cases o <;> exact hclear

/-- A strand that has begun is heeded, whatever moves are made. -/
theorem run_heeds (state : σ) (programs : Strand → Program σ ℓ answer α) (moves : List (Move ι)) :
    (run respond act (start state programs) moves).Heeds := by
  induction moves using List.reverseRecOn with
  | nil => exact fun s => .inl ⟨programs s, rfl⟩
  | append_singleton moves m ih =>
    rw [run_concat]
    exact ih.step respond act m

end Crowd

end GuildBot

import GuildBot.Proofs.Flow.Evaluation
import GuildBot.Proofs.Flow.Lawful

namespace GuildBot

variable {σ ℓ γ : Type} [DecidableEq ℓ] {answer : γ → Type} {α δ β : Type}

namespace Progress

variable (respond : Respond σ answer)

def eval : Progress σ ℓ answer α → σ → Option α × σ
  | .waiting _ rest, s => Flow.eval respond rest s
  | .ended result, s => (result, s)

private theorem eval_run (me : Strand) (f : Program σ ℓ answer α) (h : Hub σ ℓ) :
    (run respond me f h).1.eval respond (run respond me f h).2.state = Flow.eval respond f h.state := by
  induction f generalizing h with
  | done a => rfl
  | panic => rfl
  | act update next ih => exact ih h.state _
  | ask request next ih =>
    cases request with
    | lock l =>
      simp only [run]
      split
      · exact ih () _
      · rfl
    | unlock l =>
      have hnext := ih () (h.release l me)
      rwa [Hub.release_state] at hnext
    | wait t =>
      cases t with
      | zero => exact ih () h
      | succ t => rfl
    | pause => simp only [run, eval, Hub.wake_state, Flow.eval]
    | call c =>
      simp only [run]
      split
      · exact ih _ _
      · rfl

theorem eval_poll (me : Strand) (p : Progress σ ℓ answer α) (h : Hub σ ℓ) :
    (p.poll respond me h).1.eval respond (p.poll respond me h).2.state = p.eval respond h.state := by
  cases p with
  | ended result => rfl
  | waiting obstacle rest =>
    simp only [poll]
    split
    · exact eval_run respond me rest h
    · rfl

end Progress

/-- A machine that is alone with a program comes to what the program evaluates to. -/
theorem Machine.ends_ofProgram (respond : Respond σ answer) {rules : Rules σ ℓ} (state : σ)
    {f : Program σ ℓ answer β} (hf : f.Obeys rules [] (fun _ => True) []) :
    (alone (δ := δ) state (.ofProgram f) none).Ends respond
      ((Flow.eval respond f state).1.elim .panicked .value) (Flow.eval respond f state).2 := by
  -- All along, the program is the closing one, and comes to the same.
  let I (work : Work σ ℓ answer δ β) (h : Hub σ ℓ) : Prop :=
    ∃ p : Progress σ ℓ answer β, work = .closing p ∧
      p.eval respond h.state = Flow.eval respond f state
  have hturn (work : Work σ ℓ answer δ β) (h : Hub σ ℓ) (_ : work.InProgress h) (hI : I work h) :
      let r := work.poll respond 0 (h.woken.filterMap (·.branch)) { h with woken := [] }
      I r.1 r.2 := by
    obtain ⟨p, rfl, hp⟩ := hI
    exact ⟨_, rfl, (Progress.eval_poll respond ⟨0, some 0⟩ p { h with woken := [] }).trans hp⟩
  have harrive (work : Work σ ℓ answer δ β) (h : Hub σ ℓ) (time : Nat) (_ : work.InProgress h)
      (hI : I work h) : I work (h.arrive time) := by
    obtain ⟨p, rfl, hp⟩ := hI
    exact ⟨p, rfl, by rwa [Hub.arrive_state]⟩
  obtain ⟨work, h, result, ⟨p, rfl, hp⟩, hending, hends⟩ := ends_keeping respond hturn harrive
    (.start_program f state) ⟨.start hf fun _ => rfl, fun _ _ _ => rfl⟩ ⟨.start f, rfl, rfl⟩
  cases p with
  | waiting obstacle rest => cases hending
  | ended r =>
    obtain rfl := Option.some.inj hending
    rw [← hp]
    exact hends

end GuildBot

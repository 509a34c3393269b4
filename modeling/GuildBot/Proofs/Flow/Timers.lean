import GuildBot.Proofs.Flow.Step

namespace GuildBot

variable {σ ℓ γ : Type} {answer : γ → Type} {α β δ : Type}

namespace Hub

/-- The hub if some timers had been set before all others. -/
def behind (ts : List (Nat × Strand)) (h : Hub σ ℓ) : Hub σ ℓ := { h with timers := ts ++ h.timers }

variable (ts : List (Nat × Strand)) (h : Hub σ ℓ)

private theorem wake_behind (s : Strand) : (h.behind ts).wake s = (h.wake s).behind ts := by
  unfold wake
  by_cases hs : s ∈ h.woken
  · simp [behind, hs]
  · simp [behind, hs]

private theorem foldl_wake_behind (ss : List Strand) :
    ss.foldl wake (h.behind ts) = (ss.foldl wake h).behind ts := by
  induction ss generalizing h with
  | nil => rfl
  | cons s ss ih => rw [List.foldl_cons, wake_behind, ih, List.foldl_cons]

private theorem setTimer_behind (t : Nat) (s : Strand) :
    (h.behind ts).setTimer t s = (h.setTimer t s).behind ts := by
  simp [setTimer, behind]

variable [DecidableEq ℓ] in
private theorem release_behind (l : ℓ) (s : Strand) :
    (h.behind ts).release l s = (h.release l s).behind ts := by
  simp only [release, withdraw]
  exact foldl_wake_behind ts { h with claims := h.claims.erase (l, s) } _

end Hub

variable [DecidableEq ℓ]

namespace Progress

variable (respond : Respond σ answer) (me : Strand) (ts : List (Nat × Strand))

private theorem run_behind (f : Program σ ℓ answer α) (h : Hub σ ℓ) :
    run respond me f (h.behind ts) = ((run respond me f h).1, (run respond me f h).2.behind ts) := by
  induction f generalizing h with
  | done a => rfl
  | panic => rfl
  | act update next ih => exact ih h.state { h with state := update h.state }
  | ask request next ih =>
    cases request with
    | lock l =>
      have hclaim : (h.behind ts).claim l me = (h.claim l me).behind ts := rfl
      have hgrants : ((h.claim l me).behind ts).grants l me = (h.claim l me).grants l me := rfl
      simp only [run, hclaim, hgrants]
      split
      · exact ih () _
      · rfl
    | unlock l =>
      simp only [run, Hub.release_behind]
      exact ih () _
    | wait t =>
      cases t with
      | zero => exact ih () h
      | succ t =>
        simp only [run, Hub.setTimer_behind]
        rfl
    | pause =>
      simp only [run, Hub.wake_behind]
    | call c =>
      simp only [run]
      split
      · next hd =>
        rw [if_pos (show (respond h.state c).2.1 = 0 from hd)]
        exact ih _ { h with state := (respond h.state c).1 }
      · next hd =>
        rw [if_neg (show ¬(respond h.state c).2.1 = 0 from hd)]
        have htimer := Hub.setTimer_behind ts { h with state := (respond h.state c).1 }
          (h.now + (respond h.state c).2.1) me
        exact Prod.ext rfl htimer

private theorem poll_behind (p : Progress σ ℓ answer α) (h : Hub σ ℓ) :
    p.poll respond me (h.behind ts) =
      ((p.poll respond me h).1, (p.poll respond me h).2.behind ts) := by
  cases p with
  | ended result => rfl
  | waiting obstacle rest =>
    have hclear : isClear (h.behind ts) me obstacle = isClear h me obstacle := by
      cases obstacle <;> rfl
    simp only [poll, hclear]
    split
    · exact run_behind respond me ts rest h
    · rfl

end Progress

namespace Work

variable (respond : Respond σ answer) (task : Nat) (ts : List (Nat × Strand))

private theorem pollBranches_behind (order : List Nat) (ps : List (Progress σ ℓ answer δ)) (h : Hub σ ℓ) :
    pollBranches respond task order ps (h.behind ts) =
      ((pollBranches respond task order ps h).1,
        (pollBranches respond task order ps h).2.behind ts) := by
  induction order generalizing ps h with
  | nil => rfl
  | cons n order ih =>
    simp only [pollBranches]
    cases ps[n]? with
    | none => exact ih ps h
    | some p =>
      simp only [Progress.poll_behind]
      split
      · rfl
      · exact ih _ _

private theorem pollFan_behind (woken : List Nat) (ps : List (Progress σ ℓ answer δ))
    (close : List δ → Program σ ℓ answer β) (h : Hub σ ℓ) :
    pollFan respond task woken ps close (h.behind ts) =
      ((pollFan respond task woken ps close h).1,
        (pollFan respond task woken ps close h).2.behind ts) := by
  simp only [pollFan, pollBranches_behind]
  cases (pollBranches respond task _ ps h).1.mapM (·.result?) with
  | none => rfl
  | some results => simp only [pollClosing, Progress.poll_behind]

private theorem poll_behind (woken : List Nat) (work : Work σ ℓ answer δ β) (h : Hub σ ℓ) :
    work.poll respond task woken (h.behind ts) =
      ((work.poll respond task woken h).1, (work.poll respond task woken h).2.behind ts) := by
  cases work with
  | fan ps close => exact pollFan_behind respond task ts woken ps close h
  | closing p => simp only [poll, pollClosing, Progress.poll_behind]
  | lead p =>
    simp only [poll, Progress.poll_behind]
    split
    · exact pollFan_behind respond task ts _ _ _ _
    · rfl

theorem poll_timers (woken : List Nat) (work : Work σ ℓ answer δ β) (h : Hub σ ℓ) :
    ∃ new, (work.poll respond task woken h).2.timers = h.timers ++ new ∧
      ∀ ts, work.poll respond task woken { h with timers := ts } =
        ((work.poll respond task woken h).1,
          { (work.poll respond task woken h).2 with timers := ts ++ new }) := by
  have hbehind (ts : List (Nat × Strand)) : ({ h with timers := ts } : Hub σ ℓ) =
      ({ h with timers := [] } : Hub σ ℓ).behind ts := by
    simp [Hub.behind]
  have hpoll (ts : List (Nat × Strand)) :=
    poll_behind respond task ts woken work ({ h with timers := [] } : Hub σ ℓ)
  refine ⟨(work.poll respond task woken { h with timers := [] }).2.timers, ?_, ?_⟩
  · conv_lhs => rw [show h = ({ h with timers := [] } : Hub σ ℓ).behind h.timers from hbehind h.timers]
    rw [hpoll]
    rfl
  · intro ts
    rw [hbehind ts, hpoll ts]
    have hself := hpoll h.timers
    rw [← hbehind h.timers] at hself
    rw [hself]
    rfl

end Work

end GuildBot

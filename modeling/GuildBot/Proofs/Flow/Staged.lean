import GuildBot.Proofs.Flow.Deadline
import GuildBot.Proofs.Flow.Scene

namespace GuildBot

variable {σ ℓ γ : Type} [DecidableEq ℓ] {answer : γ → Type} {δ β : Type}

/-- Whether each turn finds the state that the one before left, from the first state to the last. -/
def Linked (state : σ) : List (Visit σ ℓ) → σ → Prop
  | [], last => state = last
  | v :: vs, last => v.before.state = state ∧ Linked v.after.state vs last

omit [DecidableEq ℓ] in
theorem Linked.append {state middle last : σ} {vs ws : List (Visit σ ℓ)}
    (h : Linked state vs middle) (h' : Linked middle ws last) : Linked state (vs ++ ws) last := by
  induction vs generalizing state with
  | nil => exact (show state = middle from h) ▸ h'
  | cons v vs ih => exact ⟨h.1, ih h.2⟩

namespace Work

variable (respond : Respond σ answer) (task : Nat)

/-- Whether a scene comes by some moves from one piece of work to another, by turns that take one state
to another. -/
def Plays (work : Work σ ℓ answer δ β) (state : σ) (work' : Work σ ℓ answer δ β) (last : σ) : Prop :=
  ∃ moves new, Linked state new last ∧
    ∀ vs, (⟨work, vs⟩ : Scene σ ℓ answer δ β).after respond task moves = ⟨work', vs ++ new⟩

variable {respond task} {work work' work'' : Work σ ℓ answer δ β} {state middle last : σ}

theorem Plays.refl (work : Work σ ℓ answer δ β) (state : σ) :
    work.Plays respond task state work state :=
  ⟨[], [], rfl, fun vs => by rw [List.append_nil]; rfl⟩

theorem Plays.trans (h : work.Plays respond task state work' middle)
    (h' : work'.Plays respond task middle work'' last) :
    work.Plays respond task state work'' last := by
  obtain ⟨moves, new, hlinked, hafter⟩ := h
  obtain ⟨moves', new', hlinked', hafter'⟩ := h'
  refine ⟨moves ++ moves', new ++ new', hlinked.append hlinked', fun vs => ?_⟩
  rw [Scene.after, List.foldl_append, ← List.append_assoc, ← hafter', ← hafter]
  rfl

theorem Plays.of_step (move : Work.Move σ ℓ) (new : List (Visit σ ℓ)) (hlinked : Linked state new last)
    (h : ∀ vs, (⟨work, vs⟩ : Scene σ ℓ answer δ β).step respond task move = ⟨work', vs ++ new⟩) :
    work.Plays respond task state work' last :=
  ⟨[move], new, hlinked, h⟩

variable (respond task)

private theorem plays_pollBranches (order : List Nat) (ps : List (Progress σ ℓ answer δ))
    (close : List δ → Program σ ℓ answer β) (h : Hub σ ℓ) :
    Plays respond task (.fan ps close) h.state
      (.fan (pollBranches respond task order ps h).1 close)
      (pollBranches respond task order ps h).2.state := by
  induction order generalizing ps h with
  | nil => exact .refl _ _
  | cons n order ih =>
    rw [pollBranches]
    cases hn : ps[n]? with
    | none => exact ih ps h
    | some p =>
      have hturn : Plays respond task (.fan ps close) h.state
          (.fan (ps.set n (p.poll respond ⟨task, some n⟩ h).1) close)
          (p.poll respond ⟨task, some n⟩ h).2.state := by
        refine .of_step (.turn n h) [⟨.branch n, h, _⟩] ⟨rfl, rfl⟩ fun vs => ?_
        simp only [Scene.step, hn]
      dsimp only
      split
      · exact hturn
      · exact hturn.trans (ih _ _)

private theorem plays_pollClosing (p : Progress σ ℓ answer β) (h : Hub σ ℓ) :
    Plays respond task (.closing p) h.state (pollClosing (δ := δ) respond task p h).1
      (pollClosing (δ := δ) respond task p h).2.state :=
  .of_step (.turn 0 h) [⟨.close, h, (p.poll respond ⟨task, some 0⟩ h).2⟩] ⟨rfl, rfl⟩ fun _ => rfl

private theorem plays_pollFan (woken : List Nat) (ps : List (Progress σ ℓ answer δ))
    (close : List δ → Program σ ℓ answer β) (h : Hub σ ℓ) :
    Plays respond task (.fan ps close) h.state (pollFan respond task woken ps close h).1
      (pollFan respond task woken ps close h).2.state := by
  rw [pollFan]
  have hbranches := plays_pollBranches respond task
    (if ps.length ≤ smallFan then List.range ps.length else woken) ps close h
  generalize pollBranches respond task _ ps h = r at hbranches ⊢
  dsimp only
  cases hresults : r.1.mapM (·.result?) with
  | none => exact hbranches
  | some results =>
    have hjoin : Plays respond task (.fan r.1 close) r.2.state (.closing (.start (close results)))
        r.2.state := by
      refine .of_step .join [] rfl fun vs => ?_
      simp only [Scene.step, hresults, List.append_nil]
    exact (hbranches.trans hjoin).trans (plays_pollClosing respond task _ r.2)

/-- A turn of a piece of work is turns of its programs, one after another. -/
theorem plays_poll (woken : List Nat) (work : Work σ ℓ answer δ β) (h : Hub σ ℓ) :
    Plays respond task work h.state (work.poll respond task woken h).1
      (work.poll respond task woken h).2.state := by
  cases work with
  | fan ps close => exact plays_pollFan respond task woken ps close h
  | closing p => exact plays_pollClosing respond task p h
  | lead p =>
    rw [poll]
    dsimp only
    cases hresult : (p.poll respond ⟨task, some 0⟩ h).1.result? with
    | none =>
      refine .of_step (.turn 0 h) [⟨.lead, h, _⟩] ⟨rfl, rfl⟩ fun vs => ?_
      simp only [Scene.step, hresult]
    | some plan =>
      have hturn : Plays respond task (.lead p) h.state
          (.fan (plan.branches.map .start) plan.close) (p.poll respond ⟨task, some 0⟩ h).2.state := by
        refine .of_step (.turn 0 h) [⟨.lead, h, _⟩] ⟨rfl, rfl⟩ fun vs => ?_
        simp only [Scene.step, hresult]
      exact hturn.trans (plays_pollFan respond task _ _ _ _)

end Work

namespace Machine

variable (respond : Respond σ answer)

/-- How a machine can stand that was given a piece of work and has no time limit: the work is under way
in its hub, or else it ended in a hub with the state that the machine has. -/
inductive StandsAt (m : Machine σ ℓ answer δ β) (work : Work σ ℓ answer δ β) (h : Hub σ ℓ) : Prop where
  | going (machine : m = ⟨h, [{ work }]⟩) (inProgress : work.InProgress h)
  | ended (result : Option β) (ending : work.ending? = some result)
    (machine_ending : m.ending? = some (result.elim .panicked .value))
    (machine_state : m.hub.state = h.state)

/-- What turns and the passing of time keep holds of a piece of work wherever the machine stands. -/
theorem run_keeps {I : Work σ ℓ answer δ β → Hub σ ℓ → Prop}
    (hturn : ∀ work h, work.InProgress h → I work h →
      let r := work.poll respond 0 (h.woken.filterMap (·.branch)) { h with woken := [] }
      I r.1 r.2)
    (harrive : ∀ work h time, work.InProgress h → I work h → I work (h.arrive time))
    {work : Work σ ℓ answer δ β} {h : Hub σ ℓ} (hw : work.InProgress h) (hI : I work h) (n : Nat) :
    ∃ work' h', (run respond n ⟨h, [{ work }]⟩).StandsAt work' h' ∧ I work' h' := by
  induction n generalizing work h with
  | zero => exact ⟨work, h, .going rfl hw, hI⟩
  | succ n ih =>
    by_cases hwoken : h.woken = []
    · cases htime : h.nextTime? with
      | none =>
        rw [run_of_rest respond (step_of_rest hwoken (nextTime?_eq_none.1 htime))]
        exact ⟨work, h, .going rfl hw, hI⟩
      | some time =>
        obtain ⟨⟨s, hs⟩, -⟩ := nextTime?_eq_some.1 htime
        rw [run_succ_of_step respond (step_of_tick hwoken htime)]
        exact ih (hw.arrive (hw.serves.timers _ hs).2.le) (harrive work h time hw hI)
    · have hI' := hturn work h hw hI
      rcases hr : work.poll respond 0 (h.woken.filterMap (·.branch)) { h with woken := [] } with
        ⟨work', h'⟩
      rw [hr] at hI'
      obtain ⟨-, hserves, hprogress⟩ := hw.turn respond hr
      rcases turn_cases respond (t := { work }) hw.serves.ofOne hwoken rfl rfl hserves.ofOne hr with
        ⟨result, hending, m', hstep, hrest, hending', -, hstate⟩ | ⟨-, ⟨time, hdue, -⟩, -⟩ |
          ⟨hending, -, hstep⟩
      · rw [run_succ_of_step respond hstep, run_of_rest respond hrest]
        exact ⟨work', h', .ended result hending hending' hstate, hI'⟩
      · cases hdue
      · rw [run_succ_of_step respond hstep]
        exact ih (hprogress hending) hI'

theorem plays_run (state : σ) (lead : Program σ ℓ answer (Plan σ ℓ answer δ β)) (n : Nat) :
    ∃ work h, (run respond n (alone state (.ofPlan lead) none)).StandsAt work h ∧
      (Work.ofPlan lead).Plays respond 0 state work h.state := by
  refine run_keeps respond (I := fun work h => (Work.ofPlan lead).Plays respond 0 state work h.state)
    (fun work h _ hplays => ?_) (fun work h time _ hplays => ?_) (.start lead state) (.refl _ _) n
  · exact hplays.trans (Work.plays_poll respond 0 _ work { h with woken := [] })
  · rwa [Hub.arrive_state]

end Machine

end GuildBot

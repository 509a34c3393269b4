import GuildBot.Proofs.Flow.AllButOne
import GuildBot.Proofs.Flow.Invariant
import GuildBot.Proofs.Flow.Lawful

/-!
# Programs that take no locks

A program that takes no locks never stands in a queue. Where all branches of a plan but one take none, a
task asks for locks through one strand only, however the turns fall.
-/

namespace GuildBot

variable {σ ℓ γ : Type} {answer : γ → Type} {α β δ : Type}

namespace Flow

/-- Whether a program takes no locks and gives none back. -/
def LockFree : Program σ ℓ answer α → Prop
  | .done _ => True
  | .panic => True
  | .act _ next => ∀ s, LockFree (next s)
  | .ask (.lock _) _ => False
  | .ask (.unlock _) _ => False
  | .ask _ next => ∀ x, LockFree (next x)

namespace LockFree

theorem bind {f : Program σ ℓ answer α} {g : α → Program σ ℓ answer β} (hf : LockFree f)
    (hg : ∀ a, LockFree (g a)) : LockFree (f.bind g) := by
  induction f with
  | done a => exact hg a
  | panic => trivial
  | act update next ih => exact fun s => ih s (hf s)
  | ask request next ih =>
    cases request with
    | lock l => exact hf
    | unlock l => exact hf
    | wait t => exact fun x => ih x (hf x)
    | pause => exact fun x => ih x (hf x)
    | call c => exact fun x => ih x (hf x)

theorem rescue {f instead : Program σ ℓ answer α} (hf : LockFree f) (hi : LockFree instead) :
    LockFree (f.rescue instead) := by
  induction f with
  | done a => trivial
  | panic => exact hi
  | act update next ih => exact fun s => ih s (hf s)
  | ask request next ih =>
    cases request with
    | lock l => exact hf
    | unlock l => exact hf
    | wait t => exact fun x => ih x (hf x)
    | pause => exact fun x => ih x (hf x)
    | call c => exact fun x => ih x (hf x)

end LockFree

variable [DecidableEq ℓ] {rules : Rules σ ℓ} {base held : List ℓ} {Q : α → Prop}

/-- A program that takes no locks and obeys rules holds all along what it holds in the end. -/
private theorem Obeys.held_eq (respond : Respond σ answer) (s : σ) {f : Program σ ℓ answer α}
    (hf : Obeys rules base Q held f) (hfree : LockFree f) : held = base := by
  induction f with
  | done a => exact hf.1
  | panic => exact hf
  | act update next ih => exact ih s (hf.2 s) (hfree s)
  | ask request next ih =>
    cases request with
    | lock l => exact hfree.elim
    | unlock l => exact hfree.elim
    | wait t => exact ih () (hf ()) (hfree ())
    | pause => exact ih () (hf ()) (hfree ())
    | call c => exact ih (respond s c).2.2 (hf _) (hfree _)

end Flow

namespace Progress

def LockFree : Progress σ ℓ answer α → Prop
  | .waiting obstacle rest => (∀ l, obstacle ≠ .lock l) ∧ rest.LockFree
  | .ended _ => True

theorem LockFree.start {f : Program σ ℓ answer α} (hf : f.LockFree) :
    (Progress.start f).LockFree := by
  refine ⟨?_, hf⟩
  intro l heq
  cases heq

variable [DecidableEq ℓ]

private theorem run_lockFree (respond : Respond σ answer) (me : Strand) {f : Program σ ℓ answer α}
    (hf : f.LockFree) (h : Hub σ ℓ) :
    (run respond me f h).1.LockFree := by
  have hwaiting {obstacle : Obstacle ℓ} {rest : Program σ ℓ answer α}
      (hobstacle : ∀ l, obstacle ≠ .lock l) (hrest : rest.LockFree) :
      (Progress.waiting obstacle rest).LockFree := ⟨hobstacle, hrest⟩
  induction f generalizing h with
  | done a => trivial
  | panic => trivial
  | act update next ih => exact ih h.state (hf h.state) _
  | ask request next ih =>
    cases request with
    | lock l => exact hf.elim
    | unlock l => exact hf.elim
    | pause => exact hwaiting (by simp) (hf ())
    | wait t =>
      cases t with
      | zero => exact ih () (hf ()) h
      | succ t => exact hwaiting (by simp) (hf ())
    | call c =>
      simp only [run]
      split
      · exact ih _ (hf _) _
      · exact hwaiting (by simp) (hf _)

theorem LockFree.poll {p : Progress σ ℓ answer α} (hp : p.LockFree) (respond : Respond σ answer)
    (me : Strand) (h : Hub σ ℓ) : (p.poll respond me h).1.LockFree := by
  cases p with
  | ended result => trivial
  | waiting obstacle rest =>
    rw [Progress.poll]
    split
    · exact run_lockFree respond me hp.2 h
    · exact hp

/-- A strand that takes no locks has asked for none. -/
theorem Obeys.claims_nil {rules : Rules σ ℓ} {Q : α → Prop} {h : Hub σ ℓ} {s : Strand}
    {p : Progress σ ℓ answer α} (respond : Respond σ answer) (hp : p.Obeys rules Q h s)
    (hfree : p.LockFree) : h.Claims s [] := by
  cases hp with
  | free held ho hclaims hheld hrest =>
    obtain rfl : held = [] := hrest.held_eq respond h.state hfree.2
    exact hclaims
  | queued held hclaims hheld habove hrest => exact absurd rfl (hfree.1 _)
  | value hclaims ha => exact hclaims
  | panicked hclaims => exact hclaims

end Progress

/-- Whether at most one branch of a plan takes locks. -/
def Plan.HasOneTaker (plan : Plan σ ℓ answer δ β) : Prop := AllButOne Flow.LockFree plan.branches

namespace Work

variable [DecidableEq ℓ] {I : σ → Prop} {respond : Respond σ answer} {work : Work σ ℓ answer δ β}
  {h : Hub σ ℓ}

/-- Whether at most one branch of a piece of work takes locks, as long as an invariant holds. -/
def HasOneTaker (I : σ → Prop) (respond : Respond σ answer) : Work σ ℓ answer δ β → Prop
  | .lead p => p.Keeps I respond Plan.HasOneTaker
  | .fan ps _ => AllButOne Progress.LockFree ps
  | .closing _ => True

variable (task : Nat)

private theorem pollBranches_oneTaker (order : List Nat) {ps : List (Progress σ ℓ answer δ)}
    (hps : AllButOne Progress.LockFree ps) (h : Hub σ ℓ) :
    AllButOne Progress.LockFree (pollBranches respond task order ps h).1 := by
  induction order generalizing ps h with
  | nil => exact hps
  | cons n order ih =>
    rw [pollBranches]
    cases hn : ps[n]? with
    | none => exact ih hps h
    | some p =>
      have hset := hps.set hn fun hp => hp.poll respond ⟨task, some n⟩ h
      dsimp only
      split
      · exact hset
      · exact ih hset _

private theorem pollFan_oneTaker (woken : List Nat) {ps : List (Progress σ ℓ answer δ)}
    (close : List δ → Program σ ℓ answer β) (hps : AllButOne Progress.LockFree ps) (h : Hub σ ℓ) :
    (pollFan respond task woken ps close h).1.HasOneTaker I respond := by
  let order := if ps.length ≤ smallFan then List.range ps.length else woken
  have hbranches : AllButOne Progress.LockFree (pollBranches respond task order ps h).1 :=
    pollBranches_oneTaker task order hps h
  rw [pollFan]
  generalize pollBranches respond task order ps h = r at hbranches ⊢
  dsimp only
  cases r.1.mapM (·.result?) with
  | none => exact hbranches
  | some results => trivial

/-- A turn leaves a piece of work with at most one branch that takes locks. -/
theorem HasOneTaker.poll (hw : work.HasOneTaker I respond) (woken : List Nat) (hI : I h.state) :
    (work.poll respond task woken h).1.HasOneTaker I respond := by
  cases work with
  | fan ps close => exact pollFan_oneTaker task woken close hw h
  | closing p => trivial
  | lead p =>
    obtain ⟨hp, -⟩ := Progress.Keeps.poll hw ⟨task, some 0⟩ hI
    rw [Work.poll]
    generalize p.poll respond ⟨task, some 0⟩ h = r at hp ⊢
    dsimp only
    cases hresult : r.1.result? with
    | none => exact hp
    | some plan =>
      rw [Progress.eq_ended_of_result? hresult] at hp
      have hplan : plan.HasOneTaker := hp
      exact pollFan_oneTaker task _ plan.close (hplan.map fun _ hf => .start hf) r.2

/-- Where at most one branch takes locks, one strand stands in queues. -/
theorem HasOneTaker.eq_of_mem {rules : Rules σ ℓ} (hw : work.HasOneTaker I respond)
    (hobeys : work.Obeys rules h task) {m n : Nat} {l k : ℓ} (hm : ⟨task, some m⟩ ∈ h.queue l)
    (hn : ⟨task, some n⟩ ∈ h.queue k) : m = n := by
  have hfirst {α : Type} {Q : α → Prop} {p : Progress σ ℓ answer α}
      (hp : FirstObeys rules Q h task p) : m = n := by
    have hzero {i : Nat} {l : ℓ} (hi : ⟨task, some i⟩ ∈ h.queue l) : i = 0 :=
      Classical.byContradiction fun hne => (hp.others i hne).not_mem hi
    rw [hzero hm, hzero hn]
  cases work with
  | lead p => exact hfirst hobeys
  | closing p => exact hfirst hobeys
  | fan ps close =>
    have hbranch {i : Nat} {l : ℓ} (hi : ⟨task, some i⟩ ∈ h.queue l) :
        ∃ p, ps[i]? = some p ∧ ¬p.LockFree := by
      cases hp : ps[i]? with
      | none => exact absurd hi (hobeys.1.others i hp).not_mem
      | some p =>
        refine ⟨p, rfl, fun hfree => ?_⟩
        exact ((hobeys.1.branches i p hp).claims_nil respond hfree).not_mem hi
    obtain ⟨p, hp, htakes⟩ := hbranch hm
    obtain ⟨q, hq, htakes'⟩ := hbranch hn
    by_contra hne
    exact (hw m n p q hne hp hq).elim htakes htakes'

end Work

end GuildBot

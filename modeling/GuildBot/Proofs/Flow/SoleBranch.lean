import GuildBot.Proofs.Flow.AllButOne
import GuildBot.Proofs.Flow.ProgressEvaluation
import GuildBot.Proofs.Flow.SingleTask

/-!
# One branch that does something

Where all branches of a plan but one have nothing to do, it makes no difference that they run side by
side: a machine that is alone with the plan comes to what its programs come to one after another.
-/

namespace GuildBot

variable {σ ℓ γ : Type} {answer : γ → Type} {α δ β : Type}

/-- Whether a program has nothing to do. -/
def Flow.IsIdle (f : Program σ ℓ answer α) : Prop := ∃ a, f = .done a

/-- Whether at most one branch of a plan has something to do. -/
def Plan.HasSole (plan : Plan σ ℓ answer δ β) : Prop := AllButOne Flow.IsIdle plan.branches

namespace Progress

variable (respond : Respond σ answer)

def rest : Progress σ ℓ answer α → Program σ ℓ answer α
  | .waiting _ rest => rest
  | .ended (some a) => .done a
  | .ended none => .panic

private theorem eval_eq_rest (p : Progress σ ℓ answer α) (s : σ) :
    p.eval respond s = Flow.eval respond p.rest s := by
  cases p with
  | waiting obstacle rest => rfl
  | ended result => cases result <;> rfl

def Sole (ps : List (Progress σ ℓ answer α)) : Prop := AllButOne (·.rest.IsIdle) ps

def rests (ps : List (Progress σ ℓ answer α)) : Program σ ℓ answer (List α) := (ps.map rest).mapM id

private theorem rests_cons (p : Progress σ ℓ answer α) (ps : List (Progress σ ℓ answer α)) :
    rests (p :: ps) = p.rest.bind fun a => (rests ps).bind fun as => .done (a :: as) := by
  simp only [rests, List.map_cons, List.mapM_cons, Flow.bind_def, Flow.pure_def, id_eq]

/-- In place of one of several programs, with nothing left to do for those before it, there may stand
another that comes to the same from another state. -/
private theorem eval_rests_set {ps : List (Progress σ ℓ answer α)} {n : Nat} {p p' : Progress σ ℓ answer α}
    (hn : ps[n]? = some p) (hbefore : ∀ m < n, ∀ q, ps[m]? = some q → q.rest.IsIdle) {s s' : σ}
    (heval : Flow.eval respond p'.rest s' = Flow.eval respond p.rest s) :
    Flow.eval respond (rests (ps.set n p')) s' = Flow.eval respond (rests ps) s := by
  induction ps generalizing n with
  | nil => simp at hn
  | cons q ps ih =>
    cases n with
    | zero =>
      obtain rfl : q = p := by simpa using hn
      rw [List.set_cons_zero, rests_cons, rests_cons, Flow.eval_bind, Flow.eval_bind, heval]
    | succ n =>
      obtain ⟨a, hq⟩ := hbefore 0 (Nat.succ_pos n) q rfl
      have hrest := ih (by simpa using hn) fun m hm q hq =>
        hbefore (m + 1) (Nat.succ_lt_succ hm) q (by simpa using hq)
      rw [List.set_cons_succ, rests_cons, rests_cons, hq]
      simp only [Flow.bind, Flow.eval_bind, hrest]

private theorem eval_rests_set_same {ps : List (Progress σ ℓ answer α)} {n : Nat}
    {p p' : Progress σ ℓ answer α} (hn : ps[n]? = some p)
    (heval : ∀ s, Flow.eval respond p'.rest s = Flow.eval respond p.rest s) (s : σ) :
    Flow.eval respond (rests (ps.set n p')) s = Flow.eval respond (rests ps) s := by
  induction ps generalizing n s with
  | nil => simp at hn
  | cons q ps ih =>
    cases n with
    | zero =>
      obtain rfl : q = p := by simpa using hn
      rw [List.set_cons_zero, rests_cons, rests_cons, Flow.eval_bind, Flow.eval_bind, heval]
    | succ n =>
      have hrest := ih (by simpa using hn)
      rw [List.set_cons_succ, rests_cons, rests_cons]
      simp only [Flow.eval_bind, hrest]

private theorem rests_of_joined {ps : List (Progress σ ℓ answer α)} {results : List α}
    (h : ps.mapM (·.result?) = some results) : rests ps = .done results := by
  rw [eq_ended_of_joined h]
  clear h
  induction results with
  | nil => rfl
  | cons a results ih =>
    rw [List.map_cons, rests_cons, ih]
    rfl

private theorem eval_rests_of_panic {ps : List (Progress σ ℓ answer α)} {n : Nat} {p : Progress σ ℓ answer α}
    (hn : ps[n]? = some p) (hbefore : ∀ m < n, ∀ q, ps[m]? = some q → q.rest.IsIdle)
    (hp : p.rest = .panic) (s : σ) : Flow.eval respond (rests ps) s = (none, s) := by
  induction ps generalizing n with
  | nil => simp at hn
  | cons q ps ih =>
    cases n with
    | zero =>
      obtain rfl : q = p := by simpa using hn
      rw [rests_cons, hp]
      rfl
    | succ n =>
      obtain ⟨a, hq⟩ := hbefore 0 (Nat.succ_pos n) q rfl
      have hrest := ih (by simpa using hn) fun m hm q hq =>
        hbefore (m + 1) (Nat.succ_lt_succ hm) q (by simpa using hq)
      rw [rests_cons, hq]
      simp only [Flow.bind, Flow.eval_bind, hrest]

private theorem Sole.eval_of_panicked {ps : List (Progress σ ℓ answer α)} (hsole : Sole ps)
    (hany : ps.any (·.hasPanicked) = true) (s : σ) :
    Flow.eval respond (rests ps) s = (none, s) := by
  obtain ⟨p, hmem, hp⟩ := List.any_eq_true.1 hany
  obtain ⟨n, hn⟩ := List.mem_iff_getElem?.1 hmem
  have hpanic : p.rest = .panic := by
    cases p with
    | waiting obstacle rest => cases hp
    | ended result =>
      cases result with
      | none => rfl
      | some a => cases hp
  refine eval_rests_of_panic respond hn (fun m hm q hq => ?_) hpanic s
  refine (hsole m n q p (Nat.ne_of_lt hm) hq hn).resolve_right fun ⟨a, ha⟩ => ?_
  cases hpanic.symm.trans ha

variable [DecidableEq ℓ]

private theorem eval_rest_poll (me : Strand) (p : Progress σ ℓ answer α) (h : Hub σ ℓ) :
    Flow.eval respond (p.poll respond me h).1.rest (p.poll respond me h).2.state =
      Flow.eval respond p.rest h.state := by
  rw [← eval_eq_rest, ← eval_eq_rest, eval_poll]

private theorem poll_of_idle {p : Progress σ ℓ answer α} (hp : p.rest.IsIdle) (me : Strand) (h : Hub σ ℓ) :
    (p.poll respond me h).1.rest = p.rest ∧ (p.poll respond me h).2.state = h.state := by
  obtain ⟨a, ha⟩ := hp
  cases p with
  | ended result => exact ⟨rfl, rfl⟩
  | waiting obstacle rest =>
    obtain rfl : rest = .done a := ha
    rw [poll]
    split
    · exact ⟨rfl, rfl⟩
    · exact ⟨rfl, rfl⟩

/-- A turn of one of several programs, of which at most one has something to do, does not change what
they come to. -/
theorem Sole.poll {ps : List (Progress σ ℓ answer α)} (hsole : Sole ps) {n : Nat}
    {p : Progress σ ℓ answer α} (hn : ps[n]? = some p) (me : Strand) (h : Hub σ ℓ) :
    Sole (ps.set n (p.poll respond me h).1) ∧
      Flow.eval respond (rests (ps.set n (p.poll respond me h).1)) (p.poll respond me h).2.state =
        Flow.eval respond (rests ps) h.state := by
  have hkept (hidle : p.rest.IsIdle) : (p.poll respond me h).1.rest.IsIdle := by
    rwa [(poll_of_idle respond hidle me h).1]
  refine ⟨hsole.set hn hkept, ?_⟩
  by_cases hidle : p.rest.IsIdle
  · obtain ⟨hrest, hstate⟩ := poll_of_idle respond hidle me h
    rw [hstate]
    exact eval_rests_set_same respond hn (fun s => by rw [hrest]) h.state
  · -- All others have nothing to do, and those that come before it leave the state as it is.
    refine eval_rests_set respond hn (fun m hm q hq => ?_) (eval_rest_poll respond me p h)
    exact (hsole m n q p (Nat.ne_of_lt hm) hq hn).resolve_right hidle

end Progress

namespace Work

variable (respond : Respond σ answer)

def rest : Work σ ℓ answer δ β → Program σ ℓ answer β
  | .lead p => p.rest.bind Plan.inTurn
  | .fan ps close => (Progress.rests ps).bind close
  | .closing p => p.rest

/-- Whether at most one branch of a piece of work will have something to do at any time. -/
def IsSole (h : Hub σ ℓ) : Work σ ℓ answer δ β → Prop
  | .lead p => ∀ plan s, Flow.eval respond p.rest h.state = (some plan, s) → plan.HasSole
  | .fan ps _ => Progress.Sole ps
  | .closing _ => True

/-- Whether the work will come to a result and a state, with at most one branch that has something to
do. -/
structure Yields (r : Option β × σ) (work : Work σ ℓ answer δ β) (h : Hub σ ℓ) : Prop where
  sole : work.IsSole respond h
  eval_eq : Flow.eval respond work.rest h.state = r

variable {r : Option β × σ} {h h' : Hub σ ℓ}

theorem Yields.of_state {work : Work σ ℓ answer δ β} (hw : work.Yields respond r h)
    (hstate : h'.state = h.state) : work.Yields respond r h' := by
  obtain ⟨hsole, heval⟩ := hw
  refine ⟨?_, by rw [hstate]; exact heval⟩
  cases work with
  | lead p => exact fun plan s hplan => hsole plan s (hstate ▸ hplan)
  | fan ps close => exact hsole
  | closing p => trivial

variable [DecidableEq ℓ] (task : Nat)

private theorem pollBranches_sole (order : List Nat) {ps : List (Progress σ ℓ answer δ)}
    (hsole : Progress.Sole ps) :
    Progress.Sole (pollBranches respond task order ps h).1 ∧
      Flow.eval respond (Progress.rests (pollBranches respond task order ps h).1)
          (pollBranches respond task order ps h).2.state =
        Flow.eval respond (Progress.rests ps) h.state := by
  induction order generalizing ps h with
  | nil => exact ⟨hsole, rfl⟩
  | cons n order ih =>
    rw [pollBranches]
    cases hn : ps[n]? with
    | none => exact ih hsole
    | some p =>
      obtain ⟨hset, heval⟩ := hsole.poll respond hn ⟨task, some n⟩ h
      dsimp only
      split
      · exact ⟨hset, heval⟩
      · rw [← heval]
        exact ih hset

private theorem pollClosing_yields {p : Progress σ ℓ answer β}
    (heval : Flow.eval respond p.rest h.state = r) :
    (pollClosing (δ := δ) respond task p h).1.Yields respond r (pollClosing (δ := δ) respond task p h).2 :=
  ⟨trivial, (Progress.eval_rest_poll respond ⟨task, some 0⟩ p h).trans heval⟩

private theorem pollFan_yields (woken : List Nat) {ps : List (Progress σ ℓ answer δ)}
    {close : List δ → Program σ ℓ answer β} (hsole : Progress.Sole ps)
    (heval : Flow.eval respond ((Progress.rests ps).bind close) h.state = r) :
    (pollFan respond task woken ps close h).1.Yields respond r
      (pollFan respond task woken ps close h).2 := by
  rw [pollFan]
  have hbranches := pollBranches_sole (h := h) respond task
    (if ps.length ≤ smallFan then List.range ps.length else woken) hsole
  generalize pollBranches respond task _ ps h = polled at hbranches ⊢
  obtain ⟨ps', h'⟩ := polled
  obtain ⟨hsole', heval'⟩ := hbranches
  rw [Flow.eval_bind, ← heval', ← Flow.eval_bind] at heval
  dsimp only
  cases hresults : ps'.mapM (·.result?) with
  | none => exact ⟨hsole', heval⟩
  | some results =>
    rw [Progress.rests_of_joined hresults] at heval
    exact pollClosing_yields respond task heval

theorem Yields.poll {work : Work σ ℓ answer δ β} (hw : work.Yields respond r h) (woken : List Nat) :
    (work.poll respond task woken h).1.Yields respond r (work.poll respond task woken h).2 := by
  obtain ⟨hsole, heval⟩ := hw
  cases work with
  | fan ps close => exact pollFan_yields respond task woken hsole heval
  | closing p => exact pollClosing_yields respond task heval
  | lead p =>
    have hp := Progress.eval_rest_poll respond ⟨task, some 0⟩ p h
    rw [Work.poll]
    generalize p.poll respond ⟨task, some 0⟩ h = polled at hp ⊢
    obtain ⟨p', h'⟩ := polled
    have heval' : Flow.eval respond (p'.rest.bind Plan.inTurn) h'.state = r := by
      rw [Flow.eval_bind, hp, ← Flow.eval_bind]
      exact heval
    dsimp only
    cases hresult : p'.result? with
    | none => exact ⟨fun plan s hplan => hsole plan s (hp.symm.trans hplan), heval'⟩
    | some plan =>
      rw [Progress.eq_ended_of_result? hresult] at hp heval'
      have hstart : Progress.rests (plan.branches.map Progress.start) = plan.branches.mapM id := by
        rw [Progress.rests, List.map_map]
        exact congrArg (List.mapM id) (List.map_id _)
      refine pollFan_yields respond task _ ((hsole plan _ hp.symm).map fun _ hidle => hidle) ?_
      rw [hstart]
      exact heval'

omit [DecidableEq ℓ] in
private theorem Yields.of_ending {work : Work σ ℓ answer δ β} (hw : work.Yields respond r h)
    {result : Option β} (hending : work.ending? = some result) : r = (result, h.state) := by
  obtain ⟨hsole, rfl⟩ := hw
  cases work with
  | lead p =>
    cases p with
    | waiting obstacle rest => cases hending
    | ended plan =>
      cases plan with
      | some plan => cases hending
      | none =>
        cases hending
        rfl
  | fan ps close =>
    rw [ending?] at hending
    split at hending
    · next hany =>
      cases hending
      rw [rest, Flow.eval_bind, Progress.Sole.eval_of_panicked respond hsole hany]
    · cases hending
  | closing p =>
    cases p with
    | waiting obstacle rest => cases hending
    | ended a =>
      cases hending
      cases result <;> rfl

end Work

/-- A machine that is alone with a plan, of which at most one branch has something to do, comes to what
the programs of the plan come to one after another. -/
theorem Machine.ends_ofPlan (respond : Respond σ answer) [DecidableEq ℓ] {rules : Rules σ ℓ} (state : σ)
    {lead : Program σ ℓ answer (Plan σ ℓ answer δ β)} (hlead : lead.Obeys rules [] (Plan.Obeys rules) [])
    (hsole : ∀ plan s, Flow.eval respond lead state = (some plan, s) → plan.HasSole) :
    (alone state (.ofPlan lead) none).Ends respond
      ((Flow.eval respond (lead.bind Plan.inTurn) state).1.elim .panicked .value)
      (Flow.eval respond (lead.bind Plan.inTurn) state).2 := by
  let r := Flow.eval respond (lead.bind Plan.inTurn) state
  have hturn (work : Work σ ℓ answer δ β) (h : Hub σ ℓ) (_ : work.InProgress h)
      (hw : work.Yields respond r h) :
      let polled := work.poll respond 0 (h.woken.filterMap (·.branch)) { h with woken := [] }
      polled.1.Yields respond r polled.2 := by
    have hcleared : work.Yields respond r { h with woken := [] } := hw.of_state respond rfl
    exact hcleared.poll respond 0 _
  obtain ⟨work, h, result, hyields, hending, hends⟩ := ends_keeping respond hturn
    (fun work h time _ hw => hw.of_state respond (h.arrive_state time)) (.start lead state)
    ⟨.start hlead fun _ => rfl, fun _ _ _ => rfl⟩ ⟨hsole, rfl⟩
  have hr : r = (result, h.state) := hyields.of_ending respond hending
  rw [show Flow.eval respond (lead.bind Plan.inTurn) state = r from rfl, hr]
  exact hends

end GuildBot

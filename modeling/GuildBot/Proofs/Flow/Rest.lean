import GuildBot.Proofs.Flow.Step
import Mathlib.Data.Multiset.DershowitzManna
import Mathlib.SetTheory.Ordinal.Family

/-!
# Machines come to rest

No machine runs for ever, whatever its tasks are and however their calls are answered. The rank of
a program bounds what it can still do; the ranks of all programs of a machine form a multiset, which
goes down whenever one of them makes use of a turn. Where none does, fewer timers are left, or as
many timers and fewer strands that are woken.
-/

namespace GuildBot

open Multiset (IsDershowitzMannaLT)

variable {σ ℓ γ : Type} {answer : γ → Type} {α β δ : Type}

section

variable {M N : Multiset Ordinal.{0}} {a b : Ordinal.{0}}

private theorem dominated (h : ∀ x ∈ M, x < a) : IsDershowitzMannaLT M {a} :=
  ⟨0, M, {a}, by simp, by simp, by simp, fun x hx => ⟨a, by simp, h x hx⟩⟩

private theorem dominated_add (h : ∀ x ∈ M, x < a) (X : Multiset Ordinal.{0}) :
    IsDershowitzMannaLT M (X + {a}) :=
  ⟨0, M, X + {a}, by simp, by simp, by simp, fun x hx => ⟨a, by simp, h x hx⟩⟩

private theorem add_lowered (X : Multiset Ordinal.{0}) (h : IsDershowitzMannaLT M N) :
    IsDershowitzMannaLT (X + M) (X + N) := by
  obtain ⟨Y, M', N', hne, rfl, rfl, hlt⟩ := h
  exact ⟨X + Y, M', N', hne, (add_assoc X Y M').symm, (add_assoc X Y N').symm, hlt⟩

private theorem lowered_add (X : Multiset Ordinal.{0}) (h : IsDershowitzMannaLT M N) :
    IsDershowitzMannaLT (M + X) (N + X) := by
  rw [add_comm M, add_comm N]
  exact add_lowered X h

private theorem lost (X : Multiset Ordinal.{0}) {Y : Multiset Ordinal.{0}} (h : Y ≠ 0) :
    IsDershowitzMannaLT X (X + Y) :=
  ⟨X, 0, Y, h, by simp, rfl, by simp⟩

end

/-- How much a program can still do, if what it ends with is worth `value`. -/
noncomputable def Flow.rank {ρ : Type} {reply : ρ → Type} (value : α → Ordinal.{0}) :
    Flow σ reply α → Ordinal.{0}
  | .done a => value a
  | .panic => 0
  | .act _ next => ⨆ s, (rank value (next s) + 1)
  | .ask _ next => ⨆ x, (rank value (next x) + 1)

namespace Progress

noncomputable def rank (value : α → Ordinal.{0}) : Progress σ ℓ answer α → Ordinal.{0}
  | .waiting _ rest => rest.rank value + 1
  | .ended (some a) => value a
  | .ended none => 0

variable [DecidableEq ℓ] (respond : Respond σ answer) (me : Strand) (value : α → Ordinal.{0})

private theorem rank_run_le (f : Program σ ℓ answer α) (h : Hub σ ℓ) :
    (run respond me f h).1.rank value ≤ f.rank value := by
  induction f generalizing h with
  | done a => exact le_refl _
  | panic => exact le_refl _
  | act update next ih =>
    exact (ih h.state _).trans (Ordinal.lt_iSup_add_one (fun s => (next s).rank value) h.state).le
  | ask request next ih =>
    have hgo (x : Request.Reply ℓ answer request) (h : Hub σ ℓ) :
        (run respond me (next x) h).1.rank value ≤ (Flow.ask request next).rank value :=
      (ih x h).trans (Ordinal.lt_iSup_add_one (fun x => (next x).rank value) x).le
    have hstay (x : Request.Reply ℓ answer request) (obstacle : Obstacle ℓ) :
        (Progress.waiting obstacle (next x)).rank value ≤ (Flow.ask request next).rank value :=
      Ordinal.le_iSup (fun x => (next x).rank value + 1) x
    cases request with
    | lock l =>
      simp only [run]
      split
      · exact hgo () _
      · exact hstay () _
    | unlock l => exact hgo () _
    | wait t =>
      cases t with
      | zero => exact hgo () h
      | succ t => exact hstay () _
    | pause => exact hstay () _
    | call c =>
      simp only [run]
      split
      · exact hgo _ _
      · exact hstay _ _

private theorem poll_unused_or_lowers (p : Progress σ ℓ answer α) (h : Hub σ ℓ) :
    p.poll respond me h = (p, h) ∨ (p.poll respond me h).1.rank value < p.rank value := by
  cases p with
  | ended result => exact .inl rfl
  | waiting obstacle rest =>
    simp only [poll]
    split
    · exact .inr ((rank_run_le respond me value rest h).trans_lt (lt_add_one _))
    · exact .inl rfl

end Progress

namespace Work

/-- A bound for what closing programs can do. -/
noncomputable def closeRank (close : List δ → Program σ ℓ answer β) : Ordinal.{0} :=
  ⨆ results, ((close results).rank (fun _ => 0) + 1)

noncomputable def fanRank (ps : List (Progress σ ℓ answer δ))
    (close : List δ → Program σ ℓ answer β) : Multiset Ordinal.{0} :=
  ↑(ps.map (Progress.rank fun _ => 0)) + {closeRank close}

/-- What settling a plan is worth: more than anything that its programs can do. -/
noncomputable def planRank (plan : Plan σ ℓ answer δ β) : Ordinal.{0} :=
  (fanRank (plan.branches.map .start) plan.close).sup + 1

noncomputable def rank : Work σ ℓ answer δ β → Multiset Ordinal.{0}
  | .lead p => {p.rank planRank}
  | .fan ps close => fanRank ps close
  | .closing p => {p.rank fun _ => 0}

private theorem lt_planRank {plan : Plan σ ℓ answer δ β} {a : Ordinal.{0}}
    (h : a ∈ fanRank (plan.branches.map .start) plan.close) : a < planRank plan :=
  (Multiset.le_sup h).trans_lt (lt_add_one _)

private theorem set_lowers {ps : List (Progress σ ℓ answer δ)} {n : Nat}
    {p p' : Progress σ ℓ answer δ} (hn : ps[n]? = some p)
    (hlt : p'.rank (fun _ => 0) < p.rank fun _ => 0) :
    IsDershowitzMannaLT (↑((ps.set n p').map (Progress.rank fun _ => 0)) : Multiset Ordinal.{0})
      ↑(ps.map (Progress.rank fun _ => 0)) := by
  obtain ⟨hlen, rfl⟩ := List.getElem?_eq_some_iff.1 hn
  obtain ⟨l₁, l₂, hps, -, hset⟩ : ∃ l₁ l₂, ps = l₁ ++ ps[n] :: l₂ ∧ l₁.length = n ∧
      ps.set n p' = l₁ ++ p' :: l₂ := List.exists_of_set hlen
  have hsplit (q : Progress σ ℓ answer δ) :
      (↑((l₁ ++ q :: l₂).map (Progress.rank fun _ => 0)) : Multiset Ordinal.{0}) =
        ↑((l₁ ++ l₂).map (Progress.rank fun _ => 0)) + {q.rank fun _ => 0} := by
    simp only [List.map_append, List.map_cons]
    rw [Multiset.coe_eq_coe.2 List.perm_middle, ← Multiset.cons_coe, ← Multiset.singleton_add,
      add_comm]
  rw [hset, hps, hsplit, hsplit]
  refine add_lowered _ (dominated ?_)
  simpa [← hps] using hlt

variable [DecidableEq ℓ] (respond : Respond σ answer) (task : Nat)

private theorem pollBranches_unused_or_lowers (order : List Nat) (ps : List (Progress σ ℓ answer δ))
    (h : Hub σ ℓ) :
    pollBranches respond task order ps h = (ps, h) ∨
      IsDershowitzMannaLT
        (↑((pollBranches respond task order ps h).1.map (Progress.rank fun _ => 0)) :
          Multiset Ordinal.{0})
        ↑(ps.map (Progress.rank fun _ => 0)) := by
  induction order generalizing ps h with
  | nil => exact .inl rfl
  | cons n order ih =>
    rw [pollBranches]
    cases hn : ps[n]? with
    | none => exact ih ps h
    | some p =>
      dsimp only
      rcases p.poll_unused_or_lowers respond ⟨task, some n⟩ (fun _ => 0) h with heq | hlt
      · have hset : ps.set n p = ps := by
          obtain ⟨hlen, rfl⟩ := List.getElem?_eq_some_iff.1 hn
          exact List.set_getElem_self hlen
        rw [heq, hset]
        split
        · exact .inl rfl
        · exact ih ps h
      · generalize p.poll respond ⟨task, some n⟩ h = r at hlt ⊢
        have hset := set_lowers hn hlt
        split
        · exact .inr hset
        · rcases ih (ps.set n r.1) r.2 with heq | hlt'
          · rw [heq]
            exact .inr hset
          · exact .inr (hlt'.trans hset)

private theorem pollClosing_lowers (close : List δ → Program σ ℓ answer β) (results : List δ)
    (X : Multiset Ordinal.{0}) (h : Hub σ ℓ) :
    IsDershowitzMannaLT
      (pollClosing (δ := δ) respond task (.start (close results)) h).1.rank
      (X + {closeRank close}) := by
  apply dominated_add
  intro a ha
  rw [Multiset.mem_singleton.1 ha]
  exact (Progress.rank_run_le respond _ _ (close results) h).trans_lt
    (Ordinal.lt_iSup_add_one (fun results => (close results).rank fun _ => 0) results)

private theorem pollFan_unused_or_lowers (woken : List Nat) (ps : List (Progress σ ℓ answer δ))
    (close : List δ → Program σ ℓ answer β) (h : Hub σ ℓ) :
    pollFan respond task woken ps close h = (.fan ps close, h) ∨
      IsDershowitzMannaLT (pollFan respond task woken ps close h).1.rank (fanRank ps close) := by
  rw [pollFan]
  generalize (if ps.length ≤ smallFan then List.range ps.length else woken) = order
  rcases pollBranches_unused_or_lowers respond task order ps h with heq | hlt
  · rw [heq]
    dsimp only
    cases ps.mapM (·.result?) with
    | none => exact .inl rfl
    | some results => exact .inr (pollClosing_lowers respond task close results _ h)
  · generalize pollBranches respond task order ps h = r at hlt ⊢
    have hfan := lowered_add {closeRank close} hlt
    dsimp only
    cases r.1.mapM (·.result?) with
    | none => exact .inr hfan
    | some results => exact .inr (pollClosing_lowers respond task close results _ r.2)

private theorem poll_unused_or_lowers (woken : List Nat) (work : Work σ ℓ answer δ β) (h : Hub σ ℓ) :
    work.poll respond task woken h = (work, h) ∨
      IsDershowitzMannaLT (work.poll respond task woken h).1.rank work.rank := by
  cases work with
  | fan ps close => exact pollFan_unused_or_lowers respond task woken ps close h
  | closing p =>
    rcases p.poll_unused_or_lowers respond ⟨task, some 0⟩ (fun _ => 0) h with heq | hlt
    · exact .inl (by simp only [poll, pollClosing, heq])
    · exact .inr (dominated (by simpa [poll, pollClosing, rank] using hlt))
  | lead p =>
    have hle : p.poll respond ⟨task, some 0⟩ h = (p, h) ∨
        (p.poll respond ⟨task, some 0⟩ h).1.rank planRank < p.rank planRank :=
      p.poll_unused_or_lowers respond ⟨task, some 0⟩ planRank h
    rw [poll]
    generalize p.poll respond ⟨task, some 0⟩ h = r at hle ⊢
    obtain ⟨p', h'⟩ := r
    cases hresult : p'.result? with
    | none =>
      simp only [hresult]
      rcases hle with heq | hlt
      · obtain ⟨rfl, rfl⟩ := Prod.mk.inj heq
        exact .inl rfl
      · exact .inr (dominated (by simpa [rank] using hlt))
    | some plan =>
      have hp' : p' = .ended (some plan) := by
        cases p' with
        | waiting obstacle rest => simp [Progress.result?] at hresult
        | ended result => exact congrArg Progress.ended hresult
      have hplan : planRank plan ≤ p.rank planRank := by
        rcases hle with heq | hlt
        · obtain ⟨rfl, rfl⟩ := Prod.mk.inj heq
          rw [hp']
          exact le_refl _
        · rw [hp'] at hlt
          exact hlt.le
      have hfan : IsDershowitzMannaLT (fanRank (plan.branches.map .start) plan.close)
          {p.rank planRank} :=
        dominated fun a ha => (lt_planRank ha).trans_le hplan
      simp only [hresult]
      rcases pollFan_unused_or_lowers respond task (List.range plan.branches.length)
        (plan.branches.map .start) plan.close h' with heq | hlt
      · rw [heq]
        exact .inr hfan
      · exact .inr (hlt.trans hfan)

end Work

/-- What a task can still do. Setting its deadline and coming to an end count as well. -/
noncomputable def Task.rank (t : Task σ ℓ answer δ β) : Multiset Ordinal.{0} :=
  if t.ending.isSome then 0
  else t.work.rank + ({0} + if t.deadline.isNone then {0} else 0)

private theorem Task.poll_unused_or_lowers [DecidableEq ℓ] (respond : Respond σ answer) (number : Nat)
    (woken : List Nat) (h : Hub σ ℓ) (t : Task σ ℓ answer δ β) (ht : t.ending = none) :
    ((t.poll respond number woken h).1.rank = t.rank ∧ (t.poll respond number woken h).2 = h) ∨
      IsDershowitzMannaLT (t.poll respond number woken h).1.rank t.rank := by
  have hrank : t.rank = t.work.rank + ({0} + if t.deadline.isNone then {0} else 0) := by
    simp [Task.rank, ht]
  have hended (t' : Task σ ℓ answer δ β) (h' : t'.ending.isSome) :
      IsDershowitzMannaLT t'.rank t.rank := by
    rw [Task.rank, if_pos h', hrank]
    simpa using lost (0 : Multiset Ordinal.{0})
      (Y := t.work.rank + ({0} + if t.deadline.isNone then {0} else 0)) (by simp)
  have hwork := t.work.poll_unused_or_lowers respond number woken h
  rcases hr : t.work.poll respond number woken h with ⟨work, h'⟩
  rw [hr] at hwork
  rcases t.poll_cases respond number woken h hr with
    ⟨result, -, hpoll⟩ | ⟨-, -, hpoll⟩ | ⟨-, -, hpoll⟩
  · rw [hpoll]
    exact .inr (hended _ rfl)
  · rw [hpoll]
    exact .inr (hended _ rfl)
  · rw [hpoll]
    have hnew : ({ t with work, deadline := t.due h.now } : Task σ ℓ answer δ β).rank =
        work.rank + ({0} + if (t.due h.now).isNone then {0} else 0) := by
      simp [Task.rank, ht]
    -- Either the deadline is as it was and no timer is set, or setting it lowers the rank.
    by_cases hsame : t.due h.now = t.deadline
    · have harm : t.arm number (t.due h.now) h' = h' := by
        rw [hsame]
        unfold Task.arm
        cases t.deadline with
        | none => rfl
        | some time => rfl
      rw [harm, hnew, hsame, hrank]
      rcases hwork with heq | hlt
      · obtain ⟨rfl, rfl⟩ := Prod.mk.inj heq
        exact .inl ⟨rfl, rfl⟩
      · exact .inr (lowered_add _ hlt)
    · have hnone : t.deadline = none ∧ t.due h.now ≠ none := by
        cases hd : t.deadline with
        | none => exact ⟨rfl, hd ▸ hsame⟩
        | some time => exact absurd (by rw [Task.due, hd]; rfl) hsame
      have hset : IsDershowitzMannaLT (work.rank + {0}) (work.rank + ({0} + {0})) := by
        rw [← add_assoc]
        exact lost _ (by simp)
      have hnew' : ({ t with work, deadline := t.due h.now } : Task σ ℓ answer δ β).rank =
          work.rank + {0} := by
        rw [hnew, if_neg (by simpa using hnone.2), add_zero]
      refine .inr ?_
      rw [hnew', hrank, hnone.1]
      rcases hwork with heq | hlt
      · obtain ⟨rfl, -⟩ := Prod.mk.inj heq
        exact hset
      · exact hset.trans (lowered_add _ hlt)

namespace Machine

noncomputable def rank (m : Machine σ ℓ answer δ β) : Multiset Ordinal.{0} :=
  (m.tasks.map Task.rank).sum

noncomputable def measure (m : Machine σ ℓ answer δ β) : Multiset Ordinal.{0} × Nat × Nat :=
  (m.rank, m.hub.timers.length, m.hub.woken.length)

abbrev Below : Multiset Ordinal.{0} × Nat × Nat → Multiset Ordinal.{0} × Nat × Nat → Prop :=
  Prod.Lex IsDershowitzMannaLT (Prod.Lex (· < ·) (· < ·))

private theorem rank_set {tasks : List (Task σ ℓ answer δ β)} {n : Nat}
    {t : Task σ ℓ answer δ β} (hn : tasks[n]? = some t) (t' : Task σ ℓ answer δ β) :
    ∃ others : Multiset Ordinal.{0}, (tasks.map Task.rank).sum = others + t.rank ∧
      ((tasks.set n t').map Task.rank).sum = others + t'.rank := by
  obtain ⟨hlen, rfl⟩ := List.getElem?_eq_some_iff.1 hn
  obtain ⟨l₁, l₂, htasks, -, hset⟩ : ∃ l₁ l₂, tasks = l₁ ++ tasks[n] :: l₂ ∧ l₁.length = n ∧
      tasks.set n t' = l₁ ++ t' :: l₂ := List.exists_of_set hlen
  refine ⟨(l₁.map Task.rank).sum + (l₂.map Task.rank).sum, ?_, ?_⟩
  · conv_lhs => rw [htasks]
    simp only [List.map_append, List.map_cons, List.sum_append, List.sum_cons]
    rw [add_left_comm, add_comm]
  · rw [hset]
    simp only [List.map_append, List.map_cons, List.sum_append, List.sum_cons]
    rw [add_left_comm, add_comm]

variable [DecidableEq ℓ] {respond : Respond σ answer} {m m' : Machine σ ℓ answer δ β}

theorem turn_below (h : m.turn? respond = some m') : Below m'.measure m.measure := by
  obtain ⟨s, hs, rfl⟩ := Option.map_eq_some_iff.1 h
  have hs : s ∈ m.hub.woken := List.mem_of_mem_head? hs
  have hwoken : (m.hub.woken.filter fun s' => s'.task ≠ s.task).length < m.hub.woken.length :=
    List.length_filter_lt_length_iff_exists.2 ⟨s, hs, by simp⟩
  rw [pollTask]
  dsimp only
  split
  · exact .right _ (.right _ hwoken)
  · next t ht =>
    split
    · exact .right _ (.right _ hwoken)
    · next hending =>
      have hpoll := t.poll_unused_or_lowers respond s.task
        ((m.hub.woken.filter fun s' => s'.task = s.task).filterMap (·.branch))
        { m.hub with woken := m.hub.woken.filter fun s' => s'.task ≠ s.task } (by simpa using hending)
      dsimp only at hpoll
      generalize t.poll respond s.task _ _ = r at hpoll ⊢
      obtain ⟨t', h'⟩ := r
      obtain ⟨others, hm, hm'⟩ := rank_set ht t'
      rcases hpoll with ⟨hrank, rfl⟩ | hlt
      · have hsame : ((m.tasks.set s.task t').map Task.rank).sum = m.rank :=
          hm'.trans ((congrArg (others + ·) hrank).trans hm.symm)
        simp only [measure, rank, hsame]
        exact .right _ (.right _ hwoken)
      · apply Prod.Lex.left
        rw [rank, rank, hm, hm']
        exact add_lowered others hlt

omit [DecidableEq ℓ] in
/-- Time passes, and a timer runs out. -/
theorem arrive_below {time : Nat} {timer : Nat × Strand} (htimer : timer ∈ m.hub.timers)
    (hdue : timer.1 ≤ time) :
    Below ({ m with hub := m.hub.arrive time } : Machine σ ℓ answer δ β).measure m.measure := by
  refine .right _ (.left _ _ ?_)
  rw [Hub.arrive_timers]
  exact List.length_filter_lt_length_iff_exists.2 ⟨timer, htimer, by simpa using hdue⟩

private theorem tick_below (h : m.tick? = some m') : Below m'.measure m.measure := by
  obtain ⟨time, htime, rfl⟩ := Option.map_eq_some_iff.1 h
  obtain ⟨timer, htimer, rfl⟩ := List.mem_map.1 (List.min?_mem htime)
  exact arrive_below htimer (Nat.le_refl _)

private theorem step_below (h : m.step? respond = some m') : Below m'.measure m.measure := by
  rw [step?] at h
  cases hturn : m.turn? respond with
  | some m₁ =>
    rw [hturn, Option.some_or, Option.some.injEq] at h
    exact turn_below (h ▸ hturn)
  | none =>
    rw [hturn, Option.none_or] at h
    exact tick_below h

theorem below_wellFounded : WellFounded Below :=
  WellFounded.prod_lex Multiset.wellFounded_isDershowitzMannaLT
    (WellFounded.prod_lex Nat.lt_wfRel.wf Nat.lt_wfRel.wf)

/-- Every machine comes to rest after some number of steps. -/
theorem comes_to_rest (respond : Respond σ answer) (m : Machine σ ℓ answer δ β) :
    ∃ n, (m.run respond n).step? respond = none := by
  induction hm : m.measure using below_wellFounded.induction generalizing m with
  | _ r ih =>
    cases hstep : m.step? respond with
    | none => exact ⟨0, hstep⟩
    | some m' =>
      obtain ⟨n, hn⟩ := ih m'.measure (hm ▸ step_below hstep) m' rfl
      exact ⟨n + 1, by simpa only [run, hstep] using hn⟩

end Machine

end GuildBot

import GuildBot.Proofs.Flow.Wakeup

/-!
# Work under way

What holds of a piece of work between its turns, as long as it has not ended: its programs are heeded,
and it waits for one of them. Turns and the passing of time keep that.
-/

namespace GuildBot

open Relation (ReflTransGen)

variable {σ ℓ γ : Type} [DecidableEq ℓ] {answer : γ → Type} {δ β : Type}

/-- Whether a strand is a branch of the task. -/
def Strand.IsBranchOf (task : Nat) (s : Strand) : Prop := s.task = task ∧ s.branch.isSome

/-- What a task can do to the hub while it has its turn, piece by piece. -/
def Hub.TaskStroke (task : Nat) (h h' : Hub σ ℓ) : Prop := ∃ n, Hub.Stroke ⟨task, some n⟩ h h'

namespace Hub

variable {task : Nat} {h h' : Hub σ ℓ}

private theorem strokes_of_branch {n : Nat} (hs : ReflTransGen (Stroke ⟨task, some n⟩) h h') :
    ReflTransGen (TaskStroke task) h h' :=
  hs.lift id fun _ _ hstroke => ⟨n, hstroke⟩

theorem now_of_strokes (hs : ReflTransGen (TaskStroke task) h h') : h'.now = h.now := by
  induction hs with
  | refl => rfl
  | tail _ hstroke ih =>
    obtain ⟨n, hstroke⟩ := hstroke
    exact (Spares.of_stroke hstroke).now.trans ih

theorem woken_of_strokes (hs : ReflTransGen (TaskStroke task) h h') : h.woken ⊆ h'.woken := by
  induction hs with
  | refl => exact List.Subset.refl _
  | tail _ hstroke ih =>
    obtain ⟨n, hstroke⟩ := hstroke
    exact List.Subset.trans ih (Spares.of_stroke hstroke).woken

theorem timers_of_strokes (hs : ReflTransGen (TaskStroke task) h h') : h.timers ⊆ h'.timers := by
  induction hs with
  | refl => exact List.Subset.refl _
  | tail _ hstroke ih =>
    obtain ⟨n, hstroke⟩ := hstroke
    exact List.Subset.trans ih (Spares.of_stroke hstroke).timers

theorem Serves.of_taskStrokes {kind : Strand → Prop} (hkind : ∀ n, kind ⟨task, some n⟩)
    (hs : ReflTransGen (TaskStroke task) h h') (hh : h.Serves kind) : h'.Serves kind := by
  induction hs with
  | refl => exact hh
  | tail _ hstroke ih =>
    obtain ⟨n, hstroke⟩ := hstroke
    exact ih.of_stroke (hkind n) hstroke

end Hub

open Hub

namespace Work

variable (respond : Respond σ answer) (task : Nat)

/-- Whether all programs of the work that have begun are heeded. -/
def Heeded (h : Hub σ ℓ) (task : Nat) : Work σ ℓ answer δ β → Prop
  | .lead p => p.Heeded h ⟨task, some 0⟩
  | .fan ps _ => ∀ (n : Nat) p, ps[n]? = some p → p.Heeded h ⟨task, some n⟩
  | .closing p => p.Heeded h ⟨task, some 0⟩

/-- Whether the work waits for one of its programs to come to a result. -/
def Waits : Work σ ℓ answer δ β → Prop
  | .lead p => p.result? = none
  | .fan ps _ => ps.mapM (·.result?) = none
  | .closing p => p.result? = none

private theorem pollBranches_strokes (order : List Nat) (ps : List (Progress σ ℓ answer δ)) (h : Hub σ ℓ) :
    ReflTransGen (TaskStroke task) h (pollBranches respond task order ps h).2 := by
  induction order generalizing ps h with
  | nil => exact .refl
  | cons n order ih =>
    rw [pollBranches]
    cases ps[n]? with
    | none => exact ih ps h
    | some p =>
      have hp := strokes_of_branch (p.poll_strokes respond ⟨task, some n⟩ h)
      dsimp only
      split
      · exact hp
      · exact hp.trans (ih _ _)

private theorem pollFan_strokes (woken : List Nat) (ps : List (Progress σ ℓ answer δ))
    (close : List δ → Program σ ℓ answer β) (h : Hub σ ℓ) :
    ReflTransGen (TaskStroke task) h (pollFan respond task woken ps close h).2 := by
  rw [pollFan]
  generalize (if ps.length ≤ smallFan then List.range ps.length else woken) = order
  have hbranches := pollBranches_strokes respond task order ps h
  dsimp only
  cases (pollBranches respond task order ps h).1.mapM (·.result?) with
  | none => exact hbranches
  | some results =>
    refine hbranches.trans ?_
    exact strokes_of_branch (n := 0) (Progress.poll_strokes respond _ (.start (close results)) _)

/-- What a turn of a piece of work does to the hub, its programs do piece by piece. -/
theorem poll_strokes (woken : List Nat) (work : Work σ ℓ answer δ β) (h : Hub σ ℓ) :
    ReflTransGen (TaskStroke task) h (work.poll respond task woken h).2 := by
  cases work with
  | fan ps close => exact pollFan_strokes respond task woken ps close h
  | closing p => exact strokes_of_branch (p.poll_strokes respond ⟨task, some 0⟩ h)
  | lead p =>
    have hp := strokes_of_branch (p.poll_strokes respond ⟨task, some 0⟩ h)
    rw [poll]
    dsimp only
    split
    · exact hp.trans (pollFan_strokes respond task _ _ _ _)
    · exact hp

private theorem pollBranches_heeded (order : List Nat) (ps : List (Progress σ ℓ answer δ)) (h : Hub σ ℓ)
    (hps : ∀ (n : Nat) p, ps[n]? = some p → p.Timed h ⟨task, some n⟩ ∧
      (n ∉ order → p.Heeded h ⟨task, some n⟩)) :
    let r := pollBranches respond task order ps h
    r.1.any (·.hasPanicked) = true ∨
      ∀ (n : Nat) p, r.1[n]? = some p → p.Heeded r.2 ⟨task, some n⟩ := by
  induction order generalizing ps h with
  | nil => exact .inr fun n p hp => (hps n p hp).2 List.not_mem_nil
  | cons n order ih =>
    rw [pollBranches]
    cases hn : ps[n]? with
    | none =>
      refine ih ps h fun m p hm => ⟨(hps m p hm).1, fun hmem => (hps m p hm).2 ?_⟩
      rintro (_ | ⟨_, hmem'⟩)
      · rw [hn] at hm
        cases hm
      · exact hmem hmem'
    | some p =>
      obtain ⟨hlen, -⟩ := List.getElem?_eq_some_iff.1 hn
      have hheeded := (hps n p hn).1.poll respond
      have hspares := Spares.of_strokes (p.poll_strokes respond ⟨task, some n⟩ h)
      dsimp only
      generalize p.poll respond ⟨task, some n⟩ h = r at hheeded hspares ⊢
      by_cases hpanic : r.1.hasPanicked = true
      · refine .inl ?_
        rw [if_pos hpanic, List.any_eq_true]
        exact ⟨r.1, List.mem_set hlen r.1, hpanic⟩
      · rw [if_neg hpanic]
        apply ih
        intro m q hm
        by_cases hmn : m = n
        · subst hmn
          obtain rfl : r.1 = q := by simpa [hlen] using hm
          exact ⟨hheeded.timed, fun _ => hheeded⟩
        · rw [List.getElem?_set_ne (Ne.symm hmn)] at hm
          refine ⟨(hps m q hm).1.of_spares hspares, fun hmem => ?_⟩
          refine ((hps m q hm).2 fun hmem' => ?_).of_spares (by simp [hmn]) hspares
          exact (List.mem_cons.1 hmem').elim hmn hmem

private theorem pollClosing_heeded (p : Progress σ ℓ answer β) (h : Hub σ ℓ)
    (hp : p.Timed h ⟨task, some 0⟩)
    (hgoing : (pollClosing (δ := δ) respond task p h).1.ending? = none) :
    let r := pollClosing (δ := δ) respond task p h
    r.1.Heeded r.2 task ∧ r.1.Waits := by
  have hheeded := hp.poll respond
  rw [pollClosing] at hgoing ⊢
  generalize p.poll respond ⟨task, some 0⟩ h = r at hheeded hgoing ⊢
  obtain ⟨⟨obstacle, rest⟩ | result, h'⟩ := r
  · exact ⟨hheeded, rfl⟩
  · simp [ending?] at hgoing

private theorem pollFan_heeded (woken : List Nat) (ps : List (Progress σ ℓ answer δ))
    (close : List δ → Program σ ℓ answer β) (h : Hub σ ℓ)
    (hps : ∀ (n : Nat) p, ps[n]? = some p → p.Timed h ⟨task, some n⟩ ∧
      (n ∉ woken → p.Heeded h ⟨task, some n⟩))
    (hgoing : (pollFan respond task woken ps close h).1.ending? = none) :
    let r := pollFan respond task woken ps close h
    r.1.Heeded r.2 task ∧ r.1.Waits := by
  have hbranches := pollBranches_heeded respond task
    (if ps.length ≤ smallFan then List.range ps.length else woken) ps h fun n p hn => by
    refine ⟨(hps n p hn).1, fun hmem => ?_⟩
    split at hmem
    · obtain ⟨hlen, -⟩ := List.getElem?_eq_some_iff.1 hn
      exact absurd (List.mem_range.2 hlen) hmem
    · exact (hps n p hn).2 hmem
  rw [pollFan] at hgoing ⊢
  dsimp only at hbranches hgoing ⊢
  generalize pollBranches respond task _ ps h = r at hbranches hgoing ⊢
  cases hresults : r.1.mapM (·.result?) with
  | some results =>
    simp only [hresults] at hgoing ⊢
    exact pollClosing_heeded respond task _ r.2 (.start _ _ _) hgoing
  | none =>
    simp only [hresults] at hgoing ⊢
    refine ⟨hbranches.resolve_left fun hpanic => ?_, hresults⟩
    simp [ending?, hpanic] at hgoing

/-- A turn of work that is heeded leaves it heeded, unless it ends. All of its branches that are woken
have to be named. -/
theorem poll_heeded {work : Work σ ℓ answer δ β} {h : Hub σ ℓ} (hw : work.Heeded h task)
    {named : List Nat} (hnamed : ∀ n, ⟨task, some n⟩ ∈ h.woken → n ∈ named) (others : List Strand)
    (hgoing : (work.poll respond task named { h with woken := others }).1.ending? = none) :
    let r := work.poll respond task named { h with woken := others }
    r.1.Heeded r.2 task ∧ r.1.Waits := by
  have htimed {α : Type} {p : Progress σ ℓ answer α} {s : Strand} (hp : p.Heeded h s) :
      p.Timed { h with woken := others } s := by
    cases p with
    | waiting obstacle rest => exact (show obstacle.Heeded h s from hp).timed
    | ended result => trivial
  -- Whoever is not woken could not go on before, and does not lose a turn.
  have hunwoken {p : Progress σ ℓ answer δ} {n : Nat} (hp : p.Heeded h ⟨task, some n⟩)
      (hn : n ∉ named) : p.Heeded { h with woken := others } ⟨task, some n⟩ := by
    apply (htimed hp).heeded_of_blocked
    have hblocked := hp.blocked fun hmem => hn (hnamed n hmem)
    cases p with
    | waiting obstacle rest => exact hblocked
    | ended result => trivial
  cases work with
  | closing p => exact pollClosing_heeded respond task p _ (htimed hw) hgoing
  | fan ps close =>
    exact pollFan_heeded respond task _ ps close _
      (fun n p hn => ⟨htimed (hw n p hn), hunwoken (hw n p hn)⟩) hgoing
  | lead p =>
    have hheeded := Progress.Timed.poll respond (htimed (show p.Heeded h ⟨task, some 0⟩ from hw))
    rw [poll] at hgoing ⊢
    dsimp only at hgoing ⊢
    generalize p.poll respond ⟨task, some 0⟩ { h with woken := others } = r at hheeded hgoing ⊢
    cases hresult : r.1.result? with
    | none =>
      simp only [hresult] at hgoing ⊢
      exact ⟨hheeded, hresult⟩
    | some plan =>
      simp only [hresult] at hgoing ⊢
      refine pollFan_heeded respond task _ _ plan.close r.2 (fun n p hn => ?_) hgoing
      obtain ⟨b, hb, rfl⟩ := List.getElem?_map .. ▸ hn |> Option.map_eq_some_iff.1
      obtain ⟨hlen, -⟩ := List.getElem?_eq_some_iff.1 hb
      exact ⟨.start _ _ _, fun hmem => absurd (List.mem_range.2 hlen) hmem⟩

/-- Changes that leave all strands of a task heeded, whatever they wait for. -/
theorem Heeded.imp {task : Nat} {work : Work σ ℓ answer δ β} {h h' : Hub σ ℓ}
    (hw : work.Heeded h task)
    (ho : ∀ n (o : Obstacle ℓ), o.Heeded h ⟨task, some n⟩ → o.Heeded h' ⟨task, some n⟩) :
    work.Heeded h' task := by
  cases work with
  | lead p => exact Progress.Heeded.imp hw (ho 0)
  | closing p => exact Progress.Heeded.imp hw (ho 0)
  | fan ps close => exact fun n p hn => (hw n p hn).imp (ho n)

theorem Heeded.arrive {task : Nat} {work : Work σ ℓ answer δ β} {h : Hub σ ℓ} (hw : work.Heeded h task)
    {time : Nat} (hlater : h.now ≤ time) : work.Heeded (h.arrive time) task :=
  hw.imp fun _ _ ho => ho.arrive hlater

end Work

/-- Work under way, as the only task of a machine. -/
structure Work.InProgress (work : Work σ ℓ answer δ β) (h : Hub σ ℓ) : Prop where
  serves : h.Serves (Strand.IsBranchOf 0)
  heeded : work.Heeded h 0
  waits : work.Waits
  going : work.ending? = none

namespace Work.InProgress

variable (respond : Respond σ answer) {work : Work σ ℓ answer δ β} {h : Hub σ ℓ}

theorem start (lead : Program σ ℓ answer (Plan σ ℓ answer δ β)) (state : σ) :
    InProgress (.ofPlan lead) ({ state, woken := [⟨0, some 0⟩] } : Hub σ ℓ) where
  serves := ⟨nofun, nofun, fun _ hs => List.mem_singleton.1 hs ▸ ⟨rfl, rfl⟩⟩
  heeded := ⟨nofun, fun _ => List.mem_singleton.2 rfl⟩
  waits := rfl
  going := rfl

theorem start_program (f : Program σ ℓ answer β) (state : σ) :
    InProgress (δ := δ) (.ofProgram f) ({ state, woken := [⟨0, some 0⟩] } : Hub σ ℓ) where
  serves := ⟨nofun, nofun, fun _ hs => List.mem_singleton.1 hs ▸ ⟨rfl, rfl⟩⟩
  heeded := ⟨nofun, fun _ => List.mem_singleton.2 rfl⟩
  waits := rfl
  going := rfl

theorem turn (hw : work.InProgress h) {work' : Work σ ℓ answer δ β} {h' : Hub σ ℓ}
    (hr : work.poll respond 0 (h.woken.filterMap (·.branch)) { h with woken := [] } = (work', h')) :
    h'.now = h.now ∧ h'.Serves (Strand.IsBranchOf 0) ∧ (work'.ending? = none → work'.InProgress h') := by
  have hstrokes := poll_strokes respond 0 (h.woken.filterMap (·.branch)) work
    { h with woken := [] }
  have hnamed : ∀ n, ⟨0, some n⟩ ∈ h.woken → n ∈ h.woken.filterMap (·.branch) :=
    fun n hn => List.mem_filterMap.2 ⟨_, hn, rfl⟩
  have hheeded := poll_heeded respond 0 hw.heeded hnamed []
  simp only [hr] at hstrokes hheeded
  have hserves := Serves.of_taskStrokes (fun _ => ⟨rfl, rfl⟩) hstrokes
    ⟨hw.serves.claims, hw.serves.timers, nofun⟩
  have hnow := now_of_strokes hstrokes
  exact ⟨hnow, hserves, fun hgoing =>
    ⟨hserves, (hheeded hgoing).1, (hheeded hgoing).2, hgoing⟩⟩

theorem arrive (hw : work.InProgress h) {time : Nat} (hlater : h.now ≤ time) :
    work.InProgress (h.arrive time) :=
  ⟨hw.serves.arrive time, hw.heeded.arrive hlater, hw.waits, hw.going⟩

private theorem pollBranches_blocked {order : List Nat} {ps : List (Progress σ ℓ answer δ)}
    (hps : ∀ (n : Nat) p, ps[n]? = some p → p.Blocked h ⟨0, some n⟩) :
    pollBranches respond 0 order ps h = (ps, h) := by
  induction order with
  | nil => rfl
  | cons n order ih =>
    rw [pollBranches]
    cases hn : ps[n]? with
    | none => exact ih
    | some p =>
      have hset : ps.set n p = ps := by
        obtain ⟨hlen, rfl⟩ := List.getElem?_eq_some_iff.1 hn
        exact List.set_getElem_self hlen
      simp only [(hps n p hn).poll_eq, hset, ih, ite_self]

/-- Where nobody is woken a turn changes nothing, also at a later time that is before the next
timer runs out. -/
theorem poll_idle (hw : work.InProgress h) (hwoken : h.woken = []) {time : Nat}
    (hbefore : ∀ timer ∈ h.timers, time < timer.1) (woken : List Nat) {h' : Hub σ ℓ}
    (hnow : h'.now = time) (hclaims : h'.claims = h.claims) :
    work.poll respond 0 woken h' = (work, h') := by
  have hblocked {α : Type} {p : Progress σ ℓ answer α} {s : Strand} (hp : p.Heeded h s) :
      p.Blocked h' s := by
    have hb := hp.blocked (by simp [hwoken])
    cases p with
    | ended result => trivial
    | waiting obstacle rest =>
      cases obstacle with
      | start => exact hb
      | turn => exact hb
      | lock l =>
        simp only [Progress.Blocked, Progress.isClear, Bool.eq_false_iff, ne_eq, grants_iff,
          queue] at hb ⊢
        rwa [hclaims]
      | time t =>
        have hlt : h.now < t := by simpa [Progress.Blocked, Progress.isClear] using hb
        have hmem := Obstacle.Heeded.timed hp t rfl hlt
        simpa [Progress.Blocked, Progress.isClear, hnow] using hbefore _ hmem
  have hwaits := hw.waits
  cases work with
  | lead p =>
    have hp : p.Blocked h' ⟨0, some 0⟩ := hblocked hw.heeded
    simp only [Work.poll, hp.poll_eq, show p.result? = none from hwaits]
  | closing p =>
    have hp : p.Blocked h' ⟨0, some 0⟩ := hblocked hw.heeded
    simp only [Work.poll, pollClosing, hp.poll_eq]
  | fan ps close =>
    have hps : ∀ (n : Nat) p, ps[n]? = some p → p.Blocked h' ⟨0, some n⟩ :=
      fun n p hn => hblocked (hw.heeded n p hn)
    simp only [Work.poll, pollFan, pollBranches_blocked respond hps,
      show ps.mapM (·.result?) = none from hwaits]

end Work.InProgress

end GuildBot

import GuildBot.Proofs.Flow.Rules
import GuildBot.Proofs.Flow.Staged

/-!
# Work that obeys rules

Where all programs of a piece of work obey rules, none of its turns does what is not allowed, whatever
others do between them. A machine that is alone with such work comes to rest only when the work has
ended.
-/

namespace GuildBot

open Relation (ReflTransGen)

variable {σ ℓ γ : Type} [DecidableEq ℓ] {answer : γ → Type} {α β δ : Type}

/-- Whether all programs of a plan obey the rules, the closing one whatever the results. -/
structure Plan.Obeys (rules : Rules σ ℓ) (plan : Plan σ ℓ answer δ β) : Prop where
  branches : ∀ f ∈ plan.branches, f.Obeys rules [] (fun _ => True) []
  close : ∀ results, (plan.close results).Obeys rules [] (fun _ => True) []

section

variable {rules : Rules σ ℓ} {h h' : Hub σ ℓ} {s me : Strand}

theorem Hub.Claims.of_strokes {ls : List ℓ} (hc : h.Claims s ls)
    (hstrokes : ReflTransGen (Hub.Stroke me) h h') (hs : s ≠ me) : h'.Claims s ls := by
  induction hstrokes with
  | refl => exact hc
  | tail _ hstroke ih => exact fun l => (Hub.count_queue_of_stroke hstroke hs l).trans (ih l)

theorem Progress.Obeys.of_strokes {Q : α → Prop} {p : Progress σ ℓ answer α}
    (hp : p.Obeys rules Q h s) (hstrokes : ReflTransGen (Hub.Stroke me) h h') (hs : s ≠ me) :
    p.Obeys rules Q h' s := by
  induction hstrokes with
  | refl => exact hp
  | tail _ hstroke ih => exact ih.of_stroke hstroke hs

theorem Progress.Obeys.start {Q : α → Prop} {f : Program σ ℓ answer α}
    (hf : f.Obeys rules [] Q []) (hc : h.Claims s []) : (Progress.start f).Obeys rules Q h s :=
  .free [] nofun hc nofun hf

end

namespace Work

variable {rules : Rules σ ℓ} {task : Nat} {h : Hub σ ℓ}

/-- Whether some branches obey the rules, and none of the others has asked for a lock. -/
structure FanObeys (rules : Rules σ ℓ) (h : Hub σ ℓ) (task : Nat) (ps : List (Progress σ ℓ answer δ)) :
    Prop where
  branches : ∀ (n : Nat) p, ps[n]? = some p → p.Obeys rules (fun _ => True) h ⟨task, some n⟩
  others : ∀ n, ps[n]? = none → h.Claims ⟨task, some n⟩ []

/-- Whether a program obeys that is the first of its task, and no other has asked for a lock. -/
structure FirstObeys (rules : Rules σ ℓ) (Q : α → Prop) (h : Hub σ ℓ) (task : Nat)
    (p : Progress σ ℓ answer α) : Prop where
  first : p.Obeys rules Q h ⟨task, some 0⟩
  others : ∀ n ≠ 0, h.Claims ⟨task, some n⟩ []

def Obeys (rules : Rules σ ℓ) (h : Hub σ ℓ) (task : Nat) : Work σ ℓ answer δ β → Prop
  | .lead p => FirstObeys rules (Plan.Obeys rules) h task p
  | .fan ps close => FanObeys rules h task ps ∧
    ∀ results, (close results).Obeys rules [] (fun _ => True) []
  | .closing p => FirstObeys rules (fun _ => True) h task p

variable (respond : Respond σ answer)

theorem FirstObeys.poll {Q : α → Prop} {p : Progress σ ℓ answer α}
    (hp : FirstObeys rules Q h task p) :
    FirstObeys rules Q (p.poll respond ⟨task, some 0⟩ h).2 task
      (p.poll respond ⟨task, some 0⟩ h).1 :=
  ⟨hp.first.poll respond, fun n hn =>
    (hp.others n hn).of_strokes (p.poll_strokes respond ⟨task, some 0⟩ h) (by simpa using hn)⟩

private theorem pollBranches_obeys {ps : List (Progress σ ℓ answer δ)} (hps : FanObeys rules h task ps)
    (order : List Nat) :
    FanObeys rules (pollBranches respond task order ps h).2 task
      (pollBranches respond task order ps h).1 := by
  induction order generalizing ps h with
  | nil => exact hps
  | cons n order ih =>
    rw [pollBranches]
    cases hn : ps[n]? with
    | none => exact ih hps
    | some p =>
      obtain ⟨hlen, -⟩ := List.getElem?_eq_some_iff.1 hn
      have hstrokes := p.poll_strokes respond ⟨task, some n⟩ h
      have hown := (hps.branches n p hn).poll respond
      have hset : FanObeys rules (p.poll respond ⟨task, some n⟩ h).2 task
          (ps.set n (p.poll respond ⟨task, some n⟩ h).1) := by
        refine ⟨fun m q hm => ?_, fun m hm => ?_⟩
        · by_cases hmn : m = n
          · subst hmn
            rw [List.getElem?_set_self hlen] at hm
            exact Option.some.inj hm ▸ hown
          · rw [List.getElem?_set_ne (Ne.symm hmn)] at hm
            exact (hps.branches m q hm).of_strokes hstrokes (by simpa using hmn)
        · have hmn : m ≠ n := by
            rintro rfl
            rw [List.getElem?_set_self hlen] at hm
            cases hm
          rw [List.getElem?_set_ne (Ne.symm hmn)] at hm
          exact (hps.others m hm).of_strokes hstrokes (by simpa using hmn)
      dsimp only
      split
      · exact hset
      · exact ih hset

private theorem pollFan_obeys (woken : List Nat) {ps : List (Progress σ ℓ answer δ)}
    {close : List δ → Program σ ℓ answer β} (hps : FanObeys rules h task ps)
    (hclose : ∀ results, (close results).Obeys rules [] (fun _ => True) []) :
    (pollFan respond task woken ps close h).1.Obeys rules
      (pollFan respond task woken ps close h).2 task := by
  rw [pollFan]
  have hbranches := pollBranches_obeys respond hps
    (if ps.length ≤ smallFan then List.range ps.length else woken)
  generalize pollBranches respond task _ ps h = r at hbranches ⊢
  dsimp only
  cases hresults : r.1.mapM (·.result?) with
  | none => exact ⟨hbranches, hclose⟩
  | some results =>
    -- All branches have ended, and then none has a lock any more.
    have hfree (n : Nat) : r.2.Claims ⟨task, some n⟩ [] := by
      cases hn : r.1[n]? with
      | none => exact hbranches.others n hn
      | some p =>
        have hp := hbranches.branches n p hn
        rw [Progress.eq_ended_of_joined hresults, List.getElem?_map] at hn
        obtain ⟨a, -, rfl⟩ := Option.map_eq_some_iff.1 hn
        cases hp with
        | value hc ha => exact hc
    exact FirstObeys.poll respond ⟨.start (hclose results) (hfree 0), fun n _ => hfree n⟩

/-- A turn of work that obeys the rules leaves it obeying them. -/
theorem Obeys.poll (woken : List Nat) {work : Work σ ℓ answer δ β} (hw : work.Obeys rules h task) :
    (work.poll respond task woken h).1.Obeys rules (work.poll respond task woken h).2 task := by
  cases work with
  | fan ps close => exact pollFan_obeys respond woken hw.1 hw.2
  | closing p => exact FirstObeys.poll respond hw
  | lead p =>
    have hp := FirstObeys.poll respond hw
    rw [Work.poll]
    generalize p.poll respond ⟨task, some 0⟩ h = r at hp ⊢
    dsimp only
    cases hresult : r.1.result? with
    | none => exact hp
    | some plan =>
      have hended := hp.first
      rw [Progress.eq_ended_of_result? hresult] at hended
      cases hended with
      | value hc hplan =>
        have hfree (n : Nat) : r.2.Claims ⟨task, some n⟩ [] := by
          by_cases hn : n = 0
          · exact hn ▸ hc
          · exact hp.others n hn
        refine pollFan_obeys respond _ ⟨fun n p hn => ?_, fun n _ => hfree n⟩ hplan.close
        rw [List.getElem?_map] at hn
        obtain ⟨f, hf, rfl⟩ := Option.map_eq_some_iff.1 hn
        exact .start (hplan.branches f (List.mem_of_getElem? hf)) (hfree n)

theorem Obeys.of_count {h' : Hub σ ℓ} {work : Work σ ℓ answer δ β} (hw : work.Obeys rules h task)
    (hcount : ∀ n l, (h'.queue l).count ⟨task, some n⟩ = (h.queue l).count ⟨task, some n⟩)
    (hgrants : ∀ n l, h.grants l ⟨task, some n⟩ = true → h'.grants l ⟨task, some n⟩ = true) :
    work.Obeys rules h' task := by
  have hclaims {n : Nat} {ls : List ℓ} (hc : h.Claims ⟨task, some n⟩ ls) :
      h'.Claims ⟨task, some n⟩ ls :=
    fun l => (hcount n l).trans (hc l)
  have hprogress {α : Type} {Q : α → Prop} {p : Progress σ ℓ answer α} {n : Nat}
      (hp : p.Obeys rules Q h ⟨task, some n⟩) : p.Obeys rules Q h' ⟨task, some n⟩ :=
    hp.of_count (hcount n) (hgrants n)
  cases work with
  | lead p => exact ⟨hprogress hw.first, fun n hn => hclaims (hw.others n hn)⟩
  | closing p => exact ⟨hprogress hw.first, fun n hn => hclaims (hw.others n hn)⟩
  | fan ps close =>
    exact ⟨⟨fun n p hn => hprogress (hw.1.branches n p hn), fun n hn => hclaims (hw.1.others n hn)⟩,
      hw.2⟩

theorem Obeys.of_queue {h' : Hub σ ℓ} {work : Work σ ℓ answer δ β} (hw : work.Obeys rules h task)
    (hqueue : ∀ l, h'.queue l = h.queue l) : work.Obeys rules h' task := by
  refine hw.of_count (fun n l => by rw [hqueue]) fun n l hg => ?_
  rwa [Hub.grants_iff, hqueue, ← Hub.grants_iff]

section

variable (hwoken : h.woken = []) (htimers : h.timers = [])

include hwoken htimers

private theorem FirstObeys.stuck_of_queue {Q : α → Prop} {p : Progress σ ℓ answer α}
    (hp : FirstObeys rules Q h task p) (hh : p.Heeded h ⟨task, some 0⟩) {n : Nat} {l : ℓ}
    (hs : ⟨task, some n⟩ ∈ h.queue l) : ∃ l' held, h.Stuck rules.rank ⟨task, some n⟩ l' held := by
  by_cases hn : n = 0
  · subst hn
    exact (hp.first.stuck hh hwoken htimers).resolve_left fun ⟨_, _, hempty⟩ => hempty.not_mem hs
  · exact absurd hs (hp.others n hn).not_mem

private theorem InProgress.stuck_of_queue {work : Work σ ℓ answer δ β} (hw : work.InProgress h)
    (hc : work.Obeys rules h 0) (s : Strand) (l : ℓ) (hs : s ∈ h.queue l) :
    ∃ l' held, h.Stuck rules.rank s l' held := by
  obtain ⟨task, branch⟩ := s
  -- All who ask for locks are programs of the work.
  obtain ⟨claim, hclaim, hstrand⟩ := List.mem_map.1 hs
  obtain ⟨rfl, hbranch⟩ : task = 0 ∧ branch.isSome := by
    simpa [hstrand, Strand.IsBranchOf] using hw.serves.claims claim (List.mem_filter.1 hclaim).1
  obtain ⟨n, rfl⟩ := Option.isSome_iff_exists.1 hbranch
  cases work with
  | lead p => exact FirstObeys.stuck_of_queue hwoken htimers hc hw.heeded hs
  | closing p => exact FirstObeys.stuck_of_queue hwoken htimers hc hw.heeded hs
  | fan ps close =>
    cases hn : ps[n]? with
    | none => exact absurd hs (hc.1.others n hn).not_mem
    | some p =>
      exact ((hc.1.branches n p hn).stuck (hw.heeded n p hn) hwoken htimers).resolve_left
        fun ⟨_, _, hempty⟩ => hempty.not_mem hs

/-- Not all are stuck, so nobody asks for a lock, and a program that has no result has panicked. -/
private theorem hasPanicked_of_stuck {Q : α → Prop} {p : Progress σ ℓ answer α} {s : Strand}
    (hall : ∀ s l, s ∈ h.queue l → ∃ l' held, h.Stuck rules.rank s l' held)
    (hp : p.Obeys rules Q h s) (hh : p.Heeded h s) (hwaits : p.result? = none) :
    p.hasPanicked = true := by
  rcases hp.stuck hh hwoken htimers with ⟨result, rfl, -⟩ | ⟨l, held, hs⟩
  · cases result with
    | none => rfl
    | some a => cases hwaits
  · have hmem : s ∈ h.queue l := hs.claims.mem_iff.2 (by simp)
    rw [Hub.queue_eq_nil_of_stuck rules.rank hall l] at hmem
    cases hmem

private theorem InProgress.not_at_rest {work : Work σ ℓ answer δ β} (hw : work.InProgress h)
    (hc : work.Obeys rules h 0) : False := by
  have hended {α : Type} {Q : α → Prop} {p : Progress σ ℓ answer α} {s : Strand} :
      p.Obeys rules Q h s → p.Heeded h s → p.result? = none → p.hasPanicked = true :=
    hasPanicked_of_stuck hwoken htimers (hw.stuck_of_queue hwoken htimers hc)
  have hgoing := hw.going
  cases work with
  | lead p => simp [ending?, hended hc.first hw.heeded hw.waits] at hgoing
  | closing p =>
    have hp := hended hc.first hw.heeded hw.waits
    cases p with
    | waiting obstacle rest => cases hp
    | ended result => cases hgoing
  | fan ps close =>
    obtain ⟨p, hmem, hwaits⟩ := Progress.exists_of_not_joined hw.waits
    obtain ⟨n, hn⟩ := List.mem_iff_getElem?.1 hmem
    have hp := hended (hc.1.branches n p hn) (hw.heeded n p hn) hwaits
    have hany : ps.any (·.hasPanicked) = true := List.any_eq_true.2 ⟨p, hmem, hp⟩
    simp [ending?, hany] at hgoing

end

end Work

namespace Machine

/-- A machine that is alone with work that obeys rules comes to rest, and then the work has ended. What
turns and the passing of time keep holds of it then. -/
theorem ends_keeping (respond : Respond σ answer) {rules : Rules σ ℓ}
    {I : Work σ ℓ answer δ β → Hub σ ℓ → Prop}
    (hturn : ∀ work h, work.InProgress h → I work h →
      let r := work.poll respond 0 (h.woken.filterMap (·.branch)) { h with woken := [] }
      I r.1 r.2)
    (harrive : ∀ work h time, work.InProgress h → I work h → I work (h.arrive time))
    {work : Work σ ℓ answer δ β} {h : Hub σ ℓ} (hw : work.InProgress h) (hobeys : work.Obeys rules h 0)
    (hI : I work h) :
    ∃ work' h' result, I work' h' ∧ work'.ending? = some result ∧
      (⟨h, [{ work }]⟩ : Machine σ ℓ answer δ β).Ends respond (result.elim .panicked .value) h'.state := by
  obtain ⟨n, hrest⟩ := comes_to_rest respond ⟨h, [{ work }]⟩
  obtain ⟨work', h', hstands, hobeys', hI'⟩ := run_keeps respond
    (I := fun work h => work.Obeys rules h 0 ∧ I work h)
    (fun work h hw hc => ⟨Work.Obeys.poll respond _ (hc.1.of_queue fun _ => rfl), hturn work h hw hc.2⟩)
    (fun work h time hw hc => ⟨hc.1.of_queue (Hub.queue_arrive h time), harrive work h time hw hc.2⟩)
    hw ⟨hobeys, hI⟩ n
  cases hstands with
  | ended result hending hended hstate =>
    exact ⟨work', h', result, hI', hending, n, hrest, hended, hstate⟩
  | going hm hprogress =>
    have hhub : (run respond n ⟨h, [{ work }]⟩).hub = h' := congrArg hub hm
    obtain ⟨hwoken, htimers⟩ := rest_of_step hrest
    rw [hhub] at hwoken htimers
    exact (hprogress.not_at_rest hwoken htimers hobeys').elim

theorem alone_ends (respond : Respond σ answer) {rules : Rules σ ℓ} (state : σ)
    {lead : Program σ ℓ answer (Plan σ ℓ answer δ β)} (hlead : lead.Obeys rules [] (Plan.Obeys rules) []) :
    ∃ n, let m := (alone state (.ofPlan lead) none).run respond n
      m.step? respond = none ∧ m.ending? ≠ none := by
  obtain ⟨-, -, result, -, -, n, hrest, hended, -⟩ := ends_keeping respond (I := fun _ _ => True)
    (fun _ _ _ _ => trivial) (fun _ _ _ _ _ => trivial) (.start lead state)
    ⟨.start hlead fun _ => rfl, fun _ _ _ => rfl⟩ trivial
  refine ⟨n, hrest, fun hnone => ?_⟩
  exact absurd (hnone.symm.trans hended) nofun

end Machine

theorem Progress.visited_confined {rules : Rules σ ℓ} {respond : Respond σ answer} {R : σ → σ → Prop}
    (hR : rules.Confines respond R) (me : Strand) (part : Part) {Q : α → Prop}
    {p : Progress σ ℓ answer α} (hp : p.Lawful rules Q) (hubs : List (Hub σ ℓ)) :
    ∀ v ∈ visited respond me part p hubs, R v.before.state v.after.state := by
  induction hubs generalizing p with
  | nil => exact nofun
  | cons h hubs ih =>
    obtain ⟨hlawful, hstate⟩ := hp.poll hR me h
    intro v hv
    rcases List.mem_cons.1 hv with rfl | hv
    · exact hstate
    · exact ih hlawful v hv

/-- Whether all programs of a piece of work go on to obey, whatever has become of their locks. -/
def Work.Lawful (rules : Rules σ ℓ) : Work σ ℓ answer δ β → Prop
  | .lead p => p.Lawful rules (Plan.Obeys rules)
  | .fan ps close => (∀ p ∈ ps, p.Lawful rules fun _ => True) ∧
    ∀ results, (close results).Obeys rules [] (fun _ => True) []
  | .closing p => p.Lawful rules fun _ => True

namespace Scene

variable {rules : Rules σ ℓ} {respond : Respond σ answer} {R : σ → σ → Prop}

/-- Whether a scene is of lawful work, and none of its turns went beyond what the rules allow. -/
structure Confined (rules : Rules σ ℓ) (R : σ → σ → Prop) (s : Scene σ ℓ answer δ β) : Prop where
  lawful : s.work.Lawful rules
  visits : ∀ v ∈ s.visits, R v.before.state v.after.state

theorem Confined.step {s : Scene σ ℓ answer δ β} (hs : s.Confined rules R)
    (hR : rules.Confines respond R) (task : Nat) (move : Work.Move σ ℓ) :
    (s.step respond task move).Confined rules R := by
  obtain ⟨work, vs⟩ := s
  obtain ⟨hlawful, hvisits⟩ := hs
  have hsnoc {v : Visit σ ℓ} (hv : R v.before.state v.after.state) :
      ∀ w ∈ vs ++ [v], R w.before.state w.after.state := by
    intro w hw
    rcases List.mem_append.1 hw with hw | hw
    · exact hvisits w hw
    · exact List.mem_singleton.1 hw ▸ hv
  cases work with
  | lead p =>
    cases move with
    | join => exact ⟨hlawful, hvisits⟩
    | turn n h =>
      obtain ⟨hp, hstate⟩ := Progress.Lawful.poll hlawful hR ⟨task, some 0⟩ h
      simp only [Scene.step]
      cases hresult : (p.poll respond ⟨task, some 0⟩ h).1.result? with
      | none => exact ⟨hp, hsnoc hstate⟩
      | some plan =>
        rw [Progress.eq_ended_of_result? hresult] at hp
        refine ⟨⟨fun q hq => ?_, hp.close⟩, hsnoc hstate⟩
        obtain ⟨f, hf, rfl⟩ := List.mem_map.1 hq
        exact ⟨[], hp.branches f hf⟩
  | fan ps close =>
    cases move with
    | join =>
      simp only [Scene.step]
      cases ps.mapM (·.result?) with
      | none => exact ⟨hlawful, hvisits⟩
      | some results => exact ⟨⟨[], hlawful.2 results⟩, hvisits⟩
    | turn n h =>
      simp only [Scene.step]
      cases hn : ps[n]? with
      | none => exact ⟨hlawful, hvisits⟩
      | some p =>
        obtain ⟨hp, hstate⟩ := (hlawful.1 p (List.mem_of_getElem? hn)).poll hR ⟨task, some n⟩ h
        refine ⟨⟨fun q hq => ?_, hlawful.2⟩, hsnoc hstate⟩
        rcases List.mem_or_eq_of_mem_set hq with hq | rfl
        · exact hlawful.1 q hq
        · exact hp
  | closing p =>
    cases move with
    | join => exact ⟨hlawful, hvisits⟩
    | turn n h =>
      obtain ⟨hp, hstate⟩ := Progress.Lawful.poll hlawful hR ⟨task, some 0⟩ h
      exact ⟨hp, hsnoc hstate⟩

theorem Confined.after {s : Scene σ ℓ answer δ β} (hs : s.Confined rules R)
    (hR : rules.Confines respond R) (task : Nat) (moves : List (Work.Move σ ℓ)) :
    (s.after respond task moves).Confined rules R := by
  induction moves using List.reverseRecOn with
  | nil => exact hs
  | append_singleton moves move ih =>
    rw [Scene.after, List.foldl_append]
    exact ih.step hR task move

/-- No turn of work that obeys rules does what is not allowed. -/
theorem confined_after (hR : rules.Confines respond R)
    {lead : Program σ ℓ answer (Plan σ ℓ answer δ β)} (hlead : lead.Obeys rules [] (Plan.Obeys rules) [])
    (task : Nat) (moves : List (Work.Move σ ℓ)) :
    (({ work := .ofPlan lead } : Scene σ ℓ answer δ β).after respond task moves).Confined rules R := by
  have hstart : ({ work := .ofPlan lead } : Scene σ ℓ answer δ β).Confined rules R :=
    ⟨⟨[], hlead⟩, nofun⟩
  exact hstart.after hR task moves

end Scene

section

variable {rules : Rules σ ℓ} {respond : Respond σ answer} {R : σ → σ → Prop}

omit [DecidableEq ℓ] in
private theorem Linked.confined (hR : rules.Confines respond R) {vs : List (Visit σ ℓ)} {state last : σ}
    (hl : Linked state vs last) (hvs : ∀ v ∈ vs, R v.before.state v.after.state) : R state last := by
  induction vs generalizing state with
  | nil => exact (show state = last from hl) ▸ hR.refl state
  | cons v vs ih =>
    have hfirst : R state v.after.state := hl.1 ▸ hvs v List.mem_cons_self
    exact hR.trans hfirst (ih hl.2 fun w hw => hvs w (List.mem_cons_of_mem v hw))

/-- A turn of lawful work leaves it lawful, and does nothing that is not allowed. -/
theorem Work.Lawful.poll {work : Work σ ℓ answer δ β} (hw : work.Lawful rules)
    (hR : rules.Confines respond R) (task : Nat) (woken : List Nat) (h : Hub σ ℓ) :
    (work.poll respond task woken h).1.Lawful rules ∧
      R h.state (work.poll respond task woken h).2.state := by
  obtain ⟨moves, new, hlinked, hafter⟩ := Work.plays_poll respond task woken work h
  have hconfined := Scene.Confined.after (s := ⟨work, []⟩) ⟨hw, nofun⟩ hR task moves
  rw [hafter] at hconfined
  exact ⟨hconfined.lawful, hlinked.confined hR hconfined.visits⟩

/-- Whether a task is of lawful work, and does nothing that is not allowed when its time is up. -/
structure Task.Lawful (rules : Rules σ ℓ) (R : σ → σ → Prop) (t : Task σ ℓ answer δ β) : Prop where
  work : t.work.Lawful rules
  onTimeout : ∀ state, R state (t.onTimeout state)

theorem Task.Lawful.poll {t : Task σ ℓ answer δ β} (ht : t.Lawful rules R)
    (hR : rules.Confines respond R) (number : Nat) (woken : List Nat) (h : Hub σ ℓ) :
    (t.poll respond number woken h).1.Lawful rules R ∧
      R h.state (t.poll respond number woken h).2.state := by
  have hwork := ht.work.poll hR number woken h
  rcases hr : t.work.poll respond number woken h with ⟨work, h'⟩
  rw [hr] at hwork
  obtain ⟨hlawful, hstate⟩ := hwork
  rcases t.poll_cases respond number woken h hr with ⟨result, -, heq⟩ | ⟨-, -, heq⟩ | ⟨-, -, heq⟩
  · rw [heq]
    exact ⟨⟨hlawful, ht.onTimeout⟩, (Hub.forget_state h' number).symm ▸ hstate⟩
  · rw [heq]
    exact ⟨⟨hlawful, ht.onTimeout⟩, hR.trans hstate (ht.onTimeout h'.state)⟩
  · rw [heq]
    exact ⟨⟨hlawful, ht.onTimeout⟩, (t.arm_state number _ h').symm ▸ hstate⟩

end

end GuildBot

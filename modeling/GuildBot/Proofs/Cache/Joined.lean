import GuildBot.Proofs.Cache.Join
import GuildBot.Proofs.Cache.Rules
import GuildBot.Proofs.Flow.ProgressEvaluation

/-!
# A machine that joins lookups

A machine that makes lookups side by side and one that makes them in turn come to rest with the same
results and the same watched cache, so the same fetches were made in the same order.
-/

namespace GuildBot.Cache.Watched

open Std Progress

variable {κ β ε : Type} [Ord κ] [TransOrd κ] {gets : List (Lookup κ β ε)} {w : Nat → Watched κ β}
  {results : List (Except ε β)} {begun : Nat} {queue : List Nat}
  {ps : List (Progress (Watched κ β) Unit (fun _ : Empty => Unit) (Except ε β))}
  {h h' : Hub (Watched κ β) Unit}

/-- The plan to make lookups side by side. -/
def joinPlan (gets : List (Lookup κ β ε)) :
    Plan (Watched κ β) Unit (fun _ : Empty => Unit) (Except ε β) (List (Except ε β)) :=
  ⟨branches gets, .done⟩

namespace Joined

theorem start (hempty : (w 0).chronicle = []) (hstate : h.state = w 0) (hqueue : h.queue () = []) :
    Joined gets w results 0 [] ((branches gets).map .start) h where
  length := by simp [branches]
  begun_le := Nat.zero_le _
  queue_eq := hqueue
  sorted := .nil
  lt_begun := nofun
  stage n l hl := by
    refine ⟨.start (lookUp ⟨0, some n⟩ l), by simp [branches_getElem?, hl], .fresh (by simp [hqueue]) ?_⟩
    rw [hstate]
    simp [Silent, hempty]
  fresh n l _ hl := by simp [branches_getElem?, hl]
  settled := nofun
  reached := .between hstate

theorem congr (hj : Joined gets w results begun queue ps h) (hstate : h'.state = h.state)
    (hqueue : h'.queue () = h.queue ()) : Joined gets w results begun queue ps h' where
  length := hj.length
  begun_le := hj.begun_le
  queue_eq := hqueue.trans hj.queue_eq
  sorted := hj.sorted
  lt_begun := hj.lt_begun
  stage := by
    rw [StagesAre, hstate, hqueue]
    exact hj.stage
  fresh := hj.fresh
  settled := hj.settled
  reached := hstate ▸ hj.reached

variable (hturns : InTurn gets w results)

include hturns

private theorem joined_eq (hj : Joined gets w results gets.length queue ps h) {rs : List (Except ε β)}
    (hrs : ps.mapM (·.result?) = some rs) : rs = results ∧ h.state = w gets.length := by
  have hended := Progress.eq_ended_of_joined hrs
  have hlen : rs.length = gets.length := by simpa [hended] using hj.length
  have hnil : queue = [] := by
    rw [List.eq_nil_iff_forall_not_mem]
    intro n hmem
    obtain ⟨l, hl⟩ : ∃ l, gets[n]? = some l := ⟨_, List.getElem?_eq_getElem (hj.lt_begun n hmem)⟩
    obtain ⟨p, hp, hstage⟩ := hj.stage n l hl
    rw [hended, List.getElem?_map] at hp
    obtain ⟨r, -, rfl⟩ := Option.map_eq_some_iff.1 hp
    cases hstage with
    | ended hq => exact hq (hj.mem_queue.2 hmem)
  subst hnil
  refine ⟨List.ext_getElem? fun n => ?_, ?_⟩
  · by_cases hn : n < gets.length
    · obtain ⟨hp, -⟩ := hj.settled n hn (List.not_mem_nil)
      rw [hended, List.getElem?_map] at hp
      obtain ⟨r, hr, heq⟩ := Option.map_eq_some_iff.1 hp
      rw [hr]
      exact Progress.ended.inj heq
    · rw [List.getElem?_eq_none (by omega), List.getElem?_eq_none (by have := hturns.length; omega)]
  · cases hj.reached with
    | between heq => exact heq
    | fetching n l hn => cases hn

end Joined

/-- How work stands that makes lookups side by side. -/
inductive JoinAt (gets : List (Lookup κ β ε)) (w : Nat → Watched κ β) (results : List (Except ε β)) :
    Work (Watched κ β) Unit (fun _ : Empty => Unit) (Except ε β) (List (Except ε β)) →
      Hub (Watched κ β) Unit → Prop where
  | begins {h : Hub (Watched κ β) Unit} (hstate : h.state = w 0) (hqueue : h.queue () = []) :
      JoinAt gets w results (.ofPlan (.done (joinPlan gets))) h
  | runs {queue : List Nat}
      {ps : List (Progress (Watched κ β) Unit (fun _ : Empty => Unit) (Except ε β))}
      {h : Hub (Watched κ β) Unit} (hj : Joined gets w results gets.length queue ps h) :
      JoinAt gets w results (.fan ps .done) h
  | ends {h : Hub (Watched κ β) Unit} (hstate : h.state = w gets.length) :
      JoinAt gets w results (.closing (.ended (some results))) h

namespace JoinAt

variable {work : Work (Watched κ β) Unit (fun _ : Empty => Unit) (Except ε β) (List (Except ε β))}

private theorem of_pollBranches (hturns : InTurn gets w results) {order : List Nat}
    (hj : ∃ queue, Joined gets w results gets.length queue (Work.pollBranches respond 0 order ps h).1
      (Work.pollBranches respond 0 order ps h).2)
    (woken : List Nat)
    (horder : (if ps.length ≤ Work.smallFan then List.range ps.length else woken) = order) :
    let r := Work.pollFan respond 0 woken ps .done h
    JoinAt gets w results r.1 r.2 := by
  obtain ⟨queue, hj⟩ := hj
  simp only [Work.pollFan, horder]
  generalize Work.pollBranches respond 0 order ps h = r at hj ⊢
  cases hrs : r.1.mapM (·.result?) with
  | none => exact .runs hj
  | some rs =>
    obtain ⟨rfl, hstate⟩ := hj.joined_eq hturns hrs
    exact .ends hstate

theorem poll [LawfulEqOrd κ] [DecidableEq κ] (hturns : InTurn gets w results)
    (hempty : (w 0).chronicle = []) (hw : JoinAt gets w results work h) (woken : List Nat) :
    let r := work.poll respond 0 woken { h with woken := [] }
    JoinAt gets w results r.1 r.2 := by
  cases hw with
  | ends hstate => exact .ends hstate
  | @runs queue ps h hj =>
    have hstart : Joined gets w results gets.length queue ps
        ({ h with woken := [] } : Hub (Watched κ β) Unit) := hj.congr rfl rfl
    exact of_pollBranches hturns (hstart.pollBranches hturns hempty _) woken rfl
  | begins hstate hqueue =>
    have hstart : Joined gets w results 0 [] ((branches gets).map .start)
        ({ h with woken := [] } : Hub (Watched κ β) Unit) := .start hempty hstate hqueue
    have hlen : (branches gets).length = gets.length := by simp [branches]
    refine of_pollBranches hturns (hstart.pollBranches_first hturns hempty (Nat.zero_add _))
      (List.range (branches gets).length) ?_
    rw [List.length_map, hlen, List.range_eq_range', ite_self]

theorem of_hub (hw : JoinAt gets w results work h) (hstate : h'.state = h.state)
    (hqueue : h'.queue () = h.queue ()) : JoinAt gets w results work h' := by
  cases hw with
  | begins hs hq => exact .begins (hstate.trans hs) (hqueue.trans hq)
  | runs hj => exact .runs (hj.congr hstate hqueue)
  | ends hs => exact .ends (hstate.trans hs)

private theorem result_eq (hturns : InTurn gets w results) (hw : JoinAt gets w results work h)
    {result : Option (List (Except ε β))} (hending : work.ending? = some result) :
    result = some results ∧ h.state = w gets.length := by
  cases hw with
  | begins => cases hending
  | ends hstate => exact ⟨(Option.some.inj hending).symm, hstate⟩
  | @runs queue ps h hj =>
    have hfine : ps.any (·.hasPanicked) = false := by
      rw [List.any_eq_false]
      intro p hp
      obtain ⟨n, hn⟩ := List.mem_iff_getElem?.1 hp
      rw [hj.not_panicked hturns hn]
      decide
    simp [Work.ending?, hfine] at hending

end JoinAt

private theorem obeys_branches (gets : List (Lookup κ β ε)) :
    ∀ f ∈ branches gets, f.Obeys (rules (κ := κ) (β := β)) [] (fun _ => True) [] := by
  intro f hf
  obtain ⟨n, hn⟩ := List.mem_iff_getElem?.1 hf
  rw [branches_getElem?] at hn
  obtain ⟨l, -, rfl⟩ := Option.map_eq_some_iff.1 hn
  exact obeys_lookUp _ l

/-- Lookups made side by side come to the same results as lookups of the same keys with the same fetches
that are made one after another, and leave the same watched cache, however the fetches suspend
themselves. -/
theorem joined_eq_inTurn [LawfulEqOrd κ] [DecidableEq κ] (cache : Cache κ β) (now : Instant)
    (gets gets' : List (Lookup κ β ε))
    (hsame : gets'.map (fun l => (l.key, l.outcome)) = gets.map fun l => (l.key, l.outcome))
    (houtcome : ∀ l ∈ gets, l.outcome.isSome = true)
    (hclock : (now.add? cache.lifetime).isSome = true) :
    ∃ results w,
      (Machine.alone { cache, now } (.ofPlan (.done (joinPlan gets))) none).Ends respond
        (.value results) w ∧
      (Machine.alone (δ := Except ε β) { cache, now } (.ofProgram ((branches gets').mapM id))
        none).Ends respond (.value results) w := by
  have hempty : (afterTurns gets { cache, now } 0).chronicle = [] := rfl
  obtain ⟨results, hturns⟩ := exists_inTurn (w := { cache, now }) houtcome hclock
  refine ⟨results, afterTurns gets { cache, now } gets.length, ?_, ?_⟩
  · have hobeys : (Flow.done (joinPlan gets) : Action κ β _).Obeys rules []
        (Plan.Obeys (rules (κ := κ) (β := β))) [] := by
      exact ⟨rfl, fun f hf => obeys_branches gets f hf, fun _ => ⟨rfl, trivial⟩⟩
    obtain ⟨work, h, result, hat, hending, hends⟩ := Machine.ends_keeping respond
      (I := JoinAt gets (afterTurns gets { cache, now }) results)
      (fun work h _ hw => hw.poll hturns hempty _)
      (fun work h time _ hw => hw.of_hub (Hub.arrive_state h time) (Hub.queue_arrive h time ()))
      (.start (.done (joinPlan gets)) { cache, now }) ⟨.start hobeys fun _ => rfl, fun _ _ _ => rfl⟩
      (.begins rfl rfl)
    obtain ⟨rfl, hstate⟩ := hat.result_eq hturns hending
    rw [← hstate]
    exact hends
  · have hturns' := hturns.congr hsame
    have hlen : gets'.length = gets.length := by simpa using congrArg List.length hsame
    have hobeys : ((branches gets').mapM id : Action κ β (List (Except ε β))).Obeys rules []
        (fun _ => True) [] := .mapM_id (obeys_branches gets')
    have hends := Machine.ends_ofProgram (δ := Except ε β) respond ({ cache, now } : Watched κ β) hobeys
    have heval := hturns'.eval_eq hempty
    rw [hlen] at heval
    rw [show Flow.eval respond ((branches gets').mapM id) ({ cache, now } : Watched κ β) = _ from heval]
      at hends
    exact hends

/-- Three lookups of a key, the first of which fails, and one of another key. -/
def keyAgain (suspensions : List Suspension) : List (Lookup Nat Nat Unit) :=
  [{ key := 1, suspensions, outcome := some (.error ()) },
    { key := 1, suspensions, outcome := some (.ok 10) },
    { key := 2, suspensions, outcome := some (.ok 20) },
    { key := 1, suspensions, outcome := some (.ok 11) }]

theorem joined_eq_inTurn_keyAgain :
    let gets := keyAgain [.pause, .wait 3]
    (keyAgain []).map (fun l => (l.key, l.outcome)) = gets.map (fun l => (l.key, l.outcome)) ∧
      (∀ l ∈ gets, l.outcome.isSome = true) ∧
      ((⟨0⟩ : Instant).add? (⟨5⟩ : Duration)).isSome = true ∧
      ∃ results w,
        (Machine.alone { cache := { lifetime := ⟨5⟩ }, now := ⟨0⟩ } (.ofPlan (.done (joinPlan gets)))
          none).Ends respond (.value results) w ∧
        (Machine.alone (δ := Except Unit Nat) { cache := { lifetime := ⟨5⟩ }, now := ⟨0⟩ }
          (.ofProgram ((branches (keyAgain [])).mapM id)) none).Ends respond (.value results) w := by
  intro gets
  have houtcome : ∀ l ∈ gets, l.outcome.isSome = true := by decide
  have hclock : ((⟨0⟩ : Instant).add? (⟨5⟩ : Duration)).isSome = true := by decide
  exact ⟨rfl, houtcome, hclock,
    joined_eq_inTurn { lifetime := ⟨5⟩ } ⟨0⟩ gets (keyAgain []) rfl houtcome hclock⟩

end GuildBot.Cache.Watched

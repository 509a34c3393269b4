import GuildBot.Flow.Machine
import GuildBot.Proofs.Flow.Evaluation
import GuildBot.Proofs.Flow.Queue

/-!
# A machine with one task

A machine whose only task is a program comes to what the program comes to on its own, and so does
one whose only task is a plan with at most one branch.
-/

namespace GuildBot

variable {σ ℓ γ : Type} {answer : γ → Type} {α β δ : Type}

/-- The strand of the only program of the only task. -/
def soloStrand : Strand := ⟨0, some 0⟩

namespace Hub

structure Quiet (h : Hub σ ℓ) (held : List ℓ) : Prop where
  claims : h.claims = held.map (·, soloStrand)
  timers : h.timers = []
  woken : h.woken = []

theorem Quiet.claim {h : Hub σ ℓ} {held : List ℓ} (hq : h.Quiet held) (l : ℓ) :
    (h.claim l soloStrand).Quiet (held ++ [l]) := by
  refine ⟨?_, hq.timers, hq.woken⟩
  simp [Hub.claim, hq.claims]

theorem Quiet.setState {h : Hub σ ℓ} {held : List ℓ} (hq : h.Quiet held) (state : σ) :
    ({ h with state } : Hub σ ℓ).Quiet held := ⟨hq.claims, hq.timers, hq.woken⟩

variable [DecidableEq ℓ]

private theorem holderIn_map (held : List ℓ) (s : Strand) (l : ℓ) :
    holderIn (held.map (·, s)) l = if l ∈ held then some s else none := by
  induction held with
  | nil => rfl
  | cons l' held ih =>
    by_cases hl : l' = l
    · subst hl; simp [holderIn]
    · simp [holderIn, hl, Ne.symm hl] at ih ⊢
      exact ih

private theorem heirs_map (old new : List ℓ) (s : Strand) (h : new ⊆ old) :
    heirs (old.map (·, s)) (new.map (·, s)) = [] := by
  simp only [heirs, List.map_eq_nil_iff, List.filter_eq_nil_iff, List.mem_map]
  rintro claim ⟨l, hl, rfl⟩
  simp [holderIn_map, h hl]

private theorem Quiet.grants_claim {h : Hub σ ℓ} {held : List ℓ} (hq : h.Quiet held) (l : ℓ) :
    (h.claim l soloStrand).grants l soloStrand = true ↔ l ∉ held := by
  have hqueue : h.queue l = List.replicate (held.count l) soloStrand := by
    rw [queue, hq.claims]
    induction held generalizing h with
    | nil => rfl
    | cons l' held ih =>
      have ih := ih (h := { h with claims := held.map (·, soloStrand) }) ⟨rfl, hq.timers, hq.woken⟩
      by_cases hl : l' = l
      · subst hl
        simpa [queueIn, List.replicate_succ] using ih
      · simpa [queueIn, hl, Ne.symm hl] using ih
  rw [grants_iff, queue_claim, if_pos rfl, hqueue, ← List.replicate_succ']
  simp [List.replicate_succ, List.count_eq_zero]

theorem Quiet.release {h : Hub σ ℓ} {held : List ℓ} (hq : h.Quiet held) (l : ℓ) :
    (h.release l soloStrand).Quiet (held.erase l) := by
  have hclaims : h.claims.erase (l, soloStrand) = (held.erase l).map (·, soloStrand) := by
    rw [hq.claims, List.map_erase]
    intro a b hab
    exact (Prod.mk.inj hab).1
  refine ⟨?_, ?_, ?_⟩
  · rw [Hub.release, withdraw_claims, hclaims]
  · rw [Hub.release, withdraw, hq.claims, ← hq.claims, hclaims, hq.claims,
      heirs_map held _ soloStrand List.erase_subset]
    exact hq.timers
  · rw [Hub.release, withdraw, hclaims, hq.claims, heirs_map held _ soloStrand List.erase_subset]
    exact hq.woken

end Hub

def Plan.inTurn (plan : Plan σ ℓ answer δ β) : Program σ ℓ answer β :=
  plan.branches.mapM id >>= plan.close

private theorem Plan.inTurn_nil (close : List δ → Program σ ℓ answer β) :
    Plan.inTurn ⟨[], close⟩ = close [] := rfl

theorem Plan.inTurn_singleton (b : Program σ ℓ answer δ)
    (close : List δ → Program σ ℓ answer β) :
    Plan.inTurn ⟨[b], close⟩ = b.bind fun d => close [d] := by
  simp [inTurn, Flow.bind_bind, Flow.bind]

variable [DecidableEq ℓ]

namespace Machine

variable (respond : Respond σ answer)

def afterTurn (p : Work σ ℓ answer δ β × Hub σ ℓ) : Machine σ ℓ answer δ β :=
  match p.1.ending? with
  | some result =>
    { hub := p.2.forget 0
      tasks := [{ work := p.1, ending := some (result.elim .panicked .value) }] }
  | none => { hub := p.2, tasks := [{ work := p.1 }] }

private theorem run_idle (n : Nat) (m : Machine σ ℓ answer δ β) (hw : m.hub.woken = [])
    (ht : m.hub.timers = []) : run respond n m = m := by
  cases n with
  | zero => rfl
  | succ n => simp [run, step?, turn?, tick?, Hub.nextTime?, hw, ht]

private theorem run_turn (n : Nat) (h : Hub σ ℓ) (work : Work σ ℓ answer δ β) (hw : h.woken = [soloStrand]) :
    run respond (n + 1) { hub := h, tasks := [{ work }] } =
      run respond n (afterTurn (work.poll respond 0 [0] { h with woken := [] })) := by
  rw [run]
  simp only [step?, turn?, hw, pollTask, soloStrand, List.head?_cons, Option.map_some, Option.some_or]
  congr 1
  simp only [List.filter_cons, List.filter_nil, decide_true, if_true, Task.poll, afterTurn]
  simp only [List.getElem?_cons_zero, Option.isSome_none, Bool.false_eq_true, if_false,
    List.filterMap_cons, List.filterMap_nil, Option.map_none, Option.or_none, ne_eq,
    not_true_eq_false, decide_false]
  rcases Work.poll respond 0 [0] { h with woken := [] } work with ⟨work, h⟩
  rcases work.ending? with _ | _ | b <;> simp

private theorem run_timer (n t : Nat) (h : Hub σ ℓ) (work : Work σ ℓ answer δ β) (hw : h.woken = [])
    (ht : h.timers = [(t, soloStrand)]) :
    run respond (n + 2) { hub := h, tasks := [{ work }] } =
      run respond n (afterTurn
        (work.poll respond 0 [0] { h with now := t, timers := [], woken := [] })) := by
  have harrive : h.arrive t = { h with now := t, timers := [], woken := [soloStrand] } := by
    simp [Hub.arrive, ht, Hub.wake, hw]
  rw [run]
  simp only [step?, turn?, tick?, hw, Hub.nextTime?, ht, List.head?_nil, Option.map_none,
    List.map_cons, List.map_nil, List.min?_singleton, Option.map_some, Option.none_or, harrive]
  rw [run_turn respond n _ work rfl]

private theorem run_afterTurn {p : Work σ ℓ answer δ β × Hub σ ℓ} {result : Option β}
    (hp : p.1.ending? = some result) {held : List ℓ} (hq : p.2.Quiet held) (n : Nat) :
    let r := (run respond n (afterTurn p)).outcome
    r.1 = result.elim .panicked .value ∧ r.2.2 = p.2.state := by
  have hclaims : (p.2.claims.filter fun claim => claim.2.task ≠ 0) = [] := by
    simp [hq.claims, List.filter_map, Function.comp_def, soloStrand]
  have hidle : (p.2.forget 0).woken = [] ∧ (p.2.forget 0).timers = [] := by
    simp only [Hub.forget, Hub.withdraw, hclaims, Hub.heirs, List.filter_nil, List.map_nil,
      List.foldl_nil, hq.woken, hq.timers, and_self]
  have hafter : afterTurn p =
      ⟨p.2.forget 0, [{ work := p.1, ending := some (result.elim .panicked .value) }]⟩ := by
    simp [afterTurn, hp]
  rw [hafter, run_idle respond n _ hidle.1 hidle.2]
  simp [outcome]

end Machine

/-- Where a program can stand in the work of the only task: `work` is the work while the program
waits there, `next` the work after the program has had a turn. -/
structure Seat (respond : Respond σ answer) (α δ β : Type) where
  work : Obstacle ℓ → Program σ ℓ answer α → Work σ ℓ answer δ β
  next : Progress σ ℓ answer α × Hub σ ℓ → Work σ ℓ answer δ β × Hub σ ℓ
  poll_work : ∀ obstacle rest h, (work obstacle rest).poll respond 0 [0] h =
    next (Progress.poll respond soloStrand h (.waiting obstacle rest))
  next_waiting : ∀ obstacle rest h, next (.waiting obstacle rest, h) = (work obstacle rest, h)
  ending_waiting : ∀ obstacle rest, (work obstacle rest).ending? = none
  next_panic : ∀ h, ∃ work, next (.ended none, h) = (work, h) ∧ work.ending? = some none

namespace Seat

variable {respond : Respond σ answer} (seat : Seat (ℓ := ℓ) respond α δ β)

private theorem afterTurn_waiting (obstacle : Obstacle ℓ) (rest : Program σ ℓ answer α)
    (h : Hub σ ℓ) : Machine.afterTurn (seat.next (.waiting obstacle rest, h)) =
      { hub := h, tasks := [{ work := seat.work obstacle rest }] } := by
  simp [seat.next_waiting, Machine.afterTurn, seat.ending_waiting]

/-- What a machine comes to in `n` steps from a program's turn, if the program, on its own, makes no
more than `k` requests and comes to the result. -/
def Comes (n k : Nat) (turn : Progress σ ℓ answer α × Hub σ ℓ) : Result σ ℓ α → Prop
  | (.value a, held, s) => ∃ m h, n ≤ m + 2 * k ∧ h.Quiet held ∧ h.state = s ∧
      Machine.run respond n (Machine.afterTurn (seat.next turn)) =
        Machine.run respond m (Machine.afterTurn (seat.next (.ended (some a), h)))
  | (_, _, s) =>
    let r := (Machine.run respond n (Machine.afterTurn (seat.next turn))).outcome
    r.1 = .panicked ∧ r.2.2 = s

theorem Comes.later {n n' k : Nat} {turn turn' : Progress σ ℓ answer α × Hub σ ℓ}
    {r : Result σ ℓ α} (h : seat.Comes n k turn r) (hn : n' ≤ n + 2)
    (hrun : Machine.run respond n' (Machine.afterTurn (seat.next turn')) =
      Machine.run respond n (Machine.afterTurn (seat.next turn))) :
    seat.Comes n' (k + 1) turn' r := by
  obtain ⟨a | _ | _, held, s⟩ := r
  · obtain ⟨m, h', hm, hq, hs, hr⟩ := h
    exact ⟨m, h', by omega, hq, hs, hrun.trans hr⟩
  · simpa only [Comes, hrun] using h
  · simpa only [Comes, hrun] using h

private theorem Comes.timer {n k t : Nat} {rest : Program σ ℓ answer α} {h : Hub σ ℓ}
    {held : List ℓ} {r : Result σ ℓ α} (hq : h.Quiet held) (hn : 2 ≤ n)
    (hr : seat.Comes (n - 2) k (Progress.run respond soloStrand rest { h with now := t }) r) :
    seat.Comes n (k + 1) (.waiting (.time t) rest, h.setTimer t soloStrand) r := by
  obtain ⟨n, rfl⟩ : ∃ m, n = m + 2 := ⟨n - 2, by omega⟩
  have ht : (h.setTimer t soloStrand).timers = [(t, soloStrand)] := by
    simp [Hub.setTimer, hq.timers]
  have hh : ({ h.setTimer t soloStrand with now := t, timers := [], woken := [] } : Hub σ ℓ) =
      { h with now := t } := by
    rw [Hub.mk.injEq]
    exact ⟨rfl, rfl, rfl, hq.timers.symm, hq.woken.symm⟩
  refine hr.later seat (Nat.le_refl _) ?_
  rw [seat.afterTurn_waiting,
    Machine.run_timer respond n t (h.setTimer t soloStrand) _ hq.woken ht, seat.poll_work, hh]
  simp [Progress.poll, Progress.isClear]

private theorem comes_run (f : Program σ ℓ answer α) {k n : Nat} (hf : Flow.Brief f k) (hn : 2 * k ≤ n)
    {h : Hub σ ℓ} {held : List ℓ} (hq : h.Quiet held) :
    seat.Comes n k (Progress.run respond soloStrand f h) (Flow.alone respond f held h.state) := by
  induction f generalizing k n h held with
  | done a => exact ⟨n, h, by omega, hq, rfl, rfl⟩
  | panic =>
    obtain ⟨work, hwork, hending⟩ := seat.next_panic h
    have := Machine.run_afterTurn respond (p := (work, h)) hending hq n
    simpa only [Progress.run, Flow.alone, Comes, hwork, Option.elim_none] using this
  | act update next ih => exact ih h.state (hf h.state) hn (hq.setState (update h.state))
  | ask request next ih =>
    obtain ⟨k, rfl, hf⟩ := hf
    cases request with
    | lock l =>
      by_cases hl : l ∈ held
      · have hg : (h.claim l soloStrand).grants l soloStrand = false :=
          Bool.eq_false_iff.2 fun hg => (hq.grants_claim l).1 hg hl
        have hc := hq.claim l
        simp only [Progress.run, hg, Bool.false_eq_true, if_false, Flow.alone, hl, if_true, Comes,
          seat.afterTurn_waiting]
        rw [Machine.run_idle respond n _ hc.woken hc.timers]
        simp [Machine.outcome]
      · have hg := (hq.grants_claim l).2 hl
        simp only [Progress.run, hg, if_true, Flow.alone, hl, if_false]
        exact (ih () (hf ()) (by omega) (hq.claim l)).later seat (by omega) rfl
    | unlock l =>
      have := ih () (hf ()) (n := n) (by omega) (hq.release l)
      rw [Hub.release_state] at this
      exact this.later seat (by omega) rfl
    | wait t =>
      cases t with
      | zero => exact (ih () (hf ()) (n := n) (by omega) hq).later seat (by omega) rfl
      | succ t =>
        exact .timer seat hq (by omega) (ih () (hf ()) (by omega) ⟨hq.claims, hq.timers, hq.woken⟩)
    | pause =>
      obtain ⟨n, rfl⟩ : ∃ m, n = m + 1 := ⟨n - 1, by omega⟩
      have hwake : h.wake soloStrand = { h with woken := [soloStrand] } := by
        simp [Hub.wake, hq.woken]
      have hh : ({ h.wake soloStrand with woken := [] } : Hub σ ℓ) = h := by
        rw [hwake]
        exact congrArg (fun woken => { h with woken }) hq.woken.symm
      refine (ih () (hf ()) (n := n) (by omega) hq).later seat (by omega) ?_
      rw [Progress.run, seat.afterTurn_waiting, Machine.run_turn respond n _ _ (by rw [hwake]),
        seat.poll_work, hh]
      simp [Progress.poll, Progress.isClear]
    | call c =>
      have hs := hq.setState (respond h.state c).1
      simp only [Progress.run, Flow.alone]
      by_cases hd : (respond h.state c).2.1 = 0
      · simp only [hd, if_true]
        exact (ih _ (hf _) (n := n) (by omega) hs).later seat (by omega) rfl
      · simp only [hd, if_false]
        exact .timer seat hs (by omega) (ih _ (hf _) (by omega) ⟨hs.claims, hs.timers, hs.woken⟩)

variable (respond)

def closing : Seat (ℓ := ℓ) respond β δ β where
  work obstacle rest := .closing (.waiting obstacle rest)
  next turn := (.closing turn.1, turn.2)
  poll_work _ _ _ := rfl
  next_waiting _ _ _ := rfl
  ending_waiting _ _ := rfl
  next_panic _ := ⟨_, rfl, rfl⟩

def branch (close : List δ → Program σ ℓ answer β) : Seat (ℓ := ℓ) respond δ δ β where
  work obstacle rest := .fan [.waiting obstacle rest] close
  next
    | (.ended (some d), h) => Work.pollClosing respond 0 (.start (close [d])) h
    | (p, h) => (.fan [p] close, h)
  poll_work obstacle rest h := by
    simp only [Work.poll, Work.pollFan, List.length_singleton, Work.smallFan, Nat.reduceLeDiff,
      if_true, List.range_one, Work.pollBranches, List.getElem?_cons_zero, soloStrand]
    rcases Progress.poll respond ⟨0, some 0⟩ h (.waiting obstacle rest) with
      ⟨⟨obstacle, rest⟩ | ⟨_ | d⟩, h⟩
    · rfl
    · rfl
    · rfl
  next_waiting _ _ _ := rfl
  ending_waiting _ _ := rfl
  next_panic _ := ⟨_, rfl, rfl⟩

def leading : Seat (ℓ := ℓ) respond (Plan σ ℓ answer δ β) δ β where
  work obstacle rest := .lead (.waiting obstacle rest)
  next
    | (.ended (some plan), h) => Work.pollFan respond 0 (List.range plan.branches.length)
        (plan.branches.map .start) plan.close h
    | (p, h) => (.lead p, h)
  poll_work obstacle rest h := by
    simp only [Work.poll, soloStrand]
    rcases Progress.poll respond ⟨0, some 0⟩ h (.waiting obstacle rest) with
      ⟨⟨obstacle, rest⟩ | ⟨_ | plan⟩, h⟩
    · rfl
    · rfl
    · rfl
  next_waiting _ _ _ := rfl
  ending_waiting _ _ := rfl
  next_panic _ := ⟨_, rfl, rfl⟩

private theorem leading_nil (close : List δ → Program σ ℓ answer β) (h : Hub σ ℓ) :
    (leading respond).next (.ended (some ⟨[], close⟩), h) =
      (closing respond).next (Progress.run respond soloStrand (close []) h) := rfl

private theorem leading_singleton (b : Program σ ℓ answer δ)
    (close : List δ → Program σ ℓ answer β) (h : Hub σ ℓ) :
    (leading respond).next (.ended (some ⟨[b], close⟩), h) =
      (branch respond close).next (Progress.run respond soloStrand b h) := by
  have hb : Progress.poll respond ⟨0, some 0⟩ h (Progress.start b) =
      Progress.run respond soloStrand b h := rfl
  simp only [leading, Work.pollFan, List.length_map, List.length_singleton, Work.smallFan,
    Nat.reduceLeDiff, if_true, List.range_one, List.map_cons, List.map_nil, Work.pollBranches,
    List.getElem?_cons_zero, hb]
  rcases Progress.run respond soloStrand b h with ⟨⟨obstacle, rest⟩ | ⟨_ | d⟩, h⟩
  · rfl
  · rfl
  · rfl

end Seat

namespace Machine

variable {respond : Respond σ answer} {uses : List ℓ} {k n : Nat} {h : Hub σ ℓ}

/-- Whether a machine has come to a value, or a panic, and a state. -/
def ComesTo (m : Machine σ ℓ answer δ β) (r : Option β × σ) : Prop :=
  m.outcome.1 = r.1.elim .panicked .value ∧ m.outcome.2.2 = r.2

private theorem run_seat (seat : Seat (ℓ := ℓ) respond α δ β) {f : Program σ ℓ answer α}
    (hf : f.Unhindered uses k) (hn : 2 * k ≤ n) (hq : h.Quiet []) :
    (∃ a s m h', Flow.eval respond f h.state = (some a, s) ∧ n ≤ m + 2 * k ∧ h'.Quiet [] ∧
        h'.state = s ∧ run respond n (afterTurn (seat.next (Progress.run respond soloStrand f h))) =
          run respond m (afterTurn (seat.next (.ended (some a), h')))) ∨
      ∃ s, Flow.eval respond f h.state = (none, s) ∧
        ComesTo (run respond n (afterTurn (seat.next (Progress.run respond soloStrand f h))))
          (none, s) := by
  have hcomes := seat.comes_run f hf.brief hn hq
  rw [hf.alone_eq respond [] h.state (by simp)] at hcomes
  rcases heval : Flow.eval respond f h.state with ⟨_ | a, s⟩
  · rw [heval] at hcomes
    exact .inr ⟨s, rfl, hcomes⟩
  · rw [heval] at hcomes
    obtain ⟨m, h', hm, hq', hs, hrun⟩ := hcomes
    exact .inl ⟨a, s, m, h', rfl, hm, hq', hs, hrun⟩

private theorem comesTo_closing {f : Program σ ℓ answer β} (hf : f.Unhindered uses k) (hn : 2 * k ≤ n)
    (hq : h.Quiet []) :
    ComesTo (run (δ := δ) respond n
        (afterTurn ((Seat.closing respond).next (Progress.run respond soloStrand f h))))
      (Flow.eval respond f h.state) := by
  rcases run_seat (Seat.closing (δ := δ) respond) hf hn hq with
    ⟨b, s, m, h', heval, -, hq', hs, hrun⟩ | ⟨s, heval, hpanic⟩
  · rw [heval, hrun, ← hs]
    exact run_afterTurn respond rfl hq' m
  · rw [heval]
    exact hpanic

private theorem comesTo_branch {b : Program σ ℓ answer δ} {close : List δ → Program σ ℓ answer β}
    {k' : Nat} (hb : b.Unhindered uses k) (hc : ∀ ds, (close ds).Unhindered uses k')
    (hn : 2 * (k + k') ≤ n) (hq : h.Quiet []) :
    ComesTo (run respond n (afterTurn
        ((Seat.branch respond close).next (Progress.run respond soloStrand b h))))
      (Flow.eval respond (b.bind fun d => close [d]) h.state) := by
  rw [Flow.eval_bind]
  have hk : 2 * k ≤ n := by omega
  rcases run_seat (Seat.branch respond close) hb hk hq with
    ⟨d, s, m, h', heval, hm, hq', hs, hrun⟩ | ⟨s, heval, hpanic⟩
  · rw [heval, hrun, ← hs]
    exact comesTo_closing (hc [d]) (by omega) hq'
  · rw [heval]
    exact hpanic

private theorem comesTo_leading {lead : Program σ ℓ answer (Plan σ ℓ answer δ β)} {k₁ k₂ k₃ : Nat}
    (hl : lead.Unhindered uses k₁) (hn : 2 * (k₁ + k₂ + k₃) ≤ n) (hq : h.Quiet [])
    (hplan : ∀ plan s, Flow.eval respond lead h.state = (some plan, s) →
      plan.branches.length ≤ 1 ∧ (∀ b ∈ plan.branches, b.Unhindered uses k₂) ∧
        ∀ ds, (plan.close ds).Unhindered uses k₃) :
    ComesTo (run respond n
        (afterTurn ((Seat.leading respond).next (Progress.run respond soloStrand lead h))))
      (Flow.eval respond (lead.bind Plan.inTurn) h.state) := by
  rw [Flow.eval_bind]
  have hk : 2 * k₁ ≤ n := by omega
  rcases run_seat (Seat.leading respond) hl hk hq with
    ⟨plan, s, m, h', heval, hm, hq', hs, hrun⟩ | ⟨s, heval, hpanic⟩
  · rw [heval, hrun, ← hs]
    dsimp only
    obtain ⟨hlen, hb, hc⟩ := hplan plan s heval
    obtain ⟨branches, close⟩ := plan
    match branches with
    | [] =>
      rw [Seat.leading_nil, Plan.inTurn_nil]
      exact comesTo_closing (hc []) (by omega) hq'
    | [b] =>
      rw [Seat.leading_singleton, Plan.inTurn_singleton]
      exact comesTo_branch (hb b (by simp)) hc (by omega) hq'
    | _ :: _ :: _ => simp at hlen
  · rw [heval]
    exact hpanic

variable (respond) (state : σ)

private theorem runAlone_eq (work : Work σ ℓ answer δ β) :
    ∃ n, stepLimit = n + 1 ∧ runAlone respond state work none =
      (run respond n (afterTurn (work.poll respond 0 [0] ({ state } : Hub σ ℓ)))).outcome := by
  have hspawn : (ofState state).spawn { work } =
      { hub := { state, woken := [soloStrand] }, tasks := [{ work }] } := rfl
  obtain ⟨n, hn⟩ : ∃ n, stepLimit = n + 1 := ⟨stepLimit - 1, by decide⟩
  refine ⟨n, hn, ?_⟩
  rw [runAlone, hspawn, hn, run_turn respond n _ work rfl]

theorem runAlone_ofProgram {f : Program σ ℓ answer β} (hf : f.Unhindered uses k)
    (hk : 2 * k < stepLimit) :
    let r := runAlone (δ := δ) respond state (.ofProgram f) none
    r.1 = (Flow.eval respond f state).1.elim .panicked .value ∧
      r.2.2 = (Flow.eval respond f state).2 := by
  obtain ⟨n, hn, heq⟩ := runAlone_eq respond state (.ofProgram (δ := δ) f)
  rw [heq]
  exact comesTo_closing hf (by omega) ⟨rfl, rfl, rfl⟩

/-- A task that is a plan with at most one branch comes to what its programs come to one after
another. -/
theorem runAlone_ofPlan {lead : Program σ ℓ answer (Plan σ ℓ answer δ β)} {k₁ k₂ k₃ : Nat}
    (hl : lead.Unhindered uses k₁) (hk : 2 * (k₁ + k₂ + k₃) < stepLimit)
    (hplan : ∀ plan s, Flow.eval respond lead state = (some plan, s) →
      plan.branches.length ≤ 1 ∧ (∀ b ∈ plan.branches, b.Unhindered uses k₂) ∧
        ∀ ds, (plan.close ds).Unhindered uses k₃) :
    let r := runAlone respond state (.ofPlan lead) none
    r.1 = (Flow.eval respond (lead.bind Plan.inTurn) state).1.elim .panicked .value ∧
      r.2.2 = (Flow.eval respond (lead.bind Plan.inTurn) state).2 := by
  obtain ⟨n, hn, heq⟩ := runAlone_eq respond state (.ofPlan lead)
  have hpoll : (Work.ofPlan lead).poll respond 0 [0] ({ state } : Hub σ ℓ) =
      (Seat.leading respond).next (Progress.run respond soloStrand lead { state }) :=
    (Seat.leading respond).poll_work .start lead { state }
  rw [heq, hpoll]
  exact comesTo_leading hl (by omega) ⟨rfl, rfl, rfl⟩ hplan

end Machine

end GuildBot

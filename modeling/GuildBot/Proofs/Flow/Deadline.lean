import GuildBot.Proofs.Flow.InProgress
import GuildBot.Proofs.Flow.Course
import GuildBot.Proofs.Flow.Timers

/-!
# A time limit cuts a run short and does nothing else

Two machines with the same work, one of them under a time limit, run abreast: they differ by the timer
of the limit only, which wakes no program that could go on. They part when the time is up. By then the
machine without a limit either has ended too, or it has reached that time.
-/

namespace GuildBot

variable {σ ℓ γ ε : Type} {answer : γ → Type} {δ β : Type}

/-- The strand that the timer of the only task's time limit wakes. -/
def alarm : Strand := ⟨0, none⟩

namespace Hub

variable {h : Hub σ ℓ}

/-- Whether all that a hub has to do with belongs to the only task. -/
structure OfOne (h : Hub σ ℓ) : Prop where
  claims : ∀ claim ∈ h.claims, claim.2.task = 0
  timers : ∀ timer ∈ h.timers, timer.2.task = 0
  woken : ∀ s ∈ h.woken, s.task = 0

theorem Serves.ofOne (hh : h.Serves (Strand.IsBranchOf 0)) : h.OfOne :=
  ⟨fun claim hc => (hh.claims claim hc).1, fun timer ht => (hh.timers timer ht).1.1,
    fun s hs => (hh.woken s hs).1⟩

private theorem mem_addAlarm {l₁ l₂ : List (Nat × Strand)} (hl : h.timers = l₁ ++ l₂) {time : Nat}
    {timer : Nat × Strand} :
    timer ∈ l₁ ++ (time, alarm) :: l₂ ↔ timer = (time, alarm) ∨ timer ∈ h.timers := by
  rw [hl, List.mem_append, List.mem_append, List.mem_cons, or_left_comm]

private theorem OfOne.addAlarm (hh : h.OfOne) {l₁ l₂ : List (Nat × Strand)} (hl : h.timers = l₁ ++ l₂)
    (time : Nat) : ({ h with timers := l₁ ++ (time, alarm) :: l₂ } : Hub σ ℓ).OfOne := by
  refine ⟨hh.claims, fun timer htimer => ?_, hh.woken⟩
  rcases (mem_addAlarm hl).1 htimer with rfl | hmem
  · rfl
  · exact hh.timers timer hmem

theorem OfOne.arrive (hh : h.OfOne) (time : Nat) : (h.arrive time).OfOne := by
  refine ⟨by simpa using hh.claims, fun timer htimer => ?_, fun s hs => ?_⟩
  · rw [arrive_timers, List.mem_filter] at htimer
    exact hh.timers timer htimer.1
  · rcases mem_woken_arrive.1 hs with hs | ⟨t, -, ht⟩
    · exact hh.woken s hs
    · exact hh.timers (t, s) ht

variable [DecidableEq ℓ] in
theorem OfOne.forget (hh : h.OfOne) : (h.forget 0).timers = [] ∧ (h.forget 0).woken = [] := by
  have hclaims : (h.claims.filter fun claim => claim.2.task ≠ 0) = [] := by
    simpa [List.filter_eq_nil_iff] using hh.claims
  have htimers : (h.timers.filter fun timer => timer.2.task ≠ 0) = [] := by
    simpa [List.filter_eq_nil_iff] using hh.timers
  have hwoken : (h.woken.filter fun s => s.task ≠ 0) = [] := by
    simpa [List.filter_eq_nil_iff] using hh.woken
  simp only [Hub.forget, withdraw, hclaims, heirs, List.filter_nil, List.map_nil, List.foldl_nil,
    htimers, hwoken, and_self]

private theorem arrive_addAlarm {l₁ l₂ : List (Nat × Strand)} (ht : h.timers = l₁ ++ l₂) {t time : Nat}
    (hlt : t < time) :
    ({ h with timers := l₁ ++ (time, alarm) :: l₂ } : Hub σ ℓ).arrive t =
      { h.arrive t with timers := (l₁.filter fun timer => t < timer.1) ++
          (time, alarm) :: l₂.filter fun timer => t < timer.1 } := by
  have hfold (ss : List Strand) (h : Hub σ ℓ) (ts : List (Nat × Strand)) :
      ss.foldl wake { h with timers := ts } = { ss.foldl wake h with timers := ts } := by
    induction ss generalizing h with
    | nil => rfl
    | cons s ss ih =>
      have hwake : ({ h with timers := ts } : Hub σ ℓ).wake s = { h.wake s with timers := ts } := by
        unfold wake
        by_cases hs : s ∈ h.woken
        · simp [hs]
        · simp [hs]
      rw [List.foldl_cons, hwake, ih, List.foldl_cons]
  have hdue : ((l₁ ++ (time, alarm) :: l₂).filter fun timer => timer.1 ≤ t) =
      h.timers.filter fun timer => timer.1 ≤ t := by
    rw [ht, List.filter_append, List.filter_cons_of_neg (by simpa using hlt), List.filter_append]
  simp only [arrive, hdue]
  rw [← hfold]
  simp only [List.filter_append, List.filter_cons_of_pos, hlt, decide_true]

private theorem woken_foldl_wake (ss : List Strand) {h h' : Hub σ ℓ} (a : Strand)
    (hh : (h.woken.filter (· ≠ a)) = h'.woken.filter (· ≠ a)) :
    ((ss.foldl wake h).woken.filter (· ≠ a)) =
      (((ss.filter (· ≠ a)).foldl wake h').woken.filter (· ≠ a)) := by
  induction ss generalizing h h' with
  | nil => exact hh
  | cons s ss ih =>
    by_cases hs : s = a
    · rw [List.filter_cons_of_neg (by simpa using hs), List.foldl_cons]
      refine ih (Eq.trans ?_ hh)
      unfold wake
      split
      · rfl
      · simp [hs]
    · rw [List.filter_cons_of_pos (by simpa using hs), List.foldl_cons, List.foldl_cons]
      refine ih ?_
      have hmem : s ∈ h.woken ↔ s ∈ h'.woken := by
        have := congrArg (s ∈ ·) hh
        simpa [hs] using this
      unfold wake
      by_cases hw : s ∈ h.woken
      · rw [if_pos hw, if_pos (hmem.1 hw)]
        exact hh
      · rw [if_neg hw, if_neg fun hw' => hw (hmem.2 hw')]
        simp only [List.filter_append]
        rw [hh]

private theorem arrive_at_alarm {l₁ l₂ : List (Nat × Strand)} (ht : h.timers = l₁ ++ l₂) (time : Nat) :
    let h' := ({ h with timers := l₁ ++ (time, alarm) :: l₂ } : Hub σ ℓ).arrive time
    h'.woken.filterMap (·.branch) = (h.arrive time).woken.filterMap (·.branch) ∧
      ({ h' with woken := [] } : Hub σ ℓ) = { h.arrive time with woken := [] } := by
  have hbranches (ss : List Strand) :
      ss.filterMap (·.branch) = (ss.filter (· ≠ alarm)).filterMap (·.branch) := by
    rw [List.filterMap_filter]
    refine List.filterMap_congr fun s _ => ?_
    by_cases hs : s = alarm
    · simp [hs, alarm]
    · simp [hs]
  have hsame : ((((l₁ ++ (time, alarm) :: l₂).filter fun timer => timer.1 ≤ time).map
      Prod.snd).filter (· ≠ alarm)) =
        ((h.timers.filter fun timer => timer.1 ≤ time).map Prod.snd).filter (· ≠ alarm) := by
    simp [ht, List.filter_append]
  refine ⟨?_, ?_⟩
  · rw [hbranches, hbranches (h.arrive time).woken]
    have harrive (h₁ : Hub σ ℓ) (hw : h₁.woken = h.woken) :
        ((h₁.arrive time).woken.filter (· ≠ alarm)) =
          ((((h₁.timers.filter fun timer => timer.1 ≤ time).map Prod.snd).filter
            (· ≠ alarm)).foldl wake h).woken.filter (· ≠ alarm) :=
      woken_foldl_wake _ alarm (congrArg (List.filter (· ≠ alarm)) hw)
    rw [harrive { h with timers := l₁ ++ (time, alarm) :: l₂ } rfl, harrive h rfl, hsame]
  · have hsame : (l₁ ++ (time, alarm) :: l₂).filter (fun timer => time < timer.1) =
        h.timers.filter fun timer => time < timer.1 := by
      rw [ht, List.filter_append, List.filter_cons_of_neg (by simp), List.filter_append]
    simp only [arrive_state, arrive_now, arrive_claims, arrive_timers, hsame]

end Hub

open Hub

namespace Machine

theorem nextTime?_eq_some {h : Hub σ ℓ} {time : Nat} :
    h.nextTime? = some time ↔
      (∃ s, (time, s) ∈ h.timers) ∧ ∀ timer ∈ h.timers, time ≤ timer.1 := by
  rw [nextTime?, List.min?_eq_some_iff]
  simp

theorem nextTime?_eq_none {h : Hub σ ℓ} : h.nextTime? = none ↔ h.timers = [] := by
  simp [nextTime?]

private theorem exists_nextTime?_le {h : Hub σ ℓ} {timer : Nat × Strand} (htimer : timer ∈ h.timers) :
    ∃ t, h.nextTime? = some t ∧ t ≤ timer.1 := by
  cases hnext : h.nextTime? with
  | none =>
    rw [nextTime?_eq_none.1 hnext] at htimer
    cases htimer
  | some t => exact ⟨t, rfl, (nextTime?_eq_some.1 hnext).2 timer htimer⟩

section

variable {h : Hub σ ℓ} {l₁ l₂ : List (Nat × Strand)} (hl : h.timers = l₁ ++ l₂) {time : Nat}

include hl

private theorem nextTime?_addAlarm {t : Nat} (hnext : h.nextTime? = some t) (ht : t ≤ time) :
    ({ h with timers := l₁ ++ (time, alarm) :: l₂ } : Hub σ ℓ).nextTime? = some t := by
  obtain ⟨⟨s, hs⟩, hle⟩ := nextTime?_eq_some.1 hnext
  refine nextTime?_eq_some.2 ⟨⟨s, (mem_addAlarm hl).2 (.inr hs)⟩, fun timer htimer => ?_⟩
  rcases (mem_addAlarm hl).1 htimer with rfl | hmem
  · exact ht
  · exact hle timer hmem

private theorem nextTime?_alarm (hlate : ∀ timer ∈ h.timers, time < timer.1) :
    ({ h with timers := l₁ ++ (time, alarm) :: l₂ } : Hub σ ℓ).nextTime? = some time := by
  refine nextTime?_eq_some.2 ⟨⟨alarm, (mem_addAlarm hl).2 (.inl rfl)⟩, fun timer htimer => ?_⟩
  rcases (mem_addAlarm hl).1 htimer with rfl | hmem
  · exact Nat.le_refl _
  · exact (hlate timer hmem).le

private theorem woken_of_alarm :
    (({ h with timers := l₁ ++ (time, alarm) :: l₂ } : Hub σ ℓ).arrive time).woken ≠ [] := by
  refine List.ne_nil_of_mem (a := alarm) (mem_woken_arrive.2 (.inr ⟨time, Nat.le_refl _, ?_⟩))
  exact (mem_addAlarm hl).2 (.inl rfl)

end

variable [DecidableEq ℓ] {respond : Respond σ answer} {record : σ → List ε} {h : Hub σ ℓ}

/-- Whether a machine ends with its next step and is at rest then. -/
def EndsNext (respond : Respond σ answer) (m : Machine σ ℓ answer δ β) (e : Ending β) (time : Nat)
    (state : σ) : Prop :=
  ∃ m', m.step? respond = some m' ∧ m'.step? respond = none ∧ m'.ending? = some e ∧
    m'.hub.now = time ∧ m'.hub.state = state

theorem step_of_rest {m : Machine σ ℓ answer δ β} (hwoken : m.hub.woken = [])
    (htimers : m.hub.timers = []) : m.step? respond = none := by
  simp [step?, turn?, tick?, nextTime?, hwoken, htimers]

theorem step_of_tick {m : Machine σ ℓ answer δ β} (hwoken : m.hub.woken = []) {time : Nat}
    (htime : m.hub.nextTime? = some time) :
    m.step? respond = some { m with hub := m.hub.arrive time } := by
  simp [step?, turn?, tick?, hwoken, htime]

theorem rest_of_step {m : Machine σ ℓ answer δ β} (h : m.step? respond = none) :
    m.hub.woken = [] ∧ m.hub.timers = [] := by
  simpa [step?, turn?, tick?, nextTime?] using h

private theorem step_of_turn (respond : Respond σ answer) {t : Task σ ℓ answer δ β}
    (hone : h.OfOne) (hwoken : h.woken ≠ [])
    (ht : t.ending = none) :
    step? respond ⟨h, [t]⟩ =
      let r := t.poll respond 0 (h.woken.filterMap (·.branch)) { h with woken := [] }
      some ⟨r.2, [r.1]⟩ := by
  obtain ⟨s, rest, hs⟩ := List.exists_cons_of_ne_nil hwoken
  have htask : s.task = 0 := hone.woken s (by simp [hs])
  have hmine : (h.woken.filter fun s => s.task = 0) = h.woken :=
    List.filter_eq_self.2 fun s hs => by simpa using hone.woken s hs
  have hothers : (h.woken.filter fun s => s.task ≠ 0) = [] :=
    List.filter_eq_nil_iff.2 fun s hs => by simpa using hone.woken s hs
  have hturn : turn? respond ⟨h, [t]⟩ = some (pollTask respond 0 ⟨h, [t]⟩) := by
    simp [turn?, hs, htask]
  rw [step?, hturn, Option.some_or, pollTask, hmine, hothers]
  simp only [List.getElem?_cons_zero, ht, Option.isSome_none, Bool.false_eq_true, if_false,
    List.set_cons_zero]

theorem turn_cases (respond : Respond σ answer) {t : Task σ ℓ answer δ β}
    (hone : h.OfOne) (hwoken : h.woken ≠ [])
    (ht : t.ending = none) (hid : t.onTimeout = id) {work : Work σ ℓ answer δ β} {h' : Hub σ ℓ}
    (hone' : h'.OfOne) (hr : t.work.poll respond 0 (h.woken.filterMap (·.branch))
      { h with woken := [] } = (work, h')) :
    (∃ result, work.ending? = some result ∧
      EndsNext respond ⟨h, [t]⟩ (result.elim .panicked .value) h'.now h'.state) ∨
    (work.ending? = none ∧ (∃ time, t.due h.now = some time ∧ time ≤ h'.now) ∧
      EndsNext respond ⟨h, [t]⟩ .timedOut h'.now h'.state) ∨
    (work.ending? = none ∧ (∀ time, t.due h.now = some time → h'.now < time) ∧
      step? respond ⟨h, [t]⟩ = some ⟨t.arm 0 (t.due h.now) h',
        [{ t with work, deadline := t.due h.now }]⟩) := by
  have hstep := step_of_turn respond hone hwoken ht
  have hforget := hone'.forget
  rcases t.poll_cases respond 0 _ _ hr with
    ⟨result, hending, hpoll⟩ | ⟨hending, hdue, hpoll⟩ | ⟨hending, hdue, hpoll⟩
  · rw [hpoll] at hstep
    exact .inl ⟨result, hending, _, hstep, step_of_rest hforget.2 hforget.1, rfl, by simp, by simp⟩
  · rw [hpoll, hid] at hstep
    exact .inr (.inl ⟨hending, hdue, _, hstep, step_of_rest hforget.2 hforget.1, rfl, by simp, rfl⟩)
  · rw [hpoll] at hstep
    exact .inr (.inr ⟨hending, hdue, hstep⟩)

private theorem turns_cases (respond : Respond σ answer) {work work' : Work σ ℓ answer δ β}
    {t : Task σ ℓ answer δ β} {k h' k' : Hub σ ℓ}
    (hone : h.OfOne) (hone₂ : k.OfOne) (hwoken : h.woken ≠ []) (hwoken₂ : k.woken ≠ [])
    (ht : t.ending = none) (hid : t.onTimeout = id) (hone' : h'.OfOne) (hone₂' : k'.OfOne)
    (hr : work.poll respond 0 (h.woken.filterMap (·.branch)) { h with woken := [] } = (work', h'))
    (hr₂ : t.work.poll respond 0 (k.woken.filterMap (·.branch)) { k with woken := [] } = (work', k'))
    (hnow : k'.now = h'.now) (hstate : k'.state = h'.state) :
    (∃ result : Option β,
      EndsNext respond ⟨h, [{ work }]⟩ (result.elim .panicked .value) h'.now h'.state ∧
      EndsNext respond ⟨k, [t]⟩ (result.elim .panicked .value) h'.now h'.state) ∨
    (work'.ending? = none ∧ step? respond ⟨h, [{ work }]⟩ = some ⟨h', [{ work := work' }]⟩ ∧
      ((∃ time, t.due k.now = some time ∧ time ≤ h'.now) ∧
          EndsNext respond ⟨k, [t]⟩ .timedOut h'.now h'.state ∨
        (∀ time, t.due k.now = some time → h'.now < time) ∧
          step? respond ⟨k, [t]⟩ = some ⟨t.arm 0 (t.due k.now) k',
            [{ t with work := work', deadline := t.due k.now }]⟩)) := by
  have hcases := turn_cases respond hone₂ hwoken₂ ht hid hone₂' hr₂
  rw [hnow, hstate] at hcases
  rcases turn_cases respond (t := { work }) hone hwoken rfl rfl hone' hr with
    ⟨result, hending, hfree⟩ | ⟨-, ⟨t, hdue, -⟩, -⟩ | ⟨hending, -, hfree⟩
  · simp only [hending, reduceCtorEq, false_and, or_false, Option.some.injEq,
      exists_eq_left'] at hcases
    exact .inl ⟨result, hfree, hcases⟩
  · cases hdue
  · simp only [hending, reduceCtorEq, false_and, exists_false, false_or, true_and] at hcases
    exact .inr ⟨hending, hfree, hcases⟩

private theorem now_le_run (respond : Respond σ answer) {work : Work σ ℓ answer δ β}
    (hw : work.InProgress h) (n : Nat) :
    h.now ≤ (run respond n ⟨h, [{ work }]⟩).hub.now := by
  induction n generalizing work h with
  | zero => exact Nat.le_refl _
  | succ n ih =>
    by_cases hwoken : h.woken = []
    · cases htime : h.nextTime? with
      | none =>
        rw [run_of_rest respond (step_of_rest hwoken (nextTime?_eq_none.1 htime))]
      | some time =>
        obtain ⟨⟨s, hs⟩, -⟩ := nextTime?_eq_some.1 htime
        have hlater : h.now ≤ time := (hw.serves.timers _ hs).2.le
        rw [run_succ_of_step respond (step_of_tick hwoken htime)]
        exact hlater.trans (by simpa using ih (hw.arrive hlater))
    · rcases hr : work.poll respond 0 (h.woken.filterMap (·.branch)) { h with woken := [] } with
        ⟨work', h'⟩
      obtain ⟨hnow, hserves, hprogress⟩ := hw.turn respond hr
      rcases turn_cases respond (t := { work }) hw.serves.ofOne hwoken rfl rfl hserves.ofOne hr with
        ⟨result, -, m', hstep, hrest, -, htime, -⟩ | ⟨-, ⟨time, hdue, -⟩, -⟩ | ⟨hending, -, hstep⟩
      · rw [run_succ_of_step respond hstep, run_of_rest respond hrest, htime, hnow]
      · cases hdue
      · rw [run_succ_of_step respond hstep]
        exact hnow ▸ ih (hprogress hending)

/-- What comes of a machine under a time limit, as compared with one without: both end alike by then, or
else the one is cut short at that time, in a state in which the other reaches it. -/
def CutShort (respond : Respond σ answer) (record : σ → List ε) (time : Nat)
    (free timed : Machine σ ℓ answer δ β) : Prop :=
  (∃ c, free.Takes respond record c ∧ timed.Takes respond record c ∧ c.time ≤ time ∧
    ∃ result : Option β, c.ending = some (result.elim .panicked .value)) ∨
  ∃ n, free.Reaches respond time n ∧ (free.run respond n).ending? = none ∧
    timed.Takes respond record
      ⟨some .timedOut, time, (free.run respond n).hub.state, entries respond record n free⟩

variable {free timed free' timed' : Machine σ ℓ answer δ β} {time : Nat}

theorem CutShort.of_step (hfree : free.step? respond = some free')
    (htimed : timed.step? respond = some timed') (hnow : free.hub.now ≤ time)
    (hstate : timed.hub.state = free.hub.state) (hstate' : timed'.hub.state = free'.hub.state)
    (hnow' : timed'.hub.now = free'.hub.now) (h : CutShort respond record time free' timed') :
    CutShort respond record time free timed := by
  have hadded : added record timed timed' = added record free free' := by
    simp only [added, hstate, hstate', hnow']
  rcases h with ⟨c, hc, hc', htime, hending⟩ | ⟨n, hn, hgoing, hc'⟩
  · refine .inl ⟨_, hc.of_step hfree, ?_, htime, hending⟩
    exact hadded ▸ hc'.of_step htimed
  · refine .inr ⟨n + 1, ⟨?_, ?_⟩, ?_, ?_⟩
    · intro i hi
      cases i with
      | zero => exact hnow
      | succ i =>
        rw [run_succ_of_step respond hfree]
        exact hn.before i (by omega)
    · intro i hi
      obtain ⟨i, rfl⟩ : ∃ j, i = j + 1 := ⟨i - 1, by omega⟩
      rw [run_succ_of_step respond hfree, run_succ_of_step respond hfree]
      exact hn.after i (by omega)
    · rwa [run_succ_of_step respond hfree]
    · rw [run_succ_of_step respond hfree, entries_of_step hfree, ← hadded]
      exact hc'.of_step htimed

private theorem CutShort.of_ends {result : Option β} {now : Nat} {state : σ}
    (hfree : EndsNext respond free (result.elim .panicked .value) now state)
    (htimed : EndsNext respond timed (result.elim .panicked .value) now state)
    (hstate : timed.hub.state = free.hub.state) (hnow : now ≤ time) :
    CutShort respond record time free timed := by
  obtain ⟨m, hstep, hrest, hending, rfl, rfl⟩ := hfree
  obtain ⟨m', hstep', hrest', hending', hnow', hstate'⟩ := htimed
  have hadded : added record timed m' = added record free m := by
    simp only [added, hstate, hstate', hnow']
  refine .inl ⟨_, (Takes.of_rest record hrest).of_step hstep, ?_, hnow, result, hending⟩
  have hc := (Takes.of_rest record hrest').of_step hstep'
  rwa [hadded, hending', hnow', hstate', ← hending] at hc

/-- The time is up with a step that the other machine makes as well, and goes on from. -/
private theorem CutShort.of_expiry {work : Work σ ℓ answer δ β} {h' : Hub σ ℓ}
    (hfree : free.step? respond = some ⟨h', [{ work }]⟩) (hw : work.InProgress h')
    (htimed : EndsNext respond timed .timedOut h'.now h'.state)
    (hstate : timed.hub.state = free.hub.state) (hnow : free.hub.now ≤ time)
    (hnow' : h'.now = time) : CutShort respond record time free timed := by
  obtain ⟨m', hstep', hrest', hending', htime', hstate'⟩ := htimed
  have hadded : added record timed m' = added record free ⟨h', [{ work }]⟩ := by
    simp only [added, hstate, hstate', htime']
  refine .inr ⟨1, ⟨?_, ?_⟩, ?_, ?_⟩
  · intro i hi
    obtain rfl | rfl : i = 0 ∨ i = 1 := by omega
    · exact hnow
    · rw [run_succ_of_step respond hfree]
      exact hnow'.le
  · intro i hi
    obtain ⟨i, rfl⟩ : ∃ j, i = j + 1 := ⟨i - 1, by omega⟩
    rw [run_succ_of_step respond hfree i]
    exact .inr (hnow' ▸ now_le_run respond hw i)
  · rw [run_succ_of_step respond hfree]
    rfl
  · have hc := (Takes.of_rest record hrest').of_step hstep'
    rw [hadded, hending', htime', hnow', hstate', List.append_nil] at hc
    rw [run_succ_of_step respond hfree, entries_of_step hfree]
    simpa [run, entries] using hc

/-- A task under a time limit that is already running. -/
abbrev limited (time : Nat) (work : Work σ ℓ answer δ β) : Task σ ℓ answer δ β :=
  { work, limit := some time, deadline := some time }

private theorem Reaches.of_idle (respond : Respond σ answer) {work : Work σ ℓ answer δ β}
    (hw : work.InProgress h)
    (hwoken : h.woken = []) (hnow : h.now ≤ time) (hlate : ∀ timer ∈ h.timers, time < timer.1) :
    (⟨h, [{ work }]⟩ : Machine σ ℓ answer δ β).Reaches respond time 0 := by
  refine ⟨?_, ?_⟩
  · intro i hi
    obtain rfl : i = 0 := Nat.le_zero.1 hi
    exact hnow
  · intro i hi
    cases hnext : h.nextTime? with
    | none => exact .inl (step_of_rest hwoken (nextTime?_eq_none.1 hnext))
    | some t =>
      refine .inr ?_
      obtain ⟨i, rfl⟩ : ∃ j, i = j + 1 := ⟨i - 1, by omega⟩
      obtain ⟨⟨s, hs⟩, -⟩ := nextTime?_eq_some.1 hnext
      have hlt : time < t := hlate _ hs
      rw [run_succ_of_step respond (step_of_tick hwoken hnext)]
      have hle := now_le_run respond (hw.arrive (hnow.trans hlt.le)) i
      rw [arrive_now] at hle
      exact hlt.le.trans hle

private theorem CutShort.of_idle {work : Work σ ℓ answer δ β} (hw : work.InProgress h) (hwoken : h.woken = [])
    (hnow : h.now ≤ time) {l₁ l₂ : List (Nat × Strand)} (hl : h.timers = l₁ ++ l₂)
    (hlate : ∀ timer ∈ h.timers, time < timer.1) :
    CutShort respond record time ⟨h, [{ work }]⟩
      ⟨{ h with timers := l₁ ++ (time, alarm) :: l₂ }, [limited time work]⟩ := by
  let h₁ : Hub σ ℓ := { h with timers := l₁ ++ (time, alarm) :: l₂ }
  have hone : (h₁.arrive time).OfOne := (hw.serves.ofOne.addAlarm hl time).arrive time
  have htick : step? respond ⟨h₁, [limited time work]⟩ =
      some ⟨h₁.arrive time, [limited time work]⟩ := step_of_tick hwoken (nextTime?_alarm hl hlate)
  have hidle : work.poll respond 0 ((h₁.arrive time).woken.filterMap (·.branch))
      { h₁.arrive time with woken := [] } = (work, { h₁.arrive time with woken := [] }) :=
    hw.poll_idle respond hwoken hlate _ (arrive_now h₁ time) (arrive_claims h₁ time)
  have hone' : ({ h₁.arrive time with woken := [] } : Hub σ ℓ).OfOne :=
    ⟨hone.claims, hone.timers, nofun⟩
  have hends : EndsNext respond ⟨h₁.arrive time, [limited time work]⟩ .timedOut time h.state := by
    rcases turn_cases respond (t := limited time work) hone (woken_of_alarm hl) rfl rfl hone' hidle with
      ⟨result, hending, -⟩ | ⟨-, -, hends⟩ | ⟨-, hdue, -⟩
    · rw [hw.going] at hending
      cases hending
    · simpa [h₁] using hends
    · exact absurd (hdue time rfl) (by simp)
  obtain ⟨m', hstep, hrest, hending, htime, hstate⟩ := hends
  refine .inr ⟨0, .of_idle respond hw hwoken hnow hlate, rfl, ?_⟩
  have hc := ((Takes.of_rest record hrest).of_step hstep).of_step htick
  rw [hending, htime, hstate] at hc
  simpa [added, hstate, h₁, run, entries] using hc

private theorem CutShort.of_expiring {work : Work σ ℓ answer δ β}
    (hw : work.InProgress h) (hnow : h.now ≤ time)
    {l₁ l₂ : List (Nat × Strand)} (hl : h.timers = l₁ ++ l₂) (hnext : h.nextTime? = some time) :
    CutShort respond record time ⟨h.arrive time, [{ work }]⟩
      ⟨({ h with timers := l₁ ++ (time, alarm) :: l₂ } : Hub σ ℓ).arrive time,
        [limited time work]⟩ := by
  have hw' := hw.arrive hnow
  have hone := (hw.serves.ofOne.addAlarm hl time).arrive time
  obtain ⟨hbranches, hhub⟩ := arrive_at_alarm hl time
  obtain ⟨⟨s, hs⟩, -⟩ := nextTime?_eq_some.1 hnext
  have hwoken : (h.arrive time).woken ≠ [] :=
    List.ne_nil_of_mem (mem_woken_arrive.2 (.inr ⟨time, Nat.le_refl _, hs⟩))
  rcases hr : work.poll respond 0 ((h.arrive time).woken.filterMap (·.branch))
    { h.arrive time with woken := [] } with ⟨work', h'⟩
  have hr' := hr
  rw [← hbranches, ← hhub] at hr'
  obtain ⟨hnow', hserves, hprogress⟩ := hw'.turn respond hr
  rw [arrive_now] at hnow'
  rcases turns_cases respond (t := limited time work) hw'.serves.ofOne hone hwoken
    (woken_of_alarm hl) rfl rfl hserves.ofOne hserves.ofOne hr hr' rfl rfl with
    ⟨result, hfree, htimed⟩ | ⟨hending, hfree, ⟨-, htimed⟩ | ⟨hdue, -⟩⟩
  · exact .of_ends hfree htimed (by simp) hnow'.le
  · exact .of_expiry hfree (hprogress hending) htimed (by simp) (by simp) hnow'
  · exact absurd (hdue time rfl) (by simp [hnow'])

private theorem CutShort.of_abreast {n : Nat} {work : Work σ ℓ answer δ β} (hw : work.InProgress h)
    (hnow : h.now < time) {l₁ l₂ : List (Nat × Strand)} (hl : h.timers = l₁ ++ l₂)
    (hn : (run respond n ⟨h, [{ work }]⟩).step? respond = none) :
    CutShort respond record time ⟨h, [{ work }]⟩
      ⟨{ h with timers := l₁ ++ (time, alarm) :: l₂ }, [limited time work]⟩ := by
  induction n generalizing work h l₁ l₂ with
  | zero =>
    obtain ⟨hwoken, htimers⟩ : h.woken = [] ∧ h.timers = [] := rest_of_step hn
    exact .of_idle hw hwoken hnow.le hl (by simp [htimers])
  | succ n ih =>
    by_cases hwoken : h.woken = []
    · by_cases hlate : ∀ timer ∈ h.timers, time < timer.1
      · exact .of_idle hw hwoken hnow.le hl hlate
      · push Not at hlate
        obtain ⟨timer, htimer, hle⟩ := hlate
        obtain ⟨t, hnext, ht⟩ := exists_nextTime?_le htimer
        replace ht : t ≤ time := ht.trans hle
        have hlater : h.now ≤ t := by
          obtain ⟨⟨s, hs⟩, -⟩ := nextTime?_eq_some.1 hnext
          exact (hw.serves.timers _ hs).2.le
        have hfree : step? respond ⟨h, [{ work }]⟩ = some ⟨h.arrive t, [{ work }]⟩ :=
          step_of_tick hwoken hnext
        have htimed : step? respond
            ⟨{ h with timers := l₁ ++ (time, alarm) :: l₂ }, [limited time work]⟩ =
              some ⟨({ h with timers := l₁ ++ (time, alarm) :: l₂ } : Hub σ ℓ).arrive t,
                [limited time work]⟩ :=
          step_of_tick hwoken (nextTime?_addAlarm hl hnext ht)
        refine .of_step hfree htimed hnow.le rfl (by simp) (by simp) ?_
        rcases Nat.lt_or_eq_of_le ht with hlt | rfl
        · rw [run_succ_of_step respond hfree] at hn
          rw [arrive_addAlarm hl hlt]
          refine ih (hw.arrive hlater) (by simpa using hlt) ?_ hn
          rw [arrive_timers, hl, List.filter_append]
        · -- Others are woken at the same time as the alarm, and go on before the time is up.
          exact .of_expiring hw hnow.le hl hnext
    · rcases hr : work.poll respond 0 (h.woken.filterMap (·.branch)) { h with woken := [] } with
        ⟨work', h'⟩
      obtain ⟨hnow', hserves, hprogress⟩ := hw.turn respond hr
      obtain ⟨new, hnew, htimers⟩ := Work.poll_timers respond 0 (h.woken.filterMap (·.branch)) work
        { h with woken := [] }
      have hr' := htimers (l₁ ++ (time, alarm) :: l₂)
      simp only [hr, List.append_assoc, List.cons_append] at hnew hr'
      have hl' : h'.timers = l₁ ++ (l₂ ++ new) := by rw [hnew, hl, List.append_assoc]
      rcases turns_cases respond (t := limited time work) hw.serves.ofOne
        (hw.serves.ofOne.addAlarm hl time) hwoken hwoken rfl rfl hserves.ofOne
        (hserves.ofOne.addAlarm hl' time) hr hr' rfl rfl with
        ⟨result, hfree, htimed⟩ | ⟨hending, hfree, ⟨⟨t, hdue, hle⟩, -⟩ | ⟨-, htimed⟩⟩
      · exact .of_ends hfree htimed rfl (hnow' ▸ hnow.le)
      · obtain rfl : time = t := Option.some.inj hdue
        exact absurd (hnow' ▸ hle) (Nat.not_le.2 hnow)
      · rw [run_succ_of_step respond hfree] at hn
        exact .of_step hfree htimed hnow.le rfl rfl rfl
          (ih (hprogress hending) (hnow' ▸ hnow) hl' hn)

/-- A time limit ends a machine's only task no differently before the time is up, and at that time if
it has not ended by then. -/
theorem limit_cuts_short (respond : Respond σ answer) (record : σ → List ε) (state : σ)
    (lead : Program σ ℓ answer (Plan σ ℓ answer δ β)) (time : Nat) :
    CutShort respond record time (alone state (.ofPlan lead) none)
      (alone state (.ofPlan lead) (some time)) := by
  let h : Hub σ ℓ := { state, woken := [⟨0, some 0⟩] }
  have hw : Work.InProgress (.ofPlan lead) h := .start lead state
  have hwoken : h.woken ≠ [] := List.cons_ne_nil _ _
  change CutShort respond record time ⟨h, [{ work := .ofPlan lead }]⟩
    ⟨h, [{ work := .ofPlan lead, limit := some time }]⟩
  rcases hr : (Work.ofPlan lead).poll respond 0 (h.woken.filterMap (·.branch)) { h with woken := [] }
    with ⟨work', h'⟩
  obtain ⟨hnow, hserves, hprogress⟩ := hw.turn respond hr
  have hdue : Task.due (σ := σ) { work := .ofPlan lead, limit := some time } h.now = some time := by
    simp [Task.due, h]
  rcases turns_cases respond (t := { work := .ofPlan lead, limit := some time })
    hw.serves.ofOne hw.serves.ofOne hwoken hwoken rfl rfl hserves.ofOne hserves.ofOne hr hr rfl rfl
    with ⟨result, hfree, htimed⟩ | ⟨hending, hfree, ⟨⟨t, ht, hle⟩, htimed⟩ | ⟨hlt, htimed⟩⟩
  · exact .of_ends hfree htimed rfl (hnow ▸ Nat.zero_le time)
  · obtain rfl : time = t := Option.some.inj (hdue.symm.trans ht)
    have hzero : h'.now = time := (hnow.trans_le (Nat.zero_le time)).antisymm hle
    exact .of_expiry hfree (hprogress hending) htimed rfl (Nat.zero_le time) hzero
  · obtain ⟨n, hn⟩ := comes_to_rest respond (⟨h', [{ work := work' }]⟩ : Machine σ ℓ answer δ β)
    refine .of_step hfree htimed (Nat.zero_le time) rfl (by rw [hdue]; rfl) (by rw [hdue]; rfl) ?_
    rw [hdue]
    exact .of_abreast (hprogress hending) (hlt time hdue) (List.append_nil _).symm hn

end Machine

end GuildBot

import GuildBot.Flow.Turns
import GuildBot.Proofs.Flow.InProgress

/-!
# What a turn of a task leaves

A turn of a task takes from no other task what would wake it. The task itself ends when its time is up,
and until then a timer is set for it. So no task is forgotten.
-/

namespace GuildBot

open Relation (ReflTransGen)

variable {σ ℓ γ : Type} {answer : γ → Type} {δ β : Type}

namespace Hub

/-- What the turn of a task leaves of a hub: the time, and what wakes other tasks. -/
structure Leaves (number : Nat) (h h' : Hub σ ℓ) : Prop where
  now : h'.now = h.now
  woken : ∀ s ∈ h.woken, s.task ≠ number → s ∈ h'.woken
  timers : ∀ timer ∈ h.timers, timer.2.task ≠ number → timer ∈ h'.timers

namespace Leaves

variable {number : Nat} {h h' h'' : Hub σ ℓ}

theorem trans (hl : Leaves number h h') (hl' : Leaves number h' h'') : Leaves number h h'' where
  now := hl'.now.trans hl.now
  woken s hs hother := hl'.woken s (hl.woken s hs hother) hother
  timers timer htimer hother := hl'.timers timer (hl.timers timer htimer hother) hother

private theorem of_subset (hnow : h'.now = h.now) (hwoken : h.woken ⊆ h'.woken)
    (htimers : h.timers ⊆ h'.timers) : Leaves number h h' :=
  ⟨hnow, fun _ hs _ => hwoken hs, fun _ htimer _ => htimers htimer⟩

theorem unwoken (h : Hub σ ℓ) (number : Nat) :
    Leaves number h { h with woken := h.woken.filter fun s => s.task ≠ number } where
  now := rfl
  woken _ hs hother := List.mem_filter.2 ⟨hs, decide_eq_true hother⟩
  timers _ htimer _ := htimer

variable [DecidableEq ℓ]

theorem of_strokes (hs : ReflTransGen (TaskStroke number) h h') : Leaves number h h' :=
  of_subset (now_of_strokes hs) (woken_of_strokes hs) (timers_of_strokes hs)

theorem forget (h : Hub σ ℓ) (number : Nat) : Leaves number h (h.forget number) where
  now := forget_now h number
  woken s hs hother := by
    simp only [Hub.forget, List.mem_filter, decide_eq_true_eq]
    exact ⟨mem_woken_withdraw.2 (.inl hs), hother⟩
  timers timer htimer hother := by
    simp only [Hub.forget, withdraw_timers, List.mem_filter, decide_eq_true_eq]
    exact ⟨htimer, hother⟩

end Leaves

variable [DecidableEq ℓ] in
theorem Serves.forget {h : Hub σ ℓ} {kind : Strand → Prop} (hh : h.Serves kind) (number : Nat) :
    (h.forget number).Serves kind := by
  have hkept : ∀ claim ∈ h.claims.filter fun claim => claim.2.task ≠ number, kind claim.2 :=
    fun claim hclaim => hh.claims claim (List.mem_filter.1 hclaim).1
  refine ⟨?_, ?_, ?_⟩
  · simpa only [Hub.forget, withdraw_claims] using hkept
  · intro timer htimer
    simp only [Hub.forget, withdraw_timers, withdraw_now, List.mem_filter] at htimer ⊢
    exact hh.timers timer htimer.1
  · intro s hs
    rcases mem_woken_withdraw.1 (List.mem_filter.1 hs).1 with hs | hs
    · exact hh.woken s hs
    · obtain ⟨claim, hclaim, rfl⟩ := List.mem_map.1 hs
      exact hkept claim (List.mem_filter.1 hclaim).1

section

variable {h h' : Hub σ ℓ} {number : Nat} {t : Task σ ℓ answer δ β}

/-- A task is not forgotten as long as what wakes it is kept, until it does. -/
theorem Watches.of_kept (hw : h.Watches number t) (hnow : h.now ≤ h'.now)
    (hwoken : ∀ s ∈ h.woken, s.task = number → s ∈ h'.woken)
    (htimers : ∀ time, (time, ⟨number, none⟩) ∈ h.timers →
      (time, ⟨number, none⟩) ∈ h'.timers ∨
        time ≤ h'.now ∧ (⟨number, none⟩ : Strand) ∈ h'.woken) : h'.Watches number t := by
  have hkept : (∃ s ∈ h.woken, s.task = number) → ∃ s ∈ h'.woken, s.task = number :=
    fun ⟨s, hs, htask⟩ => ⟨s, hwoken s hs htask, htask⟩
  unfold Watches at hw ⊢
  cases hd : t.deadline with
  | none => exact hkept (by simpa only [hd] using hw)
  | some deadline =>
    simp only [hd] at hw ⊢
    rcases hw with htimer | ⟨hle, hs⟩
    · exact (htimers deadline htimer).imp id fun ⟨hle, hs⟩ => ⟨hle, _, hs, rfl⟩
    · exact .inr ⟨Nat.le_trans hle hnow, hkept hs⟩

theorem Watches.of_leaves {other : Nat} (hw : h.Watches number t) (hl : Leaves other h h')
    (hother : number ≠ other) : h'.Watches number t :=
  hw.of_kept (Nat.le_of_eq hl.now.symm) (fun s hs htask => hl.woken s hs (htask ▸ hother))
    fun _ htimer => .inl (hl.timers _ htimer hother)

theorem Watches.wake (hw : h.Watches number t) (s : Strand) : (h.wake s).Watches number t :=
  hw.of_kept (Nat.le_of_eq (wake_now h s).symm) (fun _ hs _ => mem_woken_wake.2 (.inl hs))
    fun _ htimer => .inl ((wake_timers h s).symm ▸ htimer)

theorem Watches.arrive (hw : h.Watches number t) {time : Nat} (hlater : h.now ≤ time) :
    (h.arrive time).Watches number t := by
  refine hw.of_kept ((arrive_now h time).symm ▸ hlater) (fun _ hs _ => mem_woken_arrive.2 (.inl hs)) ?_
  intro due htimer
  rw [arrive_timers, arrive_now, List.mem_filter, decide_eq_true_eq]
  by_cases hdue : due ≤ time
  · exact .inr ⟨hdue, mem_woken_arrive.2 (.inr ⟨due, hdue, htimer⟩)⟩
  · exact .inl ⟨htimer, by omega⟩

end

end Hub

open Hub

namespace Task

variable {t : Task σ ℓ answer δ β}

private theorem arm_leaves (number : Nat) (due : Option Nat) (h : Hub σ ℓ) :
    Leaves number h (t.arm number due h) := by
  rcases t.arm_cases number due h with heq | ⟨time, -, heq⟩
  · rw [heq]
    exact .of_subset rfl (List.Subset.refl _) (List.Subset.refl _)
  · rw [heq]
    exact .of_subset rfl (List.Subset.refl _) (List.subset_append_left _ _)

variable [DecidableEq ℓ] (respond : Respond σ answer) (number : Nat)

theorem poll_leaves (woken : List Nat) (h : Hub σ ℓ) (t : Task σ ℓ answer δ β) :
    Leaves number h (t.poll respond number woken h).2 := by
  have hwork := Leaves.of_strokes (Work.poll_strokes respond number woken t.work h)
  rcases hr : t.work.poll respond number woken h with ⟨work, h'⟩
  rw [hr] at hwork
  rcases t.poll_cases respond number woken h hr with ⟨result, -, heq⟩ | ⟨-, -, heq⟩ | ⟨-, -, heq⟩
  · rw [heq]
    exact hwork.trans (.forget h' number)
  · rw [heq]
    exact (hwork.trans (.forget h' number)).trans
      (.of_subset rfl (List.Subset.refl _) (List.Subset.refl _))
  · rw [heq]
    exact hwork.trans (t.arm_leaves number _ h')

theorem poll_serves (woken : List Nat) {h : Hub σ ℓ} (hh : h.Serves fun _ => True) :
    (t.poll respond number woken h).2.Serves fun _ => True := by
  have hwork := Serves.of_taskStrokes (fun _ => trivial)
    (Work.poll_strokes respond number woken t.work h) hh
  rcases hr : t.work.poll respond number woken h with ⟨work, h'⟩
  rw [hr] at hwork
  rcases t.poll_cases respond number woken h hr with
    ⟨result, -, heq⟩ | ⟨-, -, heq⟩ | ⟨-, hearly, heq⟩
  · rw [heq]
    exact hwork.forget number
  · rw [heq]
    have hforgotten := hwork.forget number
    exact ⟨hforgotten.claims, hforgotten.timers, hforgotten.woken⟩
  · rw [heq]
    rcases t.arm_cases number (t.due h.now) h' with harm | ⟨time, hdue, harm⟩
    · rw [harm]
      exact hwork
    · rw [harm]
      exact hwork.of_stroke trivial (.setTimer time (hearly time hdue))

theorem poll_watches {limit : Nat} (hlimit : t.limit = some limit) {h : Hub σ ℓ}
    (hw : h.Watches number t) (turn : Turn σ ℓ)
    (hnow : turn.hub.now = h.now) (htimers : turn.hub.timers = h.timers)
    (hgoing : (t.next respond number turn).ending = none) :
    (t.poll respond number turn.woken turn.hub).2.Watches number (t.next respond number turn) := by
  have hwork := Leaves.of_strokes (Work.poll_strokes respond number turn.woken t.work turn.hub)
  have hset := timers_of_strokes (Work.poll_strokes respond number turn.woken t.work turn.hub)
  rw [Task.next] at hgoing ⊢
  rcases hr : t.work.poll respond number turn.woken turn.hub with ⟨work, h'⟩
  rw [hr] at hwork hset
  rcases t.poll_cases respond number turn.woken turn.hub hr with
    ⟨result, -, heq⟩ | ⟨-, -, heq⟩ | ⟨-, hearly, heq⟩
  · rw [heq] at hgoing
    cases hgoing
  · rw [heq] at hgoing
    cases hgoing
  · rw [heq]
    cases hd : t.deadline with
    | none =>
      have hdue : t.due turn.hub.now = some (turn.hub.now + limit) := by
        simp [due, hd, hlimit]
      simp only [Watches, arm, hd, hdue]
      exact .inl (List.mem_append_right _ (List.mem_singleton.2 rfl))
    | some deadline =>
      have hdue : t.due turn.hub.now = some deadline := by simp [due, hd]
      have hlt : h'.now < deadline := hearly deadline hdue
      simp only [Watches, hd] at hw
      have htimer : (deadline, ⟨number, none⟩) ∈ h.timers := by
        refine hw.resolve_right fun hpast => ?_
        have hle := hpast.1
        rw [hwork.now, hnow] at hlt
        omega
      simp only [Watches, arm, hd, hdue]
      exact .inl (hset (htimers ▸ htimer))

omit [DecidableEq ℓ] in
theorem KeepsTo.early {limit : Nat} {turns : List (Turn σ ℓ)} (hk : t.KeepsTo limit turns)
    (hgoing : t.ending = none) : ∀ deadline ∈ t.deadline, ∀ turn ∈ turns, turn.time < deadline := by
  intro deadline hdeadline turn hturn
  have hlate : t.isLate turns = false := by
    have hending := hk.ending
    rw [hgoing, Work.endingAt] at hending
    cases hresult : t.work.ending? with
    | some result => simp [hresult] at hending
    | none => simpa [hresult] using hending
  cases hlast : turns.getLast? with
  | none =>
    rw [List.getLast?_eq_none_iff.1 hlast] at hturn
    cases hturn
  | some last =>
    rw [← List.dropLast_append_getLast? last hlast, List.mem_append, List.mem_singleton] at hturn
    rcases hturn with hbefore | rfl
    · exact hk.before deadline hdeadline turn hbefore
    · rw [isLate, Option.mem_def.1 hdeadline, hlast] at hlate
      simpa using hlate

theorem KeepsTo.next {limit : Nat} {turns : List (Turn σ ℓ)} (hk : t.KeepsTo limit turns)
    (hlimit : t.limit = some limit) (hgoing : t.ending = none) (turn : Turn σ ℓ) :
    (t.next respond number turn).limit = some limit ∧
      (t.next respond number turn).KeepsTo limit (turns ++ [turn]) := by
  have hnow := (Leaves.of_strokes
    (Work.poll_strokes respond number turn.woken t.work turn.hub)).now
  have hdue : t.due turn.hub.now = (turns ++ [turn]).head?.map (·.time + limit) := by
    rw [due, hk.deadline, hlimit]
    cases turns <;> rfl
  have hbefore : ∀ deadline ∈ t.due turn.hub.now, ∀ turn' ∈ turns, turn'.time < deadline := by
    intro deadline hdeadline turn' hturn'
    refine hk.early hgoing deadline ?_ turn' hturn'
    rw [hk.deadline]
    rw [hdue] at hdeadline
    cases turns with
    | nil => cases hturn'
    | cons first rest => exact hdeadline
  rw [Task.next]
  rcases hr : t.work.poll respond number turn.woken turn.hub with ⟨work, h'⟩
  rw [hr] at hnow
  rcases t.poll_cases respond number turn.woken turn.hub hr with
    ⟨result, hended, heq⟩ | ⟨hwork, ⟨time, htime, hle⟩, heq⟩ | ⟨hwork, hearly, heq⟩
  · rw [heq]
    refine ⟨hlimit, hdue, ?_, ?_⟩
    · rwa [List.dropLast_concat]
    · simp only [Work.endingAt, hended]
  · rw [heq]
    refine ⟨hlimit, hdue, ?_, ?_⟩
    · rwa [List.dropLast_concat]
    · have hlate : time ≤ turn.time := Nat.le_trans hle (Nat.le_of_eq hnow)
      simp [Work.endingAt, hwork, isLate, htime, hlate]
  · rw [heq]
    refine ⟨hlimit, hdue, ?_, ?_⟩
    · rwa [List.dropLast_concat]
    · rw [hnow] at hearly
      have hnot : ∀ time, t.due turn.hub.now = some time → ¬time ≤ turn.time :=
        fun time htime => Nat.not_le.2 (hearly time htime)
      cases htime : t.due turn.hub.now with
      | none => simp [Work.endingAt, hwork, isLate, hgoing]
      | some time => simp [Work.endingAt, hwork, isLate, hnot time htime, hgoing]

/-- Whatever turns a task has, it keeps to its limit. -/
theorem Becomes.keepsTo {t₀ : Task σ ℓ answer δ β} {limit : Nat} {turns : List (Turn σ ℓ)}
    (hlimit : t₀.limit = some limit) (hdeadline : t₀.deadline = none) (hgoing : t₀.ending = none)
    (hwork : t₀.work.ending? = none) (hb : t₀.Becomes respond number turns t) :
    t.limit = some limit ∧ t.KeepsTo limit turns := by
  induction hb with
  | start =>
    refine ⟨hlimit, hdeadline, ?_, ?_⟩
    · rw [hdeadline]
      exact nofun
    · simp [Work.endingAt, hwork, isLate, hdeadline, hgoing]
  | turn _ hrunning turn ih => exact ih.2.next respond number ih.1 hrunning turn

end Task

namespace Machine

variable [DecidableEq ℓ] (respond : Respond σ answer)

theorem pollTask_cases (m : Machine σ ℓ answer δ β) (number : Nat) :
    let turn := m.turnFor number
    (m.turnOf? number = none ∧ m.pollTask respond number = { m with hub := turn.hub }) ∨
    ∃ t, m.tasks[number]? = some t ∧ t.ending = none ∧ m.turnOf? number = some turn ∧
      m.pollTask respond number =
        ⟨(t.poll respond number turn.woken turn.hub).2,
          m.tasks.set number (t.next respond number turn)⟩ := by
  simp only [turnOf?, pollTask]
  cases hn : m.tasks[number]? with
  | none => exact .inl ⟨rfl, rfl⟩
  | some t =>
    cases hending : t.ending with
    | some ending =>
      refine .inl ⟨?_, ?_⟩
      · simp [hending]
      · simp [hending, turnFor]
    | none =>
      refine .inr ⟨t, rfl, hending, ?_, ?_⟩
      · simp [hending]
      · simp [hending, Task.next, turnFor]

end Machine

end GuildBot

import GuildBot.Proofs.Flow.Crowd
import GuildBot.Proofs.Flow.Lawful

/-!
# What a turn leaves to others

Tasks run side by side, and each may be abandoned at any time. A turn of one, or its end, leaves the
others with the locks that they have asked for and got, and with the turns that they are to have.
-/

namespace GuildBot

open Relation (ReflTransGen)

variable {σ ℓ γ : Type} [DecidableEq ℓ] {answer : γ → Type} {α δ β : Type}

namespace Hub

/-- A change of a hub that leaves a task with the locks that it has asked for, and with its turns. -/
structure LeavesAlone (task : Nat) (h h' : Hub σ ℓ) : Prop where
  count : ∀ n l, (h'.queue l).count ⟨task, some n⟩ = (h.queue l).count ⟨task, some n⟩
  grants : ∀ n l, h.grants l ⟨task, some n⟩ = true → h'.grants l ⟨task, some n⟩ = true
  heeded : ∀ n (o : Obstacle ℓ), o.Heeded h ⟨task, some n⟩ → o.Heeded h' ⟨task, some n⟩

namespace LeavesAlone

variable {task other : Nat} {h h' h'' : Hub σ ℓ}

theorem refl (task : Nat) (h : Hub σ ℓ) : LeavesAlone task h h :=
  ⟨fun _ _ => rfl, fun _ _ hg => hg, fun _ _ ho => ho⟩

theorem trans (hl : LeavesAlone task h h') (hl' : LeavesAlone task h' h'') :
    LeavesAlone task h h'' where
  count n l := (hl'.count n l).trans (hl.count n l)
  grants n l hg := hl'.grants n l (hl.grants n l hg)
  heeded n o ho := hl'.heeded n o (hl.heeded n o ho)

theorem of_queue (hqueue : ∀ l, h'.queue l = h.queue l) (hnow : h'.now = h.now)
    (hwoken : ∀ s ∈ h.woken, s.task = task → s ∈ h'.woken) (htimers : h.timers ⊆ h'.timers) :
    LeavesAlone task h h' := by
  have hgrants (l : ℓ) (s : Strand) : h'.grants l s = h.grants l s := by
    rw [Bool.eq_iff_iff, grants_iff, hqueue, ← grants_iff]
  refine ⟨fun n l => by rw [hqueue], fun n l hg => by rwa [hgrants], fun n o ho => ⟨?_, ?_⟩⟩
  · intro t ht hlt
    exact htimers (ho.timed t ht (hnow ▸ hlt))
  · intro hclear
    refine hwoken _ (ho.woken ?_) rfl
    cases o with
    | start => rfl
    | turn => rfl
    | time t => simpa [Progress.isClear, hnow] using hclear
    | lock l => simpa [Progress.isClear, hgrants] using hclear

theorem of_taskStrokes (hs : ReflTransGen (TaskStroke other) h h') (hne : other ≠ task) :
    LeavesAlone task h h' := by
  induction hs with
  | refl => exact refl task h
  | tail _ hstroke ih =>
    obtain ⟨i, hstroke⟩ := hstroke
    have hothers (n : Nat) : (⟨task, some n⟩ : Strand) ≠ ⟨other, some i⟩ := by
      intro heq
      exact hne (congrArg Strand.task heq).symm
    refine ih.trans ⟨?_, ?_, ?_⟩
    · exact fun n l => count_queue_of_stroke hstroke (hothers n) l
    · exact fun n l hg => grants_of_stroke hstroke (hothers n) hg
    · exact fun n o ho => ho.of_spares (hothers n) (.of_stroke hstroke)

theorem unwoken (h : Hub σ ℓ) (hne : other ≠ task) :
    LeavesAlone task h { h with woken := h.woken.filter fun s => s.task ≠ other } := by
  refine .of_queue (fun _ => rfl) rfl ?_ (List.Subset.refl _)
  intro s hs htask
  exact List.mem_filter.2 ⟨hs, by simpa [htask] using hne.symm⟩

theorem wake (h : Hub σ ℓ) (s : Strand) : LeavesAlone task h (h.wake s) :=
  .of_queue (fun l => queue_wake h s l) (wake_now h s) (fun _ hs _ => mem_woken_wake.2 (.inl hs))
    fun _ htimer => (wake_timers h s).symm ▸ htimer

theorem forget (h : Hub σ ℓ) (hne : other ≠ task) : LeavesAlone task h (h.forget other) := by
  have hkept (n : Nat) : decide ((⟨task, some n⟩ : Strand).task ≠ other) = true :=
    decide_eq_true hne.symm
  have hcount (n : Nat) (l : ℓ) :
      ((h.forget other).queue l).count ⟨task, some n⟩ = (h.queue l).count ⟨task, some n⟩ := by
    rw [queue_forget]
    exact List.count_filter (hkept n)
  refine ⟨hcount, fun n l hg => ?_, fun n o ho => ho.forget hne.symm⟩
  obtain ⟨hhead, hone⟩ := (grants_iff h l _).1 hg
  refine (grants_iff _ l _).2 ⟨?_, (hcount n l).trans hone⟩
  obtain ⟨rest, hqueue⟩ := List.head?_eq_some_iff.1 hhead
  rw [queue_forget, hqueue, List.filter_cons, if_pos (hkept n)]
  rfl

theorem arrive (h : Hub σ ℓ) {time : Nat} (hlater : h.now ≤ time) :
    LeavesAlone task h (h.arrive time) := by
  refine ⟨fun n l => by rw [queue_arrive], fun n l hg => ?_, fun n o ho => ho.arrive hlater⟩
  rwa [grants_iff, queue_arrive, ← grants_iff]

theorem setState (h : Hub σ ℓ) (state : σ) : LeavesAlone task h { h with state } :=
  .of_queue (fun _ => rfl) rfl (fun _ hs _ => hs) (List.Subset.refl _)

theorem arm (t : Task σ ℓ answer δ β) (number : Nat) (due : Option Nat) (h : Hub σ ℓ) :
    LeavesAlone task h (t.arm number due h) := by
  rcases t.arm_cases number due h with heq | ⟨time, -, heq⟩
  · rw [heq]
    exact .refl task h
  · rw [heq]
    exact .of_queue (fun _ => rfl) rfl (fun _ hs _ => hs) (List.subset_append_left _ _)

end LeavesAlone

private theorem mem_claims_of_taskStrokes {task : Nat} {h h' : Hub σ ℓ}
    (hs : ReflTransGen (TaskStroke task) h h') {claim : ℓ × Strand} (hc : claim ∈ h'.claims) :
    claim ∈ h.claims ∨ ∃ n, claim.2 = ⟨task, some n⟩ := by
  induction hs with
  | refl => exact .inl hc
  | tail _ hstroke ih =>
    obtain ⟨n, hstroke⟩ := hstroke
    rcases hstroke.mem_claims hc with hc | hme
    · exact ih hc
    · exact .inr ⟨n, hme⟩

end Hub

open Hub

namespace Work

variable {rules : Rules σ ℓ} {task : Nat} {h h' : Hub σ ℓ} {work : Work σ ℓ answer δ β}

theorem Obeys.of_leavesAlone (hw : work.Obeys rules h task) (hl : LeavesAlone task h h') :
    work.Obeys rules h' task :=
  hw.of_count hl.count hl.grants

theorem Heeded.of_leavesAlone (hw : work.Heeded h task) (hl : LeavesAlone task h h') :
    work.Heeded h' task :=
  hw.imp hl.heeded

end Work

namespace Task

variable {respond : Respond σ answer} {number other : Nat} {h : Hub σ ℓ} {t : Task σ ℓ answer δ β}

/-- The turn of a task leaves the others alone. -/
theorem poll_leavesAlone (hne : number ≠ other) (named : List Nat) :
    LeavesAlone other h (t.poll respond number named h).2 := by
  have hwork := LeavesAlone.of_taskStrokes (Work.poll_strokes respond number named t.work h) hne
  rcases hr : t.work.poll respond number named h with ⟨work, h'⟩
  rw [hr] at hwork
  rcases t.poll_cases respond number named h hr with ⟨result, -, heq⟩ | ⟨-, -, heq⟩ | ⟨-, -, heq⟩
  · rw [heq]
    exact hwork.trans (.forget h' hne)
  · rw [heq]
    exact (hwork.trans (.forget h' hne)).trans (.setState _ _)
  · rw [heq]
    exact hwork.trans (.arm t number _ h')

theorem mem_claims_poll (ht : t.ending = none) {named : List Nat} {claim : ℓ × Strand}
    (hc : claim ∈ (t.poll respond number named h).2.claims) :
    (claim ∈ h.claims ∨ ∃ n, claim.2 = ⟨number, some n⟩) ∧
      ((t.poll respond number named h).1.ending ≠ none → claim.2.task ≠ number) := by
  have hstrokes := Work.poll_strokes respond number named t.work h
  rcases hr : t.work.poll respond number named h with ⟨work, h'⟩
  rw [hr] at hstrokes
  have hforgotten (hc : claim ∈ (h'.forget number).claims) :
      claim ∈ h'.claims ∧ claim.2.task ≠ number := by
    rw [forget_claims, List.mem_filter] at hc
    exact ⟨hc.1, by simpa using hc.2⟩
  rcases t.poll_cases respond number named h hr with
    ⟨result, -, heq⟩ | ⟨-, -, heq⟩ | ⟨hgoing, -, heq⟩
  · rw [heq] at hc ⊢
    obtain ⟨hmem, hother⟩ := hforgotten hc
    exact ⟨mem_claims_of_taskStrokes hstrokes hmem, fun _ => hother⟩
  · rw [heq] at hc ⊢
    obtain ⟨hmem, hother⟩ := hforgotten hc
    exact ⟨mem_claims_of_taskStrokes hstrokes hmem, fun _ => hother⟩
  · rw [heq] at hc ⊢
    rw [arm_claims] at hc
    exact ⟨mem_claims_of_taskStrokes hstrokes hc, fun hended => absurd ht hended⟩

end Task

end GuildBot

import GuildBot.Flow.Waiting
import GuildBot.Proofs.Flow.Apart
import GuildBot.Proofs.Flow.LockFree

/-!
# Tasks that behave

A task behaves that obeys rules, is heeded, and asks for locks through one strand. Where all tasks of a
machine behave and only they ask for locks, that stays so, whichever of them have turns or are abandoned.
-/

namespace GuildBot

variable {σ ℓ γ : Type} [DecidableEq ℓ] {answer : γ → Type} {α δ β : Type}

open Hub

/-- Whether a task that goes on obeys the rules, is heeded, and asks for locks through one strand. -/
structure Task.Behaves (rules : Rules σ ℓ) (I : σ → Prop) (respond : Respond σ answer) (h : Hub σ ℓ)
    (number : Nat) (t : Task σ ℓ answer δ β) : Prop where
  obeys : t.work.Obeys rules h number
  heeded : t.work.Heeded h number
  oneTaker : t.work.HasOneTaker I respond

namespace Task.Behaves

variable {rules : Rules σ ℓ} {I : σ → Prop} {respond : Respond σ answer} {number : Nat}
  {h h' : Hub σ ℓ} {t : Task σ ℓ answer δ β}

theorem of_leavesAlone (ht : t.Behaves rules I respond h number)
    (hl : LeavesAlone number h h') : t.Behaves rules I respond h' number :=
  ⟨ht.obeys.of_leavesAlone hl, ht.heeded.of_leavesAlone hl, ht.oneTaker⟩

theorem start (hclaims : ∀ n, h.Claims ⟨number, some n⟩ []) (hwoken : ⟨number, some 0⟩ ∈ h.woken)
    {lead : Program σ ℓ answer (Plan σ ℓ answer δ β)} (hlead : lead.Obeys rules [] (Plan.Obeys rules) [])
    (htaker : lead.Keeps I respond Plan.HasOneTaker) (hwork : t.work = .ofPlan lead) :
    t.Behaves rules I respond h number := by
  refine ⟨?_, ?_, ?_⟩
  · rw [hwork]
    exact ⟨.start hlead (hclaims 0), fun n _ => hclaims n⟩
  · rw [hwork]
    exact ⟨nofun, fun _ => hwoken⟩
  · rw [hwork]
    exact htaker

theorem start_program (hclaims : ∀ n, h.Claims ⟨number, some n⟩ [])
    (hwoken : ⟨number, some 0⟩ ∈ h.woken) {f : Program σ ℓ answer β}
    (hf : f.Obeys rules [] (fun _ => True) []) (hwork : t.work = .ofProgram f) :
    t.Behaves rules I respond h number := by
  refine ⟨?_, ?_, ?_⟩
  · rw [hwork]
    exact ⟨.start hf (hclaims 0), fun n _ => hclaims n⟩
  · rw [hwork]
    exact ⟨nofun, fun _ => hwoken⟩
  · rw [hwork]
    trivial

/-- A task that goes on after its turn still behaves. -/
theorem poll (ht : t.Behaves rules I respond h number) {named : List Nat}
    (hnamed : ∀ n, ⟨number, some n⟩ ∈ h.woken → n ∈ named) (others : List Strand) (hI : I h.state)
    (hgoing : (t.poll respond number named { h with woken := others }).1.ending = none) :
    let r := t.poll respond number named { h with woken := others }
    r.1.Behaves rules I respond r.2 number := by
  have hobeys : t.work.Obeys rules { h with woken := others } number := ht.obeys.of_queue fun _ => rfl
  have hobeys' := hobeys.poll respond named
  have htaker := ht.oneTaker.poll number (h := { h with woken := others }) named hI
  have hheeded := Work.poll_heeded respond number ht.heeded hnamed others
  rcases hr : t.work.poll respond number named { h with woken := others } with ⟨work, h'⟩
  rw [hr] at hobeys' htaker hheeded
  rcases t.poll_cases respond number named { h with woken := others } hr with
    ⟨result, -, heq⟩ | ⟨-, -, heq⟩ | ⟨hworks, -, heq⟩
  · rw [heq] at hgoing
    cases hgoing
  · rw [heq] at hgoing
    cases hgoing
  · rw [heq]
    have hbehaves : Behaves rules I respond h' number
        { t with work, deadline := t.due h.now } := ⟨hobeys', (hheeded hworks).1, htaker⟩
    exact hbehaves.of_leavesAlone (.arm t number _ h')

end Task.Behaves

namespace Machine

variable {m : Machine σ ℓ answer δ β} {number other : Nat} {t t' : Task σ ℓ answer δ β}

omit [DecidableEq ℓ] in
private theorem going?_eq_some_iff :
    m.going? number = some t ↔ m.tasks[number]? = some t ∧ t.ending = none := by
  rw [going?, Option.filter_eq_some_iff, Option.isNone_iff_eq_none]

omit [DecidableEq ℓ] in
private theorem going?_set_self (ht : m.going? number = some t) (h' : Hub σ ℓ) :
    (⟨h', m.tasks.set number t'⟩ : Machine σ ℓ answer δ β).going? number =
      if t'.ending.isNone then some t' else none := by
  obtain ⟨hlen, -⟩ := List.getElem?_eq_some_iff.1 (going?_eq_some_iff.1 ht).1
  rw [going?, List.getElem?_set_self hlen]
  rfl

omit [DecidableEq ℓ] in
private theorem going?_set_ne (hne : number ≠ other) (h' : Hub σ ℓ) :
    (⟨h', m.tasks.set number t'⟩ : Machine σ ℓ answer δ β).going? other = m.going? other := by
  rw [going?, going?, List.getElem?_set_ne hne]

omit [DecidableEq ℓ] in
private theorem lt_of_going? (ht : (m.going? number).isSome = true) : number < m.tasks.length := by
  obtain ⟨t, ht⟩ := Option.isSome_iff_exists.1 ht
  exact (List.getElem?_eq_some_iff.1 (going?_eq_some_iff.1 ht).1).1

private theorem going?_spawn_of_lt (hlt : number < m.tasks.length) :
    (m.spawn t).going? number = m.going? number := by
  rw [going?, going?, Machine.spawn, List.getElem?_append_left hlt]

private theorem going?_of_spawn (hgoing : (m.spawn t).going? number = some t') :
    number = m.tasks.length ∧ t' = t ∨ m.going? number = some t' := by
  have hlt := lt_of_going? (Option.isSome_of_eq_some hgoing)
  rw [Machine.spawn, List.length_append, List.length_singleton] at hlt
  by_cases hnew : number = m.tasks.length
  · rw [going?_eq_some_iff, hnew, Machine.spawn, List.getElem?_concat_length] at hgoing
    exact .inl ⟨hnew, (Option.some.inj hgoing.1).symm⟩
  · right
    rwa [going?_spawn_of_lt (by omega)] at hgoing

section

variable (respond : Respond σ answer)

private theorem pollTask_of_none (hnone : m.going? number = none) :
    m.pollTask respond number =
      { m with hub := { m.hub with woken := m.hub.woken.filter fun s => s.task ≠ number } } := by
  unfold Machine.pollTask
  cases htask : m.tasks[number]? with
  | none => rfl
  | some t =>
    have hended : t.ending.isSome = true := by
      rw [← Option.not_isNone, Bool.not_eq_true', Bool.eq_false_iff]
      intro hgoing
      rw [going?_eq_some_iff.2 ⟨htask, Option.isNone_iff_eq_none.1 hgoing⟩] at hnone
      cases hnone
    exact if_pos hended

private theorem pollTask_of_going (ht : m.going? number = some t) :
    let r := t.poll respond number
      ((m.hub.woken.filter fun s => s.task = number).filterMap (·.branch))
      { m.hub with woken := m.hub.woken.filter fun s => s.task ≠ number }
    m.pollTask respond number = ⟨r.2, m.tasks.set number r.1⟩ := by
  obtain ⟨htask, hgoing⟩ := going?_eq_some_iff.1 ht
  unfold Machine.pollTask
  simp only [htask, hgoing]
  rfl

end

/-- Whether all tasks that go on behave, and only they ask for locks. -/
structure Behaves (rules : Rules σ ℓ) (I : σ → Prop) (respond : Respond σ answer)
    (m : Machine σ ℓ answer δ β) : Prop where
  keeps : m.Keeps I respond
  tasks : ∀ number t, m.going? number = some t → t.Behaves rules I respond m.hub number
  claims : ∀ claim ∈ m.hub.claims,
    (m.going? claim.2.task).isSome = true ∧ claim.2.branch.isSome = true

namespace Behaves

variable {rules : Rules σ ℓ} {I : σ → Prop} {respond : Respond σ answer}

theorem ofState {state : σ} (hI : I state) :
    (Machine.ofState state : Machine σ ℓ answer δ β).Behaves rules I respond :=
  ⟨⟨hI, nofun⟩, fun number t ht => by simp [going?, Machine.ofState] at ht, nofun⟩

/-- A strand of a task that does not go on has asked for no lock. -/
theorem claims_nil (hm : m.Behaves rules I respond) (hnone : m.going? number = none)
    (branch : Option Nat) : m.hub.Claims ⟨number, branch⟩ [] := by
  intro l
  rw [List.count_nil, List.count_eq_zero]
  intro hmem
  obtain ⟨claim, hclaim, hstrand⟩ := List.mem_map.1 hmem
  obtain ⟨hgoing, -⟩ := hm.claims claim (List.mem_filter.1 hclaim).1
  rw [hstrand, hnone] at hgoing
  cases hgoing

private theorem of_change (hm : m.Behaves rules I respond) (ht : m.going? number = some t) {h' : Hub σ ℓ}
    (hkeeps : (⟨h', m.tasks.set number t'⟩ : Machine σ ℓ answer δ β).Keeps I respond)
    (hothers : ∀ other, number ≠ other → LeavesAlone other m.hub h')
    (hown : t'.ending = none → t'.Behaves rules I respond h' number)
    (hclaims : ∀ claim ∈ h'.claims, (claim ∈ m.hub.claims ∨ ∃ n, claim.2 = ⟨number, some n⟩) ∧
      (t'.ending ≠ none → claim.2.task ≠ number)) :
    (⟨h', m.tasks.set number t'⟩ : Machine σ ℓ answer δ β).Behaves rules I respond := by
  refine ⟨hkeeps, fun other u hu => ?_, fun claim hclaim => ?_⟩
  · by_cases hne : number = other
    · subst hne
      rw [going?_set_self ht] at hu
      split at hu
      · next hgoing =>
        obtain rfl := Option.some.inj hu
        exact hown (Option.isNone_iff_eq_none.1 hgoing)
      · cases hu
    · rw [going?_set_ne hne] at hu
      exact (hm.tasks other u hu).of_leavesAlone (hothers other hne)
  · obtain ⟨hmem, hended⟩ := hclaims claim hclaim
    by_cases hne : number = claim.2.task
    · rw [← hne, going?_set_self ht]
      have hgoing : t'.ending.isNone = true :=
        Option.isNone_iff_eq_none.2 (Classical.byContradiction fun h => hended h hne.symm)
      rw [if_pos hgoing]
      refine ⟨rfl, ?_⟩
      rcases hmem with hmem | ⟨n, hstrand⟩
      · exact (hm.claims claim hmem).2
      · rw [hstrand]
        rfl
    · rw [going?_set_ne hne]
      rcases hmem with hmem | ⟨n, hstrand⟩
      · exact hm.claims claim hmem
      · exact absurd (congrArg Strand.task hstrand).symm hne

theorem of_hub (hm : m.Behaves rules I respond) {h' : Hub σ ℓ} (hI : I h'.state)
    (hothers : ∀ other, m.going? other ≠ none → LeavesAlone other m.hub h')
    (hclaims : h'.claims = m.hub.claims) : ({ m with hub := h' }).Behaves rules I respond := by
  refine ⟨⟨hI, hm.keeps.tasks⟩, fun other u hu => ?_, ?_⟩
  · have hu' : m.going? other = some u := hu
    exact (hm.tasks other u hu').of_leavesAlone (hothers other (by rw [hu']; simp))
  · rw [hclaims]
    exact hm.claims

theorem spawn (hm : m.Behaves rules I respond) (ht : t.Keeps I respond)
    (hbegins : ∀ h : Hub σ ℓ, (∀ n, h.Claims ⟨m.tasks.length, some n⟩ []) →
      ⟨m.tasks.length, some 0⟩ ∈ h.woken → t.Behaves rules I respond h m.tasks.length) :
    (m.spawn t).Behaves rules I respond := by
  have hnew : m.going? m.tasks.length = none := by
    rw [going?, List.getElem?_eq_none (Nat.le_refl _)]
    rfl
  refine ⟨hm.keeps.spawn ht, fun other u hu => ?_, fun claim hclaim => ?_⟩
  · rcases going?_of_spawn hu with ⟨rfl, rfl⟩ | hold
    · refine hbegins _ (fun n l => ?_) (mem_woken_wake.2 (.inr rfl))
      exact (congrArg (List.count _) (queue_wake m.hub _ l)).trans (hm.claims_nil hnew (some n) l)
    · exact (hm.tasks other u hold).of_leavesAlone (.wake m.hub _)
  · have hclaim' : claim ∈ m.hub.claims := wake_claims m.hub ⟨m.tasks.length, some 0⟩ ▸ hclaim
    obtain ⟨hgoing, hbranch⟩ := hm.claims claim hclaim'
    exact ⟨(going?_spawn_of_lt (lt_of_going? hgoing)).symm ▸ hgoing, hbranch⟩

theorem pollTask (hm : m.Behaves rules I respond) (number : Nat) :
    (m.pollTask respond number).Behaves rules I respond := by
  have hkeeps := hm.keeps.pollTask number
  cases ht : m.going? number with
  | none =>
    rw [pollTask_of_none respond ht]
    refine hm.of_hub hm.keeps.holds (fun other hother => .unwoken m.hub ?_) rfl
    rintro rfl
    exact hother ht
  | some t =>
    let named := (m.hub.woken.filter fun s => s.task = number).filterMap (·.branch)
    let others := m.hub.woken.filter fun s => s.task ≠ number
    have hnamed : ∀ n, ⟨number, some n⟩ ∈ m.hub.woken → n ∈ named := by
      intro n hn
      exact List.mem_filterMap.2 ⟨_, List.mem_filter.2 ⟨hn, decide_eq_true rfl⟩, rfl⟩
    rw [pollTask_of_going respond ht] at hkeeps ⊢
    refine hm.of_change ht hkeeps ?_ ?_ ?_
    · intro other hne
      exact (LeavesAlone.unwoken m.hub hne).trans (Task.poll_leavesAlone hne named)
    · exact (hm.tasks number t ht).poll hnamed others hm.keeps.holds
    · intro claim hc
      exact Task.mem_claims_poll (h := { m.hub with woken := others })
        (going?_eq_some_iff.1 ht).2 hc

theorem abandon (hm : m.Behaves rules I respond) (number : Nat) :
    (m.abandon number).Behaves rules I respond := by
  unfold Machine.abandon
  split
  · exact hm
  · next t htask =>
    split
    · exact hm
    · next hgoing =>
      have ht : m.going? number = some t :=
        going?_eq_some_iff.2 ⟨htask, Option.not_isSome_iff_eq_none.1 hgoing⟩
      have hkept := hm.keeps.tasks t (List.mem_of_getElem? htask)
      refine hm.of_change ht ⟨hkept.onTimeout _ hm.keeps.holds, fun u hu => ?_⟩ ?_ ?_ ?_
      · rcases List.mem_or_eq_of_mem_set hu with hu | rfl
        · exact hm.keeps.tasks u hu
        · exact ⟨hkept.work, hkept.onTimeout⟩
      · exact fun other hne => (LeavesAlone.forget m.hub hne).trans (.setState _ _)
      · intro hgoing
        cases hgoing
      · intro claim hclaim
        have hclaim' : claim ∈ (m.hub.forget number).claims := hclaim
        rw [forget_claims, List.mem_filter] at hclaim'
        exact ⟨.inl hclaim'.1, fun _ => by simpa using hclaim'.2⟩

theorem arrive (hm : m.Behaves rules I respond) {time : Nat} (hlater : m.hub.now ≤ time) :
    ({ m with hub := m.hub.arrive time }).Behaves rules I respond :=
  hm.of_hub (by simpa using hm.keeps.holds) (fun _ _ => .arrive m.hub hlater)
    (arrive_claims m.hub time)

theorem setState (hm : m.Behaves rules I respond) {state : σ} (hI : I state) :
    ({ m with hub := { m.hub with state } }).Behaves rules I respond :=
  hm.of_hub hI (fun _ _ => .setState m.hub state) rfl

end Behaves

end Machine

end GuildBot

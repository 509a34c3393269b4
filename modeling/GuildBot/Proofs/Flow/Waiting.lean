import GuildBot.Proofs.Flow.MachineBehaves

/-!
# Nobody waits in a circle

In a machine whose tasks behave, whoever waits for a lock waits in the end for somebody who can go on:
the locks that are waited for rise from one who waits to the next, and there is a last one.
-/

namespace GuildBot

open Relation (TransGen)

variable {σ ℓ γ : Type} [DecidableEq ℓ] {answer : γ → Type} {α δ β : Type}

open Hub

/-- How a strand stands that has asked for locks: it has got them all and waits for something else, or it
waits for the last of them, which ranks above the others. -/
inductive Hub.Stands (rank : ℓ → Nat) (h : Hub σ ℓ) (s : Strand) : Obstacle ℓ → Prop where
  | free (o : Obstacle ℓ) (ho : ∀ l, o ≠ .lock l)
    (hgranted : ∀ l, s ∈ h.queue l → h.grants l s = true) : Stands rank h s o
  | queued (l : ℓ) (held : List ℓ) (hclaims : h.Claims s (held ++ [l]))
    (habove : ∀ k ∈ held, rank k < rank l) : Stands rank h s (.lock l)

namespace Progress

variable {rules : Rules σ ℓ} {Q : α → Prop} {h : Hub σ ℓ} {s : Strand} {p : Progress σ ℓ answer α}

theorem Obeys.stands (hp : p.Obeys rules Q h s) {o : Obstacle ℓ} (ho : p.obstacle? = some o) :
    h.Stands rules.rank s o := by
  cases hp with
  | free held hfree hclaims hheld hrest =>
    obtain rfl := Option.some.inj ho
    exact .free _ hfree fun l hmem => hheld l (hclaims.mem_iff.1 hmem)
  | queued held hclaims hheld habove hrest =>
    obtain rfl := Option.some.inj ho
    exact .queued _ held hclaims habove
  | value hclaims ha => cases ho
  | panicked hclaims => cases ho

private theorem Obeys.exists_obstacle (hp : p.Obeys rules Q h s) {l : ℓ} (hmem : s ∈ h.queue l) :
    ∃ o, p.obstacle? = some o := by
  cases hp with
  | free held hfree hclaims hheld hrest => exact ⟨_, rfl⟩
  | queued held hclaims hheld habove hrest => exact ⟨_, rfl⟩
  | value hclaims ha => exact absurd hmem hclaims.not_mem
  | panicked hclaims => exact absurd hmem hclaims.not_mem

theorem Heeded.obstacle (hp : p.Heeded h s) {o : Obstacle ℓ} (ho : p.obstacle? = some o) :
    o.Heeded h s := by
  cases p with
  | ended result => cases ho
  | waiting obstacle rest =>
    obtain rfl := Option.some.inj ho
    exact hp

end Progress

namespace Work

variable {rules : Rules σ ℓ} {task n : Nat} {h : Hub σ ℓ} {work : Work σ ℓ answer δ β}

theorem Obeys.stands (hw : work.Obeys rules h task) (hheeded : work.Heeded h task) {o : Obstacle ℓ}
    (ho : work.obstacle? n = some o) :
    h.Stands rules.rank ⟨task, some n⟩ o ∧ o.Heeded h ⟨task, some n⟩ := by
  cases work with
  | fan ps close =>
    obtain ⟨p, hp, ho⟩ := Option.bind_eq_some_iff.1 ho
    exact ⟨(hw.1.branches n p hp).stands ho, (hheeded n p hp).obstacle ho⟩
  | lead p =>
    rw [obstacle?] at ho
    split at ho
    · next hn =>
      subst hn
      exact ⟨hw.first.stands ho, Progress.Heeded.obstacle hheeded ho⟩
    · cases ho
  | closing p =>
    rw [obstacle?] at ho
    split at ho
    · next hn =>
      subst hn
      exact ⟨hw.first.stands ho, Progress.Heeded.obstacle hheeded ho⟩
    · cases ho

private theorem Obeys.exists_obstacle (hw : work.Obeys rules h task) {l : ℓ}
    (hmem : ⟨task, some n⟩ ∈ h.queue l) : ∃ o, work.obstacle? n = some o := by
  have hfirst {α : Type} {Q : α → Prop} {p : Progress σ ℓ answer α}
      (hp : FirstObeys rules Q h task p) : ∃ o, (if n = 0 then p.obstacle? else none) = some o := by
    by_cases hn : n = 0
    · subst hn
      exact hp.first.exists_obstacle hmem
    · exact absurd hmem (hp.others n hn).not_mem
  cases work with
  | lead p => exact hfirst hw
  | closing p => exact hfirst hw
  | fan ps close =>
    cases hp : ps[n]? with
    | none => exact absurd hmem (hw.1.others n hp).not_mem
    | some p =>
      obtain ⟨o, ho⟩ := (hw.1.branches n p hp).exists_obstacle hmem
      exact ⟨o, Option.bind_eq_some_iff.2 ⟨p, hp, ho⟩⟩

end Work

namespace Machine.Behaves

variable {m : Machine σ ℓ answer δ β} {rules : Rules σ ℓ} {I : σ → Prop} {respond : Respond σ answer}
  {s s' : Strand} {l : ℓ}

private theorem exists_obstacle (hm : m.Behaves rules I respond) (hmem : s ∈ m.hub.queue l) :
    ∃ t n o, m.going? s.task = some t ∧ s.branch = some n ∧ m.obstacle? s = some o := by
  obtain ⟨claim, hclaim, rfl⟩ := List.mem_map.1 hmem
  obtain ⟨hgoing, hbranch⟩ := hm.claims claim (List.mem_filter.1 hclaim).1
  obtain ⟨t, ht⟩ := Option.isSome_iff_exists.1 hgoing
  obtain ⟨n, hn⟩ := Option.isSome_iff_exists.1 hbranch
  have hmem' : ⟨claim.2.task, some n⟩ ∈ m.hub.queue l := by
    rw [← hn]
    exact hmem
  obtain ⟨o, ho⟩ := (hm.tasks _ t ht).obeys.exists_obstacle hmem'
  refine ⟨t, n, o, ht, hn, ?_⟩
  rw [obstacle?, ht, hn]
  exact ho

theorem stands (hm : m.Behaves rules I respond) {o : Obstacle ℓ} (ho : m.obstacle? s = some o) :
    m.hub.Stands rules.rank s o ∧ o.Heeded m.hub s := by
  obtain ⟨task, branch⟩ := s
  obtain ⟨t, ht, ho⟩ := Option.bind_eq_some_iff.1 ho
  obtain ⟨n, hn, ho⟩ := Option.bind_eq_some_iff.1 ho
  obtain rfl : branch = some n := hn
  exact (hm.tasks task t ht).obeys.stands (hm.tasks task t ht).heeded ho

/-- A task stands in queues through one strand. -/
theorem eq_of_mem (hm : m.Behaves rules I respond) {k : ℓ} (hs : s ∈ m.hub.queue l)
    (hs' : s' ∈ m.hub.queue k) (htask : s.task = s'.task) : s = s' := by
  obtain ⟨t, n, -, ht, hn, -⟩ := hm.exists_obstacle hs
  obtain ⟨-, n', -, -, hn', -⟩ := hm.exists_obstacle hs'
  obtain ⟨task, branch⟩ := s
  obtain ⟨task', branch'⟩ := s'
  obtain rfl : task = task' := htask
  obtain rfl : branch = some n := hn
  obtain rfl : branch' = some n' := hn'
  have heq : n = n' := (hm.tasks task t ht).oneTaker.eq_of_mem task (hm.tasks task t ht).obeys hs hs'
  rw [heq]

private theorem mem_queue_of_waitsFor (hm : m.Behaves rules I respond) (hw : m.WaitsFor s l) :
    s ∈ m.hub.queue l := by
  obtain ⟨hstands, -⟩ := hm.stands hw.1
  cases hstands with
  | free o ho hgranted => exact absurd rfl (ho l)
  | queued l held hclaims habove => exact hclaims.mem_iff.2 (by simp)

private theorem holds_of_grants (hg : m.hub.grants l s = true) : m.Holds s l := by
  rw [Holds, holder?_eq]
  exact ((grants_iff _ _ _).1 hg).1

private theorem goes_on_of_holds (hm : m.Behaves rules I respond) (hmem : s ∈ m.hub.queue l)
    {o : Obstacle ℓ} (ho : m.obstacle? s = some o)
    (hfree : ∀ k, o = .lock k → m.hub.grants k s = true) :
    (∀ n k, ¬m.WaitsFor ⟨s.task, some n⟩ k) ∧ (m.IsCalling s ∨ m.IsReady s) := by
  obtain ⟨-, hheeded⟩ := hm.stands ho
  refine ⟨fun n k hw => ?_, ?_⟩
  · have heq : s = ⟨s.task, some n⟩ := hm.eq_of_mem hmem (hm.mem_queue_of_waitsFor hw) rfl
    rw [← heq] at hw
    have hdenied := hw.2
    rw [hfree k (Option.some.inj (ho.symm.trans hw.1))] at hdenied
    cases hdenied
  · by_cases hclear : Progress.isClear m.hub s o = true
    · exact .inr ⟨⟨o, ho, hclear⟩, hheeded.woken hclear⟩
    · cases o with
      | start => exact absurd rfl hclear
      | turn => exact absurd rfl hclear
      | lock k => exact absurd (hfree k rfl) hclear
      | time t =>
        have hlt : m.hub.now < t := by simpa [Progress.isClear] using hclear
        exact .inl ⟨t, ho, hheeded.timed t rfl hlt⟩

/-- If anybody waits for a lock, then somebody holds one whose task waits for none and can go on. -/
theorem goes_on (hm : m.Behaves rules I respond) (hw : m.WaitsFor s l) :
    ∃ s' k, m.Holds s' k ∧ (∀ n j, ¬m.WaitsFor ⟨s'.task, some n⟩ j) ∧
      (m.IsCalling s' ∨ m.IsReady s') := by
  by_contra hnone
  have hstuck : ∀ s l, s ∈ m.hub.queue l → ∃ k held, m.hub.Stuck rules.rank s k held := by
    intro s l hmem
    obtain ⟨-, -, o, -, -, ho⟩ := hm.exists_obstacle hmem
    obtain ⟨hstands, -⟩ := hm.stands ho
    cases hstands with
    | free o hfree hgranted =>
      have hgoes := hm.goes_on_of_holds hmem ho fun k hk => absurd hk (hfree k)
      exact absurd ⟨s, l, holds_of_grants (hgranted l hmem), hgoes⟩ hnone
    | queued k held hclaims habove =>
      by_cases hg : m.hub.grants k s = true
      · have hgoes := hm.goes_on_of_holds hmem ho fun j hj => by
          cases hj
          exact hg
        exact absurd ⟨s, k, holds_of_grants hg, hgoes⟩ hnone
      · exact ⟨k, held, hclaims, habove, by simpa using hg⟩
  have hmem := hm.mem_queue_of_waitsFor hw
  rw [queue_eq_nil_of_stuck rules.rank hstuck l] at hmem
  cases hmem

private theorem eq_of_waitsFor (hm : m.Behaves rules I respond) {k : ℓ} (hw : m.WaitsFor s l)
    (hw' : m.WaitsFor s' k) (htask : s.task = s'.task) : l = k := by
  obtain rfl := hm.eq_of_mem (hm.mem_queue_of_waitsFor hw) (hm.mem_queue_of_waitsFor hw') htask
  exact Obstacle.lock.inj (Option.some.inj (hw.1.symm.trans hw'.1))

private theorem rank_lt_of_holds (hm : m.Behaves rules I respond) {k : ℓ} (hh : m.Holds s l)
    (hw : m.WaitsFor s' k) (htask : s.task = s'.task) : rules.rank l < rules.rank k := by
  rw [Holds, holder?_eq] at hh
  have hmem : s ∈ m.hub.queue l := List.mem_of_mem_head? hh
  obtain rfl := hm.eq_of_mem hmem (hm.mem_queue_of_waitsFor hw) htask
  obtain ⟨hstands, -⟩ := hm.stands hw.1
  cases hstands with
  | free o ho hgranted => exact absurd rfl (ho k)
  | queued k held hclaims habove =>
    rcases List.mem_append.1 (hclaims.mem_iff.1 hmem) with hheld | hlast
    · exact habove l hheld
    · -- Were it the lock that is waited for, the holder would have it.
      obtain rfl := List.mem_singleton.1 hlast
      have hcount : (m.hub.queue l).count s = 1 := by
        rw [hclaims l, List.count_append, List.count_eq_zero.2, List.count_singleton_self]
        exact fun hheld => Nat.lt_irrefl _ (habove l hheld)
      have hgrants : m.hub.grants l s = true := (grants_iff _ _ _).2 ⟨hh, hcount⟩
      have hdenied := hw.2
      rw [hgrants] at hdenied
      cases hdenied

/-- Along those who block one another the locks that are waited for rise. -/
private theorem exists_rank_lt_of_blocked (hm : m.Behaves rules I respond) {task other : Nat}
    (hblocked : TransGen m.BlockedBy task other) (hother : s'.task = other)
    (hw : m.WaitsFor s' l) :
    ∃ s k, s.task = task ∧ m.WaitsFor s k ∧ rules.rank k < rules.rank l := by
  have hclimb {t t' : Nat} {s' : Strand} {l : ℓ} (hb : m.BlockedBy t t') (ht' : s'.task = t')
      (hw : m.WaitsFor s' l) : ∃ s k, s.task = t ∧ m.WaitsFor s k ∧ rules.rank k < rules.rank l := by
    obtain ⟨s, u, k, hs, hu, hwaits, hholds⟩ := hb
    exact ⟨s, k, hs, hwaits, hm.rank_lt_of_holds hholds hw (hu.trans ht'.symm)⟩
  induction hblocked generalizing s' l with
  | single hb => exact hclimb hb hother hw
  | tail _ hb ih =>
    obtain ⟨u, j, hu, hwaits, hlt⟩ := hclimb hb hother hw
    obtain ⟨s, k, hs, hfirst, hlt'⟩ := ih hu hwaits
    exact ⟨s, k, hs, hfirst, hlt'.trans hlt⟩

/-- Nobody waits in a circle. -/
theorem not_blocked_by_self (hm : m.Behaves rules I respond) (task : Nat) :
    ¬TransGen m.BlockedBy task task := by
  intro hblocked
  obtain ⟨other, ⟨s, s', l, hs, -, hw, -⟩, -⟩ := TransGen.head'_iff.1 hblocked
  obtain ⟨u, k, hu, hw', hlt⟩ := hm.exists_rank_lt_of_blocked hblocked hs hw
  rw [hm.eq_of_waitsFor hw hw' (hs.trans hu.symm)] at hlt
  exact Nat.lt_irrefl _ hlt

end Machine.Behaves

end GuildBot

import GuildBot.Proofs.Flow.Wakeup

/-!
# Programs that obey rules

The rules rank the locks and say which changes of the state are allowed. A program that obeys them asks
for a lock only while all locks that it holds rank below it, and gives back what it took. However many
such programs run side by side, they are never all stuck.
-/

namespace GuildBot

open Relation (ReflTransGen)

variable {σ ℓ γ : Type} [DecidableEq ℓ] {answer : γ → Type} {α β δ : Type}

/-- What programs that run side by side have to obey. -/
structure Rules (σ ℓ : Type) where
  /-- Locks are asked for in the order of their ranks. -/
  rank : ℓ → Nat
  /-- Which changes of the state a program can make. -/
  allows : (σ → σ) → Prop

namespace Flow

/-- Whether a program that holds some locks obeys the rules, and holds the locks `base` in the end. If it
comes to a result, `Q` holds of that. -/
def Obeys (rules : Rules σ ℓ) (base : List ℓ) (Q : α → Prop) : List ℓ → Program σ ℓ answer α → Prop
  | held, .done a => held = base ∧ Q a
  | held, .panic => held = base
  | held, .act update next => rules.allows update ∧ ∀ s, Obeys rules base Q held (next s)
  | held, .ask (.lock l) next =>
    (∀ k ∈ held, rules.rank k < rules.rank l) ∧ Obeys rules base Q (held ++ [l]) (next ())
  | held, .ask (.unlock l) next => l ∈ held ∧ Obeys rules base Q (held.erase l) (next ())
  | held, .ask _ next => ∀ x, Obeys rules base Q held (next x)

namespace Obeys

variable {rules : Rules σ ℓ} {base held : List ℓ} {Q : α → Prop} {R : β → Prop}

theorem bind {f : Program σ ℓ answer α} {g : α → Program σ ℓ answer β}
    (hf : Obeys rules base Q held f) (hg : ∀ a, Q a → Obeys rules base R base (g a)) :
    Obeys rules base R held (f.bind g) := by
  induction f generalizing held with
  | done a => exact hf.1 ▸ hg a hf.2
  | panic => exact hf
  | act update next ih => exact ⟨hf.1, fun s => ih s (hf.2 s)⟩
  | ask request next ih =>
    cases request with
    | lock l => exact ⟨hf.1, ih () hf.2⟩
    | unlock l => exact ⟨hf.1, ih () hf.2⟩
    | wait t => exact fun x => ih x (hf x)
    | pause => exact fun x => ih x (hf x)
    | call c => exact fun x => ih x (hf x)

theorem mapM_id {fs : List (Program σ ℓ answer α)}
    (hfs : ∀ f ∈ fs, Obeys rules base (fun _ => True) base f) :
    Obeys rules base (fun _ => True) base (fs.mapM id) := by
  induction fs with
  | nil => exact ⟨rfl, trivial⟩
  | cons f fs ih =>
    rw [List.mapM_cons]
    refine (hfs f List.mem_cons_self).bind fun _ _ => ?_
    exact (ih fun g hg => hfs g (List.mem_cons_of_mem f hg)).bind fun _ _ => ⟨rfl, trivial⟩

theorem rescue {f instead : Program σ ℓ answer α} (hf : Obeys rules base Q held f)
    (hi : Obeys rules base Q base instead) : Obeys rules base Q held (f.rescue instead) := by
  induction f generalizing held with
  | done a => exact hf
  | panic => exact (show held = base from hf) ▸ hi
  | act update next ih => exact ⟨hf.1, fun s => ih s (hf.2 s)⟩
  | ask request next ih =>
    cases request with
    | lock l => exact ⟨hf.1, ih () hf.2⟩
    | unlock l => exact ⟨hf.1, ih () hf.2⟩
    | wait t => exact fun x => ih x (hf x)
    | pause => exact fun x => ih x (hf x)
    | call c => exact fun x => ih x (hf x)

private theorem andUnlock {l : ℓ} (hl : l ∉ base) {f : Program σ ℓ answer α}
    (hf : Obeys rules (base ++ [l]) Q held f) :
    Obeys rules base Q held (f.andFinally (.ask (.unlock l) .done)) := by
  have herase : (base ++ [l]).erase l = base := by
    rw [List.erase_append_right _ hl, List.erase_cons_head, List.append_nil]
  induction f generalizing held with
  | done a => exact hf.1 ▸ ⟨List.mem_append_right _ List.mem_cons_self, herase, hf.2⟩
  | panic =>
    exact (show held = base ++ [l] from hf) ▸ ⟨List.mem_append_right _ List.mem_cons_self, herase⟩
  | act update next ih => exact ⟨hf.1, fun s => ih s (hf.2 s)⟩
  | ask request next ih =>
    cases request with
    | lock k => exact ⟨hf.1, ih () hf.2⟩
    | unlock k => exact ⟨hf.1, ih () hf.2⟩
    | wait t => exact fun x => ih x (hf x)
    | pause => exact fun x => ih x (hf x)
    | call c => exact fun x => ih x (hf x)

theorem holding {l : ℓ} {body : Program σ ℓ answer α}
    (hl : ∀ k ∈ base, rules.rank k < rules.rank l)
    (hbody : Obeys rules (base ++ [l]) Q (base ++ [l]) body) :
    Obeys rules base Q base (Program.holding l body) :=
  ⟨hl, andUnlock (fun hmem => Nat.lt_irrefl _ (hl l hmem)) hbody⟩

end Obeys

end Flow

namespace Hub

/-- Whether a strand asked for just these locks, and has not given them back. -/
def Claims (h : Hub σ ℓ) (s : Strand) (ls : List ℓ) : Prop :=
  ∀ l, (h.queue l).count s = ls.count l

variable {h h' : Hub σ ℓ} {l k : ℓ} {s me : Strand} {ls : List ℓ}

theorem Claims.mem_iff (hs : h.Claims s ls) : s ∈ h.queue l ↔ l ∈ ls := by
  rw [← List.count_pos_iff, hs l, List.count_pos_iff]

theorem Claims.not_mem (hs : h.Claims s []) : s ∉ h.queue l :=
  fun hmem => List.not_mem_nil (hs.mem_iff.1 hmem)

theorem Claims.claim (hs : h.Claims s ls) (l : ℓ) : (h.claim l s).Claims s (ls ++ [l]) := by
  intro k
  rw [queue_claim, List.count_append, List.count_singleton]
  by_cases hk : k = l
  · simp [hk, hs l]
  · simp [hk, Ne.symm hk, hs k]

theorem Claims.release (hs : h.Claims s ls) (l : ℓ) : (h.release l s).Claims s (ls.erase l) := by
  intro k
  rw [queue_release]
  by_cases hk : k = l
  · subst hk
    rw [if_pos rfl, List.count_erase_self, List.count_erase_self, hs k]
  · rw [if_neg hk, List.count_erase_of_ne hk, hs k]

private theorem Claims.ne_of_mem_erase (hs : h.Claims s ls) (hg : h.grants k s = true) (hk : k ∈ ls.erase l) :
    k ≠ l := by
  rintro rfl
  have hcount := hs k
  rw [((grants_iff h k s).1 hg).2] at hcount
  have := List.count_pos_iff.2 hk
  rw [List.count_erase_self] at this
  omega

private theorem grants_claim_of_ne (hkl : k ≠ l) (t : Strand) : (h.claim l t).grants k s = h.grants k s := by
  rw [Bool.eq_iff_iff, grants_iff, queue_claim, if_neg hkl, ← grants_iff]

private theorem grants_release_of_ne (hkl : k ≠ l) (t : Strand) :
    (h.release l t).grants k s = h.grants k s := by
  rw [Bool.eq_iff_iff, grants_iff, queue_release, if_neg hkl, ← grants_iff]

/-- What others do leaves the claims of a strand as they are, and takes no lock from it. -/
theorem count_queue_of_stroke (hstroke : Stroke me h h') (hs : s ≠ me) (l : ℓ) :
    (h'.queue l).count s = (h.queue l).count s := by
  cases hstroke with
  | change state => rfl
  | setTimer time ht => rfl
  | wake => rw [queue_wake]
  | claim k =>
    rw [queue_claim]
    split
    · rw [List.count_append, List.count_singleton, if_neg (by simpa using Ne.symm hs), Nat.add_zero]
    · rfl
  | release k =>
    rw [queue_release]
    split
    · exact List.count_erase_of_ne hs
    · rfl

theorem grants_of_stroke (hstroke : Stroke me h h') (hs : s ≠ me) (hg : h.grants l s = true) :
    h'.grants l s = true := by
  have hcount := count_queue_of_stroke hstroke hs l
  rw [grants_iff] at hg ⊢
  refine ⟨?_, hcount.trans hg.2⟩
  obtain ⟨rest, hqueue⟩ : ∃ rest, h.queue l = s :: rest := by
    cases hq : h.queue l with
    | nil => simp [hq] at hg
    | cons t rest => exact ⟨rest, by simpa [hq] using hg.1⟩
  cases hstroke with
  | change state => exact hg.1
  | setTimer time ht => exact hg.1
  | wake => rw [queue_wake]; exact hg.1
  | claim k => rw [queue_claim, hqueue]; split <;> rfl
  | release k =>
    rw [queue_release, hqueue]
    split
    · rw [List.erase_cons_tail (by simpa using hs)]
      rfl
    · rfl

/-- Whether a strand waits in vain for a lock, which ranks above all that it holds. -/
structure Stuck (rank : ℓ → Nat) (h : Hub σ ℓ) (s : Strand) (l : ℓ) (held : List ℓ) : Prop where
  claims : h.Claims s (held ++ [l])
  above : ∀ k ∈ held, rank k < rank l
  denied : h.grants l s = false

/-- The holder of a lock that somebody waits for in vain is stuck only at a greater lock. -/
private theorem Stuck.climb {rank : ℓ → Nat} {held : List ℓ} (hs : h.Stuck rank s l held)
    (hall : ∀ s l, s ∈ h.queue l → ∃ l' held', h.Stuck rank s l' held') :
    ∃ s' l' held', h.Stuck rank s' l' held' ∧ rank l < rank l' := by
  have hmem : s ∈ h.queue l := hs.claims.mem_iff.2 (by simp)
  obtain ⟨s', hhead⟩ : ∃ s', (h.queue l).head? = some s' := by
    cases hq : h.queue l with
    | nil => rw [hq] at hmem; cases hmem
    | cons t rest => exact ⟨t, rfl⟩
  obtain ⟨l', held', hs'⟩ := hall s' l (List.mem_of_mem_head? hhead)
  refine ⟨s', l', held', hs', ?_⟩
  have hclaimed : l ∈ held' ++ [l'] := hs'.claims.mem_iff.1 (List.mem_of_mem_head? hhead)
  rcases List.mem_append.1 hclaimed with hheld | hlast
  · exact hs'.above l hheld
  · obtain rfl := List.mem_singleton.1 hlast
    -- The head of a queue that stands in it once has the lock.
    have hcount : (h.queue l).count s' = 1 := by
      rw [hs'.claims l, List.count_append, List.count_eq_zero.2, List.count_singleton_self]
      exact fun hheld => Nat.lt_irrefl _ (hs'.above l hheld)
    have hgrants : h.grants l s' = true := (grants_iff h l s').2 ⟨hhead, hcount⟩
    rw [hs'.denied] at hgrants
    cases hgrants

/-- Not all who ask for locks are stuck. -/
theorem queue_eq_nil_of_stuck (rank : ℓ → Nat)
    (hall : ∀ s l, s ∈ h.queue l → ∃ l' held, h.Stuck rank s l' held) (l : ℓ) : h.queue l = [] := by
  obtain ⟨bound, hbound⟩ : ∃ bound, ∀ claim ∈ h.claims, rank claim.1 ≤ bound :=
    ⟨(h.claims.map fun claim => rank claim.1).max?.getD 0, fun claim hclaim =>
      List.le_max?_getD_of_mem (List.mem_map_of_mem hclaim)⟩
  by_contra hne
  obtain ⟨s, hs⟩ := List.exists_mem_of_ne_nil _ hne
  have hhigh (n : Nat) : ∃ s l held, h.Stuck rank s l held ∧ n ≤ rank l := by
    induction n with
    | zero =>
      obtain ⟨l', held, hstuck⟩ := hall s l hs
      exact ⟨s, l', held, hstuck, Nat.zero_le _⟩
    | succ n ih =>
      obtain ⟨s, l, held, hstuck, hn⟩ := ih
      obtain ⟨s', l', held', hstuck', hlt⟩ := hstuck.climb hall
      exact ⟨s', l', held', hstuck', by omega⟩
  obtain ⟨s, l, held, hstuck, hn⟩ := hhigh (bound + 1)
  have hmem : s ∈ h.queue l := hstuck.claims.mem_iff.2 (by simp)
  obtain ⟨claim, hclaim, rfl⟩ := List.mem_map.1 hmem
  simp only [List.mem_filter, decide_eq_true_eq] at hclaim
  have := hbound claim hclaim.1
  rw [hclaim.2] at this
  omega

end Hub

namespace Progress

variable {rules : Rules σ ℓ} {Q : α → Prop} {h h' : Hub σ ℓ} {s me : Strand} {p : Progress σ ℓ answer α}

/-- Whether a program that has begun asked for just the locks that it has not given back, got all of
them but perhaps the last one, and obeys on. -/
inductive Obeys (rules : Rules σ ℓ) (Q : α → Prop) (h : Hub σ ℓ) (s : Strand) :
    Progress σ ℓ answer α → Prop where
  | free {obstacle : Obstacle ℓ} {rest : Program σ ℓ answer α} (held : List ℓ)
    (hobstacle : ∀ l, obstacle ≠ .lock l) (hclaims : h.Claims s held)
    (hheld : ∀ k ∈ held, h.grants k s = true) (hrest : rest.Obeys rules [] Q held) :
    Obeys rules Q h s (.waiting obstacle rest)
  | queued {l : ℓ} {rest : Program σ ℓ answer α} (held : List ℓ) (hclaims : h.Claims s (held ++ [l]))
    (hheld : ∀ k ∈ held, h.grants k s = true)
    (habove : ∀ k ∈ held, rules.rank k < rules.rank l)
    (hrest : rest.Obeys rules [] Q (held ++ [l])) : Obeys rules Q h s (.waiting (.lock l) rest)
  | value {a : α} (hclaims : h.Claims s []) (ha : Q a) : Obeys rules Q h s (.ended (some a))
  | panicked (hclaims : h.Claims s []) : Obeys rules Q h s (.ended none)

/-- Changes that leave the claims of a strand and take no lock from it. -/
theorem Obeys.of_count (hp : p.Obeys rules Q h s)
    (hcount : ∀ l, (h'.queue l).count s = (h.queue l).count s)
    (hgrants : ∀ l, h.grants l s = true → h'.grants l s = true) : p.Obeys rules Q h' s := by
  have hclaims {ls : List ℓ} (hc : h.Claims s ls) : h'.Claims s ls :=
    fun l => (hcount l).trans (hc l)
  have hheld {ls : List ℓ} (hg : ∀ k ∈ ls, h.grants k s = true) : ∀ k ∈ ls, h'.grants k s = true :=
    fun k hk => hgrants k (hg k hk)
  cases hp with
  | free held ho hc hg hrest => exact .free held ho (hclaims hc) (hheld hg) hrest
  | queued held hc hg ha hrest => exact .queued held (hclaims hc) (hheld hg) ha hrest
  | value hc ha => exact .value (hclaims hc) ha
  | panicked hc => exact .panicked (hclaims hc)

theorem Obeys.of_stroke (hp : p.Obeys rules Q h s) (hstroke : Hub.Stroke me h h') (hs : s ≠ me) :
    p.Obeys rules Q h' s :=
  hp.of_count (Hub.count_queue_of_stroke hstroke hs) fun _ => Hub.grants_of_stroke hstroke hs

theorem Obeys.of_queue (hp : p.Obeys rules Q h s) (hqueue : ∀ l, h'.queue l = h.queue l) :
    p.Obeys rules Q h' s := by
  refine hp.of_count (fun l => by rw [hqueue]) fun l hg => ?_
  rwa [Hub.grants_iff, hqueue, ← Hub.grants_iff]

omit [DecidableEq ℓ] in
private theorem time_ne_lock (time : Nat) (l : ℓ) : Obstacle.time time ≠ .lock l := by
  intro heq
  cases heq

omit [DecidableEq ℓ] in
private theorem turn_ne_lock (l : ℓ) : Obstacle.turn ≠ .lock l := by
  intro heq
  cases heq

variable (respond : Respond σ answer)

private theorem run_obeys (f : Program σ ℓ answer α) {h : Hub σ ℓ} {held : List ℓ}
    (hf : f.Obeys rules [] Q held) (hclaims : h.Claims me held)
    (hheld : ∀ k ∈ held, h.grants k me = true) :
    (run respond me f h).1.Obeys rules Q (run respond me f h).2 me := by
  induction f generalizing h held with
  | done a => exact .value (hf.1 ▸ hclaims) hf.2
  | panic => exact .panicked ((show held = [] from hf) ▸ hclaims)
  | act update next ih => exact ih h.state (hf.2 h.state) hclaims hheld
  | ask request next ih =>
    cases request with
    | lock l =>
      have hl : l ∉ held := fun hmem => Nat.lt_irrefl _ (hf.1 l hmem)
      have hkept : ∀ k ∈ held, (h.claim l me).grants k me = true := by
        intro k hk
        have hkl : k ≠ l := fun heq => hl (heq ▸ hk)
        rw [Hub.grants_claim_of_ne hkl]
        exact hheld k hk
      simp only [run]
      split
      · next hg =>
        refine ih () hf.2 (hclaims.claim l) fun k hk => ?_
        rcases List.mem_append.1 hk with hk | hk
        · exact hkept k hk
        · exact List.mem_singleton.1 hk ▸ hg
      · exact .queued held (hclaims.claim l) hkept hf.1 hf.2
    | unlock l =>
      refine ih () hf.2 (hclaims.release l) fun k hk => ?_
      have hk' := hheld k (List.mem_of_mem_erase hk)
      rw [Hub.grants_release_of_ne (hclaims.ne_of_mem_erase hk' hk)]
      exact hk'
    | wait t =>
      cases t with
      | zero => exact ih () (hf ()) hclaims hheld
      | succ t => exact .free held (time_ne_lock _) hclaims hheld (hf ())
    | pause =>
      have hp : Obeys rules Q h me (.waiting .turn (next ())) :=
        .free held turn_ne_lock hclaims hheld (hf ())
      exact hp.of_queue fun l => Hub.queue_wake h me l
    | call c =>
      simp only [run]
      split
      · exact ih _ (hf _) hclaims hheld
      · exact .free held (time_ne_lock _) hclaims hheld (hf _)

theorem Obeys.poll (hp : p.Obeys rules Q h me) :
    (p.poll respond me h).1.Obeys rules Q (p.poll respond me h).2 me := by
  cases hp with
  | value hc ha => exact .value hc ha
  | panicked hc => exact .panicked hc
  | free held ho hc hg hrest =>
    simp only [Progress.poll]
    split
    · exact run_obeys respond _ hrest hc hg
    · exact .free held ho hc hg hrest
  | queued held hc hg ha hrest =>
    simp only [Progress.poll]
    split
    · next hclear =>
      refine run_obeys respond _ hrest hc fun k hk => ?_
      rcases List.mem_append.1 hk with hk | hk
      · exact hg k hk
      · exact List.mem_singleton.1 hk ▸ hclear
    · exact .queued held hc hg ha hrest

/-- Where nobody is to have a turn and time does not pass, only those who are stuck wait. -/
theorem Obeys.stuck (hp : p.Obeys rules Q h s) (hheeded : p.Heeded h s) (hwoken : h.woken = [])
    (htimers : h.timers = []) :
    (∃ result, p = .ended result ∧ h.Claims s []) ∨ ∃ l held, h.Stuck rules.rank s l held := by
  have hblocked : p.Blocked h s := hheeded.blocked (by simp [hwoken])
  cases hp with
  | value hc ha => exact .inl ⟨_, rfl, hc⟩
  | panicked hc => exact .inl ⟨_, rfl, hc⟩
  | queued held hc hg ha hrest => exact .inr ⟨_, held, hc, ha, hblocked⟩
  | @free obstacle rest held ho hc hg hrest =>
    cases obstacle with
    | start => cases (show true = false from hblocked)
    | turn => cases (show true = false from hblocked)
    | lock l => exact absurd rfl (ho l)
    | time t =>
      have hlt : h.now < t := by simpa [Blocked, isClear] using hblocked
      have hmem := Obstacle.Heeded.timed hheeded t rfl hlt
      rw [htimers] at hmem
      cases hmem

/-- Whether a program that has begun goes on to obey, whatever has become of its locks. -/
def Lawful (rules : Rules σ ℓ) (Q : α → Prop) : Progress σ ℓ answer α → Prop
  | .waiting _ rest => ∃ held, rest.Obeys rules [] Q held
  | .ended (some a) => Q a
  | .ended none => True

end Progress

/-- A relation of states, from earlier to later, that programs obeying the rules keep to. -/
structure Rules.Confines (rules : Rules σ ℓ) (respond : Respond σ answer) (R : σ → σ → Prop) : Prop where
  refl : ∀ s, R s s
  trans : ∀ {s s' s''}, R s s' → R s' s'' → R s s''
  change : ∀ update, rules.allows update → ∀ s, R s (update s)
  call : ∀ s c, R s (respond s c).1

namespace Progress

variable {rules : Rules σ ℓ} {Q : α → Prop} {R : σ → σ → Prop} {respond : Respond σ answer}

theorem run_confined (hR : rules.Confines respond R) (me : Strand) (f : Program σ ℓ answer α)
    {held : List ℓ} (hf : f.Obeys rules [] Q held) (h : Hub σ ℓ) :
    (run respond me f h).1.Lawful rules Q ∧ R h.state (run respond me f h).2.state := by
  induction f generalizing h held with
  | done a => exact ⟨hf.2, hR.refl _⟩
  | panic => exact ⟨trivial, hR.refl _⟩
  | act update next ih =>
    obtain ⟨hlawful, hstate⟩ := ih h.state (hf.2 h.state) { h with state := update h.state }
    exact ⟨hlawful, hR.trans (hR.change update hf.1 h.state) hstate⟩
  | ask request next ih =>
    cases request with
    | lock l =>
      simp only [run]
      split
      · exact ih () hf.2 (h.claim l me)
      · exact ⟨⟨_, hf.2⟩, hR.refl _⟩
    | unlock l => simpa only [run, Hub.release_state] using ih () hf.2 (h.release l me)
    | wait t =>
      cases t with
      | zero => exact ih () (hf ()) h
      | succ t => exact ⟨⟨held, hf ()⟩, hR.refl _⟩
    | pause => exact ⟨⟨held, hf ()⟩, by simpa only [run, Hub.wake_state] using hR.refl h.state⟩
    | call c =>
      have hcall := hR.call h.state c
      simp only [run]
      split
      · obtain ⟨hlawful, hstate⟩ := ih _ (hf _) { h with state := (respond h.state c).1 }
        exact ⟨hlawful, hR.trans hcall hstate⟩
      · exact ⟨⟨held, hf _⟩, hcall⟩

theorem Lawful.poll {p : Progress σ ℓ answer α} (hp : p.Lawful rules Q) (hR : rules.Confines respond R)
    (me : Strand) (h : Hub σ ℓ) :
    (p.poll respond me h).1.Lawful rules Q ∧ R h.state (p.poll respond me h).2.state := by
  cases p with
  | ended result => exact ⟨hp, hR.refl _⟩
  | waiting obstacle rest =>
    simp only [Progress.poll]
    split
    · obtain ⟨held, hrest⟩ := hp
      exact run_confined hR me rest hrest h
    · exact ⟨hp, hR.refl _⟩

end Progress

end GuildBot

import GuildBot.Proofs.Cache.InTurn
import GuildBot.Proofs.Cache.SingleFlight

/-!
# Lookups side by side

Lookups that are begun in the order of a list queue for the fetch lock in that order, except that those
that find something live are over at once. So the cache passes through the same states as when the lookups
are made in turn, and each of them comes to the same result.
-/

namespace GuildBot.Cache.Watched

open Std Progress

variable {κ β ε : Type} [Ord κ] [TransOrd κ] {gets : List (Lookup κ β ε)} {w : Nat → Watched κ β}
  {results : List (Except ε β)}

/-- The lookup whose turn it is to fetch: the first in the queue, or else the first that has not begun. -/
def nextUp (begun : Nat) (queue : List Nat) : Nat := queue.head?.getD begun

/-- Whether a watched cache is that before the lookup which is next, or that lookup is fetching. -/
inductive Reached (gets : List (Lookup κ β ε)) (w : Nat → Watched κ β) (begun : Nat) (queue : List Nat)
    (now : Watched κ β) : Prop where
  | between (h : now = w (nextUp begun queue))
  | fetching (n : Nat) (l : Lookup κ β ε) (hn : queue.head? = some n) (hl : gets[n]? = some l)
    (hp : (w n).cache.peek (w n).now l.key = none)
    (h : now = (w n).tell (.began ⟨0, some n⟩ l.key (w n).now))

private theorem nextUp_enqueue (begun : Nat) (queue : List Nat) :
    nextUp (begun + 1) (queue ++ [begun]) = nextUp begun queue := by
  cases queue <;> rfl

private theorem Reached.enqueue {begun : Nat} {queue : List Nat} {now : Watched κ β}
    (h : Reached gets w begun queue now) : Reached gets w (begun + 1) (queue ++ [begun]) now := by
  cases h with
  | between heq => exact .between (by rwa [nextUp_enqueue])
  | fetching n l hn hl hp heq => exact .fetching n l (by simp [List.head?_append, hn]) hl hp heq

theorem Reached.pass {begun : Nat} {queue : List Nat} {now : Watched κ β}
    (h : Reached gets w begun queue now) (hsame : w (begun + 1) = w begun) :
    Reached gets w (begun + 1) queue now := by
  cases h with
  | fetching n l hn hl hp heq => exact .fetching n l hn hl hp heq
  | between heq =>
    refine .between (heq.trans ?_)
    cases queue with
    | nil => exact hsame.symm
    | cons n rest => rfl

/-- Whether each of some programs is at a stage of its lookup. -/
def StagesAre (gets : List (Lookup κ β ε))
    (ps : List (Progress (Watched κ β) Unit (fun _ : Empty => Unit) (Except ε β)))
    (h : Hub (Watched κ β) Unit) : Prop :=
  ∀ n l, gets[n]? = some l → ∃ p, ps[n]? = some p ∧ Stage ⟨0, some n⟩ l h.state (h.queue ()) p

/-- How lookups stand that are made side by side: so many have begun, and of these the listed ones are
queued or fetching and the others over. -/
structure Joined (gets : List (Lookup κ β ε)) (w : Nat → Watched κ β) (results : List (Except ε β))
    (begun : Nat) (queue : List Nat)
    (ps : List (Progress (Watched κ β) Unit (fun _ : Empty => Unit) (Except ε β)))
    (h : Hub (Watched κ β) Unit) : Prop where
  length : ps.length = gets.length
  begun_le : begun ≤ gets.length
  queue_eq : h.queue () = queue.map fun n => ⟨0, some n⟩
  sorted : queue.Pairwise (· < ·)
  lt_begun : ∀ n ∈ queue, n < begun
  stage : StagesAre gets ps h
  fresh : ∀ n l, begun ≤ n → gets[n]? = some l → ps[n]? = some (.start (lookUp ⟨0, some n⟩ l))
  /-- A lookup that is over came to its result, and if it had been made in its turn it would have found
  that. -/
  settled : ∀ n < begun, n ∉ queue →
    ps[n]? = some (.ended results[n]?) ∧ (nextUp begun queue ≤ n → w (n + 1) = w n)
  reached : Reached gets w begun queue h.state

section

variable {s : Strand} {l : Lookup κ β ε} {now now' : Watched κ β} {q q' : List Strand}

private theorem Entered.queue_of_mem (h : Entered s l now q now' q') (hs : s ∈ q) : q' = q := by
  cases h with
  | again => rfl
  | granted hq hhead hn =>
    rcases hq with rfl | rfl
    · rfl
    · exact absurd rfl ((List.nodup_append.1 hn).2.2 s hs s List.mem_cons_self)

private theorem Entered.queue_of_not_mem (h : Entered s l now q now' q') (hs : s ∉ q) :
    q = [] ∧ q' = [s] := by
  cases h with
  | again hq => exact absurd (List.mem_of_mem_head? hq) hs
  | granted hq hhead hn =>
    rcases hq with rfl | rfl
    · exact absurd (List.mem_of_mem_head? hhead) hs
    · cases q with
      | nil => exact ⟨rfl, rfl⟩
      | cons t q =>
        obtain rfl : t = s := by simpa using hhead
        exact absurd List.mem_cons_self hs

end

namespace Joined

variable {begun : Nat} {queue : List Nat}
  {ps : List (Progress (Watched κ β) Unit (fun _ : Empty => Unit) (Except ε β))}
  {h h' : Hub (Watched κ β) Unit} {n : Nat}
  {p p' : Progress (Watched κ β) Unit (fun _ : Empty => Unit) (Except ε β)}

theorem mem_queue (hj : Joined gets w results begun queue ps h) :
    ⟨0, some n⟩ ∈ h.queue () ↔ n ∈ queue := by
  rw [hj.queue_eq]
  simp

theorem nodup (hj : Joined gets w results begun queue ps h) : (h.queue ()).Nodup := by
  rw [hj.queue_eq]
  exact List.Nodup.map (fun _ _ heq => by simpa using heq) (hj.sorted.imp fun hlt => Nat.ne_of_lt hlt)

private theorem eq_nil (hj : Joined gets w results begun queue ps h)
    (hnil : h.queue () = []) : queue = [] := by
  rw [hj.queue_eq] at hnil
  exact List.map_eq_nil_iff.1 hnil

private theorem nextUp_le (hj : Joined gets w results begun queue ps h) : nextUp begun queue ≤ begun := by
  cases queue with
  | nil => exact Nat.le_refl _
  | cons n rest => exact Nat.le_of_lt (hj.lt_begun n List.mem_cons_self)

/-- The cache is that before the lookup which is next. -/
theorem cache_eq (hj : Joined gets w results begun queue ps h) :
    h.state.cache = (w (nextUp begun queue)).cache ∧ h.state.now = (w (nextUp begun queue)).now := by
  cases hj.reached with
  | between heq => simp [heq]
  | fetching n l hn hl hp heq => simp [heq, nextUp, hn, tell]

omit [TransOrd κ] in
private theorem eq_of_steady {a b : Nat} (hab : a ≤ b) (hsteady : ∀ m, a ≤ m → m < b → w (m + 1) = w m) :
    w b = w a := by
  induction hab with
  | refl => rfl
  | @step b hab ih =>
    rw [hsteady b hab (Nat.lt_succ_self b)]
    exact ih fun m hm hmb => hsteady m hm (Nat.lt_succ_of_lt hmb)

private theorem stage_of (hj : Joined gets w results begun queue ps h) (hp : ps[n]? = some p) :
    ∃ l, gets[n]? = some l ∧ Stage ⟨0, some n⟩ l h.state (h.queue ()) p := by
  obtain ⟨hn, -⟩ := List.getElem?_eq_some_iff.1 hp
  have hn' : n < gets.length := hj.length ▸ hn
  obtain ⟨q, hq, hstage⟩ := hj.stage n gets[n] (List.getElem?_eq_getElem hn')
  obtain rfl := Option.some.inj (hp.symm.trans hq)
  exact ⟨_, List.getElem?_eq_getElem hn', hstage⟩

private theorem stage_set (hj : Joined gets w results begun queue ps h) (hp : ps[n]? = some p) :
    let r := p.poll respond ⟨0, some n⟩ h
    StagesAre gets (ps.set n r.1) r.2 := by
  intro r m l hl
  obtain ⟨hn, -⟩ := List.getElem?_eq_some_iff.1 hp
  obtain ⟨l', hl', hstage⟩ := hj.stage_of hp
  obtain ⟨-, hown, hothers⟩ := (turned hstage hj.nodup).frame hstage hj.nodup
  by_cases hm : m = n
  · subst hm
    obtain rfl := Option.some.inj (hl'.symm.trans hl)
    exact ⟨_, List.getElem?_set_self hn, hown⟩
  · obtain ⟨q', hq', hstage'⟩ := hj.stage m l hl
    rw [List.getElem?_set_ne (Ne.symm hm)]
    exact ⟨q', hq', hstage'.frame (hothers _ (by simpa using hm))⟩

private theorem keep (hj : Joined gets w results begun queue ps h) (hn : n ∈ queue)
    (hstage : StagesAre gets (ps.set n p') h') (hqueue : h'.queue () = h.queue ())
    (hreached : Reached gets w begun queue h'.state) :
    Joined gets w results begun queue (ps.set n p') h' where
  length := by rw [List.length_set, hj.length]
  begun_le := hj.begun_le
  queue_eq := hqueue.trans hj.queue_eq
  sorted := hj.sorted
  lt_begun := hj.lt_begun
  stage := hstage
  fresh m l hm hl := by
    have hlt := hj.lt_begun n hn
    rw [List.getElem?_set_ne (by omega)]
    exact hj.fresh m l hm hl
  settled m hm hmem := by
    have hne : n ≠ m := fun heq => hmem (heq ▸ hn)
    rw [List.getElem?_set_ne hne]
    exact hj.settled m hm hmem
  reached := hreached

private theorem enqueue (hj : Joined gets w results begun queue ps h) (hlt : begun < gets.length)
    (hstage : StagesAre gets (ps.set begun p') h')
    (hqueue : h'.queue () = h.queue () ++ [⟨0, some begun⟩])
    (hreached : Reached gets w (begun + 1) (queue ++ [begun]) h'.state) :
    Joined gets w results (begun + 1) (queue ++ [begun]) (ps.set begun p') h' where
  length := by rw [List.length_set, hj.length]
  begun_le := hlt
  queue_eq := by rw [hqueue, hj.queue_eq, List.map_append, List.map_singleton]
  sorted := by
    refine List.pairwise_append.2 ⟨hj.sorted, List.pairwise_singleton _ _, fun m hm k hk => ?_⟩
    exact List.mem_singleton.1 hk ▸ hj.lt_begun m hm
  lt_begun m hm := by
    rcases List.mem_append.1 hm with hm | hm
    · exact Nat.lt_succ_of_lt (hj.lt_begun m hm)
    · exact List.mem_singleton.1 hm ▸ Nat.lt_succ_self begun
  stage := hstage
  fresh m l hm hl := by
    rw [List.getElem?_set_ne (by omega)]
    exact hj.fresh m l (Nat.le_of_succ_le hm) hl
  settled m hm hmem := by
    obtain ⟨hmem, hne⟩ : m ∉ queue ∧ m ≠ begun := by simpa using hmem
    rw [List.getElem?_set_ne (Ne.symm hne), nextUp_enqueue]
    exact hj.settled m (by omega) hmem
  reached := hreached

theorem pass (hj : Joined gets w results begun queue ps h) (hlt : begun < gets.length)
    (hstage : StagesAre gets (ps.set begun (.ended results[begun]?)) h')
    (hqueue : h'.queue () = h.queue ()) (hsame : queue ≠ [] → w (begun + 1) = w begun)
    (hreached : Reached gets w (begun + 1) queue h'.state) :
    Joined gets w results (begun + 1) queue (ps.set begun (.ended results[begun]?)) h' where
  length := by rw [List.length_set, hj.length]
  begun_le := hlt
  queue_eq := hqueue.trans hj.queue_eq
  sorted := hj.sorted
  lt_begun m hm := Nat.lt_succ_of_lt (hj.lt_begun m hm)
  stage := hstage
  fresh m l hm hl := by
    rw [List.getElem?_set_ne (by omega)]
    exact hj.fresh m l (Nat.le_of_succ_le hm) hl
  settled m hm hmem := by
    by_cases hne : m = begun
    · subst hne
      refine ⟨List.getElem?_set_self (hj.length ▸ hlt), fun hle => hsame fun hempty => ?_⟩
      subst hempty
      exact Nat.not_succ_le_self m hle
    · obtain ⟨hended, hsteady⟩ := hj.settled m (by omega) hmem
      rw [List.getElem?_set_ne (Ne.symm hne)]
      refine ⟨hended, fun hle => hsteady (Nat.le_trans ?_ hle)⟩
      cases queue with
      | nil => exact Nat.le_succ begun
      | cons k rest => exact Nat.le_refl _
  reached := hreached

theorem finish {rest : List Nat} (hj : Joined gets w results begun (n :: rest) ps h)
    (hstage : StagesAre gets (ps.set n (.ended results[n]?)) h')
    (hqueue : h'.queue () = (h.queue ()).erase ⟨0, some n⟩) (hstate : h'.state = w (n + 1)) :
    Joined gets w results begun rest (ps.set n (.ended results[n]?)) h' := by
  obtain ⟨hlater, hsorted⟩ := List.pairwise_cons.1 hj.sorted
  have hbegun : n < begun := hj.lt_begun n List.mem_cons_self
  have hn : n < ps.length := hj.length ▸ Nat.lt_of_lt_of_le hbegun hj.begun_le
  have hnext : n < nextUp begun rest := by
    cases rest with
    | nil => exact hbegun
    | cons m rest => exact hlater m List.mem_cons_self
  have hover : ∀ m < begun, m ∉ rest → m ≠ n →
      ps[m]? = some (.ended results[m]?) ∧ (n ≤ m → w (m + 1) = w m) :=
    fun m hm hmem hne => hj.settled m hm (by simpa using ⟨hne, hmem⟩)
  -- Up to the next in the queue, all are over that found something live.
  have hsteady : w (nextUp begun rest) = w (n + 1) := by
    refine eq_of_steady hnext fun m hnm hm => ?_
    have hmem : m ∉ rest := by
      intro hmem
      cases rest with
      | nil => cases hmem
      | cons k rest =>
        rcases List.mem_cons.1 hmem with rfl | hmem
        · exact Nat.lt_irrefl _ hm
        · exact Nat.lt_asymm hm ((List.pairwise_cons.1 hsorted).1 m hmem)
    have hmb : m < begun := by
      refine Nat.lt_of_lt_of_le hm ?_
      cases rest with
      | nil => exact Nat.le_refl _
      | cons k rest => exact Nat.le_of_lt (hj.lt_begun k (by simp))
    exact (hover m hmb hmem (by omega)).2 (by omega)
  exact {
    length := by rw [List.length_set, hj.length]
    begun_le := hj.begun_le
    queue_eq := by rw [hqueue, hj.queue_eq, List.map_cons, List.erase_cons_head]
    sorted := hsorted
    lt_begun := fun m hm => hj.lt_begun m (List.mem_cons_of_mem n hm)
    stage := hstage
    fresh := fun m l hm hl => by
      rw [List.getElem?_set_ne (by omega)]
      exact hj.fresh m l hm hl
    settled := fun m hm hmem => by
      by_cases hne : m = n
      · subst hne
        exact ⟨List.getElem?_set_self hn, fun hle => absurd hnext (Nat.not_lt.2 hle)⟩
      · obtain ⟨hended, hsame⟩ := hover m hm hmem hne
        rw [List.getElem?_set_ne (Ne.symm hne)]
        exact ⟨hended, fun hle => hsame (by omega)⟩
    reached := .between (hstate.trans hsteady.symm) }

/-- A turn of a lookup that is over, or that is queued behind another, does nothing. -/
private theorem poll_eq_of_behind (hj : Joined gets w results begun queue ps h) (hp : ps[n]? = some p)
    (hbegun : n < begun) (hn : queue.head? ≠ some n) : p.poll respond ⟨0, some n⟩ h = (p, h) := by
  have hhead : (h.queue ()).head? ≠ some ⟨0, some n⟩ := by
    rw [hj.queue_eq, List.head?_map]
    cases hq : queue.head? with
    | none => nofun
    | some m =>
      rw [hq] at hn
      simpa using hn
  by_cases hmem : n ∈ queue
  · obtain ⟨l, -, hstage⟩ := hj.stage_of hp
    have hmem' := hj.mem_queue.2 hmem
    cases hstage with
    | fresh hq => exact absurd hmem' hq
    | ended hq => exact absurd hmem' hq
    | fetching hq => exact absurd hq hhead
    | queued hq =>
      have hclear : isClear h ⟨0, some n⟩ (.lock ()) = false :=
        Bool.eq_false_iff.2 fun hg => hhead ((Hub.grants_iff_head hj.nodup).1 hg)
      simp only [poll, hclear]
      rfl
  · obtain ⟨hended, -⟩ := hj.settled n hbegun hmem
    obtain rfl := Option.some.inj (hp.symm.trans hended)
    rfl

private theorem state_eq_of_silent (hj : Joined gets w results begun queue ps h) (hn : n = nextUp begun queue)
    (hsilent : h.state.Silent ⟨0, some n⟩) : h.state = w n := by
  subst hn
  cases hj.reached with
  | between heq => exact heq
  | fetching m l hm hl hp heq =>
    have hnext : nextUp begun queue = m := by rw [nextUp, hm, Option.getD_some]
    rw [hnext, heq] at hsilent
    exact absurd rfl (hsilent (.began ⟨0, some m⟩ l.key (w m).now) (by simp [tell]))

variable (hturns : InTurn gets w results) (hempty : (w 0).chronicle = [])

include hturns hempty

private theorem entered_eq (hj : Joined gets w results begun queue ps h) (hn : n = nextUp begun queue)
    {l : Lookup κ β ε} (hl : gets[n]? = some l) {now : Watched κ β} {q : List Strand}
    (he : Entered ⟨0, some n⟩ l h.state (h.queue ()) now q) :
    (w n).cache.peek (w n).now l.key = none ∧
      now = (w n).tell (.began ⟨0, some n⟩ l.key (w n).now) := by
  cases he with
  | granted hq hs hn' hw hp =>
    have hstate := hj.state_eq_of_silent hn hw
    rw [hstate] at hp ⊢
    exact ⟨hp, rfl⟩
  | again hq hb hf =>
    obtain ⟨time, hb⟩ := hb
    obtain ⟨hlt, -⟩ := List.getElem?_eq_some_iff.1 hl
    cases hj.reached with
    | between heq =>
      rw [heq, ← hn] at hb
      exact absurd rfl (hturns.silent hempty (Nat.le_refl n) (Nat.le_of_lt hlt) _ hb)
    | fetching m l' hm hl' hp heq =>
      have hnm : n = m := by rw [hn, nextUp, hm, Option.getD_some]
      subst hnm
      obtain rfl := Option.some.inj (hl.symm.trans hl')
      exact ⟨hp, heq⟩

private theorem turn_head {rest : List Nat} (hj : Joined gets w results begun (n :: rest) ps h)
    {l : Lookup κ β ε} (hl : gets[n]? = some l)
    (ht : Turned ⟨0, some n⟩ l h.state (h.queue ()) p p' h'.state (h'.queue ()))
    (hstage : StagesAre gets (ps.set n p') h') :
    ∃ queue, Joined gets w results begun queue (ps.set n p') h' := by
  have hmem : ⟨0, some n⟩ ∈ h.queue () := hj.mem_queue.2 List.mem_cons_self
  have hnext : n = nextUp begun (n :: rest) := rfl
  have hturn := hturns.turn n l hl
  generalize hw' : h'.state = w', hq' : h'.queue () = q' at ht
  cases ht with
  | blocked => exact ⟨_, hj.keep List.mem_cons_self hstage hq' (hw' ▸ hj.reached)⟩
  | joined hq => exact absurd hmem hq
  | found hw hp =>
    have hstate := hj.state_eq_of_silent hnext hw
    rw [hstate] at hp
    rw [byItself_of_live hp] at hturn
    obtain ⟨hresult, hsame⟩ := Prod.mk.inj hturn
    rw [hresult] at hstage ⊢
    exact ⟨rest, hj.finish hstage hq' (hw'.trans (hstate.trans hsame))⟩
  | suspended he =>
    obtain ⟨hpeek, hnow⟩ := hj.entered_eq hturns hempty hnext hl he
    refine ⟨_, hj.keep List.mem_cons_self hstage (hq'.trans (he.queue_of_mem hmem)) ?_⟩
    exact .fetching n l rfl hl hpeek (hw'.trans hnow)
  | finished he hf =>
    obtain ⟨hpeek, hnow⟩ := hj.entered_eq hturns hempty hnext hl he
    rw [hnow] at hf
    rw [hf.byItself_eq hpeek] at hturn
    obtain ⟨hresult, hsame⟩ := Prod.mk.inj hturn
    rw [hresult] at hstage ⊢
    refine ⟨rest, hj.finish hstage ?_ (hw'.trans hsame)⟩
    rw [hq', he.queue_of_mem hmem]

private theorem turn_first [LawfulEqOrd κ] [DecidableEq κ] (hj : Joined gets w results begun queue ps h)
    {l : Lookup κ β ε} (hl : gets[begun]? = some l)
    (ht : Turned ⟨0, some begun⟩ l h.state (h.queue ()) (.start (lookUp ⟨0, some begun⟩ l)) p' h'.state
      (h'.queue ()))
    (hstage : StagesAre gets (ps.set begun p') h') :
    ∃ queue, Joined gets w results (begun + 1) queue (ps.set begun p') h' := by
  obtain ⟨hlt, -⟩ := List.getElem?_eq_some_iff.1 hl
  have hmem : begun ∉ queue := fun hmem => Nat.lt_irrefl _ (hj.lt_begun begun hmem)
  have hmem' : ⟨0, some begun⟩ ∉ h.queue () := fun hin => hmem (hj.mem_queue.1 hin)
  have hturn := hturns.turn begun l hl
  generalize hw' : h'.state = w', hq' : h'.queue () = q' at ht
  generalize hstart : Progress.start (lookUp ⟨0, some begun⟩ l) = p at ht
  cases ht with
  | blocked hp => exact absurd hstart.symm (hp _)
  | joined hq hw hp => exact ⟨_, hj.enqueue hlt hstage hq' (hw' ▸ hj.reached.enqueue)⟩
  | found hw hp =>
    obtain ⟨hcache, hnow⟩ := hj.cache_eq
    rw [hcache, hnow] at hp
    rw [byItself_of_live (hturns.peek_of_le hj.nextUp_le hj.begun_le hp)] at hturn
    obtain ⟨hresult, hsame⟩ := Prod.mk.inj hturn
    rw [List.erase_of_not_mem hmem'] at hq'
    rw [hresult] at hstage ⊢
    exact ⟨queue, hj.pass hlt hstage hq' (fun _ => hsame.symm) (hw' ▸ hj.reached.pass hsame.symm)⟩
  | suspended he =>
    obtain ⟨hnil, heq⟩ := he.queue_of_not_mem hmem'
    obtain rfl := hj.eq_nil hnil
    obtain ⟨hpeek, hnow⟩ := hj.entered_eq hturns hempty rfl hl he
    exact ⟨[begun], hj.enqueue hlt hstage (by rw [hq', heq, hnil]; rfl)
      (.fetching begun l rfl hl hpeek (hw'.trans hnow))⟩
  | finished he hf =>
    obtain ⟨hnil, heq⟩ := he.queue_of_not_mem hmem'
    obtain rfl := hj.eq_nil hnil
    obtain ⟨hpeek, hnow⟩ := hj.entered_eq hturns hempty (n := begun) rfl hl he
    rw [hnow] at hf
    rw [hf.byItself_eq hpeek] at hturn
    obtain ⟨hresult, hsame⟩ := Prod.mk.inj hturn
    rw [hresult] at hstage ⊢
    refine ⟨[], hj.pass hlt hstage ?_ (fun hne => absurd rfl hne) (.between (hw'.trans hsame))⟩
    rw [hq', heq, hnil, List.erase_cons_head]

theorem turn (hj : Joined gets w results begun queue ps h) (hp : ps[n]? = some p) (hn : n < begun) :
    let r := p.poll respond ⟨0, some n⟩ h
    ∃ queue, Joined gets w results begun queue (ps.set n r.1) r.2 := by
  intro r
  by_cases hhead : queue.head? = some n
  · obtain ⟨rest, rfl⟩ := List.head?_eq_some_iff.1 hhead
    obtain ⟨l, hl, hstage⟩ := hj.stage_of hp
    exact hj.turn_head hturns hempty hl (turned hstage hj.nodup) (hj.stage_set hp)
  · have hset : ps.set n p = ps := by
      obtain ⟨hlen, rfl⟩ := List.getElem?_eq_some_iff.1 hp
      exact List.set_getElem_self hlen
    simp only [r, hj.poll_eq_of_behind hp hn hhead, hset]
    exact ⟨queue, hj⟩

omit hempty in
theorem not_panicked (hj : Joined gets w results begun queue ps h) (hp : ps[n]? = some p) :
    p.hasPanicked = false := by
  obtain ⟨l, hl, hstage⟩ := hj.stage_of hp
  obtain ⟨hn, -⟩ := List.getElem?_eq_some_iff.1 hl
  cases hstage with
  | fresh => rfl
  | queued => rfl
  | fetching => rfl
  | ended hq =>
    by_cases hbegun : n < begun
    · obtain ⟨hended, -⟩ := hj.settled n hbegun fun hmem => hq (hj.mem_queue.2 hmem)
      obtain ⟨r, hr⟩ : ∃ r, results[n]? = some r := ⟨_, List.getElem?_eq_getElem (hturns.length ▸ hn)⟩
      rw [hr] at hended
      obtain rfl := Progress.ended.inj (Option.some.inj (hp.symm.trans hended))
      rfl
    · exact absurd (hp.symm.trans (hj.fresh n l (Nat.le_of_not_lt hbegun) hl)) nofun

theorem pollBranches (hj : Joined gets w results gets.length queue ps h) (order : List Nat) :
    let r := Work.pollBranches respond 0 order ps h
    ∃ queue, Joined gets w results gets.length queue r.1 r.2 := by
  induction order generalizing queue ps h with
  | nil => exact ⟨queue, hj⟩
  | cons n order ih =>
    simp only [Work.pollBranches]
    cases hp : ps[n]? with
    | none => exact ih hj
    | some p =>
      obtain ⟨hn, -⟩ := List.getElem?_eq_some_iff.1 hp
      obtain ⟨queue', hj'⟩ := hj.turn hturns hempty hp (hj.length ▸ hn)
      have hfine := hj'.not_panicked hturns (List.getElem?_set_self hn)
      simp only [hfine, Bool.false_eq_true, if_false]
      exact ih hj'

theorem pollBranches_first [LawfulEqOrd κ] [DecidableEq κ]
    (hj : Joined gets w results begun queue ps h) {count : Nat} (hcount : begun + count = gets.length) :
    let r := Work.pollBranches respond 0 (List.range' begun count) ps h
    ∃ queue, Joined gets w results gets.length queue r.1 r.2 := by
  induction count generalizing begun queue ps h with
  | zero =>
    obtain rfl : begun = gets.length := hcount
    exact ⟨queue, hj⟩
  | succ count ih =>
    have hlt : begun < gets.length := by omega
    have hl : gets[begun]? = some gets[begun] := List.getElem?_eq_getElem hlt
    have hp := hj.fresh begun gets[begun] (Nat.le_refl begun) hl
    obtain ⟨hn, -⟩ := List.getElem?_eq_some_iff.1 hp
    obtain ⟨l, hl', hstage⟩ := hj.stage_of hp
    obtain rfl := Option.some.inj (hl.symm.trans hl')
    obtain ⟨queue', hj'⟩ :=
      hj.turn_first hturns hempty hl (turned hstage hj.nodup) (hj.stage_set hp)
    have hfine := hj'.not_panicked hturns (List.getElem?_set_self hn)
    simp only [List.range'_succ, Work.pollBranches, hp, hfine, Bool.false_eq_true, if_false]
    exact ih hj' (by omega)

end Joined

end GuildBot.Cache.Watched

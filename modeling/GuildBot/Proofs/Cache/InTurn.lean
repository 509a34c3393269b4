import GuildBot.Proofs.Cache.Entry
import GuildBot.Proofs.Cache.WatchTurn
import GuildBot.Proofs.Flow.SingleTask

namespace GuildBot

open Std

private theorem Flow.eval_mapM_id {σ ℓ γ α : Type} {answer : γ → Type} (respond : Respond σ answer)
    (state : Nat → σ) {fs : List (Program σ ℓ answer α)} {results : List α}
    (hlen : results.length = fs.length)
    (h : ∀ n f, fs[n]? = some f → eval respond f (state n) = (results[n]?, state (n + 1))) :
    eval respond (fs.mapM id) (state 0) = (some results, state fs.length) := by
  induction fs generalizing state results with
  | nil =>
    obtain rfl := List.length_eq_zero_iff.1 hlen
    rfl
  | cons f fs ih =>
    obtain ⟨r, results, rfl⟩ := List.exists_cons_of_length_eq_add_one hlen
    have hfirst : eval respond f (state 0) = (some r, state 1) := h 0 f rfl
    have hrest := ih (fun n => state (n + 1)) (Nat.succ.inj hlen)
      fun n f hf => h (n + 1) f hf
    simp only [List.mapM_cons, Flow.bind_def, Flow.pure_def, id_eq, eval_bind, hfirst, hrest, eval_done,
      List.length_cons]

namespace Cache.Watched

variable {κ β ε : Type} [Ord κ] [TransOrd κ]

/-- What a lookup comes to that nobody disturbs, and the watched cache after it. -/
def byItself (s : Strand) (l : Lookup κ β ε) (w : Watched κ β) :
    Option (Except ε β) × Watched κ β :=
  match w.cache.peek w.now l.key with
  | some value => (some (.ok value), w)
  | none =>
    let w' := (w.tell (.began s l.key w.now)).tell (.finished s)
    match l.outcome with
    | none => (none, w')
    | some (.error e) => (some (.error e), w')
    | some (.ok value) => match w.cache.insert? w.now l.key value with
      | none => (none, w')
      | some cache =>
        (some (.ok value),
          ({ w' with cache } : Watched κ β).tell (.stored s l.key w.now cache.entries[l.key]?))

section

variable {s : Strand} {l : Lookup κ β ε} {w w' : Watched κ β}

theorem byItself_of_live {value : β} (hp : w.cache.peek w.now l.key = some value) :
    byItself s l w = (some (.ok value), w) := by
  simp only [byItself, hp]

/-- A fetch that began where nothing was live ends as if nobody had disturbed it. -/
theorem Finishes.byItself_eq {r : Option (Except ε β)} (hp : w.cache.peek w.now l.key = none)
    (hf : Finishes s l (w.tell (.began s l.key w.now)) r w') : byItself s l w = (r, w') := by
  cases hf with
  | failed ho => simp only [byItself, hp, ho]
  | stored ho hc =>
    simp only [tell] at hc
    simp only [byItself, hp, ho, hc, tell]
  | panicked h =>
    simp only [tell] at h
    rcases h with ho | ⟨value, ho, hc⟩
    · simp only [byItself, hp, ho, tell]
    · simp only [byItself, hp, ho, hc, tell]

omit [TransOrd κ] in
private theorem eval_suspend (suspensions : List Suspension) (w : Watched κ β) :
    Flow.eval respond (suspend suspensions) w = (some (), w) := by
  induction suspensions with
  | nil => rfl
  | cons suspension rest ih =>
    cases suspension with
    | pause => exact ih
    | wait n => exact ih

private theorem eval_lookUp (hb : w.hasBegun s = false) :
    Flow.eval respond (lookUp s l) w = byItself s l w := by
  simp only [lookUp, Flow.eval_bind, Place.eval_get, place_view, place_now]
  cases hp : w.cache.peek w.now l.key with
  | some value =>
    simp only [byItself_of_live hp, report, Flow.eval_act, Flow.eval_done, tellStored, hb]
    rfl
  | none =>
    have hbegun (cache : Cache κ β) : Watched.hasBegun
        { (w.tell (.began s l.key w.now)).tell (.finished s) with cache } s = true :=
      (hasBegun_iff _ s).2 ⟨l.key, w.now, by simp [tell]⟩
    simp only [byItself, hp, fetch, awaited, Flow.eval_act, Flow.eval_bind, eval_suspend]
    cases ho : l.outcome with
    | none => rfl
    | some r =>
      cases r with
      | error e => rfl
      | ok value =>
        simp only [Flow.eval_done, place, tell] at hbegun ⊢
        cases hc : w.cache.insert? w.now l.key value with
        | none => rfl
        | some cache => simp only [report, Flow.eval_act, Flow.eval_done, tellStored, hbegun, if_true, tell]

private theorem byItself_congr {l' : Lookup κ β ε} (hkey : l'.key = l.key) (ho : l'.outcome = l.outcome)
    (w : Watched κ β) : byItself s l' w = byItself s l w := by
  simp only [byItself, hkey, ho]

private theorem now_byItself (s : Strand) (l : Lookup κ β ε) (w : Watched κ β) :
    (byItself s l w).2.now = w.now := by
  unfold byItself
  split
  · rfl
  · split
    · rfl
    · rfl
    · split <;> rfl

private theorem lifetime_byItself (s : Strand) (l : Lookup κ β ε) (w : Watched κ β) :
    (byItself s l w).2.cache.lifetime = w.cache.lifetime := by
  unfold byItself
  split
  · rfl
  · split
    · rfl
    · rfl
    · split
      · rfl
      · next hc => exact lifetime_insert? hc

private theorem Silent.byItself {s' : Strand} (hw : w.Silent s') (hs : s ≠ s') :
    (byItself s l w).2.Silent s' := by
  have htell {w : Watched κ β} {e : Event κ β} (hw : w.Silent s') (he : e.strand? = some s) :
      (w.tell e).Silent s' := by
    intro e' he'
    rcases List.mem_append.1 he' with he' | he'
    · exact hw e' he'
    · rw [List.mem_singleton.1 he', he]
      simpa using hs
  have hfinished : ((w.tell (.began s l.key w.now)).tell (.finished s)).Silent s' :=
    htell (htell hw rfl) rfl
  unfold Watched.byItself
  split
  · exact hw
  · split
    · exact hfinished
    · exact hfinished
    · split
      · exact hfinished
      · next cache _ =>
        refine htell (w := { (w.tell (.began s l.key w.now)).tell (.finished s) with cache }) ?_ rfl
        exact hfinished

private theorem byItself_isSome (ho : l.outcome.isSome = true)
    (hclock : (w.now.add? w.cache.lifetime).isSome = true) : (byItself s l w).1.isSome = true := by
  unfold Watched.byItself
  split
  · rfl
  · split
    · next hnone => simp [hnone] at ho
    · rfl
    · next value _ =>
      obtain ⟨cache, hc⟩ := Option.isSome_iff_exists.1
        ((insert?_isSome_iff w.cache w.now l.key value).2 hclock)
      simp only [hc]
      rfl

/-- While the clock stands still, what is live stays live. -/
private theorem peek_byItself [LawfulEqOrd κ] [DecidableEq κ] {key : κ} {value : β}
    (hp : w.cache.peek w.now key = some value) :
    (byItself s l w).2.cache.peek (byItself s l w).2.now key = some value := by
  rw [now_byItself]
  unfold Watched.byItself
  split
  · exact hp
  · next hmiss =>
    split
    · exact hp
    · exact hp
    · split
      · exact hp
      · next cache hc =>
        have hne : key ≠ l.key := by
          rintro rfl
          cases hmiss.symm.trans hp
        exact (peek_insert? hc w.now key).trans ((if_neg hne).trans hp)

end

/-- Whether lookups that are made in turn come to the listed results, by way of these watched caches. -/
structure InTurn (gets : List (Lookup κ β ε)) (w : Nat → Watched κ β) (results : List (Except ε β)) :
    Prop where
  length : results.length = gets.length
  turn : ∀ n l, gets[n]? = some l → byItself ⟨0, some n⟩ l (w n) = (results[n]?, w (n + 1))

theorem branches_getElem? (gets : List (Lookup κ β ε)) (n : Nat) :
    (branches gets)[n]? = gets[n]?.map (lookUp ⟨0, some n⟩) := by
  simp [branches]

namespace InTurn

variable {gets : List (Lookup κ β ε)} {w : Nat → Watched κ β} {results : List (Except ε β)}

theorem congr (h : InTurn gets w results) {gets' : List (Lookup κ β ε)}
    (hsame : gets'.map (fun l => (l.key, l.outcome)) = gets.map fun l => (l.key, l.outcome)) :
    InTurn gets' w results := by
  have hlen : gets'.length = gets.length := by simpa using congrArg List.length hsame
  refine ⟨h.length.trans hlen.symm, fun n l' hl' => ?_⟩
  have hn := congrArg (·[n]?) hsame
  simp only [List.getElem?_map, hl', Option.map_some] at hn
  obtain ⟨l, hl, heq⟩ := Option.map_eq_some_iff.1 hn.symm
  obtain ⟨hkey, ho⟩ := Prod.mk.inj heq
  rw [byItself_congr hkey.symm ho.symm]
  exact h.turn n l hl

theorem silent (h : InTurn gets w results) (hfresh : (w 0).chronicle = []) {n m : Nat}
    (hnm : n ≤ m) (hn : n ≤ gets.length) : (w n).Silent ⟨0, some m⟩ := by
  induction n with
  | zero => simp [Silent, hfresh]
  | succ n ih =>
    have hturn := h.turn n gets[n] (List.getElem?_eq_getElem hn)
    have hsilent := (ih (Nat.le_of_succ_le hnm) (Nat.le_of_succ_le hn)).byItself
      (s := ⟨0, some n⟩) (l := gets[n]) (by simp; omega)
    rwa [hturn] at hsilent

theorem peek_of_le [LawfulEqOrd κ] [DecidableEq κ] (h : InTurn gets w results) {n m : Nat}
    (hnm : n ≤ m) (hm : m ≤ gets.length) {key : κ} {value : β}
    (hp : (w n).cache.peek (w n).now key = some value) :
    (w m).cache.peek (w m).now key = some value := by
  induction hnm with
  | refl => exact hp
  | @step m _ ih =>
    have hturn := h.turn m gets[m] (List.getElem?_eq_getElem hm)
    have hpeek := peek_byItself (s := ⟨0, some m⟩) (l := gets[m]) (ih (Nat.le_of_succ_le hm))
    rwa [hturn] at hpeek

theorem eval_eq (h : InTurn gets w results) (hfresh : (w 0).chronicle = []) :
    Flow.eval respond ((branches gets).mapM id) (w 0) = (some results, w gets.length) := by
  have hlen : (branches gets).length = gets.length := by simp [branches]
  rw [← hlen]
  refine Flow.eval_mapM_id respond w (h.length.trans hlen.symm) fun n f hf => ?_
  rw [branches_getElem?] at hf
  obtain ⟨l, hl, rfl⟩ := Option.map_eq_some_iff.1 hf
  obtain ⟨hn, -⟩ := List.getElem?_eq_some_iff.1 hl
  rw [eval_lookUp (h.silent hfresh (Nat.le_refl n) (Nat.le_of_lt hn)).hasBegun]
  exact h.turn n l hl

end InTurn

/-- The watched cache after the first `n` of some lookups that are made in turn. -/
def afterTurns (gets : List (Lookup κ β ε)) (w : Watched κ β) : Nat → Watched κ β
  | 0 => w
  | n + 1 => match gets[n]? with
    | some l => (byItself ⟨0, some n⟩ l (afterTurns gets w n)).2
    | none => afterTurns gets w n

private theorem storable_afterTurns (gets : List (Lookup κ β ε)) {w : Watched κ β}
    (hclock : (w.now.add? w.cache.lifetime).isSome = true) (n : Nat) :
    ((afterTurns gets w n).now.add? (afterTurns gets w n).cache.lifetime).isSome = true := by
  induction n with
  | zero => exact hclock
  | succ n ih =>
    rw [afterTurns]
    split
    · rwa [now_byItself, lifetime_byItself]
    · exact ih

theorem exists_inTurn {w : Watched κ β} {gets : List (Lookup κ β ε)}
    (ho : ∀ l ∈ gets, l.outcome.isSome = true)
    (hclock : (w.now.add? w.cache.lifetime).isSome = true) :
    ∃ results, InTurn gets (afterTurns gets w) results := by
  have hsome (n : Fin gets.length) :
      (byItself ⟨0, some n⟩ gets[n] (afterTurns gets w n)).1.isSome = true :=
    byItself_isSome (ho _ (List.getElem_mem _)) (storable_afterTurns gets hclock n)
  refine ⟨List.ofFn fun n => (byItself ⟨0, some n⟩ gets[n] (afterTurns gets w n)).1.get (hsome n),
    List.length_ofFn, fun n l hl => ?_⟩
  obtain ⟨hn, rfl⟩ := List.getElem?_eq_some_iff.1 hl
  rw [afterTurns, hl, List.getElem?_ofFn, dif_pos hn]
  simp

end Cache.Watched

end GuildBot

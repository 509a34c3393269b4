import GuildBot.Proofs.Bot.Fetching
import GuildBot.Proofs.Bot.Push
import GuildBot.Proofs.Flow.SingleTask
import GuildBot.Rehearsal.Overlap

/-!
# The later of a fetch and a push stands

A push does not wait for the fetch of a lookup, and the lookup does not look again before it stores what it
has fetched. So what is pushed meanwhile is overwritten, unless there is nothing to store.
-/

namespace GuildBot

open Std Progress

variable {σ ℓ γ : Type} {answer : γ → Type} {α : Type}

private theorem Progress.run_of_brief [DecidableEq ℓ] (respond : Respond σ answer) (me : Strand)
    {f : Program σ ℓ answer α} (hf : f.Brief 0) (h : Hub σ ℓ) :
    run respond me f h =
      (.ended (Flow.eval respond f h.state).1, { h with state := (Flow.eval respond f h.state).2 }) := by
  induction f generalizing h with
  | done a => rfl
  | panic => rfl
  | act update next ih => exact ih h.state (hf h.state) { h with state := update h.state }
  | ask request next ih =>
    obtain ⟨m, hm, -⟩ := hf
    cases hm

namespace Rehearsal

open Directory Platform

namespace Pair

variable {c : Pair α}

theorem after_append (c : Pair α) (ms ms' : List Overlap.Move) :
    c.after (ms ++ ms') = (c.after ms).after ms' := by
  simp [after, Crowd.run]

private theorem after_cons (c : Pair α) (m : Overlap.Move) (ms : List Overlap.Move) :
    c.after (m :: ms) = (c.after [m]).after ms := rfl

private theorem after_lookUp (c : Pair α) :
    c.after [.lookUp] = ⟨((c.progress seeker).poll Bot.respond seeker c.hub).2, fun s =>
      if s = seeker then ((c.progress seeker).poll Bot.respond seeker c.hub).1 else c.progress s⟩ := rfl

private theorem after_push (c : Pair α) :
    c.after [.push] = ⟨((c.progress pusher).poll Bot.respond pusher c.hub).2, fun s =>
      if s = pusher then ((c.progress pusher).poll Bot.respond pusher c.hub).1 else c.progress s⟩ := rfl

private theorem bot_after_pass (c : Pair α) (n : Nat) : (c.after [.pass n]).bot = c.bot :=
  Hub.arrive_state c.hub (c.hub.now + n)

private theorem progress_after_of_ended {s : Strand} {r : Option (Found α ⊕ List Change)}
    (hs : c.progress s = .ended r) (ms : List Overlap.Move) : (c.after ms).progress s = .ended r := by
  induction ms generalizing c with
  | nil => exact hs
  | cons m ms ih =>
    rw [after_cons]
    apply ih
    cases m with
    | lookUp =>
      by_cases h : s = seeker
      · subst h
        simp [after_lookUp, hs, Progress.poll]
      · simp [after_lookUp, h, hs]
    | push =>
      by_cases h : s = pusher
      · subst h
        simp [after_push, hs, Progress.poll]
      · simp [after_push, h, hs]
    | pass n => exact hs
    | setClocks t => exact hs

private theorem after_push_of_ended {r : Option (Found α ⊕ List Change)} (h : c.progress pusher = .ended r) :
    c.after [.push] = c := by
  rw [after_push, h]
  unfold Progress.poll
  congr 1
  funext s
  by_cases hs : s = pusher
  · rw [if_pos hs, hs, h]
  · rw [if_neg hs]

theorem IsSeeking.before {ms : List Overlap.Move} (h : (c.after ms).IsSeeking) : c.IsSeeking := by
  obtain ⟨obstacle, rest, h⟩ := h
  cases hp : c.progress seeker with
  | waiting obstacle rest => exact ⟨obstacle, rest, hp⟩
  | ended r =>
    rw [progress_after_of_ended hp] at h
    cases h

/-- A push that is over was absorbed already then, if it is seen to have been later. -/
theorem HasAbsorbed.before {r : Option (Found α ⊕ List Change)} {ms : List Overlap.Move}
    (h : (c.after ms).HasAbsorbed) (hr : c.progress pusher = .ended r) : c.HasAbsorbed := by
  obtain ⟨changes, h⟩ := h
  rw [progress_after_of_ended hr] at h
  exact ⟨changes, hr.trans h⟩

private theorem progress_pusher_after {ms : List Overlap.Move} (hms : .push ∉ ms) :
    (c.after ms).progress pusher = c.progress pusher := by
  induction ms generalizing c with
  | nil => rfl
  | cons m ms ih =>
    obtain ⟨hm, hms⟩ := List.ne_and_not_mem_of_not_mem_cons hms
    rw [after_cons, ih hms]
    cases m with
    | push => exact absurd rfl hm
    | lookUp => rfl
    | pass n => rfl
    | setClocks t => rfl

end Pair

/-- A kind of record, by how it is looked up and how an update of it is absorbed. -/
structure Subject (κ α : Type) [Ord κ] [TransOrd κ] where
  shelf : Shelf κ α
  id : String
  key : κ
  fetch : Action (Except (Partial α) α)
  learned : Bot → Option (Except (Partial α) α)
  push : Action (List Change)
  Shows : α → Prop
  learns : ∀ b, Learns b fetch (learned b)
  unhindered : fetch.Unhindered [] 2
  view_put : ∀ c b, shelf.place.view (shelf.place.put c b) = c
  view_setClocks : ∀ t b, shelf.place.view (Pair.setClocks t b) = shelf.place.view b
  brief : push.Brief 0
  kept : ∀ b : Bot, b.Kept (Flow.eval Bot.respond push b).2 ∧
    (Flow.eval Bot.respond push b).2.deeds = b.deeds
  lifetime : ∀ b : Bot, (shelf.place.view (Flow.eval Bot.respond push b).2).lifetime =
    (shelf.place.view b).lifetime
  holds : ∀ b : Bot, (Flow.eval Bot.respond push b).1 ≠ none →
    (shelf.place.view (Flow.eval Bot.respond push b).2).Holds key Shows
  live : ∀ b : Bot, (Flow.eval Bot.respond push b).1 ≠ none →
    0 < (shelf.place.view b).lifetime.nanoseconds →
    ((shelf.place.view (Flow.eval Bot.respond push b).2).peek b.now key).isSome = true

namespace Subject

variable {κ : Type} [Ord κ] [TransOrd κ] (u : Subject κ α) {x : Option (Except (Partial α) α)}
  {d : Duration} {c : Pair α}

def lookUp : Action (Found α) := find u.shelf.place u.id u.key u.fetch

def cache (c : Pair α) : Cache κ α := u.shelf.place.view c.bot

private theorem view_of_consults {b b' : Bot} (h : b.Consults b') :
    u.shelf.place.view b' = u.shelf.place.view b := by
  obtain ⟨calls, lines, rfl⟩ := h
  exact u.shelf.view_asked b calls lines

/-- A lookup that has not begun. If it fetches it will learn `x`. -/
structure IsIdle (x : Option (Except (Partial α) α)) (d : Duration) (c : Pair α) : Prop where
  progress : c.progress Pair.seeker = .start (u.lookUp.bind fun found => .done (.inl found))
  queue : c.hub.queue u.shelf.place.lock = []
  learns : Learns c.bot u.fetch x
  lifetime : (u.cache c).lifetime = d

/-- A lookup that has begun its fetch, which will learn `x`. -/
structure IsFetching (x : Option (Except (Partial α) α)) (d : Duration) (c : Pair α) : Prop where
  named : u.id ≠ ""
  learns : ∃ obstacle rest, c.progress Pair.seeker = .waiting obstacle (remaining u.shelf u.key .inl rest) ∧
    Learns c.bot rest x
  lifetime : (u.cache c).lifetime = d

/-- A lookup that fetches although an update of its record was pushed, and that has left the cache as it
was after the push. -/
structure IsOvertaken (x : Option (Except (Partial α) α)) (d : Duration) (kept : Cache κ α)
    (c : Pair α) : Prop extends u.IsFetching x d c where
  pushed : ∃ r, c.progress Pair.pusher = .ended r
  cache_eq : u.cache c = kept

variable {u}

theorem IsIdle.turn (h : u.IsIdle x d c) (hs : (c.after [.lookUp]).IsSeeking) :
    u.IsFetching x d (c.after [.lookUp]) := by
  have hpoll : (c.progress Pair.seeker).poll Bot.respond Pair.seeker c.hub =
      run Bot.respond Pair.seeker (u.lookUp.bind fun found => .done (.inl found)) c.hub := by
    rw [h.progress]
    rfl
  have hafter := Pair.after_lookUp c
  rw [hpoll] at hafter
  obtain ⟨obstacle, rest, hs⟩ := hs
  by_cases hid : u.id = ""
  · have hnothing : u.lookUp = .done (.ok none) := if_pos hid
    simp [hafter, hnothing, Flow.bind, run] at hs
  have hturn := run_find u.shelf u.key (Sum.inl (β := List Change)) hid u.fetch Pair.seeker h.queue
  rw [lookUp, hturn] at hafter
  cases hp : (u.shelf.place.view c.hub.state).peek (u.shelf.place.now c.hub.state) u.key with
  | some record => simp [hafter, hp] at hs
  | none =>
    rcases run_remaining u.shelf u.key (Sum.inl (β := List Change)) h.learns Pair.seeker
      (h := c.hub.claim u.shelf.place.lock Pair.seeker) (.refl _) with
      ⟨obstacle, rest, hrun, hconsults, hrest⟩ | ⟨b, -, hrun, -⟩
    · rw [hafter]
      simp only [hp]
      exact ⟨hid, ⟨obstacle, rest, hrun, hrest⟩,
        (congrArg Cache.lifetime (u.view_of_consults hconsults)).trans h.lifetime⟩
    · simp [hafter, hp, hrun] at hs

/-- A turn of a lookup that fetches leaves it fetching, or settles what was learned. -/
theorem IsFetching.turn (h : u.IsFetching x d c) :
    (u.IsFetching x d (c.after [.lookUp]) ∧ u.cache (c.after [.lookUp]) = u.cache c) ∨
    ∃ b', c.bot.Consults b' ∧
      (c.after [.lookUp]).progress Pair.seeker =
        .ended ((settle u.shelf.place u.key x b').1.map .inl) ∧
      (c.after [.lookUp]).bot = (settle u.shelf.place u.key x b').2 := by
  obtain ⟨hid, ⟨obstacle, rest, hp, hl⟩, hd⟩ := h
  have hpoll : (c.progress Pair.seeker).poll Bot.respond Pair.seeker c.hub =
      if isClear c.hub Pair.seeker obstacle then
        run Bot.respond Pair.seeker (remaining u.shelf u.key .inl rest) c.hub
      else (.waiting obstacle (remaining u.shelf u.key .inl rest), c.hub) := by
    rw [hp]
    rfl
  rw [Pair.after_lookUp, hpoll]
  by_cases hclear : isClear c.hub Pair.seeker obstacle = true
  · rw [if_pos hclear]
    rcases run_remaining u.shelf u.key (Sum.inl (β := List Change)) hl Pair.seeker (h := c.hub)
      (.refl _) with ⟨obstacle', rest', hrun, hconsults, hrest⟩ | ⟨b', hconsults, hrun, hstate⟩
    · have hcache := u.view_of_consults hconsults
      exact .inl ⟨⟨hid, ⟨obstacle', rest', hrun, hrest⟩, (congrArg Cache.lifetime hcache).trans hd⟩, hcache⟩
    · exact .inr ⟨b', hconsults, hrun, hstate⟩
  · rw [if_neg hclear]
    exact .inl ⟨⟨hid, ⟨obstacle, rest, rfl, hl⟩, hd⟩, rfl⟩

private theorem IsFetching.after_one (h : u.IsFetching x d c) {m : Overlap.Move} (hm : m ≠ .push)
    (hs : (c.after [m]).IsSeeking) :
    u.IsFetching x d (c.after [m]) ∧ u.cache (c.after [m]) = u.cache c := by
  cases m with
  | push => exact absurd rfl hm
  | lookUp =>
    rcases h.turn with hfetching | ⟨b', -, hended, -⟩
    · exact hfetching
    · obtain ⟨obstacle, rest, hs⟩ := hs
      rw [hended] at hs
      cases hs
  | pass n =>
    obtain ⟨hid, ⟨obstacle, rest, hp, hl⟩, hd⟩ := h
    have hbot := Pair.bot_after_pass c n
    have hcache : u.cache (c.after [.pass n]) = u.cache c := congrArg u.shelf.place.view hbot
    exact ⟨⟨hid, ⟨obstacle, rest, hp, by rw [hbot]; exact hl⟩, by rw [hcache]; exact hd⟩, hcache⟩
  | setClocks t =>
    obtain ⟨hid, ⟨obstacle, rest, hp, hl⟩, hd⟩ := h
    have hcache : u.cache (c.after [.setClocks t]) = u.cache c := u.view_setClocks t c.bot
    exact ⟨⟨hid, ⟨obstacle, rest, hp, hl.congr ⟨rfl, rfl⟩⟩, by rw [hcache]; exact hd⟩, hcache⟩

theorem IsFetching.after (h : u.IsFetching x d c) {ms : List Overlap.Move} (hms : .push ∉ ms)
    (hs : (c.after ms).IsSeeking) : u.IsFetching x d (c.after ms) := by
  induction ms generalizing c with
  | nil => exact h
  | cons m ms ih =>
    obtain ⟨hm, hrest⟩ := List.ne_and_not_mem_of_not_mem_cons hms
    rw [Pair.after_cons] at hs ⊢
    exact ih (h.after_one hm.symm hs.before).1 hrest hs

theorem IsIdle.after (h : u.IsIdle x d c) {ms : List Overlap.Move}
    (hbegun : .lookUp ∈ ms) (hms : .push ∉ ms) (hs : (c.after ms).IsSeeking) :
    u.IsFetching x d (c.after ms) := by
  induction ms generalizing c with
  | nil => exact absurd hbegun List.not_mem_nil
  | cons m ms ih =>
    obtain ⟨hm, hrest⟩ := List.ne_and_not_mem_of_not_mem_cons hms
    rw [Pair.after_cons] at hs ⊢
    cases m with
    | push => exact absurd rfl hm
    | lookUp => exact (h.turn hs.before).after hrest hs
    | pass n =>
      have hbot := Pair.bot_after_pass c n
      have hidle : u.IsIdle x d (c.after [.pass n]) :=
        ⟨h.progress, (Hub.queue_arrive _ _ _).trans h.queue, by rw [hbot]; exact h.learns,
          (congrArg (fun b => (u.shelf.place.view b).lifetime) hbot).trans h.lifetime⟩
      exact ih hidle (by simpa using hbegun) hrest hs
    | setClocks t =>
      have hidle : u.IsIdle x d (c.after [.setClocks t]) :=
        ⟨h.progress, h.queue, h.learns.congr ⟨rfl, rfl⟩,
          (congrArg Cache.lifetime (u.view_setClocks t c.bot)).trans h.lifetime⟩
      exact ih hidle (by simpa using hbegun) hrest hs

private theorem after_push
    (hp : c.progress Pair.pusher = .start (u.push.bind fun changes => .done (.inr changes))) :
    (c.after [.push]).bot = (Flow.eval Bot.respond u.push c.bot).2 ∧
    (c.after [.push]).progress Pair.pusher =
      .ended ((Flow.eval Bot.respond u.push c.bot).1.map .inr) ∧
    (c.after [.push]).progress Pair.seeker = c.progress Pair.seeker := by
  have hbrief : (u.push.bind fun changes => .done (.inr changes : Found α ⊕ List Change)).Brief 0 :=
    Flow.Brief.bind (n := 0) u.brief fun _ => trivial
  have hrun := Progress.run_of_brief Bot.respond Pair.pusher hbrief c.hub
  rw [Flow.eval_bind_done] at hrun
  have hpoll : (c.progress Pair.pusher).poll Bot.respond Pair.pusher c.hub =
      run Bot.respond Pair.pusher (u.push.bind fun changes => .done (.inr changes)) c.hub := by
    rw [hp]
    rfl
  rw [Pair.after_push, hpoll, hrun]
  exact ⟨rfl, rfl, rfl⟩

/-- A push that has its turn while a lookup fetches overtakes it. -/
theorem IsFetching.push (h : u.IsFetching x d c)
    (hp : c.progress Pair.pusher = .start (u.push.bind fun changes => .done (.inr changes))) :
    u.IsOvertaken x d (u.cache (c.after [.push])) (c.after [.push]) := by
  obtain ⟨hbot, hpusher, hseeker⟩ := after_push hp
  obtain ⟨hid, ⟨obstacle, rest, hwaiting, hl⟩, hd⟩ := h
  refine ⟨⟨hid, ⟨obstacle, rest, hseeker.trans hwaiting, ?_⟩, ?_⟩, ⟨_, hpusher⟩, rfl⟩
  · rw [hbot]
    exact hl.congr (.of_kept (u.kept c.bot).1 (u.kept c.bot).2)
  · rw [cache, hbot]
    exact (u.lifetime c.bot).trans hd

private theorem exists_live_of_push (hd : 0 < (u.cache c).lifetime.nanoseconds)
    (hp : c.progress Pair.pusher = .start (u.push.bind fun changes => .done (.inr changes)))
    (habsorbed : (c.after [.push]).HasAbsorbed) :
    ∃ record, (u.cache (c.after [.push])).peek (c.after [.push]).bot.now u.key = some record ∧
      u.Shows record := by
  obtain ⟨hbot, hpusher, -⟩ := after_push hp
  have hvalue : (Flow.eval Bot.respond u.push c.bot).1 ≠ none := by
    obtain ⟨changes, hchanges⟩ := habsorbed
    intro hnone
    rw [hpusher, hnone] at hchanges
    cases hchanges
  obtain ⟨record, hlive⟩ := Option.isSome_iff_exists.1 (u.live c.bot hvalue hd)
  have hnow : (Flow.eval Bot.respond u.push c.bot).2.now = c.bot.now := (u.kept c.bot).1.now
  rw [cache, hbot, hnow]
  exact ⟨record, hlive, (u.holds c.bot hvalue).of_peek hlive⟩

theorem IsOvertaken.after {kept : Cache κ α} (h : u.IsOvertaken x d kept c) {ms : List Overlap.Move}
    (hs : (c.after ms).IsSeeking) : u.IsOvertaken x d kept (c.after ms) := by
  induction ms generalizing c with
  | nil => exact h
  | cons m ms ih =>
    rw [Pair.after_cons] at hs ⊢
    apply ih _ hs
    obtain ⟨r, hr⟩ := h.pushed
    by_cases hm : m = .push
    · rw [hm, Pair.after_push_of_ended hr]
      exact h
    · obtain ⟨hfetching, hcache⟩ := h.after_one hm hs.before
      exact ⟨hfetching, ⟨r, Pair.progress_after_of_ended hr [m]⟩, hcache.trans h.cache_eq⟩

/-- A lookup that fetches when an update of its record is pushed is overtaken, and what the push leaves is
live. -/
private theorem overtaken (b : Bot) {before after : List Overlap.Move} (hbegun : .lookUp ∈ before)
    (hunpushed : .push ∉ before)
    (hseeking : ((Pair.start b u.lookUp u.push).after (before ++ .push :: after)).IsSeeking) :
    let pushed := (Pair.start b u.lookUp u.push).after (before ++ [.push])
    u.IsOvertaken (u.learned b) (u.shelf.place.view b).lifetime (u.cache pushed)
      ((Pair.start b u.lookUp u.push).after (before ++ .push :: after)) ∧
    (∃ r, pushed.progress Pair.pusher = .ended r) ∧
    (0 < (u.shelf.place.view b).lifetime.nanoseconds → pushed.HasAbsorbed →
      ∃ record, (u.cache pushed).peek pushed.bot.now u.key = some record ∧ u.Shows record) := by
  have hidle : u.IsIdle (u.learned b) (u.shelf.place.view b).lifetime (Pair.start b u.lookUp u.push) :=
    ⟨rfl, rfl, u.learns b, rfl⟩
  simp only [Pair.after_append] at hseeking ⊢
  rw [Pair.after_cons] at hseeking ⊢
  have hfetching := hidle.after hbegun hunpushed hseeking.before.before
  have hpusher := Pair.progress_pusher_after (c := Pair.start b u.lookUp u.push) hunpushed
  have hovertaken := hfetching.push hpusher
  refine ⟨hovertaken.after hseeking, hovertaken.pushed, fun hd habsorbed => ?_⟩
  rw [← hfetching.lifetime] at hd
  exact exists_live_of_push hd hpusher habsorbed

private theorem runAlone_lookUp {b : Bot} {record : α} (hid : u.id ≠ "")
    (hp : (u.shelf.place.view b).peek b.now u.key = some record) :
    let r := Machine.runAlone (δ := Unit) Bot.respond b (.ofProgram u.lookUp) none
    (r.1, r.2.2) = (.value (.ok (some record)), b) := by
  have hunhindered : u.lookUp.Unhindered _ _ :=
    unhindered_find u.shelf.place u.key u.unhindered List.not_mem_nil
  have hpeek : (u.shelf.place.view b).peek (u.shelf.place.now b) u.key = some record := by
    rw [u.shelf.now_eq]
    exact hp
  have heval : Flow.eval Bot.respond u.lookUp b = (some (.ok (some record)), b) :=
    eval_find_of_peek u.shelf.place u.key u.fetch b hid hpeek
  have halone := Machine.runAlone_ofProgram (δ := Unit) Bot.respond b hunhindered (by decide)
  rw [heval] at halone
  exact Prod.ext halone.1 halone.2

variable [LawfulEqOrd κ] [DecidableEq κ]

private theorem peek_put {b : Bot} {record : α} {cache : Cache κ α}
    (hi : (u.shelf.place.view b).insert? (u.shelf.place.now b) u.key record = some cache)
    (hd : 0 < (u.shelf.place.view b).lifetime.nanoseconds) :
    cache.peek (u.shelf.place.put cache b).now u.key = some record := by
  have hnow : (u.shelf.place.put cache b).now = b.now := (u.shelf.kept_put cache b).now
  rw [u.shelf.now_eq] at hi
  rw [hnow, Cache.peek_insert? hi, if_pos rfl, if_pos (by omega)]

/-- What a lookup that is overtaken leaves when it ends: what it has fetched is stored in place of what was
pushed, and nothing else has changed if nothing could be fetched. -/
theorem IsOvertaken.found {kept : Cache κ α} (h : u.IsOvertaken x d kept c) {found : Found α}
    (hfound : (c.after [.lookUp]).HasFound found) :
    (∃ record, found = .ok (some record) ∧ x = some (.ok record) ∧ (0 < d.nanoseconds →
      (u.cache (c.after [.lookUp])).peek (c.after [.lookUp]).bot.now u.key = some record)) ∨
    ∃ p, found = .error p ∧ x = some (.error p) ∧ u.cache (c.after [.lookUp]) = kept := by
  rcases h.turn with ⟨hfetching, -⟩ | ⟨b', hconsults, hended, hbot⟩
  · obtain ⟨obstacle, rest, hp, -⟩ := hfetching.learns
    exact absurd (hp.symm.trans hfound) nofun
  have hvalue : (settle u.shelf.place u.key x b').1.map Sum.inl = some (Sum.inl found : _ ⊕ List Change) :=
    Progress.ended.inj (hended.symm.trans hfound)
  have hcache : u.shelf.place.view b' = u.cache c := u.view_of_consults hconsults
  rw [cache, hbot]
  rcases x with _ | p | record
  · cases hvalue
  · cases hvalue
    exact .inr ⟨p, rfl, rfl, hcache.trans h.cache_eq⟩
  · cases hi : (u.shelf.place.view b').insert? (u.shelf.place.now b') u.key record with
    | none => simp [settle, hi] at hvalue
    | some cache =>
      simp only [settle, hi, Option.map_some, Option.some.injEq, Sum.inl.injEq] at hvalue ⊢
      subst hvalue
      refine .inl ⟨record, rfl, rfl, fun hd => ?_⟩
      rw [u.view_put]
      apply peek_put hi
      rwa [hcache, h.lifetime]

/-- What stands when a lookup that was overtaken has ended. -/
theorem stands (u : Subject κ α) (b : Bot) {before after : List Overlap.Move}
    (hbegun : .lookUp ∈ before) (hunpushed : .push ∉ before)
    (hseeking : ((Pair.start b u.lookUp u.push).after (before ++ .push :: after)).IsSeeking)
    {c : Pair α} (hc : c = (Pair.start b u.lookUp u.push).after (before ++ .push :: after ++ [.lookUp]))
    {found : Found α} (hfound : c.HasFound found) (habsorbed : c.HasAbsorbed)
    (hlifetime : 0 < (u.shelf.place.view b).lifetime.nanoseconds) :
    let pushed := (Pair.start b u.lookUp u.push).after (before ++ [.push])
    let r := Machine.runAlone (δ := Unit) Bot.respond c.bot (.ofProgram u.lookUp) none
    (∃ record, found = .ok (some record) ∧ u.learned b = some (.ok record) ∧
      (u.cache c).peek c.bot.now u.key = some record ∧
      (r.1, r.2.2) = (.value (.ok (some record)), c.bot)) ∨
    ∃ p record, found = .error p ∧ u.learned b = some (.error p) ∧
      (u.cache pushed).peek pushed.bot.now u.key = some record ∧ u.Shows record ∧
      (∀ now, (u.cache c).peek now u.key = (u.cache pushed).peek now u.key) ∧
      ∀ record', (u.cache c).peek c.bot.now u.key = some record' → record' = record ∧
        (r.1, r.2.2) = (.value (.ok (some record)), c.bot) := by
  intro pushed
  obtain ⟨hovertaken, ⟨ending, hended⟩, hlive⟩ := u.overtaken b hbegun hunpushed hseeking
  rw [Pair.after_append] at hc
  subst hc
  rcases hovertaken.found hfound with ⟨record, hrecord, hlearned, hpeek⟩ | ⟨p, hp, hlearned, hcache⟩
  · have hlive := hpeek hlifetime
    exact .inl ⟨record, hrecord, hlearned, hlive, runAlone_lookUp hovertaken.named hlive⟩
  · have hpushed : pushed.HasAbsorbed := by
      rw [← Pair.after_append, List.append_assoc, List.cons_append, List.append_cons,
          Pair.after_append] at habsorbed
      exact habsorbed.before hended
    obtain ⟨record, hrecord, hshows⟩ := hlive hlifetime hpushed
    refine .inr ⟨p, record, hp, hlearned, hrecord, hshows, fun now => by rw [hcache], ?_⟩
    intro record' hrecord'
    obtain rfl : record' = record := Cache.peek_unique (hcache ▸ hrecord') hrecord
    exact ⟨rfl, runAlone_lookUp hovertaken.named hrecord'⟩

end Subject

private theorem holds_absorbedChannel? {channels channels' : Cache String Channel} {now : Instant}
    {update : ChannelUpdate} (h : absorbedChannel? channels now update = some channels') :
    channels'.Holds update.channelId (·.Shows update) := by
  unfold absorbedChannel? at h
  split at h
  · next hlive =>
    cases h
    exact Cache.holds_update hlive fun _ => rfl
  · exact Cache.holds_insert? h rfl

private theorem lifetime_absorbedChannel? {channels channels' : Cache String Channel} {now : Instant}
    {update : ChannelUpdate} (h : absorbedChannel? channels now update = some channels') :
    channels'.lifetime = channels.lifetime := by
  unfold absorbedChannel? at h
  split at h
  · cases h
    exact Cache.lifetime_update _ _ _ _
  · exact Cache.lifetime_insert? h

private theorem live_absorbedChannel? {channels channels' : Cache String Channel} {now : Instant}
    {update : ChannelUpdate} (h : absorbedChannel? channels now update = some channels')
    (hd : 0 < channels.lifetime.nanoseconds) :
    (channels'.peek now update.channelId).isSome = true := by
  unfold absorbedChannel? at h
  split at h
  · next hlive =>
    cases h
    exact Cache.isSome_peek_update hlive _ _ _
  · exact Cache.isSome_peek_insert? h hd

def Subject.channel (update : ChannelUpdate) : Subject String Channel where
  shelf := .channels
  id := update.channelId
  key := update.channelId
  fetch := fetchChannel update.channelId
  learned b := b.learnChannel update.channelId
  push := absorbChannel update
  Shows c := c.Shows update
  learns b := learns_fetchChannel b update.channelId
  unhindered := ((Action.unhindered_note _ _).bind fun _ => unhindered_fetchPart _ _ _ _).mono
    (List.Subset.refl _) (by decide)
  view_put _ _ := rfl
  view_setClocks _ _ := rfl
  brief := have h : (absorbChannel update).Unhindered [] 0 := unhindered_absorbChannel update; h.brief
  kept b := kept_absorbChannel b update
  lifetime b := by
    obtain ⟨changes, lines, heval⟩ := eval_absorbChannel b update
    rw [heval]
    cases h : absorbedChannel? b.channels b.now update with
    | none => rfl
    | some channels => exact lifetime_absorbedChannel? h
  holds b := by
    obtain ⟨changes, lines, heval⟩ := eval_absorbChannel b update
    rw [heval]
    cases h : absorbedChannel? b.channels b.now update with
    | none => exact fun hne => absurd rfl hne
    | some channels => exact fun _ => holds_absorbedChannel? h
  live b := by
    obtain ⟨changes, lines, heval⟩ := eval_absorbChannel b update
    rw [heval]
    cases h : absorbedChannel? b.channels b.now update with
    | none => exact fun hne => absurd rfl hne
    | some channels => exact fun _ => live_absorbedChannel? h

private theorem shows_updateMembership {u : User} {update : MemberUpdate}
    (hname : u.username = update.username)
    (hglobal : u.globalName = update.globalName) : (u.updateMembership update).1.Shows update :=
  ⟨(u.username_updateMembership update).trans hname,
    (u.globalName_updateMembership update).trans hglobal, u.membership_updateMembership update⟩

private theorem shows_updateNames {u : User} {update : MemberUpdate} (h : u.Shows update) :
    (u.updateNames update).1.Shows update :=
  ⟨rfl, rfl, h.membership⟩

private theorem holds_absorbed? {users users' : Cache UserKey User} {now : Instant} {update : MemberUpdate}
    (h : absorbed? users now update = some users') :
    users'.Holds ⟨update.userId, update.guildId⟩ (·.Shows update) := by
  unfold absorbed? at h
  dsimp only at h
  split at h
  · next hlive =>
    cases h
    exact (Cache.holds_update hlive fun _ => shows_updateMembership rfl rfl).update
      (fun _ => shows_updateNames) now _
  · obtain ⟨c, hi, rfl⟩ := Option.map_eq_some_iff.1 h
    exact (Cache.holds_insert? hi (shows_updateMembership rfl rfl)).update (fun _ => shows_updateNames) now _

private theorem live_absorbed? {users users' : Cache UserKey User} {now : Instant} {update : MemberUpdate}
    (h : absorbed? users now update = some users') (hd : 0 < users.lifetime.nanoseconds) :
    (users'.peek now ⟨update.userId, update.guildId⟩).isSome = true := by
  unfold absorbed? at h
  dsimp only at h
  split at h
  · next hlive =>
    cases h
    exact Cache.isSome_peek_update (Cache.isSome_peek_update hlive _ _ _) _ _ _
  · obtain ⟨c, hi, rfl⟩ := Option.map_eq_some_iff.1 h
    exact Cache.isSome_peek_update (Cache.isSome_peek_insert? hi hd) _ _ _

def Subject.user (update : MemberUpdate) : Subject UserKey User where
  shelf := .users
  id := update.userId
  key := ⟨update.userId, update.guildId⟩
  fetch := fetchUser update.userId update.guildId
  learned b := b.learnUser update.userId update.guildId
  push := absorbMember update
  Shows u := u.Shows update
  learns b := learns_fetchUser b update.userId update.guildId
  unhindered := unhindered_fetchUser update.userId update.guildId
  view_put _ _ := rfl
  view_setClocks _ _ := rfl
  brief := have h : (absorbMember update).Unhindered [] 0 := unhindered_absorbMember update; h.brief
  kept b := kept_absorbMember b update
  lifetime b := by
    obtain ⟨changes, lines, heval⟩ := eval_absorbMember b update
    rw [heval]
    cases h : absorbed? b.users b.now update with
    | none => rfl
    | some users => exact lifetime_absorbed? h
  holds b := by
    obtain ⟨changes, lines, heval⟩ := eval_absorbMember b update
    rw [heval]
    cases h : absorbed? b.users b.now update with
    | none => exact fun hne => absurd rfl hne
    | some users => exact fun _ => holds_absorbed? h
  live b := by
    obtain ⟨changes, lines, heval⟩ := eval_absorbMember b update
    rw [heval]
    cases h : absorbed? b.users b.now update with
    | none => exact fun hne => absurd rfl hne
    | some users => exact fun _ => live_absorbed? h

namespace Overlap

/-- When a lookup is overtaken by a push, what stands is what was written last. That is the record that the
platform has answered, if it has answered with one, and the pushed values are lost. Else it is the record
that the push has left, which has the pushed values, and the lookup has changed nothing of it. The next
lookup returns what stands. -/
theorem last_write_stands (o : Overlap) (b : Bot) {before after : List Move} (hbegun : .lookUp ∈ before)
    (hunpushed : .push ∉ before)
    (hseeking : (o.after b (before ++ .push :: after)).IsSeeking) {found : Found o.Record}
    (hfound : (o.after b (before ++ .push :: after ++ [.lookUp])).HasFound found)
    (habsorbed : (o.after b (before ++ .push :: after ++ [.lookUp])).HasAbsorbed)
    (hlifetime : 0 < (o.lifetime b).nanoseconds) :
    let b' := (o.after b (before ++ .push :: after ++ [.lookUp])).bot
    let pushed := (o.after b (before ++ [.push])).bot
    (∃ record, found = .ok (some record) ∧ o.learned b = some (.ok record) ∧
      o.live b' = some record ∧ o.lookUpAlone b' = (.value (.ok (some record)), b')) ∨
    ∃ p record, found = .error p ∧ o.learned b = some (.error p) ∧
      o.live pushed = some record ∧ o.Shows record ∧ (∀ now, o.peek b' now = o.peek pushed now) ∧
      ∀ record', o.live b' = some record' → record' = record ∧
        o.lookUpAlone b' = (.value (.ok (some record)), b') := by
  cases o with
  | channel update =>
    exact (Subject.channel update).stands b hbegun hunpushed hseeking rfl hfound habsorbed hlifetime
  | user update =>
    exact (Subject.user update).stands b hbegun hunpushed hseeking rfl hfound habsorbed hlifetime

def slowly (answer : String → Outcome Channel) : Behaviour := fun _ c =>
  match c with
  | .fetchChannel id => { duration := 5, result := some (answer id) }
  | _ => { result := none }

def slowBot (answer : String → Outcome Channel) : Bot :=
  .ofSettings { token := "t" } (slowly answer) .hand ⟨0⟩ ⟨0⟩

def lounge (id : String) : Outcome Channel := .ok { id, name := "lounge" }

def unavailable (_ : String) : Outcome Channel := .error (.of (.other "unavailable"))

def toDen : Overlap := .channel { channelId := "1", name := "den" }

/-- The name lounge that is fetched stands, and the name den stands when nothing can be fetched. -/
theorem last_write_stands_toDen :
    let moves := [Move.lookUp] ++ .push :: [.pass 5] ++ [.lookUp]
    let c := toDen.after (slowBot lounge) moves
    let c' := toDen.after (slowBot unavailable) moves
    (c.HasFound (.ok (some { id := "1", name := "lounge" })) ∧ c.HasAbsorbed ∧
      ∃ record, toDen.learned (slowBot lounge) = some (.ok record) ∧ toDen.live c.bot = some record ∧
        toDen.lookUpAlone c.bot = (.value (.ok (some record)), c.bot)) ∧
    c'.HasAbsorbed ∧ ∃ p record, c'.HasFound (.error p) ∧ toDen.Shows record ∧
      toDen.live c'.bot = some record ∧
      toDen.lookUpAlone c'.bot = (.value (.ok (some record)), c'.bot) := by
  intro moves c c'
  have hbegun : Move.lookUp ∈ [Move.lookUp] := List.mem_cons_self
  have hunpushed : Move.push ∉ [Move.lookUp] := by decide
  constructor
  · have hseeking : (toDen.after (slowBot lounge) ([.lookUp] ++ .push :: [.pass 5])).IsSeeking :=
      ⟨_, _, rfl⟩
    have hfound : c.HasFound (.ok (some { id := "1", name := "lounge" })) := rfl
    have habsorbed : c.HasAbsorbed := ⟨[], rfl⟩
    refine ⟨hfound, habsorbed, ?_⟩
    rcases last_write_stands toDen (slowBot lounge) hbegun hunpushed hseeking hfound habsorbed (by decide)
      with ⟨record, -, hstands⟩ | ⟨p, record, hp, -⟩
    · exact ⟨record, hstands⟩
    · cases hp
  · have hseeking : (toDen.after (slowBot unavailable) ([.lookUp] ++ .push :: [.pass 5])).IsSeeking :=
      ⟨_, _, rfl⟩
    have habsorbed : c'.HasAbsorbed := ⟨[], rfl⟩
    have hfound : c'.HasFound (.error ⟨{ id := "1" },
      (Failure.of (.other "unavailable")).inContext "getting channel info"⟩) := rfl
    refine ⟨habsorbed, ?_⟩
    rcases last_write_stands toDen (slowBot unavailable) hbegun hunpushed hseeking hfound habsorbed
      (by decide) with ⟨record, hrecord, -⟩ | ⟨p, record, -, -, hpushed, hshows, hsame, hstands⟩
    · cases hrecord
    · have hlive : toDen.live c'.bot = some record := (hsame c'.bot.now).trans hpushed
      exact ⟨_, record, hfound, hshows, hlive, (hstands record hlive).2⟩

/-- The channel gets its name after the platform has answered, and still goes by its old name when both the
lookup and the push are over. -/
theorem push_lost_to_fetch :
    let c := toDen.after (slowBot lounge) [.lookUp, .push, .pass 5, .lookUp]
    (toDen.after (slowBot lounge) [.lookUp]).IsSeeking ∧
    c.HasFound (.ok (some { id := "1", name := "lounge" })) ∧
      c.HasAbsorbed ∧ ∃ record, toDen.live c.bot = some record ∧ ¬toDen.Shows record := by
  refine ⟨⟨_, _, rfl⟩, rfl, ⟨[], rfl⟩, { id := "1", name := "lounge" }, rfl, ?_⟩
  intro hshows
  exact absurd hshows (by decide : ¬"lounge" = "den")

end Overlap

end Rehearsal

end GuildBot

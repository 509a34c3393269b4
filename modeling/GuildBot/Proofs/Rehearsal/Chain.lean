import GuildBot.Proofs.Flow.Crowd
import GuildBot.Proofs.Rehearsal.SharedTracker
import Mathlib.Data.List.Permutation

/-!
# Voice updates form a chain

However the strands that share a tracker take turns, the changes that they see follow one another: each finds
its user where the one before it had left them, and no way between two places is told twice.
-/

namespace GuildBot.Rehearsal.SharedTracker

open Activity Crowd

variable {policy : Policy} {updates : Strand → VoiceUpdate} {seen : Sightings}
  {live live' : Strand → Bool → Prop} {order before later : List Strand} {far : Strand → Stage}
  {o o' : SharedTracker} {s s' : Strand} {t : Stage}

/-- The strands that have seen their users, in that order, and how far all of them have come. -/
structure Stands (policy : Policy) (updates : Strand → VoiceUpdate) (seen : Sightings)
    (live : Strand → Bool → Prop) (order : List Strand) (far : Strand → Stage) (o : SharedTracker) :
    Prop where
  nodup : order.Nodup
  lastSeen : ∀ userId, o.tracker.lastSeen[userId]? = seenAfter updates seen order userId
  fits : ∀ s, (far s).Fits policy (updates s) (live s) (o.files s)
  inside : ∀ before s later, order = before ++ s :: later →
    (far s).seen? = some (seenAfter updates seen before (updates s).user.id)
  outside : ∀ s, s ∉ order → (far s).seen? = none

def Extends (s : Strand) (order order' : List Strand) : Prop :=
  order' = order ∨ s ∉ order ∧ order' = order ++ [s]

theorem Extends.trans {order₁ order₂ order₃ : List Strand} (h : Extends s order₁ order₂)
    (h' : Extends s order₂ order₃) : Extends s order₁ order₃ := by
  rcases h with rfl | ⟨hs, rfl⟩
  · exact h'
  · rcases h' with rfl | ⟨hs', -⟩
    · exact .inr ⟨hs, rfl⟩
    · exact absurd (by simp) hs'

private theorem split_concat (h : order ++ [s] = before ++ s' :: later) :
    (before = order ∧ s' = s) ∨ ∃ rest, order = before ++ s' :: rest := by
  rcases List.eq_nil_or_concat later with rfl | ⟨rest, last, rfl⟩
  · obtain ⟨hbefore, hs⟩ := List.append_inj' h rfl
    exact .inl ⟨hbefore.symm, (List.singleton_inj.1 hs).symm⟩
  · have hsplit : order ++ [s] = (before ++ s' :: rest) ++ [last] := by simpa using h
    exact .inr ⟨rest, (List.append_inj' hsplit rfl).1⟩

namespace Stands

theorem mono (h : Stands policy updates seen live order far o) (hlive : ∀ s b, live s b → live' s b) :
    Stands policy updates seen live' order far o :=
  ⟨h.nodup, h.lastSeen, fun s => (h.fits s).mono (hlive s), h.inside, h.outside⟩

/-- A move by which no strand has seen its user. -/
private theorem stay {far' : Strand → Stage} (h : Stands policy updates seen live order far o)
    (hfits : ∀ s', (far' s').Fits policy (updates s') (live s') (o'.files s'))
    (hseen : ∀ s', (far' s').seen? = (far s').seen?)
    (hlastSeen : o'.tracker.lastSeen = o.tracker.lastSeen) :
    Stands policy updates seen live order far' o' where
  nodup := h.nodup
  lastSeen := hlastSeen ▸ h.lastSeen
  fits := hfits
  inside before s' later horder := (hseen s').trans (h.inside before s' later horder)
  outside s' hs' := (hseen s').trans (h.outside s' hs')

/-- A move by which a strand has seen its user, which it does only once. -/
private theorem see {far' : Strand → Stage} (h : Stands policy updates seen live order far o)
    (hfits : ∀ s', (far' s').Fits policy (updates s') (live s') (o'.files s'))
    (hothers : ∀ s' ≠ s, far' s' = far s') (hnone : (far s).seen? = none)
    (hsome : (far' s).seen? = some o.tracker.lastSeen[(updates s).user.id]?)
    (hlastSeen : o'.tracker.lastSeen =
      (o.tracker.see (updates s).user.id (updates s).channel).2.lastSeen) :
    s ∉ order ∧ Stands policy updates seen live (order ++ [s]) far' o' := by
  have hs : s ∉ order := by
    intro hmem
    obtain ⟨before, later, horder⟩ := List.append_of_mem hmem
    rw [h.inside before s later horder] at hnone
    cases hnone
  refine ⟨hs, by simpa using h.nodup.concat hs, ?_, hfits, ?_, ?_⟩
  · intro userId
    have hsee := Sightings.lastSeen_see h.lastSeen (updates s).user.id (updates s).channel userId
    rw [hlastSeen, hsee]
    simp [seenAfter]
  · intro before s' later horder
    rcases split_concat horder with ⟨rfl, rfl⟩ | ⟨rest, hrest⟩
    · rw [hsome, h.lastSeen]
    · have hne : s' ≠ s := by
        rintro rfl
        exact hs (hrest ▸ by simp)
      rw [hothers s' hne]
      exact h.inside before s' rest hrest
  · intro s' hs'
    rw [List.mem_append, List.mem_singleton, not_or] at hs'
    rw [hothers s' hs'.2]
    exact h.outside s' hs'.1

private theorem step (h : Stands policy updates seen live order far o)
    (hlive : far s = .atGate none none → ∀ b,
      o.tracker.decisions.peek o.now (keyOf (updates s)) = some b → live s b)
    (hstep : Step policy (updates s) s (far s) o o' t) :
    ∃ order', Extends s order order' ∧
      Stands policy updates seen live order' (fun s' => if s' = s then t else far s') o' := by
  have hfits (s' : Strand) :
      (if s' = s then t else far s').Fits policy (updates s') (live s') (o'.files s') := by
    by_cases hs : s' = s
    · subst hs
      rw [if_pos rfl]
      exact hstep.fits hlive (h.fits s')
    · rw [if_neg hs, hstep.files_ne hs]
      exact h.fits s'
  rcases hstep.sees with ⟨hsame, hlastSeen⟩ | ⟨hnone, hsome, hlastSeen⟩
  · refine ⟨order, .inl rfl, h.stay hfits (fun s' => ?_) hlastSeen⟩
    by_cases hs : s' = s
    · rw [if_pos hs, hsame, hs]
    · rw [if_neg hs]
  · have hself : (if s = s then t else far s) = t := if_pos rfl
    rw [← hself] at hsome
    obtain ⟨hs, hstands⟩ := h.see hfits (fun s' hs => if_neg hs) hnone hsome hlastSeen
    exact ⟨order ++ [s], .inr ⟨hs, rfl⟩, hstands⟩

private theorem leads (h : Stands policy updates seen live order far o)
    (hlive : ∀ b, o.tracker.decisions.peek o.now (keyOf (updates s)) = some b → live s b)
    (hleads : (stages policy (updates s) s).Leads (far s, o) (t, o')) :
    ∃ order', Extends s order order' ∧
      Stands policy updates seen live order' (fun s' => if s' = s then t else far s') o' ∧
      (t = .atGate none none → ∀ b,
        o'.tracker.decisions.peek o'.now (keyOf (updates s)) = some b → live s b) := by
  generalize hfinish : (t, o') = finish at hleads
  induction hleads generalizing t o' with
  | refl =>
    obtain ⟨rfl, rfl⟩ := Prod.mk.inj hfinish
    have hfar : (fun s' => if s' = s then far s else far s') = far := by
      funext s'
      split
      · next hs => rw [hs]
      · rfl
    rw [hfar]
    exact ⟨order, .inl rfl, h, fun _ => hlive⟩
  | @tail middle _ _ hstep ih =>
    subst hfinish
    obtain ⟨order₁, hextends, hstands, hlive₁⟩ := ih rfl
    have hmine : Step policy (updates s) s (if s = s then middle.1 else far s) middle.2 o' t := by
      rw [if_pos rfl]
      exact hstep
    obtain ⟨order₂, hextends', hstands'⟩ := hstands.step (by rw [if_pos rfl]; exact hlive₁) hmine
    refine ⟨order₂, hextends.trans hextends', ?_, ?_⟩
    · have hfar : (fun s' => if s' = s then t else if s' = s then middle.1 else far s') =
          fun s' => if s' = s then t else far s' := by
        funext s'
        split <;> rfl
      rwa [hfar] at hstands'
    · rintro rfl b hpeek
      obtain ⟨hgate, hsame⟩ := hstep.peek_eq (keyOf (updates s))
      exact hlive₁ hgate b (hsame ▸ hpeek)

end Stands

section

variable {begun : Staff} {moves : List (Move Deed)}

private theorem FoundLive.concat {key : UserKey} {b : Bool} (h : FoundLive begun moves s key b)
    (m : Move Deed) :
    FoundLive begun (moves ++ [m]) s key b := by
  obtain ⟨before, later, rfl, hlive⟩ := h
  exact ⟨before, later ++ [m], by simp, hlive⟩

/-- Whether the strands that share a tracker stand so after those moves, and go on from there. -/
def Proceeds (policy : Policy) (updates : Strand → VoiceUpdate) (seen : Sightings) (begun : Staff)
    (moves : List (Move Deed)) (order : List Strand) : Prop :=
  ∃ far, Stands policy updates seen (fun s => FoundLive begun moves s (keyOf (updates s))) order far
      (after begun moves).hub.state ∧
    ∀ s, ((after begun moves).progress s).Follows (stages policy (updates s) s) respond
      (Stage.Ends (updates s)) (far s)

private theorem proceeds_start (policy : Policy) (updates : Strand → VoiceUpdate) (tracker : Tracker)
    (answers : Answers) (now : Instant) :
    Proceeds policy updates (fun userId => tracker.lastSeen[userId]?)
      (start policy updates tracker answers now) [] [] := by
  refine ⟨fun _ => .atGate none none, ⟨List.nodup_nil, fun _ => rfl, fun s => ?_, ?_, ?_⟩, ?_⟩
  · exact ⟨rfl, rfl, rfl, rfl, List.not_mem_nil⟩
  · intro before s later h
    simp at h
  · exact fun _ _ => rfl
  · exact fun s => follows_track policy

/-- A move can add to the order only the strand whose turn it is. -/
theorem Proceeds.step (h : Proceeds policy updates seen begun moves order) (m : Move Deed) :
    ∃ order', (order' = order ∨ ∃ s, m = .turn s ∧ order' = order ++ [s]) ∧
      Proceeds policy updates seen begun (moves ++ [m]) order' := by
  obtain ⟨far, hstands, hfollows⟩ := h
  have hstands := hstands.mono fun s b hb => hb.concat m
  have hafter : after begun (moves ++ [m]) = Crowd.step respond act (after begun moves) m :=
    run_concat respond act begun moves m
  unfold Proceeds
  rw [hafter]
  cases m with
  | turn s =>
    obtain ⟨t, ht, hleads⟩ := (hfollows s).poll s (h := (after begun moves).hub) trivial
    obtain ⟨order', hextends, hstands', -⟩ := hstands.leads (fun b hb => ⟨moves, [], rfl, hb⟩) hleads
    refine ⟨order', ?_, _, hstands', fun s' => ?_⟩
    · rcases hextends with rfl | ⟨-, rfl⟩
      · exact .inl rfl
      · exact .inr ⟨s, rfl, rfl⟩
    · simp only [Crowd.step]
      split
      · next hs => exact hs ▸ ht
      · exact hfollows s'
  | drop task =>
    refine ⟨order, .inl rfl, far, ?_, fun s => ?_⟩
    · simpa only [Crowd.step, Hub.forget_state] using hstands
    · simp only [Crowd.step]
      split
      · exact (hfollows s).abandon
      · exact hfollows s
  | pass milliseconds =>
    exact ⟨order, .inl rfl, far, by simpa only [Crowd.step, Hub.arrive_state] using hstands, hfollows⟩
  | outside deed =>
    refine ⟨order, .inl rfl, far, ?_, hfollows⟩
    cases deed with
    | setAnswers answers => exact ⟨hstands.1, hstands.2, hstands.3, hstands.4, hstands.5⟩
    | setClock now => exact ⟨hstands.1, hstands.2, hstands.3, hstands.4, hstands.5⟩

private theorem Proceeds.chained (h : Proceeds policy updates seen begun moves order) :
    Chained updates seen (Gate policy updates begun moves) order (after begun moves) := by
  obtain ⟨far, hstands, hfollows⟩ := h
  have hends {s : Strand} {r : Outcome Unit}
      (hended : (after begun moves).progress s = .ended (some r)) : (far s).Ends (updates s) r := by
    have hs := hfollows s
    rwa [hended] at hs
  have hinside {s : Strand} (hs : s ∈ order) : Gate policy updates begun moves s true ∧
      ignoredLine ∉ ((after begun moves).hub.state.files s).log := by
    obtain ⟨before, later, horder⟩ := List.append_of_mem hs
    obtain ⟨hgate, -, hlog⟩ := (hstands.fits s).of_some (hstands.inside before s later horder)
    exact ⟨hgate, hlog⟩
  refine ⟨hstands.nodup, fun s hs => (hinside hs).1, hstands.lastSeen, ?_, ?_,
    fun s hs => (hinside hs).2, ?_, ?_⟩
  · intro before s later horder
    exact ((hstands.fits s).of_some (hstands.inside before s later horder)).2.1
  · intro before s later horder hended hmoved
    exact (hends hended).sent_ne_nil (hstands.fits s) (hstands.inside before s later horder) hmoved
  · intro s hs
    exact (hstands.fits s).of_none (hstands.outside s hs)
  · intro s r hs hended
    exact (hends hended).refused (hstands.fits s) (hstands.outside s hs)

end

/-- Any number of voice updates that are handled at the same time form a chain, whatever the turns of
the strands that handle them and the answers that these get. There is an order of those that pass the gate,
which grows by a strand when the strand has a turn in which it sees its user. -/
theorem updates_form_chain (policy : Policy) (updates : Strand → VoiceUpdate) (tracker : Tracker)
    (answers : Answers) (now : Instant) :
    let begun := start policy updates tracker answers now
    ∃ order : List (Move Deed) → List Strand, order [] = [] ∧
      (∀ moves m, order (moves ++ [m]) = order moves ∨
        ∃ s, m = .turn s ∧ order (moves ++ [m]) = order moves ++ [s]) ∧
      ∀ moves, Chained updates (fun userId => tracker.lastSeen[userId]?)
        (Gate policy updates begun moves) (order moves) (after begun moves) := by
  intro begun
  have hstep (moves : List (Move Deed)) (past : List Strand) (m : Move Deed)
      (h : Proceeds policy updates (fun userId => tracker.lastSeen[userId]?) begun moves past) :
      ∃ present, (present = past ∨ ∃ s, m = .turn s ∧ present = past ++ [s]) ∧
        Proceeds policy updates (fun userId => tracker.lastSeen[userId]?) begun (moves ++ [m]) present :=
    h.step m
  obtain ⟨order, horigin, hgrows, hproceeds⟩ :=
    exists_history hstep (proceeds_start policy updates tracker answers now)
  exact ⟨order, horigin, hgrows, fun moves => (hproceeds moves).chained⟩

private theorem turn_mem_of_grows {order : List (Move Deed) → List Strand} (horigin : order [] = [])
    (hgrows : ∀ moves m, order (moves ++ [m]) = order moves ∨
      ∃ s, m = .turn s ∧ order (moves ++ [m]) = order moves ++ [s])
    {moves : List (Move Deed)} (hs : s ∈ order moves) : .turn s ∈ moves := by
  induction moves using List.reverseRecOn with
  | nil =>
    rw [horigin] at hs
    cases hs
  | append_singleton moves m ih =>
    rw [List.mem_append, List.mem_singleton]
    rcases hgrows moves m with hsame | ⟨s', rfl, hmore⟩
    · exact .inl (ih (hsame ▸ hs))
    · rw [hmore, List.mem_append, List.mem_singleton] at hs
      exact hs.imp ih (congrArg Move.turn)

/-- There is a role that only Bob holds. Records of users take three milliseconds. -/
def bobAnswers : Answers where
  guild id := (0, .ok (some { id, roles := (∅ : Std.ExtTreeMap String String).insert "9" "Tracked" }))
  channel id := (2, .ok (some { id, name := if id = "1" then "lounge" else "den" }))
  user id guildId :=
    let member : Member := { roles := .ofList (if id = "42" then ["9"] else []) };
    (3, .ok (some { id, username := "bob", memberships := .ofList [(guildId, member)] }))
  channels _ := (1, .ok [{ id := "5", name := "activity_log" }])
  send _ _ := (1, .ok ())
  channel_id := by
    rintro id c ⟨⟩
    rfl

/-- Bob comes to the lounge and goes on to the den, and all others come to the lounge. -/
def movesOfBob (s : Strand) : VoiceUpdate where
  guild := some { id := "7" }
  user := { id := if s.task ≤ 1 then "42" else "43", username := "bob" }
  channel := some (if s.task = 1 then { id := "2", name := "den" } else { id := "1", name := "lounge" })

def tracked : Policy := ⟨"activity_log", some "Tracked"⟩

def strandOf (task : Nat) : Strand := ⟨task, some 0⟩

def turnsOfBob : List (Move Deed) :=
  [.turn (strandOf 0), .turn (strandOf 1), .turn (strandOf 2), .pass 3, .turn (strandOf 0),
    .turn (strandOf 1), .turn (strandOf 2), .pass 3, .turn (strandOf 2), .turn (strandOf 1),
    .turn (strandOf 0), .pass 1, .turn (strandOf 0), .turn (strandOf 1), .pass 1, .turn (strandOf 1)]

def nobodySeen : Tracker := .ofDuration (.ofSeconds 60)

def begunByBob : Staff := start tracked movesOfBob nobodySeen bobAnswers ⟨0⟩

private theorem files_of_bob :
    let c := after begunByBob turnsOfBob
    (c.hub.state.files (strandOf 0)).sent = [("5", "bob joined lounge")] ∧
    (c.hub.state.files (strandOf 1)).sent = [("5", "bob moved from lounge to den")] ∧
    ignoredLine ∈ (c.hub.state.files (strandOf 2)).log ∧
    c.hub.state.tracker.lastSeen["42"]? = some { id := "2", name := "den" } ∧
    (c.progress (strandOf 2)).result?.isSome = true := by
  decide +kernel

/-- Three changes overlap. The first strand asks, the second goes by the decision of the first, and the third
is stopped at the gate. -/
theorem updates_form_chain_bob :
    Chained movesOfBob (fun userId => nobodySeen.lastSeen[userId]?)
      (Gate tracked movesOfBob begunByBob turnsOfBob) [strandOf 0, strandOf 1]
      (after begunByBob turnsOfBob) ∧
    ((after begunByBob turnsOfBob).hub.state.files (strandOf 0)).sent = [("5", "bob joined lounge")] ∧
    ((after begunByBob turnsOfBob).hub.state.files (strandOf 1)).sent =
      [("5", "bob moved from lounge to den")] ∧
    Gate tracked movesOfBob begunByBob turnsOfBob (strandOf 2) false := by
  have hfiles := files_of_bob
  obtain ⟨order, horigin, hgrows, hchained⟩ :=
    updates_form_chain tracked movesOfBob nobodySeen bobAnswers ⟨0⟩
  have hchain := hchained turnsOfBob
  have hturn (s : Strand) (hs : s ∈ order turnsOfBob) :
      s = strandOf 0 ∨ s = strandOf 1 ∨ s = strandOf 2 := by
    have hturn := turn_mem_of_grows horigin hgrows hs
    simp only [turnsOfBob, List.mem_cons, Move.turn.injEq, List.not_mem_nil, reduceCtorEq] at hturn
    tauto
  change Chained _ _ (Gate tracked movesOfBob begunByBob turnsOfBob) _ (after begunByBob turnsOfBob) at hchain
  -- From here on it is enough what the files say.
  generalize Gate tracked movesOfBob begunByBob turnsOfBob = gate at hchain ⊢
  generalize after begunByBob turnsOfBob = c at hfiles hchain ⊢
  obtain ⟨hsent₀, hsent₁, hignored, hlast, hresult⟩ := hfiles
  have hmem (s : Strand) : s ∈ order turnsOfBob ↔ s ∈ [strandOf 0, strandOf 1] := by
    constructor
    · intro hs
      rcases hturn s hs with rfl | rfl | rfl
      · simp
      · simp
      · exact absurd hignored (hchain.tracked _ hs)
    · intro hs
      by_contra hout
      have hsent := (hchain.others s hout).2
      rw [List.mem_cons, List.mem_singleton] at hs
      rcases hs with rfl | rfl
      · cases hsent₀.symm.trans hsent
      · cases hsent₁.symm.trans hsent
  have horder : order turnsOfBob = [strandOf 0, strandOf 1] := by
    have hperm := (List.perm_ext_iff_of_nodup hchain.nodup (by decide)).2 hmem
    refine (List.perm_pair.1 hperm).resolve_right fun hswapped => ?_
    have hseen := (hchain.lastSeen "42").symm.trans hlast
    rw [hswapped] at hseen
    exact absurd hseen (by decide +kernel)
  rw [horder] at hchain
  refine ⟨hchain, hsent₀, hsent₁, ?_⟩
  generalize hprogress : c.progress (strandOf 2) = p at hresult
  cases p with
  | waiting obstacle rest => cases hresult
  | ended result =>
    obtain ⟨r, rfl⟩ := Option.isSome_iff_exists.1 hresult
    exact (hchain.refused _ r (by decide) hprogress).1

end GuildBot.Rehearsal.SharedTracker

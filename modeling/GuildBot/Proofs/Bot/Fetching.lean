import GuildBot.Proofs.Bot.Kept
import GuildBot.Proofs.Flow.Queue
import GuildBot.Proofs.Flow.Turn

namespace GuildBot

open Platform Std Progress

namespace Bot

/-- Whether the platform responds to one bot as to another. -/
structure Meets (b b' : Bot) : Prop where
  platform : b'.platform = b.platform
  deeds : b'.deeds = b.deeds

namespace Meets

variable {b b' b'' : Bot}

theorem refl (b : Bot) : b.Meets b := ⟨rfl, rfl⟩

theorem trans (h : b.Meets b') (h' : b'.Meets b'') : b.Meets b'' :=
  ⟨h'.platform.trans h.platform, h'.deeds.trans h.deeds⟩

theorem of_kept (h : b.Kept b') (hdeeds : b'.deeds = b.deeds) : b.Meets b' := ⟨h.platform, hdeeds⟩

theorem answer (h : b.Meets b') (c : Call) : b'.answer c = b.answer c := by
  unfold Bot.answer
  rw [h.platform, h.deeds]

theorem asked (h : b.Meets b') (c : Call) : (b.asked c).Meets (b'.asked c) := by
  unfold Bot.asked
  rw [h.platform, h.deeds]
  split
  · exact ⟨rfl, rfl⟩
  · exact h

end Meets

def Consults (b b' : Bot) : Prop := ∃ calls lines, b' = (b.askedAll calls).writeAll lines

private theorem askedAll_writeAll (b : Bot) (lines : List Log.Line) (calls : List Call) :
    (b.writeAll lines).askedAll calls = (b.askedAll calls).writeAll lines := by
  induction calls generalizing b with
  | nil => rfl
  | cons c calls ih => exact (congrArg (askedAll · calls) (asked_writeAll b c lines)).trans (ih _)

namespace Consults

variable {b b' b'' : Bot}

theorem refl (b : Bot) : b.Consults b := ⟨[], [], (writeAll_nil b).symm⟩

theorem writeAll (b : Bot) (lines : List Log.Line) : b.Consults (b.writeAll lines) := ⟨[], lines, rfl⟩

theorem asked (b : Bot) (c : Call) : b.Consults (b.asked c) := ⟨[c], [], (writeAll_nil _).symm⟩

theorem trans (h : b.Consults b') (h' : b'.Consults b'') : b.Consults b'' := by
  obtain ⟨calls, lines, rfl⟩ := h
  obtain ⟨calls', lines', rfl⟩ := h'
  refine ⟨calls ++ calls', lines ++ lines', ?_⟩
  rw [askedAll_writeAll, writeAll_writeAll, askedAll, askedAll, askedAll, List.foldl_append]

end Consults

end Bot

namespace Directory

variable {α β : Type}

/-- Whether a program does no more than make calls and write to the log, and ends with `x` if its calls
are answered as the bot's are. -/
inductive Learns : Bot → Action β → Option β → Prop
  | done {b : Bot} (a : β) : Learns b (.done a) (some a)
  | panic {b : Bot} : Learns b .panic none
  | note {b : Bot} {rest : Action β} {x : Option β} (level : Log.Level) (message : String)
    (h : Learns b rest x) : Learns b ((Action.note level message).bind fun _ => rest) x
  | call {b : Bot} (c : Call) {next : c.Answer → Action β} {x : Option β}
    (h : Learns (b.asked c) (next (b.answer c)) x) : Learns b (.ask (.call c) next) x

theorem Learns.congr {b b' : Bot} {f : Action β} {x : Option β} (h : Learns b f x) (hb : b.Meets b') :
    Learns b' f x := by
  induction h generalizing b' with
  | done a => exact .done a
  | panic => exact .panic
  | note level message _ ih => exact .note level message (ih hb)
  | call c _ ih =>
    apply Learns.call
    rw [hb.answer]
    exact ih (hb.asked c)

theorem Learns.run {b : Bot} {f : Action β} {x : Option β} (hl : Learns b f x) (me : Strand)
    {h : Hub Bot Lock} (hb : b.Meets h.state) :
    let r := Progress.run Bot.respond me f h
    h.state.Consults r.2.state ∧
      (r.1 = .ended x ∨ ∃ obstacle rest, r.1 = .waiting obstacle rest ∧ Learns r.2.state rest x) := by
  induction hl generalizing h with
  | done a => exact ⟨.refl _, .inl rfl⟩
  | panic => exact ⟨.refl _, .inl rfl⟩
  | note level message _ ih =>
    obtain ⟨hconsults, hend⟩ := ih (h := { h with state := h.state.write level message })
      (hb.trans ⟨rfl, rfl⟩)
    exact ⟨(Bot.Consults.writeAll h.state [⟨level, message⟩]).trans hconsults, hend⟩
  | @call b c next x hrest ih =>
    have hasked := hb.asked c
    simp only [Progress.run, Bot.respond, hb.answer]
    split
    · obtain ⟨hconsults, hend⟩ := ih (h := { h with state := h.state.asked c }) hasked
      exact ⟨(Bot.Consults.asked h.state c).trans hconsults, hend⟩
    · exact ⟨.asked h.state c, .inr ⟨_, _, rfl, hrest.congr hasked⟩⟩

private theorem learns_call {b : Bot} {c : Call} {k : Outcome c.Payload → Action β} {x : Option β}
    (h : ∀ r, b.answer c = some r → Learns (b.asked c) (k r) x) (hnone : b.answer c = none → x = none) :
    Learns b ((Action.call c).bind k) x := by
  apply Learns.call
  cases hanswer : b.answer c with
  | none =>
    rw [hnone hanswer]
    exact .panic
  | some r => exact h r hanswer

private theorem learns_fetchPart {b : Bot} {c : Call} {what purpose : String} {stub : α}
    {k : Except (Partial α) c.Payload → Action β} {x : Option β}
    (h : ∀ r, b.learnPart c purpose stub = some r → Learns (b.asked c) (k r) x)
    (hnone : b.learnPart c purpose stub = none → x = none) :
    Learns b ((fetchPart (Action.call c) what purpose stub).bind k) x := by
  unfold fetchPart
  rw [Flow.bind_def, Flow.bind_bind]
  apply learns_call
  · intro r hr
    have hlearned := h (r.mapError fun f => ⟨stub, f.inContext purpose⟩)
    rw [Bot.learnPart, hr] at hlearned
    cases r with
    | ok record => exact hlearned rfl
    | error f => exact .note _ _ (hlearned rfl)
  · intro hr
    apply hnone
    rw [Bot.learnPart, hr]
    rfl

def fetchChannel (id : String) : Action (Except (Partial Channel) Channel) := do
  Action.note .debug "Fetching channel info ..."
  fetchPart (Action.call (.fetchChannel id)) "channel info" "getting channel info" { id }

theorem learns_fetchChannel (b : Bot) (id : String) : Learns b (fetchChannel id) (b.learnChannel id) := by
  apply Learns.note
  have hpart : Learns b ((fetchPart (Action.call (.fetchChannel id)) "channel info"
      "getting channel info" ({ id } : Channel)).bind .done) (b.learnChannel id) := by
    apply learns_fetchPart
    · intro r hr
      rw [Bot.learnChannel, hr]
      exact .done r
    · intro hr
      rw [Bot.learnChannel, hr]
  rwa [Flow.bind_done] at hpart

theorem learns_fetchUser (b : Bot) (id guildId : String) :
    Learns b (fetchUser id guildId) (b.learnUser id guildId) := by
  apply Learns.note
  apply learns_fetchPart
  · intro r hr
    rw [Bot.learnUser, hr]
    cases r with
    | error p => exact .done _
    | ok user =>
      let user : User := user
      by_cases hg : guildId = ""
      · simp only [hg, if_true]
        exact .done _
      · simp only [hg, if_false]
        apply learns_fetchPart (α := User)
        · intro r hr
          rw [hr]
          cases r with
          | error p => exact .done _
          | ok member => exact .done _
        · intro hr
          rw [hr]
          rfl
  · intro hr
    rw [Bot.learnUser, hr]

section

variable {κ : Type} [Ord κ] [TransOrd κ] (shelf : Shelf κ α) (key : κ) (g : Found α → β)

/-- What remains of a lookup when this much remains of its fetch. -/
def remaining (rest : Action (Except (Partial α) α)) : Action β :=
  (shelf.place.fetching key rest).bind fun r => .done (g (r.map some))

private theorem find_bind {id : String} (hid : id ≠ "") (fetch : Action (Except (Partial α) α)) :
    (find shelf.place id key fetch).bind (fun found => .done (g found)) =
      (shelf.place.get key fetch).bind fun r => .done (g (r.map some)) := by
  simp only [find, hid, if_false, Flow.bind_def, Flow.bind_bind]
  congr 1
  funext r
  cases r with
  | ok record => rfl
  | error p => rfl

/-- A turn of a lookup leaves less of its fetch, or ends it, and then settles what was learned. -/
theorem run_remaining {b : Bot} {rest : Action (Except (Partial α) α)}
    {x : Option (Except (Partial α) α)} (hl : Learns b rest x) (me : Strand) {h : Hub Bot Lock}
    (hb : b.Meets h.state) :
    let r := run Bot.respond me (remaining shelf key g rest) h
    (∃ obstacle rest', r.1 = .waiting obstacle (remaining shelf key g rest') ∧
      h.state.Consults r.2.state ∧ Learns r.2.state rest' x) ∨
    ∃ b', h.state.Consults b' ∧ r.1 = .ended ((settle shelf.place key x b').1.map g) ∧
      r.2.state = (settle shelf.place key x b').2 := by
  have hturn := hl.run me hb
  dsimp only at hturn ⊢
  rw [remaining, run_bind, Cache.Place.run_fetching]
  generalize run Bot.respond me rest h = r at hturn
  obtain ⟨p, h'⟩ := r
  obtain ⟨hconsults, rfl | ⟨obstacle, rest', rfl, hrest⟩⟩ := hturn
  · right
    refine ⟨h'.state, hconsults, ?_⟩
    rcases x with _ | p | record
    · exact ⟨rfl, Hub.release_state _ _ _⟩
    · exact ⟨rfl, Hub.release_state _ _ _⟩
    · simp only [Cache.Place.conclude, settle]
      cases (shelf.place.view h'.state).insert? (shelf.place.now h'.state) key record with
      | none => exact ⟨rfl, Hub.release_state _ _ _⟩
      | some c => exact ⟨rfl, Hub.release_state _ _ _⟩
  · exact .inl ⟨obstacle, rest', rfl, hconsults, hrest⟩

/-- The first turn of a lookup ends it with the live record, or enters its fetch. -/
theorem run_find {id : String} (hid : id ≠ "") (fetch : Action (Except (Partial α) α)) (me : Strand)
    {h : Hub Bot Lock} (hfree : h.queue shelf.place.lock = []) :
    run Bot.respond me ((find shelf.place id key fetch).bind fun found => .done (g found)) h =
      match (shelf.place.view h.state).peek (shelf.place.now h.state) key with
      | some record => (.ended (some (g (.ok (some record)))), h)
      | none => run Bot.respond me (remaining shelf key g fetch) (h.claim shelf.place.lock me) := by
  have hgrants : (h.claim shelf.place.lock me).grants shelf.place.lock me = true := by
    rw [Hub.grants_claim_iff (by rw [hfree]; exact List.not_mem_nil), hfree]
  rw [find_bind shelf key g hid, run_bind, Cache.Place.run_get]
  cases hp : (shelf.place.view h.state).peek (shelf.place.now h.state) key with
  | some record => rfl
  | none =>
    simp only [hgrants, if_true]
    rw [Cache.Place.run_locked, remaining, run_bind, Cache.Place.run_fetching, Hub.claim_state, hp]

end

end Directory

end GuildBot

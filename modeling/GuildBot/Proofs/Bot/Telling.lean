import GuildBot.Bot.Round
import GuildBot.Proofs.Bot.Rules
import GuildBot.Proofs.Flow.Turn

namespace GuildBot

open Platform

/-- Adds lines to the log of the bot. -/
def Hub.writeAll (h : Hub Bot Lock) (lines : List Log.Line) : Hub Bot Lock :=
  { h with state := h.state.writeAll lines }

@[simp] theorem Hub.writeAll_nil (h : Hub Bot Lock) : h.writeAll [] = h := by simp [Hub.writeAll]

namespace Audience

variable (event : Event) (e : Entry)

def report : Outcome Unit → Action (Option String)
  | .ok () => .done none
  | .error f =>
    (Action.note .error s!"Listener `{e.id}` failed on {event.kind}: {f.message}").bind
      fun _ => .done (some e.id)

def reportPanic : Action (Option String) :=
  (Action.note .error s!"Listener `{e.id}` panicked on {event.kind}.").bind
    fun _ => .done (some e.id)

def contain (f : Action (Outcome Unit)) : Action (Option String) :=
  (f.bind (report event e)).rescue (reportPanic event e)

theorem tell_eq (settings : Settings) :
    tell settings event e = contain event e (hear settings e event) := rfl

/-- The telling of a listener, by how far its call has come. -/
def contained : Progress Bot Lock Call.Answer (Outcome Unit) →
    Progress Bot Lock Call.Answer (Option String)
  | .waiting obstacle rest => .waiting obstacle (contain event e rest)
  | .ended (some (.ok ())) => .ended (some none)
  | .ended _ => .ended (some (some e.id))

variable (me : Strand)

open Progress (run turns visited)

private theorem run_contain (f : Action (Outcome Unit)) (h : Hub Bot Lock) :
    ∃ lines, run Bot.respond me (contain event e f) h =
      (contained event e (run Bot.respond me f h).1, (run Bot.respond me f h).2.writeAll lines) := by
  unfold contain
  rw [Progress.run_rescue, Progress.run_bind]
  rcases run Bot.respond me f h with ⟨⟨obstacle, rest⟩ | _ | _ | _, h'⟩
  · exact ⟨[], by rw [Hub.writeAll_nil]; rfl⟩
  · exact ⟨_, rfl⟩
  · exact ⟨_, rfl⟩
  · exact ⟨[], by rw [Hub.writeAll_nil]; rfl⟩

private theorem poll_contained (p : Progress Bot Lock Call.Answer (Outcome Unit)) (h : Hub Bot Lock) :
    ∃ lines, (contained event e p).poll Bot.respond me h =
      (contained event e (p.poll Bot.respond me h).1,
        (p.poll Bot.respond me h).2.writeAll lines) := by
  cases p with
  | waiting obstacle rest =>
    simp only [contained, Progress.poll]
    split
    · exact run_contain event e me rest h
    · exact ⟨[], by rw [Hub.writeAll_nil]⟩
  | ended result =>
    obtain ⟨result', hresult⟩ : ∃ r, contained event e (.ended result) = .ended r := by
      rcases result with _ | _ | _
      · exact ⟨_, rfl⟩
      · exact ⟨_, rfl⟩
      · exact ⟨_, rfl⟩
    exact ⟨[], by simp [Progress.poll, hresult]⟩

theorem turns_contained (p : Progress Bot Lock Call.Answer (Outcome Unit))
    (hubs : List (Hub Bot Lock)) :
    turns Bot.respond me (contained event e p) hubs =
      contained event e (turns Bot.respond me p hubs) := by
  induction hubs generalizing p with
  | nil => rfl
  | cons h hubs ih =>
    obtain ⟨lines, hpoll⟩ := poll_contained event e me p h
    simp only [turns, List.foldl_cons, hpoll] at ih ⊢
    exact ih _

/-- The telling of a listener differs from its call by what it writes to the log. -/
theorem visited_contained (part : Part) (p : Progress Bot Lock Call.Answer (Outcome Unit))
    (hubs : List (Hub Bot Lock)) :
    (visited Bot.respond me part (contained event e p) hubs).map (·.unlogged) =
      (visited Bot.respond me part p hubs).map (·.unlogged) := by
  induction hubs generalizing p with
  | nil => rfl
  | cons h hubs ih =>
    obtain ⟨lines, hpoll⟩ := poll_contained event e me p h
    simp only [visited, Progress.trace, List.map_cons, hpoll] at ih ⊢
    rw [ih]
    rfl

end Audience

namespace Bot

/-- The rules of a program that does nothing but make calls. -/
def callsOnly : Rules Bot Lock where
  rank _ := 0
  allows update := ∀ b : Bot, (update b).deeds = b.deeds

/-- Whether all that one bot has done and an earlier one had not is to make calls. -/
def Calls (b b' : Bot) : Prop := ∃ calls : List Call, b'.deeds = b.deeds ++ calls.map .call

private theorem callsOnly_confines : callsOnly.Confines respond Calls where
  refl b := ⟨[], by simp⟩
  trans := by
    rintro b b' b'' ⟨calls, h⟩ ⟨calls', h'⟩
    exact ⟨calls ++ calls', by rw [h', h, List.map_append, List.append_assoc]⟩
  change update h b := ⟨[], by simp [show (update b).deeds = b.deeds from h b]⟩
  call b c := by
    simp only [respond, asked]
    split
    · exact ⟨[c], rfl⟩
    · exact ⟨[], by simp⟩

end Bot

namespace Audience

open Progress (run turns visited)

private theorem obeys_play (s : Script) :
    Flow.Obeys Bot.callsOnly [] (fun _ => True) [] (play s) := by
  unfold play
  refine Flow.Obeys.bind (Q := fun _ => True) (fun _ => ⟨rfl, trivial⟩) fun _ _ =>
    Flow.Obeys.bind (Q := fun _ => True) ?_ fun sent _ => ?_
  · cases s.message with
    | none => exact ⟨rfl, trivial⟩
    | some message =>
      intro reply
      cases reply with
      | none => exact (show [] = [] from rfl)
      | some result => exact ⟨rfl, trivial⟩
  · rcases sent with f | _
    · exact ⟨rfl, trivial⟩
    · rcases s.fault with _ | _ | f
      · exact ⟨rfl, trivial⟩
      · exact (show [] = [] from rfl)
      · exact ⟨rfl, trivial⟩

private theorem heard_of_calls {v : Visit Bot Lock} {heard : List Deed} {b : Bot}
    (hb : b.deeds = v.before.state.deeds ++ heard) (hheard : ∀ d ∈ heard, d.isHeard = true)
    (hv : b.Calls v.after.state) : v.heard = heard := by
  obtain ⟨calls, hcalls⟩ := hv
  have hfilter : (calls.map Deed.call).filter (·.isHeard) = [] := by
    simp [List.filter_eq_nil_iff, Deed.isHeard]
  rw [Visit.heard, hcalls, hb, List.append_assoc, List.drop_left, List.filter_append, hfilter,
    List.append_nil, List.filter_eq_self.2 hheard]

theorem heard_follow (id event : String) (s : Script) (me : Strand) (part : Part) (h : Hub Bot Lock)
    (hubs : List (Hub Bot Lock)) :
    (visited Bot.respond me part (.start (follow id event s)) (h :: hubs)).flatMap (·.heard) =
      [.heard id event] := by
  let told : Hub Bot Lock :=
    { h with state := { h.state with deeds := h.state.deeds ++ [.heard id event] } }
  have hpoll : (Progress.start (follow id event s)).poll Bot.respond me h =
      run Bot.respond me (play s) told := by
    rw [follow_eq]
    rfl
  obtain ⟨hlawful, hcalls⟩ := Progress.run_confined Bot.callsOnly_confines me (play s) (obeys_play s) told
  have hrest := Progress.visited_confined Bot.callsOnly_confines me part hlawful hubs
  have hlater : (visited Bot.respond me part (run Bot.respond me (play s) told).1 hubs).flatMap
      (·.heard) = [] :=
    List.flatMap_eq_nil_iff.2 fun v hv => heard_of_calls (by simp) nofun (hrest v hv)
  have hfirst : (⟨part, h, (run Bot.respond me (play s) told).2⟩ : Visit Bot Lock).heard =
      [.heard id event] := heard_of_calls rfl (by simp [Deed.isHeard]) hcalls
  simp only [visited, Progress.trace, hpoll, List.map_cons, List.flatMap_cons] at hlater ⊢
  rw [hfirst, hlater, List.append_nil]

end Audience

end GuildBot

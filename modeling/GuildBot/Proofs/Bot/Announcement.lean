import GuildBot.Flow.Course
import GuildBot.Proofs.Bot.Round

/-!
# Announcing an event

Who is registered, and what comes of an event that the registered listeners are told of: each is called
once, their failures are contained and returned in the order of the registry, and a message that some
failed on is flagged when all calls have ended. Telling the listeners always comes to an end.
-/

namespace GuildBot

open Platform

namespace Registration

private theorem mem_map_firsts {rs : List Registration} {id : String} :
    id ∈ (firsts rs).map (·.id) ↔ id ∈ rs.map (·.id) := by
  induction rs with
  | nil => rfl
  | cons r rs ih =>
    by_cases hid : id = r.id
    · simp [firsts, hid]
    · rw [firsts, List.map_cons, List.map_cons, List.mem_cons, List.mem_cons, or_iff_right hid,
        or_iff_right hid, ← ih]
      simp only [List.mem_map, List.mem_filter]
      constructor
      · rintro ⟨r', ⟨hmem, -⟩, heq⟩
        exact ⟨r', hmem, heq⟩
      · rintro ⟨r', hmem, heq⟩
        refine ⟨r', ⟨hmem, ?_⟩, heq⟩
        rw [heq]
        exact decide_eq_true hid

end Registration

namespace Bot

variable (b : Bot) (rs : List Registration)

private theorem roster_registerAll_of_empty :
    ({ b with registry := [] }.registerAll rs).roster = (Registration.firsts rs).map (·.id) := by
  rw [roster, registry_registerAll_of_empty, List.map_map]
  rfl

private theorem settings_registerAll : (b.registerAll rs).settings = b.settings := by
  induction rs generalizing b with
  | nil => rfl
  | cons r rs ih =>
    refine (ih _).trans ?_
    dsimp only [register]
    split
    · rfl
    · rfl

private theorem register_registerAll (r : Registration) :
    let bot := { b with registry := [] }.registerAll rs
    if r.id ∈ rs.map (·.id) then
      bot.register r.id r.listener r.clock = (.error (.of (.duplicateListener r.id)), bot)
    else (bot.register r.id r.listener r.clock).1 = .ok () := by
  intro bot
  have hroster : r.id ∈ bot.roster ↔ r.id ∈ rs.map (·.id) := by
    rw [roster_registerAll_of_empty, Registration.mem_map_firsts]
  split
  · next hr => exact register_of_mem (hroster.2 hr) r.listener r.clock
  · next hr =>
    have hany : ¬bot.registry.any (·.id = r.id) = true := by
      simpa [roster] using mt hroster.1 hr
    rw [register, if_neg hany]

end Bot

theorem Linked.steady {b last : Bot} {vs : List (Visit Bot Lock)} (h : Linked b vs last)
    (hvs : ∀ v ∈ vs, v.before.state.Steady v.after.state) : ∀ v ∈ vs, b.Steady v.before.state := by
  induction vs generalizing b with
  | nil => exact fun _ hv => absurd hv List.not_mem_nil
  | cons v vs ih =>
    obtain ⟨rfl, hlinked⟩ := h
    intro w hw
    rcases List.mem_cons.1 hw with rfl | hw
    · exact .refl _
    · exact (hvs v List.mem_cons_self).trans
        (ih hlinked (fun w hw => hvs w (List.mem_cons_of_mem _ hw)) w hw)

namespace Audience

private theorem failures_sublist (event : Event) (task : Nat) (start : Hub Bot Lock)
    (told : List (Visit Bot Lock)) :
    (failures event task start told).Sublist start.state.roster := by
  have hroster : start.state.roster = start.state.registry.zipIdx.map fun call => call.1.id := by
    rw [Bot.roster, ← List.zipIdx_map_fst 0 start.state.registry, List.map_map]
    simp
  have hfailures : failures event task start told = (start.state.registry.zipIdx.filter
      fun call => (hearing event task start told call.2 call.1).hasFailed).map
        fun call => call.1.id := by
    rw [failures, ← List.filterMap_eq_map, List.filterMap_filter]
    rfl
  rw [hroster, hfailures]
  exact List.filter_sublist.map _

/-- A machine that is alone with the telling of an event plays a round, from its state to the one at
rest, and returns what the round does. -/
private theorem plays_round (b : Bot) (event : Event) :
    ∃ n moves start told closed,
      let m := (Machine.alone b (.ofPlan (announce event)) none).run Bot.respond n
      let s := (opening event).after Bot.respond 0 moves
      m.step? Bot.respond = none ∧ Round event 0 start told closed s ∧ start.state = b ∧
        Linked b s.visits m.hub.state ∧
        ∃ result, s.work.ending? = some result ∧ m.ending? = some (result.elim .panicked .value) := by
  obtain ⟨n, hrest, hended⟩ := Machine.alone_ends Bot.respond b (obeys_announce event)
  obtain ⟨work, h, hstands, moves, visits, hlinked, hafter⟩ :=
    Machine.plays_run Bot.respond b (announce event) n
  have hs : (opening event).after Bot.respond 0 moves = ⟨work, visits⟩ := hafter []
  cases hstands with
  | going hm hprogress =>
    have hnone : (Machine.alone b (.ofPlan (announce event)) none |>.run Bot.respond n).ending? =
        none := congrArg Machine.ending? hm
    exact absurd hnone hended
  | ended result hending hmachine hstate =>
    rcases round_after event 0 moves with ⟨-, hgoing⟩ | ⟨start, told, closed, hround⟩
    · rw [hs] at hgoing
      rw [hgoing] at hending
      cases hending
    · refine ⟨n, moves, start, told, closed, hrest, hround, ?_, ?_, result, ?_, hmachine⟩
      · have hvisits := hround.visits
        rw [hs] at hvisits
        rw [show visits = _ from hvisits] at hlinked
        exact hlinked.1
      · rw [hs, hstate]
        exact hlinked
      · rw [hs]
        exact hending

/-- Of the listeners that ask to be registered, the first under each id is, and a refusal changes
nothing. However the turns of their calls fall, and whatever others do between them, it is a round in
which they are told of an event. Alone with it, a machine comes to rest and returns what the round does:
the ids of the listeners that failed, in the order of the registry. -/
theorem listeners_called_once (b : Bot) (rs : List Registration) (event : Event) :
    let bot := { b with registry := [] }.registerAll rs
    bot.registry = (Registration.firsts rs).map b.entry ∧
    (∀ r : Registration, if r.id ∈ rs.map (·.id) then
        bot.register r.id r.listener r.clock = (.error (.of (.duplicateListener r.id)), bot)
      else (bot.register r.id r.listener r.clock).1 = .ok ()) ∧
    (∀ task moves, let s := (opening event).after Bot.respond task moves
      s.visits = [] ∧ s.work.ending? = none ∨
        ∃ start told closed, Round event task start told closed s ∧
          (failures event task start told).Sublist start.state.roster) ∧
    ∃ n moves start told closed,
      let m := (Machine.alone bot (.ofPlan (announce event)) none).run Bot.respond n
      let s := (opening event).after Bot.respond 0 moves
      let failed := failures event 0 start told
      m.step? Bot.respond = none ∧ Round event 0 start told closed s ∧ start.state = bot ∧
        Linked bot s.visits m.hub.state ∧ (∀ v ∈ s.visits, v.before.state.settings = b.settings) ∧
        closed ≠ [] ∧ failed.Nodup ∧
        (m.ending? = some (.value failed) ∨ m.ending? = some .panicked ∧
          ∃ v ∈ closed, ∃ c ∈ event.flagCalls b.settings.failureEmoji failed,
            v.before.state.answer c = none) := by
  intro bot
  refine ⟨Bot.registry_registerAll_of_empty b rs, Bot.register_registerAll b rs, fun task moves => ?_, ?_⟩
  · refine (round_after event task moves).imp id ?_
    rintro ⟨start, told, closed, hround⟩
    exact ⟨start, told, closed, hround, failures_sublist event task start told⟩
  · obtain ⟨n, moves, start, told, closed, hrest, hround, hstart, hlinked, result, hending, hmachine⟩ :=
      plays_round bot event
    have hsettings : ∀ v ∈ ((opening event).after Bot.respond 0 moves).visits,
        v.before.state.settings = b.settings := by
      intro v hv
      have hsteady := hlinked.steady
        (Scene.confined_after Bot.rules_confines (obeys_announce event) 0 moves).visits v hv
      exact hsteady.settings.trans (Bot.settings_registerAll _ rs)
    have hnodup : (failures event 0 start told).Nodup := by
      refine (failures_sublist event 0 start told).nodup ?_
      rw [hstart, Bot.roster_registerAll_of_empty]
      exact Registration.nodup_firsts rs
    obtain ⟨v, rest, hclosed, hresult⟩ := hround.returned result hending
    refine ⟨n, moves, start, told, closed, hrest, hround, hstart, hlinked, hsettings, ?_, hnodup, ?_⟩
    · rw [hclosed]
      exact List.cons_ne_nil v rest
    · rw [hmachine]
      rcases hresult with rfl | ⟨rfl, c, hc, hanswer⟩
      · exact .inl rfl
      · have hv : v ∈ ((opening event).after Bot.respond 0 moves).visits := by
          rw [hround.visits, hclosed]
          exact List.mem_append_right _ List.mem_cons_self
        rw [hsettings v hv] at hc
        exact .inr ⟨rfl, v, hclosed ▸ List.mem_cons_self, c, hc, hanswer⟩

def helplessBot : Bot :=
  .ofSettings { token := "t" } (fun _ _ => { result := some (.error (.of (.other "forbidden"))) })
    .hand ⟨0⟩ ⟨0⟩

/-- A listener that fails after a while, one that wants to be registered under its id, one that does not
care about anything, and one that panics at once. -/
def applicants : List Registration :=
  [⟨"slow", .scripted { delay := 20, fault := some (some (.of (.other "too late"))) } {}, .hand⟩,
    ⟨"slow", .ping, .hand⟩, ⟨"deaf", .idle, .hand⟩, ⟨"rash", .scripted { fault := some none } {}, .hand⟩]

def greetingHeard : Event :=
  .message { guild := none, channel := { id := "1" }, author := { id := "42" }, id := "2", content := "hi" }

def greetedBot : Bot := { helplessBot with registry := [] }.registerAll applicants

/-- The rash one fails first, but the slow one is named first. -/
theorem listeners_called_once_applicants :
    greetedBot.roster = ["slow", "deaf", "rash"] ∧
    ∃ start told closed s, Round greetingHeard 0 start told closed s ∧ start.state = greetedBot ∧
      closed ≠ [] ∧ failures greetingHeard 0 start told = ["slow", "rash"] := by
  obtain ⟨-, -, -, n, moves, start, told, closed, hrest, hround, hstart, -, -, hclosed, -, hending⟩ :=
    listeners_called_once helplessBot applicants greetingHeard
  refine ⟨rfl, start, told, closed, _, hround, hstart, hclosed, ?_⟩
  let m : Machine Bot Lock Call.Answer (Option String) (List String) :=
    .alone greetedBot (.ofPlan (announce greetingHeard)) none
  have hcourse : m.course Bot.respond Bot.deeds n = m.course Bot.respond Bot.deeds 10 :=
    Machine.Takes.unique ⟨n, hrest, rfl⟩ ⟨10, rfl, rfl⟩
  have hvalue : (m.run Bot.respond 10).ending? = some (.value ["slow", "rash"]) := by decide +kernel
  have hended : (m.run Bot.respond n).ending? = (m.run Bot.respond 10).ending? := by
    simp only [Machine.course, Course.mk.injEq] at hcourse
    exact hcourse.1
  rcases hending with h | ⟨h, -⟩
  · have hfailed := (h.symm.trans hended).trans hvalue
    simpa using hfailed
  · cases (h.symm.trans hended).trans hvalue

end Audience

end GuildBot

import GuildBot.Bot.Process
import GuildBot.Proofs.Flow.Deadline

namespace GuildBot.Bot

open Platform

/-- A machine that processes an event, under the timeout of the settings if `timed`. -/
def processing (b : Bot) (raw : RawEvent) (timed : Bool) :
    Machine Bot Lock Call.Answer (Option String) (List String) :=
  Machine.alone b (work raw) (if timed then some (timeLimit b.settings) else none)

/-- What a caller learns of how an event ended that was processed under the timeout: nothing if it
panicked, or never ended. -/
def verdict (settings : Settings) (ending : Option (Ending (List String))) :
    Option (Outcome Unit) :=
  ending.bind (timedOutcome settings)

/-- An event that would end before the timeout ends as it would without one. One that would end after it,
or never, ends with the timeout, at that time. What the bot did by then is what it would have done
without a timeout, up to that time, and so is its state. -/
theorem timeout_cuts_short (b : Bot) (raw : RawEvent)
    (hrange : b.settings.eventTimeout ≤ Text.maxSigned64) :
    let timeout := b.settings.eventTimeout * 1000
    let late : Outcome Unit := .error (.of (.timedOut (.ofSeconds b.settings.eventTimeout)))
    let free := b.processing raw false
    ∃ c c', free.Takes respond Bot.deeds c ∧ (b.processing raw true).Takes respond Bot.deeds c' ∧
      (c.ending ≠ none → c.time < timeout →
        c' = c ∧ (c.ending ≠ some .panicked → verdict b.settings c'.ending = some (.ok ()))) ∧
      (c.ending = none ∨ timeout < c.time →
        verdict b.settings c'.ending = some late ∧ c'.time = timeout ∧
        (∃ later, c.entries = c'.entries ++ later ∧ (∀ e ∈ c'.entries, e.1 ≤ timeout) ∧
          ∀ e ∈ later, timeout ≤ e.1) ∧
        ∃ n, free.Reaches respond timeout n ∧ c'.state = (free.run respond n).hub.state) ∧
      (verdict b.settings c'.ending = some (.ok ()) ∨ verdict b.settings c'.ending = some late ∨
        c' = c ∧ c.ending = some .panicked) := by
  intro timeout late free
  have htimed : b.processing raw true = Machine.alone b (work raw) (some timeout) := by
    rw [processing, if_pos rfl, timeLimit, if_pos hrange]
  rw [htimed]
  obtain ⟨c, hc⟩ := Machine.exists_takes respond Bot.deeds free
  rcases Machine.limit_cuts_short respond Bot.deeds b (process raw) timeout with
    ⟨c', hc', hcut, htime, result, hending⟩ | ⟨n, hn, hgoing, hcut⟩
  · obtain rfl : c = c' := hc.unique hc'
    refine ⟨c, c, hc, hcut, fun _ _ => ⟨rfl, fun hp => ?_⟩, fun h => ?_, ?_⟩
    · rw [hending] at hp ⊢
      cases result with
      | none => exact absurd rfl hp
      | some failed => rfl
    · rcases h with h | h
      · rw [hending] at h
        cases h
      · exact absurd htime (Nat.not_le.2 h)
    · rw [hending]
      cases result with
      | none => exact .inr (.inr ⟨rfl, rfl⟩)
      | some failed => exact .inl rfl
  · obtain ⟨hlate, later, hentries, hbefore, hafter⟩ := hn.entries_eq hc hgoing
    refine ⟨c, _, hc, hcut, fun hending hlt => ?_, fun _ => ⟨rfl, rfl, ?_, n, hn, rfl⟩, ?_⟩
    · exact absurd (hlate hending) (Nat.not_le.2 hlt)
    · exact ⟨later, hentries, hbefore, hafter⟩
    · exact .inr (.inl rfl)

def sluggish : Behaviour := fun _ _ =>
  { duration := 60000, result := some (.error (.of (.other "unavailable"))) }

def waitingBot : Bot := .ofSettings { token := "t" } sluggish .hand ⟨0⟩ ⟨0⟩

def greeting : RawEvent :=
  .message { channelId := "1", messageId := "2", authorId := "42", content := "hello" }

/-- Of the two lookups that a greeting takes two minutes for, only the first is begun in five seconds. -/
theorem timeout_cuts_short_greeting :
    waitingBot.settings.eventTimeout ≤ Text.maxSigned64 ∧
    ∃ c', (waitingBot.processing greeting true).Takes respond Bot.deeds c' ∧
      verdict waitingBot.settings c'.ending = some (.error (.of (.timedOut (.ofSeconds 5)))) ∧
      c'.time = 5000 ∧ c'.entries = [(0, .call (.fetchUser "42"))] := by
  obtain ⟨c, c', hc, hc', -, hlate, -⟩ := timeout_cuts_short waitingBot greeting (by decide)
  have hfree : c = (waitingBot.processing greeting false).course respond Bot.deeds 10 :=
    hc.unique ⟨10, rfl, rfl⟩
  have hcalls : c.entries = [(0, .call (.fetchUser "42")), (60000, .call (.fetchChannel "1"))] := by
    rw [hfree]
    rfl
  obtain ⟨hverdict, htime, ⟨later, hentries, hbefore, hafter⟩, -⟩ :=
    hlate (.inr (by rw [hfree]; decide))
  refine ⟨by decide, c', hc', hverdict, htime, ?_⟩
  rw [hcalls] at hentries
  match hcut : c'.entries with
  | [] =>
    rw [hcut, List.nil_append] at hentries
    exact absurd (hafter _ (hentries ▸ List.mem_cons_self)) (by decide)
  | [e] =>
    rw [hcut] at hentries
    rw [(List.cons.inj hentries).1]
  | e :: e' :: rest =>
    rw [hcut] at hentries
    have he' := (List.cons.inj (List.cons.inj hentries).2).1
    exact absurd (hbefore e' (by simp [hcut])) (by rw [← he']; decide)

end GuildBot.Bot

import GuildBot.Bot.Shift
import GuildBot.Proofs.Flow.Timers
import GuildBot.Proofs.Flow.Wakeup

namespace GuildBot

open Platform

/-- When a gateway next does something by itself. -/
def GatewayPhase.time? : GatewayPhase → Option Nat
  | .forwarding since ((delay, _) :: _) => some (since + delay)
  | .closing time => some time
  | _ => none

namespace Shift

section

variable (n : Nat) (s : Shift)

private theorem foldl_accept_now (raws : List RawEvent) (m : EventMachine) :
    (raws.foldl accept m).hub.now = m.hub.now := by
  induction raws generalizing m with
  | nil => rfl
  | cons raw raws ih => exact (ih (accept m raw)).trans (Hub.wake_now m.hub _)

@[simp] theorem take_now : (s.take n).now = s.now := foldl_accept_now (s.stream.take n) s.machine

theorem take_take : (s.take 1).take n = s.take (n + 1) := by
  cases hstream : s.stream with
  | nil => simp [take, hstream]
  | cons raw rest => simp [take, hstream]

private theorem take_cases : (s.take n).stream.length < s.stream.length ∨ s.take n = s := by
  cases n with
  | zero => exact .inr rfl
  | succ n =>
    cases hstream : s.stream with
    | nil =>
      have htake : s.take (n + 1) = { s with stream := [] } := by simp [take, hstream]
      exact .inr (by rw [htake, ← hstream])
    | cons raw rest =>
      refine .inl ?_
      simp only [take, hstream, List.drop_succ_cons, List.length_drop, List.length_cons]
      omega

private theorem attend_cases : ∃ n, s.attend = s.take n ∨
    ∃ level reason, s.attend = (s.take n).close level reason := by
  unfold attend
  split
  · exact ⟨0, .inl rfl⟩
  · split
    · split
      · exact ⟨_, .inr ⟨_, _, rfl⟩⟩
      · exact ⟨_, .inr ⟨_, _, rfl⟩⟩
    · dsimp only
      split
      · exact ⟨_, .inr ⟨_, _, rfl⟩⟩
      · exact ⟨_, .inl rfl⟩

/-- Attending to the stream takes no time, and leaves the gateway and what was asked for as they are. -/
theorem attend_keeps : s.attend.now = s.now ∧ s.attend.phase = s.phase ∧
    s.attend.script = s.script ∧ s.attend.shutdown = s.shutdown := by
  obtain ⟨n, heq | ⟨level, reason, heq⟩⟩ := s.attend_cases
  · rw [heq]
    exact ⟨take_now n s, rfl, rfl, rfl⟩
  · rw [heq]
    exact ⟨take_now n s, rfl, rfl, rfl⟩

theorem attend_idle : s.attend.stream.length < s.stream.length ∨
    s.attend.stream = s.stream ∧ ∃ state, s.attend.machine =
      { s.machine with hub := { s.machine.hub with state } } := by
  obtain ⟨n, hattend⟩ := s.attend_cases
  rcases s.take_cases n with hshorter | hsame
  · refine .inl ?_
    rcases hattend with heq | ⟨level, reason, heq⟩
    · rwa [heq]
    · rwa [heq]
  · refine .inr ?_
    rw [hsame] at hattend
    rcases hattend with heq | ⟨level, reason, heq⟩
    · rw [heq]
      exact ⟨rfl, s.machine.hub.state, rfl⟩
    · rw [heq]
      exact ⟨rfl, _, rfl⟩

theorem attend_of_closed (hclosed : s.phase = .closed) : s.attend.listening = false := by
  unfold attend
  split
  · next hdeaf => simpa using hdeaf
  · split
    · split <;> rfl
    · dsimp only
      split
      · rfl
      · next hopen => exact absurd hclosed hopen

theorem forward_now : s.forward.now = s.now := by
  cases hphase : s.phase with
  | forwarding since rest => simp only [forward, hphase, now]
  | holding => simp only [forward, hphase, now]
  | closed => simp only [forward, hphase]
  | closing time =>
    simp only [forward, hphase]
    split <;> rfl

end

/-- A step of a shift that is run. -/
inductive Steps (s : Shift) : Shift → Prop where
  | turn (m : EventMachine) (h : s.machine.turn? Bot.respond = some m) :
      Steps s { s with machine := m }
  | attend (idle : s.machine.turn? Bot.respond = none)
      (woken : s.forward.attend.machine.hub.woken ≠ []) : Steps s s.forward.attend
  | arrive (idle : s.machine.turn? Bot.respond = none) (time : Nat)
      (next : s.forward.attend.nextTime? = some time) :
      Steps s { s.forward.attend with
        machine := { s.forward.attend.machine with
          hub := s.forward.attend.machine.hub.arrive time } }

/-- Whether a shift that is run stops, with nobody to have a turn: because all is over, or because nothing
more will happen. -/
structure Stops (s : Shift) : Prop where
  unwoken : s.forward.attend.machine.hub.woken = []
  still : s.forward.attend.isOver = true ∨ s.forward.attend.nextTime? = none

theorem run_succ (s : Shift) :
    (∃ s', s.Steps s' ∧ ∀ n, s.run (n + 1) = s'.run n) ∨
      s.Stops ∧ ∀ n, s.run (n + 1) = s.forward.attend := by
  cases hturn : s.machine.turn? Bot.respond with
  | some m => exact .inl ⟨_, .turn m hturn, fun n => by simp only [run, hturn]⟩
  | none =>
    cases hwoken : s.forward.attend.machine.hub.woken with
    | cons strand rest =>
      refine .inl ⟨_, .attend hturn (by simp [hwoken]), fun n => ?_⟩
      simp [run, hturn, hwoken]
    | nil =>
      by_cases hover : s.forward.attend.isOver = true
      · refine .inr ⟨⟨hwoken, .inl hover⟩, fun n => ?_⟩
        simp [run, hturn, hwoken, hover]
      · cases hnext : s.forward.attend.nextTime? with
        | none =>
          refine .inr ⟨⟨hwoken, .inr hnext⟩, fun n => ?_⟩
          simp [run, hturn, hwoken, hover, hnext]
        | some time =>
          refine .inl ⟨_, .arrive hturn time hnext, fun n => ?_⟩
          simp [run, hturn, hwoken, hover, hnext]

theorem nextTime?_eq (s : Shift) : s.nextTime? = (s.machine.hub.timers.map Prod.fst ++
    s.phase.time?.toList ++ (s.shutdown.toList.map Shutdown.time).filter (s.now < ·)).min? := by
  unfold nextTime?
  cases s.phase with
  | forwarding since rest => cases rest <;> rfl
  | holding => rfl
  | closing time => rfl
  | closed => rfl

private theorem forwarded_waits (now since : Nat) (rest : List (Nat × RawEvent)) :
    let f := forwarded now since rest
    ∀ time ∈ (GatewayPhase.forwarding f.2.1 f.2.2).time?, now < time := by
  induction rest generalizing since with
  | nil => exact nofun
  | cons event rest ih =>
    obtain ⟨delay, raw⟩ := event
    simp only [forwarded]
    split
    · exact ih (since + delay)
    · next hlate =>
      intro time htime
      obtain rfl : since + delay = time := by simpa [GatewayPhase.time?] using htime
      exact Nat.lt_of_not_le hlate

/-- What a gateway has become that has had its turn. -/
structure Rested (s : Shift) (phase : GatewayPhase) : Prop where
  /-- It has nothing to do before some later time. -/
  waits : ∀ time ∈ phase.time?, s.now < time
  ready : ∀ since, phase ≠ .forwarding since []
  holding : phase = .holding → s.isShutdown = false ∧ (s.phase = .holding ∨ s.script.hold = true)

theorem forward_rested (s : Shift) : s.Rested s.forward.phase := by
  have hheld (hhold : s.phase = .holding ∨ s.script.hold = true) :
      s.Rested (if s.isShutdown then GatewayPhase.closing (s.now + 1) else .holding) := by
    by_cases hshutdown : s.isShutdown = true
    · rw [if_pos hshutdown]
      refine ⟨fun time htime => ?_, nofun, nofun⟩
      obtain rfl : s.now + 1 = time := by simpa [GatewayPhase.time?] using htime
      exact Nat.lt_succ_self s.now
    · rw [if_neg hshutdown]
      exact ⟨nofun, nofun, fun _ => ⟨by simpa using hshutdown, hhold⟩⟩
  cases hphase : s.phase with
  | closed =>
    simp only [forward, hphase]
    exact ⟨nofun, nofun, nofun⟩
  | holding => simpa only [forward, hphase] using hheld (.inl hphase)
  | closing time =>
    simp only [forward, hphase]
    split
    · exact ⟨nofun, nofun, nofun⟩
    · next hlate =>
      rw [hphase]
      refine ⟨fun time' htime' => ?_, nofun, nofun⟩
      obtain rfl : time = time' := by simpa [GatewayPhase.time?] using htime'
      exact Nat.lt_of_not_le hlate
  | forwarding since rest =>
    have hwaits := forwarded_waits s.now since rest
    simp only [forward, hphase]
    rcases hf : forwarded s.now since rest with ⟨raws, since', rest'⟩
    rw [hf] at hwaits
    cases rest' with
    | cons event rest' => exact ⟨hwaits, nofun, nofun⟩
    | nil =>
      dsimp only
      split
      · next hhold => exact hheld (.inr hhold)
      · exact ⟨nofun, nofun, nofun⟩

theorem waits_of_attended (s : Shift) :
    ∀ time ∈ s.forward.attend.phase.time?, s.forward.attend.now < time := by
  obtain ⟨hnow, hphase, -, -⟩ := s.forward.attend_keeps
  rw [hphase, hnow, forward_now]
  exact s.forward_rested.waits

theorem le_of_nextTime? {s : Shift} (hserves : s.machine.hub.Serves fun _ => True)
    (hwaits : ∀ time ∈ s.phase.time?, s.now < time) {time : Nat} (h : s.nextTime? = some time) :
    s.now ≤ time := by
  rw [nextTime?_eq] at h
  have hmem := List.min?_mem h
  rw [List.mem_append, List.mem_append] at hmem
  rcases hmem with (htimer | hgateway) | hrequest
  · obtain ⟨timer, hset, rfl⟩ := List.mem_map.1 htimer
    exact Nat.le_of_lt (hserves.timers timer hset).2
  · exact Nat.le_of_lt (hwaits time (Option.mem_toList.1 hgateway))
  · have hlt := (List.mem_filter.1 hrequest).2
    exact Nat.le_of_lt (of_decide_eq_true hlt)

end Shift

end GuildBot

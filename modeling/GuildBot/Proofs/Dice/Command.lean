import GuildBot.Proofs.Bot.Act
import GuildBot.Proofs.Dice.Judgement
import GuildBot.Proofs.Dice.Sampling

/-!
# The roll command follows its grammar

The dice listener acts on a message just when it is a request. What it does follows from the first
roll that is written there, and every roll that it accepts can be rolled: each die has a side, and
the sum with the offset is far from the ends of the numbers.
-/

namespace GuildBot.Dice

open Directory Listener

private theorem Requests.hasAsciiDigits {content request : String} (h : Requests content request)
    (hascii : HasAsciiDigits content.toList) : HasAsciiDigits request.toList := by
  obtain ⟨left, right, hcontent⟩ := h.around
  exact fun c hc => hascii c (by
    rw [hcontent]
    simp [hc])

private theorem Decides.limits {request : List Char} {roll : Roll} (h : Decides request (.accepted roll)) :
    roll.dice ≤ 30 ∧ (0 < roll.sides ∧ roll.sides ≤ 100) ∧ -10000 ≤ roll.offset ∧
      roll.offset ≤ 10000 := by
  generalize hv : Verdict.accepted roll = v at h
  cases h with
  | malformed => cases hv
  | roll hw hoffset =>
    rw [assess] at hv
    split_ifs at hv
    cases hv
    dsimp only
    omega

private theorem Roll.shows {roll : Roll} (hdice : roll.dice ≤ 30)
    (hsides : 0 < roll.sides ∧ roll.sides ≤ 100)
    (hoffset : -10000 ≤ roll.offset ∧ roll.offset ≤ 10000) {words : List Nat}
    (hwords : AreWords words) : roll.Shows (rollAll roll.sides roll.dice words).1 := by
  have hrange : roll.sides ≤ wordRange := hsides.2.trans (by decide)
  obtain ⟨hlength, hbounds⟩ := rollAll_faces hsides.1 hrange roll.dice hwords
  obtain ⟨hleast, hgreatest⟩ := total_bounds hbounds
  rw [hlength] at hleast hgreatest
  refine ⟨hlength, hbounds, hleast, hgreatest, ?_⟩
  have hmost : roll.dice * roll.sides ≤ 30 * 100 := Nat.mul_le_mul hdice hsides.2
  rw [clamp, Text.minSigned64, Text.maxSigned64]
  omega

private theorem carryOut_ne_done (m : Message) (request : String) (v : Verdict) :
    carryOut tools m request v ≠ pure (.ok ()) := by
  intro h
  cases v <;> cases h

/-- Whether the dice listener does this about a message, on every bot whose calls have results. -/
def Answers (m : Message) (a : Act) : Prop :=
  ∀ b : Bot, b.IsAnswered → a.IsDone m b (answerRoll tools m)

/-- The dice listener has something to do about a message just when it is a request. Then the grammar
decides one thing about it, and the listener does that: it refuses with a text and an emoji, marks the
message with an emoji alone, or tells the author what the dice show and no more. Dice that are rolled can
be rolled, whatever words are drawn. -/
theorem roll_command_follows_grammar (m : Message) (hascii : HasAsciiDigits m.content.toList) :
    (answerRoll tools m = pure (.ok ()) ↔ ∀ request, ¬ Requests m.content request) ∧
    ∀ request, Requests m.content request →
      (∃! v, Decides request.toList v) ∧
      (Decides request.toList .malformed → answerRoll tools m =
        refuse tools m (.of (.other s!"no roll in `{request}`")) "😒" "malformed command" ∧
        Answers m (.refusal "malformed command" "😒")) ∧
      (Decides request.toList .tooManyDice → answerRoll tools m =
        respond tools m (some "😢") "but I only have 30 dice... 😰" ∧
        Answers m (.refusal "but I only have 30 dice... 😰" "😢")) ∧
      (Decides request.toList .noDice → answerRoll tools m = react tools m "😒" ∧
        Answers m (.reaction "dice" "😒")) ∧
      (Decides request.toList .tooManySides → answerRoll tools m =
        respond tools m (some "😢") "but I only have dice with up to 100 sides... 😰" ∧
        Answers m (.refusal "but I only have dice with up to 100 sides... 😰" "😢")) ∧
      (Decides request.toList .noSides → answerRoll tools m = react tools m "😒" ∧
        Answers m (.reaction "dice" "😒")) ∧
      (Decides request.toList .offsetTooGreat → answerRoll tools m =
        respond tools m (some "😢") "but I can only count up to ±10000... 😰" ∧
        Answers m (.refusal "but I can only count up to ±10000... 😰" "😢")) ∧
      ∀ roll, Decides request.toList (.accepted roll) →
        (answerRoll tools m = do
          tools.note .info
            s!"Rolling dice: Roll \x7b dice: {roll.dice}, sides: {roll.sides}, offset: {roll.offset} \x7d"
          let rolls ← tools.roll roll.dice roll.sides
          respond tools m none (describe m.author.id rolls roll.offset)) ∧
        ∀ b : Bot, (∀ x ∈ b.words, x < 4294967296) → ∃ faces drawn rest,
          roll? roll.dice roll.sides b.words = some (faces, drawn, rest) ∧
          (tools.roll roll.dice roll.sides).eval Bot.respond b =
            (some faces, { b with words := rest }) ∧
          roll.Shows faces ∧
          (b.IsAnswered → (Act.reply (describe m.author.id faces roll.offset)).IsDone m b
            (answerRoll tools m)) := by
  have hanswer : ∀ request, Requests m.content request → ∀ v, Decides request.toList v →
      answerRoll tools m = carryOut tools m request v := fun request hrequest v hv => by
    rw [answerRoll, request?_eq_some_iff.mpr hrequest]
    exact congrArg (carryOut tools m request) (judge_eq hv (hrequest.hasAsciiDigits hascii))
  refine ⟨⟨fun hdone request hrequest => ?_, fun hnone => ?_⟩, fun request hrequest => ?_⟩
  · obtain ⟨v, hv⟩ := exists_decides request.toList
    exact carryOut_ne_done m request v ((hanswer request hrequest v hv).symm.trans hdone)
  · have hrequest : request? m.content = none :=
      Option.eq_none_iff_forall_ne_some.mpr fun request h =>
        hnone request (request?_eq_some_iff.mp h)
    rw [answerRoll, hrequest]
  · have hask := hanswer request hrequest
    obtain ⟨v, hv⟩ := exists_decides request.toList
    have hjudge : ∀ v, Decides request.toList v → judge request = v := fun v hv =>
      judge_eq hv (hrequest.hasAsciiDigits hascii)
    have hdone (v : Verdict) (hv : Decides request.toList v) (b : Bot) (hb : b.IsAnswered) :
        (Act.ofVerdict m.author.id b.words v).IsDone m b (answerRoll tools m) := by
      rw [hask v hv]
      exact Act.isDone_carryOut hb request v
    refine ⟨⟨v, hv, fun u hu => (hjudge u hu).symm.trans (hjudge v hv)⟩,
      fun h => ⟨hask _ h, hdone _ h⟩, fun h => ⟨hask _ h, hdone _ h⟩, fun h => ⟨hask _ h, hdone _ h⟩,
      fun h => ⟨hask _ h, hdone _ h⟩, fun h => ⟨hask _ h, hdone _ h⟩, fun h => ⟨hask _ h, hdone _ h⟩,
      fun roll hroll => ⟨hask _ hroll, fun b hwords => ?_⟩⟩
    obtain ⟨hdice, hsides, hoffset⟩ := hroll.limits
    exact ⟨_, _, _, if_neg (by omega), rfl, Roll.shows hdice hsides hoffset hwords, hdone _ hroll b⟩

/-- Another text may be glued to the dice, and spaces may stand before the offset. -/
theorem roll_command_follows_grammar_glued :
    let m : Message := ⟨none, { id := "7" }, { id := "42" }, "1", " !roll x2d6  -3"⟩
    HasAsciiDigits m.content.toList ∧ answerRoll tools m = (do
      tools.note .info "Rolling dice: Roll \x7b dice: 2, sides: 6, offset: -3 \x7d"
      let rolls ← tools.roll 2 6
      respond tools m none (describe "42" rolls (-3))) ∧
    ∀ b : Bot, b.IsAnswered → b.words = [] →
      (Act.reply "<@42> rolled 1 and 1 for a total of 2, with -3 the total becomes -1").IsDone m b
        (answerRoll tools m) := by
  intro m
  have hascii : HasAsciiDigits m.content.toList := by
    have hall : m.content.toList.all (fun c => !Text.isDigit c || c.isDigit) = true := by decide +kernel
    intro c hc hdigit
    simpa [hdigit] using List.all_eq_true.1 hall c hc
  have hrequest : Requests m.content "x2d6  -3" := ⟨⟨1, 0, by decide⟩, by decide, by decide⟩
  have hdecides : Decides "x2d6  -3".toList (.accepted ⟨2, 6, -3⟩) := by
    obtain ⟨v, hv⟩ := exists_decides "x2d6  -3".toList
    have hjudge : judge "x2d6  -3" = .accepted ⟨2, 6, -3⟩ := by decide +kernel
    rwa [← hjudge, judge_eq hv (hrequest.hasAsciiDigits hascii)]
  obtain ⟨-, hanswer⟩ := roll_command_follows_grammar m hascii
  obtain ⟨-, -, -, -, -, -, -, haccepted⟩ := hanswer "x2d6  -3" hrequest
  obtain ⟨hprogram, hrolls⟩ := haccepted ⟨2, 6, -3⟩ hdecides
  refine ⟨hascii, hprogram, fun b hb hwords => ?_⟩
  obtain ⟨faces, drawn, rest, hroll, -, -, hdone⟩ := hrolls b (by simp [hwords])
  rw [hwords] at hroll
  obtain rfl : faces = [1, 1] := (congrArg (fun r => r.map (·.1)) hroll.symm).trans rfl |> Option.some.inj
  have htext : describe "42" [1, 1] (-3) =
      "<@42> rolled 1 and 1 for a total of 2, with -3 the total becomes -1" := by decide +kernel
  exact htext ▸ hdone hb

end GuildBot.Dice

import GuildBot.Bot.Client
import GuildBot.Proofs.Text.Integer
import Mathlib.Data.List.Forall2

/-!
# Ids are read exactly, and before any request

The texts that are read as ids are those that write a positive number of 64 bits. A call with another text
for an id comes to nothing but a failure that names the first such text.
-/

namespace GuildBot.Platform

/-- The id writes a number, a positive one of 64 bits. -/
def StandsFor (id : String) (n : Nat) : Prop :=
  Text.Writes id n ∧ 1 ≤ n ∧ n ≤ 18446744073709551615

private theorem readId_eq_ok_iff {id : String} {n : Nat} : readId id = .ok n ↔ StandsFor id n := by
  have hread : (Text.unsigned? Text.max64 id).filter (0 < ·) = some n ↔ StandsFor id n := by
    rw [Option.filter_eq_some_iff, Text.unsigned?_eq_some_iff, decide_eq_true_iff, and_assoc]
    exact and_congr_right fun _ => and_comm
  rw [← hread, readId]
  split
  · next m hm => simp [hm]
  · next hnone => simp [hnone]

private theorem readId_of_not_standsFor {id : String} (h : ∀ n, ¬ StandsFor id n) :
    readId id = .error (.of (.invalidId id)) := by
  rw [readId]
  split
  · next n hn =>
    have hread : readId id = .ok n := by rw [readId, hn]
    exact absurd (readId_eq_ok_iff.1 hread) (h n)
  · rfl

private theorem not_standsFor_of_error {id : String}
    (h : readId id = .error (.of (.invalidId id))) (n : Nat) :
    ¬ StandsFor id n := by
  intro hn
  rw [readId_eq_ok_iff.2 hn] at h
  cases h

private theorem standsFor_toString {n : UInt64} (h : n ≠ 0) : StandsFor (toString n) n.toNat := by
  have hlt : n.toNat < 18446744073709551616 := n.toNat_lt
  have hpos : n.toNat ≠ 0 := fun hzero => h (UInt64.toNat_inj.1 hzero)
  have hwrites := Text.unsigned?_eq_some_iff.1 (Text.unsigned?_toString (Nat.le_refl n.toNat))
  exact ⟨hwrites.1, by omega, by omega⟩

private theorem readIds_cons (id : String) (ids : List String) :
    readIds (id :: ids) = (do return (← readId id) :: (← readIds ids)) := by
  simp [readIds]

private theorem readIds_of_first {before after : List String} {id : String}
    (hbefore : ∀ i ∈ before, ∃ n, StandsFor i n) (hid : ∀ n, ¬ StandsFor id n) :
    readIds (before ++ id :: after) = .error (.of (.invalidId id)) := by
  induction before with
  | nil =>
    rw [List.nil_append, readIds_cons, readId_of_not_standsFor hid]
    rfl
  | cons i before ih =>
    obtain ⟨⟨n, hn⟩, hrest⟩ := List.forall_mem_cons.1 hbefore
    rw [List.cons_append, readIds_cons, readId_eq_ok_iff.2 hn, ih hrest]
    rfl

private theorem readIds_of_standsFor {ids : List String} {numbers : List Nat}
    (h : List.Forall₂ StandsFor ids numbers) : readIds ids = .ok numbers := by
  induction h with
  | nil => rfl
  | cons hid _ ih =>
    rw [readIds_cons, readId_eq_ok_iff.2 hid, ih]
    rfl

private theorem respond_of_first {network : Network} {b : Bot} (hb : b.platform = client network) {c : Call}
    {before after : List String} {id : String} (hc : c.ids = before ++ id :: after)
    (hbefore : ∀ i ∈ before, ∃ n, StandsFor i n) (hid : ∀ n, ¬ StandsFor id n) :
    b.respond c = (b, 0, some (.error (.of (.invalidId id)))) := by
  have hread : c.checkIds = .error (.of (.invalidId id)) := by
    rw [Call.checkIds, hc]
    exact readIds_of_first hbefore hid
  have hclient : b.platform b.deeds c = { sent := false, result := some (.error (.of (.invalidId id))) } := by
    rw [hb, client, hread]
  simp [Bot.respond, Bot.asked, Bot.answer, hclient]

/-- An id is read just if it is digits of ASCII, perhaps with one `+` before them, that write a positive
number of 64 bits, and it is read as this number. That is so for the text of every such number. Any other
text fails by its own name. With a client over any network, a call in which some id is such a text does
nothing and takes no time: it fails by the name of the first. Otherwise the network is asked for the
numbers. A client without a connection is one over a network that refuses every request. -/
theorem ids_read_before_request :
    (∀ id n, readId id = .ok n ↔ StandsFor id n) ∧
    (∀ n : UInt64, n ≠ 0 → readId (toString n) = .ok n.toNat) ∧
    (∀ id, (∀ n, ¬ StandsFor id n) → readId id = .error (.of (.invalidId id))) ∧
    (∀ (network : Network) (b : Bot) (c : Call), b.platform = client network →
      (∀ before id after, c.ids = before ++ id :: after → (∀ i ∈ before, ∃ n, StandsFor i n) →
        (∀ n, ¬ StandsFor id n) → b.respond c = (b, 0, some (.error (.of (.invalidId id))))) ∧
      (∀ numbers, List.Forall₂ StandsFor c.ids numbers →
        b.platform b.deeds c = network b.deeds c numbers)) ∧
    unconnected =
      client fun _ _ _ => { sent := false, result := some (.error (.of (.other "refused"))) } := by
  refine ⟨fun _ _ => readId_eq_ok_iff, ?_, fun _ => readId_of_not_standsFor, ?_, unconnected_eq_client⟩
  · intro n hn
    exact readId_eq_ok_iff.2 (standsFor_toString hn)
  · intro network b c hb
    constructor
    · intro before id after hc hbefore hid
      exact respond_of_first hb hc hbefore hid
    · intro numbers hnumbers
      rw [hb, client, Call.checkIds, readIds_of_standsFor hnumbers]

/-- A sign and zeros may stand before a number; the digits of other scripts write none, nor does anything
that goes beyond 64 bits. The second id of a member and the first of a reaction are found at fault. -/
theorem ids_read_before_request_general :
    let network : Network := fun _ _ _ => { result := none }
    let b : Bot := .ofSettings { token := "t" } (client network) .wall ⟨0⟩ ⟨0⟩
    readId "+007" = .ok 7 ∧
    readId "18446744073709551615" = .ok 18446744073709551615 ∧
    readId "18446744073709551616" = .error (.of (.invalidId "18446744073709551616")) ∧
    readId "٧" = .error (.of (.invalidId "٧")) ∧
    b.respond (.fetchMember "+7" "general") = (b, 0, some (.error (.of (.invalidId "general")))) ∧
    b.respond (.addReaction "0" "general" "👍") = (b, 0, some (.error (.of (.invalidId "0")))) := by
  intro network b
  obtain ⟨hread, hwritten, hother, hcalls, -⟩ := ids_read_before_request
  have hseven : StandsFor "+007" 7 := (hread _ _).1 (by decide +kernel)
  have hguild : ∃ n, StandsFor "+7" n := ⟨7, (hread _ _).1 (by decide +kernel)⟩
  have hgeneral : ∀ n, ¬ StandsFor "general" n := not_standsFor_of_error (by decide +kernel)
  have hzero : ∀ n, ¬ StandsFor "0" n := not_standsFor_of_error (by decide +kernel)
  have hgreat : ∀ n, ¬ StandsFor "18446744073709551616" n := not_standsFor_of_error (by decide +kernel)
  have hscript : ∀ n, ¬ StandsFor "٧" n := not_standsFor_of_error (by decide +kernel)
  refine ⟨(hread _ _).2 hseven, hwritten 18446744073709551615 (by decide), hother _ hgreat,
    hother _ hscript, ?_, ?_⟩
  · exact (hcalls network b _ rfl).1 ["+7"] "general" [] rfl (by simpa using hguild) hgeneral
  · exact (hcalls network b _ rfl).1 [] "0" ["general"] rfl (by simp) hzero

end GuildBot.Platform

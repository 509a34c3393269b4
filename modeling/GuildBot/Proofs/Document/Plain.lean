import GuildBot.Document.Toml.Plain
import GuildBot.Proofs.Text.Span
import Mathlib.Data.List.Nodup

/-!
# Plain files are read line by line

The document of a plain file has the settings of its lines as fields, in their order. Such a file is
malformed just if it sets a name twice.
-/

namespace GuildBot.Document

namespace Toml

variable {cs xs indent value left right tail rest : Input} {d : Document} {name : String}

/-! ## Blanks and line ends -/

private theorem skipBlanks_of_head {c : Char} (h : isBlankChar c = false) :
    skipBlanks (c :: cs) = c :: cs := by
  simp [skipBlanks, h]

private theorem skipBlanks_gap (h : IsGap left) (cs : Input) : skipBlanks (left ++ cs) = skipBlanks cs :=
  List.dropWhile_append_of_pos h

private theorem skipBlanks_skipBlanks (cs : Input) : skipBlanks (skipBlanks cs) = skipBlanks cs := by
  cases h : skipBlanks cs with
  | nil => rfl
  | cons c rest =>
    apply skipBlanks_of_head
    have hhead : c ∈ (cs.dropWhile isBlankChar).head? := by
      rw [show cs.dropWhile isBlankChar = c :: rest from h]
      rfl
    exact head_dropWhile hhead

private theorem length_skipBlanks_le (cs : Input) : (skipBlanks cs).length ≤ cs.length :=
  (List.dropWhile_sublist _).length_le

private theorem lineRest?_skipBlanks (cs : Input) : lineRest? (skipBlanks cs) = lineRest? cs := by
  rw [lineRest?, skipBlanks_skipBlanks, lineRest?]

private theorem length_lineEnd?_lt (h : lineEnd? cs = some rest) : rest.length < cs.length := by
  rw [lineEnd?.eq_def] at h
  split at h
  · cases h
    simp
  · cases h
    simp only [List.length_cons]
    omega
  · cases h

private theorem length_lineRest?_lt (h : lineRest? cs = some rest) (hsome : cs ≠ []) :
    rest.length < cs.length := by
  have hpos : 0 < cs.length := List.length_pos_iff.2 hsome
  have hblanks := length_skipBlanks_le cs
  rw [lineRest?] at h
  split at h
  · next comment hcomment =>
    have hlen := (List.dropWhile_sublist (fun c => !isControl c) (l := comment)).length_le
    rw [hcomment, List.length_cons] at hblanks
    dsimp only at h
    split at h
    · cases h
      simpa using hpos
    · have hend := length_lineEnd?_lt h
      omega
  · cases h
    simpa using hpos
  · have hend := length_lineEnd?_lt h
    omega

private theorem length_lineRest?_le (h : lineRest? cs = some rest) : rest.length ≤ cs.length := by
  cases cs with
  | nil =>
    cases h
    exact Nat.le_refl _
  | cons c cs => exact Nat.le_of_lt (length_lineRest?_lt h (List.cons_ne_nil c cs))

/-- What may follow a value on its line. -/
def IsLineMark (c : Char) : Prop := c = ' ' ∨ c = '\t' ∨ c = '#' ∨ c = '\n' ∨ c = '\r'

private theorem head_of_lineRest? (h : lineRest? cs = some rest) {c : Char} (hc : c ∈ cs.head?) :
    IsLineMark c := by
  cases cs with
  | nil => cases hc
  | cons b cs =>
    obtain rfl : b = c := by simpa using hc
    by_cases hb : isBlankChar b = true
    · have hblank : b = ' ' ∨ b = '\t' := by simpa [isBlankChar] using hb
      exact hblank.elim .inl fun htab => .inr (.inl htab)
    · rw [lineRest?, skipBlanks_of_head (by simpa using hb)] at h
      split at h
      · simp_all [IsLineMark]
      · simp_all
      · rw [lineEnd?.eq_def] at h
        split at h <;> simp_all [IsLineMark]

private theorem not_isBlankChar {c : Char} (h : ¬ IsLineMark c) : isBlankChar c = false := by
  simp only [IsLineMark, not_or] at h
  simp [isBlankChar, h]

private theorem lineRest?_of_head {c : Char} (h : ¬ IsLineMark c) (cs : Input) :
    lineRest? (c :: cs) = none := by
  cases hrest : lineRest? (c :: cs) with
  | none => rfl
  | some rest => exact absurd (head_of_lineRest? hrest rfl) h

/-- Skipping lines takes no more turns than there are characters. -/
private theorem skipLines_succ {n : Nat} (h : cs.length ≤ n) : skipLines (n + 1) cs = skipLines n cs := by
  induction n generalizing cs with
  | zero =>
    obtain rfl : cs = [] := List.length_eq_zero_iff.1 (Nat.le_zero.1 h)
    rfl
  | succ n ih =>
    have hblanks := length_skipBlanks_le cs
    rw [skipLines, skipLines]
    split
    · rfl
    · next hsome =>
      split
      · next after hafter =>
        have hlen := length_lineRest?_lt hafter hsome
        exact ih (by omega)
      · rfl

private theorem skipLines_of_lineRest? {n : Nat} (h : lineRest? cs = some rest) :
    skipLines (n + 1) cs = skipLines n rest := by
  rw [skipLines]
  split
  · next hblank =>
    rw [lineRest?, hblank] at h
    cases h
    cases n with
    | zero => rfl
    | succ n => rfl
  · rw [lineRest?_skipBlanks, h]

/-! ## Texts in quotes -/

private theorem read_escape {x? : Option Char} {body? : Option (List Char × Input)}
    (h : (do
      let x ← x?
      let (xs, rest) ← body?
      some (x :: xs, rest)) = some (xs, rest)) :
    ∃ x ys, x? = some x ∧ body? = some (ys, rest) ∧ x :: ys = xs := by
  cases x? with
  | none => cases h
  | some x =>
    cases body? with
    | none => cases h
    | some body =>
      cases h
      exact ⟨x, body.1, rfl, rfl, rfl⟩

private theorem quotedBody_escape {c x : Char} (h : escape? c = some x) (rest : Input) :
    quotedBody ('\\' :: c :: rest) = (quotedBody rest).map fun (xs, rest) => (x :: xs, rest) := by
  rw [quotedBody]
  · rw [h]
    cases quotedBody rest with
    | none => rfl
    | some body => rfl
  · rintro a b c d rest rfl
    cases h
  · rintro a b c d e f g h rest rfl
    cases h

private theorem quotedBody_plain {c : Char} (hquote : c ≠ '\x22') (hslash : c ≠ '\\')
    (hcontrol : isControl c = false) (rest : Input) :
    quotedBody (c :: rest) = (quotedBody rest).map fun (xs, rest) => (c :: xs, rest) := by
  rw [quotedBody]
  · simp [hcontrol]
  all_goals simp [hquote, hslash]

private theorem quotedBody_append (h : quotedBody cs = some (xs, rest)) (tail : Input) :
    quotedBody (cs ++ tail) = some (xs, rest ++ tail) := by
  fun_induction quotedBody cs generalizing xs rest with
  | case1 => cases h
  | case2 =>
    cases h
    rfl
  | case3 a b c d after ih =>
    obtain ⟨x, ys, hx, hbody, rfl⟩ := read_escape h
    simp [quotedBody, hx, ih hbody]
  | case4 a b c d e f g i after ih =>
    obtain ⟨x, ys, hx, hbody, rfl⟩ := read_escape h
    simp [quotedBody, hx, ih hbody]
  | case5 c after _ _ ih =>
    obtain ⟨x, ys, hx, hbody, rfl⟩ := read_escape h
    rw [List.cons_append, List.cons_append, quotedBody_escape hx, ih hbody]
    rfl
  | case6 => cases h
  | case7 c after hquote _ _ hslash hcontrol ih =>
    obtain ⟨⟨ys, left⟩, hleft, hresult⟩ := Option.map_eq_some_iff.1 h
    -- a backslash that is the last character begins no text that has an end
    have hc : c ≠ '\\' := by
      rintro rfl
      cases after with
      | nil => cases hleft
      | cons b after => exact hslash b after rfl rfl
    cases hresult
    rw [List.cons_append, quotedBody_plain hquote hc (by simpa using hcontrol), ih hleft]
    rfl

private theorem literalBody_append (h : literalBody cs = some (xs, rest)) (tail : Input) :
    literalBody (cs ++ tail) = some (xs, rest ++ tail) := by
  fun_induction literalBody cs generalizing xs rest with
  | case1 => cases h
  | case2 =>
    cases h
    rfl
  | case3 => cases h
  | case4 c after hquote hcontrol ih =>
    obtain ⟨⟨ys, left⟩, hleft, hresult⟩ := Option.map_eq_some_iff.1 h
    cases hresult
    simp [literalBody, hquote, hcontrol, ih hleft]

private theorem text?_quoted (h : ∀ rest, cs ≠ '\x22' :: '\x22' :: rest) :
    text? ('\x22' :: cs) = (quotedBody cs).map text?.finish := by
  rw [text?]
  intro rest hcs
  cases hcs
  exact h rest rfl

private theorem text?_raw (h : ∀ rest, cs ≠ '\x27' :: '\x27' :: rest) :
    text? ('\x27' :: cs) = (literalBody cs).map text?.finish := by
  rw [text?]
  intro rest hcs
  cases hcs
  exact h rest rfl

private theorem text?_quoted_append (h : quotedBody cs = some (xs, [])) (htail : '\x22' ∉ tail.head?) :
    text? ('\x22' :: (cs ++ tail)) = some (String.ofList xs, tail) := by
  have hbody : quotedBody (cs ++ tail) = some (xs, tail) := quotedBody_append h tail
  rw [text?_quoted, hbody]
  · rfl
  · intro rest hcs
    cases cs with
    | nil => cases h
    | cons c cs =>
      -- only behind an empty text could a third quote stand
      obtain ⟨rfl, hrest⟩ := List.cons.inj hcs
      simp only [quotedBody, Option.some.injEq, Prod.mk.injEq] at h
      obtain ⟨-, rfl⟩ := h
      obtain rfl : tail = '\x22' :: rest := hrest
      exact htail rfl

private theorem text?_raw_append (h : literalBody cs = some (xs, [])) (htail : '\x27' ∉ tail.head?) :
    text? ('\x27' :: (cs ++ tail)) = some (String.ofList xs, tail) := by
  have hbody : literalBody (cs ++ tail) = some (xs, tail) := literalBody_append h tail
  rw [text?_raw, hbody]
  · rfl
  · intro rest hcs
    cases cs with
    | nil => cases h
    | cons c cs =>
      obtain ⟨rfl, hrest⟩ := List.cons.inj hcs
      simp only [literalBody, ↓reduceIte, Option.some.injEq, Prod.mk.injEq] at h
      obtain ⟨-, rfl⟩ := h
      obtain rfl : tail = '\x27' :: rest := hrest
      exact htail rfl

/-! ## Values -/

private theorem dropWhile_of_word? (h : word? cs = some (d, rest)) : cs.dropWhile isWordChar = rest := by
  rw [word?] at h
  split at h
  · cases h
    rfl
  · split at h
    · cases h
      rfl
    · split at h
      · cases h
        rfl
      · obtain ⟨_, -, hresult⟩ := Option.map_eq_some_iff.1 h
        cases hresult
        rfl

private theorem word?_append (h : word? cs = some (d, [])) (htail : ∀ c ∈ tail.head?, isWordChar c = false) :
    word? (cs ++ tail) = some (d, tail) := by
  have hend := dropWhile_of_word? h
  have hcs : ∀ c ∈ cs, isWordChar c = true := List.dropWhile_eq_nil_iff.1 hend
  obtain ⟨htake, hdrop⟩ := span_append hcs htail
  rw [word?, List.takeWhile_eq_self_iff.2 hcs, hend] at h
  rw [word?, htake, hdrop]
  split at h
  · next htrue =>
    cases h
    exact if_pos htrue
  · next htrue =>
    refine (if_neg htrue).trans ?_
    split at h
    · next hfalse =>
      cases h
      exact if_pos hfalse
    · next hfalse =>
      refine (if_neg hfalse).trans ?_
      split at h
      · cases h
        rfl
      · obtain ⟨x, hx, hresult⟩ := Option.map_eq_some_iff.1 h
        cases hresult
        rw [hx]
        rfl

private theorem head_of_word? (h : word? cs = some (d, [])) :
    ∃ c rest, cs = c :: rest ∧ isWordChar c = true := by
  cases cs with
  | nil =>
    have hnone : word? [] = none := by decide +kernel
    rw [hnone] at h
    cases h
  | cons c rest =>
    have hall := List.dropWhile_eq_nil_iff.1 (dropWhile_of_word? h)
    exact ⟨c, rest, rfl, hall c List.mem_cons_self⟩

private theorem value?_of_head {c : Char} (h : isWordChar c = true) (n : Nat) (rest : Input) :
    value? (n + 1) (c :: rest) = word? (c :: rest) := by
  rw [value?]
  all_goals
    intro rest' heq
    cases heq
    exact absurd h (by decide)

/-- The first character of a value. -/
def IsValueMark (c : Char) : Prop :=
  c = '\x22' ∨ c = '\x27' ∨ c = '[' ∨ c = '\x7b' ∨ isWordChar c = true

private theorem IsValueMark.not_isLineMark {c : Char} (h : IsValueMark c) : ¬ IsLineMark c := by
  rintro (rfl | rfl | rfl | rfl | rfl) <;> simp [IsValueMark, isWordChar] at h

theorem Literal.head (h : Literal value d) : ∃ c cs, value = c :: cs ∧ IsValueMark c := by
  cases h with
  | quoted => exact ⟨_, _, rfl, .inl rfl⟩
  | raw => exact ⟨_, _, rfl, .inr (.inl rfl)⟩
  | word hword =>
    obtain ⟨c, cs, rfl, hc⟩ := head_of_word? hword
    exact ⟨c, cs, rfl, .inr (.inr (.inr (.inr hc)))⟩
  | list => exact ⟨_, _, rfl, .inr (.inr (.inl rfl))⟩
  | record => exact ⟨_, _, rfl, .inr (.inr (.inr (.inl rfl)))⟩

private theorem skipLines_of_head {c : Char} (h : ¬ IsLineMark c) (n : Nat) (cs : Input) :
    skipLines n (c :: cs) = c :: cs := by
  cases n with
  | zero => rfl
  | succ n => simp [skipLines, skipBlanks_of_head (not_isBlankChar h), lineRest?_of_head h]

private theorem value?_of_literal (h : Literal value d) (htail : ∀ c ∈ tail.head?, IsLineMark c) (n : Nat) :
    value? (n + 2) (value ++ tail) = some (d, tail) := by
  cases h with
  | quoted hbody =>
    have hquote : '\x22' ∉ tail.head? := fun hc => absurd (htail _ hc) (by simp [IsLineMark])
    rw [List.cons_append, value?, text?_quoted_append hbody hquote]
    rfl
  | raw hbody =>
    have hquote : '\x27' ∉ tail.head? := fun hc => absurd (htail _ hc) (by simp [IsLineMark])
    rw [List.cons_append, value?, text?_raw_append hbody hquote]
    rfl
  | word hword =>
    have hstop : ∀ c ∈ tail.head?, isWordChar c = false := by
      intro c hc
      rcases htail c hc with rfl | rfl | rfl | rfl | rfl <;> decide
    obtain ⟨c, cs, rfl, hc⟩ := head_of_word? hword
    rw [List.cons_append, value?_of_head hc, ← List.cons_append]
    exact word?_append hword hstop
  | list =>
    have hskip := skipLines_of_head (c := ']') (by simp [IsLineMark]) (n + 1) tail
    rw [List.cons_append, List.cons_append, List.nil_append, value?, hskip, items?]
    rfl
  | record => rfl

/-! ## Settings -/

private theorem not_isLineMark_of_isBareChar {c : Char} (h : isBareChar c = true) : ¬ IsLineMark c := by
  rintro (rfl | rfl | rfl | rfl | rfl) <;> simp [isBareChar] at h

theorem IsName.head (h : IsName name) : ∃ c cs, name.toList = c :: cs ∧ isBareChar c = true := by
  cases hname : name.toList with
  | nil => exact absurd (String.toList_eq_nil_iff.1 hname) h.1
  | cons c cs => exact ⟨c, cs, rfl, List.all_eq_true.1 h.2 c (by simp [hname])⟩

private theorem namePart?_of_isName (h : IsName name) (hrest : ∀ c ∈ rest.head?, isBareChar c = false) :
    namePart? (name.toList ++ rest) = some (name, rest) := by
  obtain ⟨htake, hdrop⟩ := span_append (List.all_eq_true.1 h.2) hrest
  obtain ⟨c, cs, hname, hc⟩ := h.head
  have hsome : name.toList.isEmpty = false := by simp [hname]
  rw [namePart?.eq_3]
  · change (if ((name.toList ++ rest).takeWhile isBareChar).isEmpty then none
      else some (String.ofList ((name.toList ++ rest).takeWhile isBareChar),
        (name.toList ++ rest).dropWhile isBareChar)) = _
    rw [htake, hdrop, hsome, String.ofList_toList]
    rfl
  all_goals
    intro after heq
    rw [hname] at heq
    cases heq
    exact absurd hc (by decide)

private theorem name?_of_isName (h : IsName name) (hleft : IsGap left) (n : Nat) :
    name? (n + 1) (name.toList ++ (left ++ '=' :: rest)) = some ([name], '=' :: rest) := by
  obtain ⟨c, cs, hname, hc⟩ := h.head
  have hstart : skipBlanks (name.toList ++ (left ++ '=' :: rest)) =
      name.toList ++ (left ++ '=' :: rest) := by
    rw [hname, List.cons_append, skipBlanks_of_head]
    exact not_isBlankChar (not_isLineMark_of_isBareChar hc)
  have hstop : ∀ c ∈ (left ++ '=' :: rest).head?, isBareChar c = false := by
    intro b hb
    cases left with
    | nil =>
      cases hb
      decide
    | cons a left =>
      cases hb
      have hblank : b = ' ' ∨ b = '\t' := by simpa [isBlankChar] using hleft b List.mem_cons_self
      rcases hblank with rfl | rfl <;> decide
  have hend : skipBlanks (left ++ '=' :: rest) = '=' :: rest := by
    rw [skipBlanks_gap hleft, skipBlanks_of_head (by decide)]
  simp [name?, hstart, namePart?_of_isName h hstop, hend]

private theorem setting?_of_isName (h : IsName name) (hvalue : Literal value d) (hleft : IsGap left)
    (hright : IsGap right) (htail : ∀ c ∈ tail.head?, IsLineMark c) (n : Nat) :
    setting? (n + 3) (name.toList ++ (left ++ '=' :: (right ++ (value ++ tail)))) =
      some ([name], d, tail) := by
  have hstart : skipBlanks (right ++ (value ++ tail)) = value ++ tail := by
    obtain ⟨c, cs, rfl, hc⟩ := hvalue.head
    rw [skipBlanks_gap hright, List.cons_append, skipBlanks_of_head (not_isBlankChar hc.not_isLineMark)]
  simp [setting?, name?_of_isName h hleft, hstart, value?_of_literal hvalue htail]

/-! ## Files -/

private theorem isNone_lookup {fields : List (String × Document)} :
    (fields.lookup name).isNone = decide (name ∉ fields.map Prod.fst) := by
  rw [Bool.eq_iff_iff, Option.isNone_iff_eq_none, List.lookup_eq_none_iff]
  simp only [bne_iff_ne, decide_eq_true_eq, List.mem_map, not_exists, not_and]
  constructor
  · intro h field hfield heq
    exact h field hfield heq.symm
  · intro h field hfield heq
    exact h field hfield heq.symm

private theorem setField_of_not_mem {fields : List (String × Document)} (h : name ∉ fields.map Prod.fst) :
    setField name d fields = fields ++ [(name, d)] := by
  induction fields with
  | nil => rfl
  | cons field fields ih =>
    simp only [List.map_cons, List.mem_cons, not_or] at h
    rw [setField, if_neg (Ne.symm h.1), ih h.2, List.cons_append]

private theorem set?_name {draft : Draft} {known : List (String × Document)} (hplace : draft.place = [])
    (hroot : draft.root = .record known) :
    draft.set? [name] d = if name ∈ known.map Prod.fst then none else
      some { draft with root := .record (known ++ [(name, d)]), complete := [name] :: draft.complete } := by
  have hway : between draft.place [name] = [] := by rw [hplace]; rfl
  have hreach : (reach? [name] (.record known)).isNone = decide (name ∉ known.map Prod.fst) := by
    rw [← isNone_lookup]
    change ((known.lookup name).bind some).isNone = _
    rw [Option.bind_fun_some]
  rw [Draft.set?, hway, hplace, hroot, List.nil_append, List.all_nil, Bool.true_and, hreach]
  by_cases hname : name ∈ known.map Prod.fst
  · rw [if_pos hname, if_neg]
    simpa using hname
  · rw [if_neg hname, if_pos]
    · simp [store?, setField_of_not_mem hname]
    · simpa using hname

private theorem statement?_of_isName {draft : Draft} (h : IsName name) (hvalue : Literal value d)
    (hleft : IsGap left) (hright : IsGap right) (htail : ∀ c ∈ tail.head?, IsLineMark c) (n : Nat) :
    statement? (n + 3) draft (name.toList ++ (left ++ '=' :: (right ++ (value ++ tail)))) =
      (draft.set? [name] d).map fun draft => (draft, tail) := by
  obtain ⟨c, cs, hname, hc⟩ := h.head
  rw [statement?, setting?_of_isName h hvalue hleft hright htail]
  · exact Option.map_eq_bind.symm
  all_goals
    intro after heq
    rw [hname] at heq
    rw [(List.cons.inj heq).1] at hc
    cases hc

private theorem statements?_congr {n : Nat} {draft : Draft} {cs' : Input}
    (h : skipLines (n + 1) cs = skipLines (n + 1) cs') :
    statements? (n + 1) draft cs = statements? (n + 1) draft cs' := by
  rw [statements?, statements?, h]

private theorem statements?_setting {draft : Draft} (h : IsName name) (hvalue : Literal value d)
    (hindent : IsGap indent) (hleft : IsGap left) (hright : IsGap right)
    (hline : lineRest? tail = some rest) (n : Nat) :
    statements? (n + 3) draft (indent ++ (name.toList ++ (left ++ '=' :: (right ++ (value ++ tail))))) =
      (draft.set? [name] d).bind fun draft => statements? (n + 2) draft rest := by
  obtain ⟨c, cs, hname, hc⟩ := h.head
  have hstatement : statement? (n + 3) draft _ = _ := statement?_of_isName h hvalue hleft hright
    (fun c hc => head_of_lineRest? hline hc) n
  rw [hname, List.cons_append] at hstatement ⊢
  have hskip : skipLines (n + 3) (indent ++ c :: (cs ++ (left ++ '=' :: (right ++ (value ++ tail))))) =
      c :: (cs ++ (left ++ '=' :: (right ++ (value ++ tail)))) := by
    have hmark := not_isLineMark_of_isBareChar hc
    rw [skipLines, skipBlanks_gap hindent, skipBlanks_of_head (not_isBlankChar hmark)]
    simp [lineRest?_of_head hmark]
  simp only [statements?, hskip, hstatement]
  cases draft.set? [name] d with
  | none => rfl
  | some draft => simp [hline]

private theorem statements?_of_isPlain {fields known : List (String × Document)} {draft : Draft} {n : Nat}
    (h : IsPlain cs fields) (hplace : draft.place = []) (hroot : draft.root = .record known)
    (hknown : (known.map Prod.fst).Nodup) (hn : cs.length < n) :
    (statements? n draft cs).map Draft.root =
      if ((known ++ fields).map Prod.fst).Nodup then some (.record (known ++ fields)) else none := by
  induction h generalizing known draft n with
  | nil =>
    obtain ⟨n, rfl⟩ : ∃ m, n = m + 1 := ⟨n - 1, by omega⟩
    rw [List.append_nil, if_pos hknown, ← hroot]
    rfl
  | blank hsome hline hrest ih =>
    obtain ⟨n, rfl⟩ : ∃ m, n = m + 1 := ⟨n - 1, by omega⟩
    have hlen := length_lineRest?_lt hline hsome
    have hskip := (skipLines_of_lineRest? hline).trans (skipLines_succ (n := n) (by omega)).symm
    rw [statements?_congr hskip]
    exact ih hplace hroot hknown (by omega)
  | @setting name d indent left right value tail rest fields hname hvalue hindent hleft hright hline
      hrest ih =>
    have hlen := length_lineRest?_le hline
    obtain ⟨c, cs, hhead, -⟩ := hname.head
    obtain ⟨b, bs, hbody, -⟩ := hvalue.head
    simp only [hhead, hbody, List.length_append, List.length_cons] at hn
    obtain ⟨n, rfl⟩ : ∃ m, n = m + 3 := ⟨n - 3, by omega⟩
    rw [statements?_setting hname hvalue hindent hleft hright hline, set?_name hplace hroot]
    by_cases hmem : name ∈ known.map Prod.fst
    · have htwice : ¬ ((known ++ (name, d) :: fields).map Prod.fst).Nodup := by
        intro hnodup
        rw [List.map_append] at hnodup
        exact (List.disjoint_of_nodup_append hnodup) hmem (by simp)
      rw [if_pos hmem, if_neg htwice]
      rfl
    · have hnext : ((known ++ [(name, d)]).map Prod.fst).Nodup := by
        rw [List.map_append]
        exact hknown.append (by simp) (by simpa using hmem)
      have hfields : known ++ (name, d) :: fields = known ++ [(name, d)] ++ fields := List.append_cons ..
      rw [if_neg hmem, Option.bind_some, hfields]
      apply ih ?_ rfl hnext ?_
      · exact hplace
      · omega

theorem IsPlain.line {name value rest : String} {fields : List (String × Document)} (hname : IsName name)
    (hvalue : Literal value.toList d) (hrest : IsPlain rest.toList fields) :
    IsPlain (name ++ " = " ++ value ++ "\n" ++ rest).toList ((name, d) :: fields) := by
  have hnone : IsGap [] := by simp [IsGap]
  have hone : IsGap [' '] := by simp [IsGap, isBlankChar]
  simp only [String.toList_append, List.append_assoc]
  exact .setting hname hvalue hnone hone hone rfl hrest

private theorem IsPlain.head_ne {fields : List (String × Document)} (h : IsPlain cs fields) :
    '\ufeff' ∉ cs.head? := by
  intro hmark
  cases h with
  | nil => cases hmark
  | blank _ hline => exact absurd (head_of_lineRest? hline hmark) (by simp [IsLineMark])
  | @setting name d indent left right value tail rest fields hname _ hindent =>
    cases indent with
    | nil =>
      obtain ⟨c, cs, hhead, hc⟩ := hname.head
      rw [hhead] at hmark
      cases hmark
      cases hc
    | cons c indent =>
      cases hmark
      cases hindent _ List.mem_cons_self

end Toml

/-- A plain file is read as the record of its settings, unless it sets a name twice. -/
theorem ofToml?_of_isPlain {file : String} {fields : List (String × Document)}
    (h : Toml.IsPlain file.toList fields) :
    ofToml? file = if (fields.map Prod.fst).Nodup then some (.record fields) else none := by
  rw [ofToml?]
  split
  · next rest hmark =>
    have hhead := h.head_ne
    rw [hmark] at hhead
    exact absurd rfl hhead
  · have hroot : ({} : Toml.Draft).root = .record [] := rfl
    simpa using Toml.statements?_of_isPlain h rfl hroot (by simp) (n := 2 * file.toList.length + 8) (by omega)

end GuildBot.Document

import GuildBot.Proofs.Document.Plain
import GuildBot.Proofs.Settings.Winner
import Mathlib.Logic.Relation

/-!
# Only winning values matter

Settings are loaded from one file and the environment. They are made of the value that wins for each key,
and nothing else in the sources has a say in them, nor in the failure that there is instead of them.
-/

namespace GuildBot.Settings

private theorem bind_eq_ok_iff {α β ε : Type} {x : Except ε α} {f : α → Except ε β} {b : β} :
    (x >>= f) = .ok b ↔ ∃ a, x = .ok a ∧ f a = .ok b := by
  cases x with
  | error e =>
    constructor
    · intro h
      cases h
    · rintro ⟨a, ha, -⟩
      cases ha
  | ok a =>
    constructor
    · intro h
      exact ⟨a, rfl, h⟩
    · rintro ⟨a', ha, h⟩
      cases ha
      exact h

namespace Sources

variable {s : Sources}

private theorem document_of_isFile {contents : String} (h : s.IsFile contents) :
    s.document = parse contents := by
  cases h with
  | requested h => simp only [document, h]
  | hidden hnone h => simp only [document, hnone, h]

private theorem document_eq_ok_iff {file : Document} : s.document = .ok file ↔ s.Reads file := by
  have hparsed {contents : String} (hcontents : s.IsFile contents) (h : s.document = .ok file) :
      s.Reads file := by
    rw [document_of_isFile hcontents, parse] at h
    split at h
    · next hfile =>
      cases h
      exact .file hcontents hfile
    · cases h
  constructor
  · intro h
    cases hrequested : s.requested with
    | some asked =>
      cases asked with
      | some contents => exact hparsed (.requested hrequested) h
      | none =>
        rw [document, hrequested] at h
        cases h
    | none =>
      cases hhidden : s.hidden with
      | some contents => exact hparsed (.hidden hrequested hhidden) h
      | none =>
        rw [document, hrequested, hhidden] at h
        cases h
        exact .nothing hrequested hhidden
  · intro h
    cases h with
    | file hcontents hfile => simp only [document_of_isFile hcontents, parse, hfile]
    | nothing hrequested hhidden => simp only [document, hrequested, hhidden]

theorem Reads.unique {file file' : Document} (h : s.Reads file) (h' : s.Reads file') : file = file' :=
  Except.ok.inj ((document_eq_ok_iff.2 h).symm.trans (document_eq_ok_iff.2 h'))

end Sources

section Values

variable {α : Type} {get : String → Option Document} {key : String} {reads : Document → α → Prop}
  {default : Option α} {a : α} {d : Document}

@[simp] theorem makes_none_iff : Makes reads default none a ↔ default = some a := by
  constructor
  · intro h
    cases h with
    | default h => exact h
  · exact .default

@[simp] theorem makes_some_iff : Makes reads default (some d) a ↔ reads d a := by
  constructor
  · intro h
    cases h with
    | value h => exact h
  · exact .value

private theorem fieldOr_eq_ok_iff {read : Document → Option α} (hreads : ∀ {d a}, read d = some a ↔ reads d a)
    {b : α} : fieldOr get read key b = .ok a ↔ Makes reads (some b) (get key) a := by
  rw [fieldOr]
  cases get key with
  | none => simp
  | some d =>
    rw [makes_some_iff, ← hreads]
    cases hd : read d with
    | none => simp [hd]
    | some a' => simp [hd]

private theorem fieldOr_token_eq_ok_iff {token : String} :
    fieldOr get (fun d => (Reader.lenient.text? d).map some) key none = .ok (some token) ↔
      Makes ReadsText none (get key) token := by
  rw [fieldOr]
  cases get key with
  | none => simp
  | some d =>
    rw [makes_some_iff, ReadsText]
    cases hd : Reader.lenient.text? d with
    | none => simp [hd]
    | some s => simp [hd]

private theorem role?_of_readsText {s : String} (h : ReadsText d s) :
    Reader.lenient.role? d = some (roleOf s) := by
  rw [Reader.role?, show Reader.lenient.text? d = some s from h, Option.map_some]
  rintro rfl
  cases h

private theorem role?_eq_some_iff {role : Option String} :
    Reader.lenient.role? d = some role ↔ ReadsRole d role := by
  constructor
  · intro h
    rw [Reader.role?.eq_def] at h
    split at h
    · cases h
      exact .null
    · obtain ⟨name, hname, rfl⟩ := Option.map_eq_some_iff.1 h
      cases hblank : Text.isBlank name with
      | true =>
        rw [roleOf, if_pos hblank]
        exact .blank hname hblank
      | false =>
        rw [roleOf, if_neg (by simp [hblank])]
        exact .named hname hblank
  · intro h
    cases h with
    | null => rfl
    | blank hname hblank => rw [role?_of_readsText hname, roleOf, if_pos hblank]
    | named hname hnamed => rw [role?_of_readsText hname, roleOf, if_neg (by simp [hnamed])]

private theorem ofFields_eq_ok_iff {s : Settings} :
    ofFields .lenient get = .ok s ↔ IsMadeOf (fun key value => value = get key) s := by
  have hseconds {d : Document} {n : Nat} : Reader.lenient.seconds? d = some n ↔ ReadsSeconds d n := .rfl
  have htext {d : Document} {s : String} : Reader.lenient.text? d = some s ↔ ReadsText d s := .rfl
  have hgives {α : Type} {key : String} {reads : Document → α → Prop} {default : Option α} {a : α} :
      Gives (fun key value => value = get key) key reads default a ↔ Makes reads default (get key) a := by
    simp [Gives]
  constructor
  · intro h
    obtain ⟨token, htoken, h⟩ := bind_eq_ok_iff.1 h
    obtain ⟨cacheTtl, hcache, h⟩ := bind_eq_ok_iff.1 h
    obtain ⟨optInTtl, hopt, h⟩ := bind_eq_ok_iff.1 h
    obtain ⟨eventTimeout, htimeout, h⟩ := bind_eq_ok_iff.1 h
    obtain ⟨logChannel, hchannel, h⟩ := bind_eq_ok_iff.1 h
    obtain ⟨trackingRole, hrole, h⟩ := bind_eq_ok_iff.1 h
    obtain ⟨failureEmoji, hemoji, h⟩ := bind_eq_ok_iff.1 h
    cases token with
    | none => cases h
    | some token =>
      cases h
      exact {
        token := hgives.2 (fieldOr_token_eq_ok_iff.1 htoken)
        cacheTtl := hgives.2 ((fieldOr_eq_ok_iff hseconds).1 hcache)
        optInTtl := hgives.2 ((fieldOr_eq_ok_iff hseconds).1 hopt)
        eventTimeout := hgives.2 ((fieldOr_eq_ok_iff hseconds).1 htimeout)
        logChannel := hgives.2 ((fieldOr_eq_ok_iff htext).1 hchannel)
        trackingRole := hgives.2 ((fieldOr_eq_ok_iff role?_eq_some_iff).1 hrole)
        failureEmoji := hgives.2 ((fieldOr_eq_ok_iff htext).1 hemoji) }
  · intro h
    rw [ofFields, fieldOr_token_eq_ok_iff.2 (hgives.1 h.token),
      (fieldOr_eq_ok_iff hseconds).2 (hgives.1 h.cacheTtl),
      (fieldOr_eq_ok_iff hseconds).2 (hgives.1 h.optInTtl),
      (fieldOr_eq_ok_iff hseconds).2 (hgives.1 h.eventTimeout),
      (fieldOr_eq_ok_iff htext).2 (hgives.1 h.logChannel),
      (fieldOr_eq_ok_iff role?_eq_some_iff).2 (hgives.1 h.trackingRole),
      (fieldOr_eq_ok_iff htext).2 (hgives.1 h.failureEmoji)]
    rfl

end Values

private theorem ofFields_congr {r : Reader} {get get' : String → Option Document}
    (h : ∀ key ∈ keys, get' key = get key) : ofFields r get' = ofFields r get := by
  simp only [keys, List.forall_mem_cons] at h
  obtain ⟨htoken, hcache, hopt, htimeout, hchannel, hrole, hemoji, -⟩ := h
  simp only [ofFields, fieldOr, htoken, hcache, hopt, htimeout, hchannel, hrole, hemoji]

variable {s s' : Sources} {file file' : Document}

private theorem isFit_iff {settings : Settings} : IsFit settings ↔ settings.flaw? = none := by
  rw [flaw?_eq_none_iff]
  constructor
  · intro h
    exact ⟨h.token, ⟨Nat.one_le_iff_ne_zero.1 h.cacheTtl, Nat.one_le_iff_ne_zero.1 h.optInTtl⟩,
      Nat.one_le_iff_ne_zero.1 h.eventTimeout, by simpa using h.logChannel⟩
  · rintro ⟨htoken, ⟨hcache, hopt⟩, htimeout, hchannel⟩
    exact ⟨htoken, Nat.one_le_iff_ne_zero.2 hcache, Nat.one_le_iff_ne_zero.2 hopt,
      Nat.one_le_iff_ne_zero.2 htimeout, by simpa using hchannel⟩

private theorem accept_eq_ok_iff {r : Except FieldError Settings} {settings : Settings} :
    accept r = .ok settings ↔ r = .ok settings ∧ IsFit settings := by
  rw [isFit_iff]
  cases r with
  | error e => simp [accept]
  | ok settings' =>
    cases hflaw : settings'.flaw? with
    | some flaw =>
      simp only [accept, hflaw, Except.ok.injEq, reduceCtorEq, false_iff, not_and]
      rintro rfl
      simp [hflaw]
    | none =>
      simp only [accept, hflaw, Except.ok.injEq, iff_self_and]
      rintro rfl
      exact hflaw

private theorem load_of_reads (h : s.Reads file) :
    load s = accept (ofFields .lenient (merged file s.environment)) := by
  rw [load, Sources.document_eq_ok_iff.2 h]
  rfl

private theorem load_of_malformed {contents : String} (h : s.IsFile contents)
    (hfile : Document.ofToml? contents = none) : load s = .error .malformedFile := by
  simp only [load, Sources.document_of_isFile h, parse, hfile]
  rfl

private theorem load_eq_ok_iff {settings : Settings} :
    load s = .ok settings ↔ ∃ file, s.Reads file ∧
      ofFields .lenient (merged file s.environment) = .ok settings ∧ IsFit settings := by
  simp only [load, bind_eq_ok_iff, Sources.document_eq_ok_iff, accept_eq_ok_iff]

private theorem load_congr (hread : s.Reads file) (hread' : s'.Reads file')
    (h : ∀ key ∈ keys, merged file' s'.environment key = merged file s.environment key) :
    load s' = load s := by
  rw [load_of_reads hread, load_of_reads hread', ofFields_congr h]

private theorem load_replace {before after : List (String × String)} {name value : String} (value' : String)
    (h : s.environment = before ++ (name, value) :: after)
    (hname : ∀ file, s.Reads file → ∀ key ∈ keys, Sets name key → file.field? key ≠ none) :
    load { s with environment := before ++ (name, value') :: after } = load s := by
  cases hdocument : s.document with
  | error e =>
    have hdocument' : { s with environment := before ++ (name, value') :: after }.document = .error e :=
      hdocument
    rw [load, load, hdocument, hdocument']
    rfl
  | ok file =>
    have hread := Sources.document_eq_ok_iff.1 hdocument
    have hread' : { s with environment := before ++ (name, value') :: after }.Reads file :=
      Sources.document_eq_ok_iff.1 hdocument
    apply load_congr hread hread'
    intro key hkey
    by_cases hsets : Sets name key
    · exact merged_of_field? (hname file hread key hkey hsets) _
    · rw [merged, merged, h]
      exact congrArg _ (ofEnvironment?_replace hsets before after value value')

private theorem load_of_field {name : String} (hname : name ∉ keys) (hread : s.Reads file)
    (hread' : s'.Reads file')
    (hrest : ∀ key, key ≠ name → file'.field? key = file.field? key)
    (h : s'.environment = s.environment) : load s' = load s := by
  apply load_congr hread hread'
  intro key hkey
  rw [merged, merged, hrest key (ne_of_mem_of_not_mem hkey hname), h]

private theorem field?_replace {before after : List (String × Document)} {name key : String} (h : key ≠ name)
    (d d' : Document) : (Document.record (before ++ (name, d') :: after)).field? key =
      (Document.record (before ++ (name, d) :: after)).field? key := by
  have hother : (key == name) = false := by simpa using h
  simp [Document.field?, Document.fields, List.lookup_append, List.lookup_cons, hother]

private theorem load_of_line {contents contents' : String} {before after : List (String × Document)}
    {name : String} {d d' : Document} (hname : name ∉ keys) (hfile : s.IsFile contents)
    (hfile' : s'.IsFile contents')
    (hplain : Document.Toml.IsPlain contents.toList (before ++ (name, d) :: after))
    (hplain' : Document.Toml.IsPlain contents'.toList (before ++ (name, d') :: after))
    (h : s'.environment = s.environment) : load s' = load s := by
  have hparse := Document.ofToml?_of_isPlain hplain
  have hparse' := Document.ofToml?_of_isPlain hplain'
  have hnames : (before ++ (name, d') :: after).map Prod.fst =
      (before ++ (name, d) :: after).map Prod.fst := by simp
  rw [hnames] at hparse'
  by_cases hnodup : ((before ++ (name, d) :: after).map Prod.fst).Nodup
  · rw [if_pos hnodup] at hparse hparse'
    exact load_of_field hname (.file hfile hparse) (.file hfile' hparse')
      (fun key hkey => field?_replace hkey d d') h
  · -- a name is set twice, whatever the value
    rw [if_neg hnodup] at hparse hparse'
    rw [load_of_malformed hfile hparse, load_of_malformed hfile' hparse']

private theorem Edit.load_eq (h : Edit s s') : load s' = load s := by
  cases h with
  | overridden hread hfile hsets h =>
    apply load_replace _ h
    intro file hread' key _ hsets'
    rw [hread'.unique hread, hsets'.unique hsets]
    exact hfile
  | foreign hname h => exact load_replace _ h fun _ _ key hkey hsets => absurd hsets (hname key hkey)
  | line hname hfile hfile' hplain hplain' h => exact load_of_line hname hfile hfile' hplain hplain' h
  | field hname hread hread' hrest h => exact load_of_field hname hread hread' hrest h
  | hidden h =>
    obtain ⟨asked, hasked⟩ := Option.ne_none_iff_exists'.1 h
    rw [load, load, Sources.document, Sources.document, hasked]
    cases asked with
    | none => rfl
    | some contents => rfl

private theorem load_of_edits (h : Relation.ReflTransGen Edit s s') : load s' = load s := by
  induction h with
  | refl => rfl
  | tail _ hedit ih => rw [hedit.load_eq, ih]

private theorem load_of_winners (hnames : HasDistinctNames s'.environment) (hread : s.Reads file)
    (hread' : s'.Reads file')
    (h : ∀ key ∈ keys, ∀ value,
      Wins file s.environment key value ↔ Wins file' s'.environment key value) :
    load s = load s' := by
  apply load_congr hread' hread
  intro key hkey
  have hwins : Wins file' s'.environment key (merged file s.environment key) := (h key hkey _).1 wins_merged
  exact hwins.unique hnames wins_merged

private theorem isMadeOf_wins_iff (hnames : HasDistinctNames s.environment) {settings : Settings} :
    IsMadeOf (Wins file s.environment) settings ↔
      ofFields .lenient (merged file s.environment) = .ok settings := by
  have hwins : Wins file s.environment = fun key value => value = merged file s.environment key := by
    funext key value
    exact propext (wins_iff hnames)
  rw [ofFields_eq_ok_iff, hwins]

/-- One file is read: the one that was asked for, or the hidden one if none was, or none. With distinct names
in the environment, settings are loaded just if they are made of the values that win and may be run with;
sources in which the same values win come to the same, as do those that any number of edits leads to which
no such value depends on. A file of plain settings is read as these settings. -/
theorem only_winners_matter :
    (∀ s : Sources, s.requested = some none → load s = .error .noSuchFile) ∧
    (∀ (s : Sources) (contents : String), s.IsFile contents → Document.ofToml? contents = none →
      load s = .error .malformedFile) ∧
    (∀ s : Sources, HasDistinctNames s.environment → ∀ settings : Settings,
      load s = .ok settings ↔
        ∃ file, s.Reads file ∧ IsMadeOf (Wins file s.environment) settings ∧ IsFit settings) ∧
    (∀ (s s' : Sources) (file file' : Document), HasDistinctNames s'.environment →
      s.Reads file → s'.Reads file' →
      (∀ key ∈ keys, ∀ value,
        Wins file s.environment key value ↔ Wins file' s'.environment key value) →
      load s = load s') ∧
    (∀ s s' : Sources, Relation.ReflTransGen Edit s s' → load s' = load s) ∧
    ∀ (contents : String) (fields : List (String × Document)),
      Document.Toml.IsPlain contents.toList fields → Document.ofToml? contents =
        if (fields.map Prod.fst).Nodup then some (.record fields) else none := by
  refine ⟨?_, fun _ _ => load_of_malformed, ?_, ?_, fun _ _ => load_of_edits,
    fun _ _ => Document.ofToml?_of_isPlain⟩
  · intro s h
    rw [load, Sources.document, h]
    rfl
  · intro s hnames settings
    simp only [load_eq_ok_iff, isMadeOf_wins_iff hnames]
  · intro s s' file file' hnames hread hread' h
    exact load_of_winners hnames hread hread' h

private theorem isPlain_coloured {contents value : String} {d : Document}
    (h : Document.Toml.word? value.toList = some (d, []))
    (hcontents : contents = "cache_ttl_secs" ++ " = " ++ "7" ++ "\n" ++ ("tracking_role" ++ " = " ++ "' '" ++
      "\n" ++ ("colour" ++ " = " ++ value ++ "\n" ++ ""))) :
    Document.Toml.IsPlain contents.toList
      [("cache_ttl_secs", .whole 7), ("tracking_role", .text " "), ("colour", d)] := by
  have hcache : Document.Toml.IsName "cache_ttl_secs" := by decide +kernel
  have hrole : Document.Toml.IsName "tracking_role" := by decide +kernel
  have hcolour : Document.Toml.IsName "colour" := by decide +kernel
  have hseven : Document.Toml.Literal "7".toList (.whole 7) := .word rfl
  have hblank : Document.Toml.Literal "' '".toList (.text " ") :=
    .raw (show Document.Toml.literalBody _ = some ([' '], []) from rfl)
  rw [hcontents]
  exact .line hcache hseven (.line hrole hblank (.line hcolour (.word h) .nil))

/-- Variables that cannot be read and a hidden file that is malformed are of no account beside the file
that was asked for. -/
theorem only_winners_matter_unreadable :
    let s : Sources := {
      environment := [("HERALD_BOT_DISCORD_BOT_TOKEN", "t"), ("Herald_Bot_Cache_TTL_Secs", "soon"),
        ("PATH", "/bin")]
      hidden := some "= 3"
      requested := some (some "cache_ttl_secs = 7\ntracking_role = ' '\ncolour = 1.5\n") }
    let s' : Sources := {
      environment := [("HERALD_BOT_DISCORD_BOT_TOKEN", "t"), ("Herald_Bot_Cache_TTL_Secs", "0"),
        ("PATH", "")]
      hidden := none
      requested := some (some "cache_ttl_secs = 7\ntracking_role = ' '\ncolour = true\n") }
    load s = .ok { token := "t", cacheTtl := 7, trackingRole := none } ∧ load s' = load s ∧
      load { s with requested := none } = .error .malformedFile := by
  intro s s'
  obtain ⟨-, hmalformed, hloaded, -, hedits, hparse⟩ := only_winners_matter
  obtain ⟨d, hd⟩ : ∃ d, Document.Toml.word? "1.5".toList = some (d, []) := ⟨_, rfl⟩
  obtain ⟨d', hd'⟩ : ∃ d', Document.Toml.word? "true".toList = some (d', []) := ⟨_, rfl⟩
  let known : List (String × Document) := [("cache_ttl_secs", .whole 7), ("tracking_role", .text " ")]
  let file : Document := .record (known ++ ("colour", d) :: [])
  have hplain : Document.Toml.IsPlain _ (known ++ ("colour", d) :: []) := isPlain_coloured hd rfl
  have hplain' : Document.Toml.IsPlain _ (known ++ ("colour", d') :: []) := isPlain_coloured hd' rfl
  have hread : s.Reads file := .file (.requested rfl) (hparse _ _ hplain)
  have hnames : HasDistinctNames s.environment := by decide
  refine ⟨(hloaded s hnames _).2 ⟨_, hread, ?_, ?_⟩, ?_, ?_⟩
  · exact {
      token := ⟨_, .environment rfl (List.mem_cons_self ..) (by decide), .value rfl⟩
      cacheTtl := ⟨_, .file rfl, .value rfl⟩
      optInTtl := ⟨_, .nothing rfl (by decide), .default rfl⟩
      eventTimeout := ⟨_, .nothing rfl (by decide), .default rfl⟩
      logChannel := ⟨_, .nothing rfl (by decide), .default rfl⟩
      trackingRole := ⟨_, .file rfl, .value (.blank rfl (by decide))⟩
      failureEmoji := ⟨_, .nothing rfl (by decide), .default rfl⟩ }
  · exact ⟨by decide, by decide, by decide, by decide, by decide⟩
  · let readable : Sources := { s with
      environment := [("HERALD_BOT_DISCORD_BOT_TOKEN", "t")] ++
        ("Herald_Bot_Cache_TTL_Secs", "0") :: [("PATH", "/bin")] }
    let pathless : Sources := { readable with
      environment := [("HERALD_BOT_DISCORD_BOT_TOKEN", "t"), ("Herald_Bot_Cache_TTL_Secs", "0")] ++
        ("PATH", "") :: [] }
    let flagged : Sources := { pathless with requested := s'.requested }
    have hcache : Sets "Herald_Bot_Cache_TTL_Secs" "cache_ttl_secs" := by decide
    have hpath : ∀ key ∈ keys, ¬ Sets "PATH" key := by decide
    have hcolour : "colour" ∉ keys := by decide
    have hseven : file.field? "cache_ttl_secs" ≠ none := Option.some_ne_none _
    have hreadable : Edit s readable := .overridden hread hseven hcache rfl
    have hpathless : Edit readable pathless := .foreign hpath rfl
    have hflagged : Edit pathless flagged :=
      .line hcolour (.requested rfl) (.requested rfl) hplain hplain' rfl
    have hhidden : Edit flagged s' := .hidden (Option.some_ne_none _)
    exact hedits s s' (.tail (.tail (.tail (.single hreadable) hpathless) hflagged) hhidden)
  · exact hmalformed _ "= 3" (.hidden rfl rfl) rfl

end GuildBot.Settings

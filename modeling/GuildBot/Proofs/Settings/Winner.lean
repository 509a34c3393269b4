import GuildBot.Settings.Origin
import Mathlib.Data.List.Nodup

namespace GuildBot.Settings

variable {name key : String} {environment : List (String × String)}

private theorem environmentKey?_eq_some_iff : environmentKey? name = some key ↔ Sets name key := by
  have hlen : environmentMark.length = environmentMark.toList.length := String.length_toList.symm
  rw [environmentKey?, Sets]
  split
  · next hprefix =>
    obtain ⟨rest, hrest⟩ := List.isPrefixOf_iff_prefix.1 hprefix
    rw [← hrest, hlen, List.drop_left, List.append_cancel_left_eq, Option.some.injEq,
      ← String.toList_inj, String.toList_ofList]
  · next hprefix =>
    constructor
    · intro h
      cases h
    · intro h
      exact absurd (List.isPrefixOf_iff_prefix.2 ⟨key.toList, h.symm⟩) hprefix

theorem Sets.unique {key' : String} (h : Sets name key) (h' : Sets name key') : key = key' :=
  String.toList_inj.1 (List.append_cancel_left (h.symm.trans h'))

private theorem HasDistinctNames.eq_of_sets (h : HasDistinctNames environment)
    {entry entry' : String × String}
    (hentry : entry ∈ environment) (hentry' : entry' ∈ environment) (hsets : Sets entry.1 key)
    (hsets' : Sets entry'.1 key) : entry = entry' :=
  List.inj_on_of_nodup_map h hentry hentry' (hsets.trans hsets'.symm)

private theorem ofEnvironment?_eq_none_iff :
    ofEnvironment? environment key = none ↔ ∀ entry ∈ environment, ¬ Sets entry.1 key := by
  simp [ofEnvironment?, environmentKey?_eq_some_iff]

private theorem sets_of_ofEnvironment? {d : Document} (h : ofEnvironment? environment key = some d) :
    ∃ entry ∈ environment, Sets entry.1 key ∧ d = .text entry.2 := by
  obtain ⟨value, hvalue, rfl⟩ := Option.map_eq_some_iff.1 h
  obtain ⟨entry, hentry, hfound⟩ := List.exists_of_findSome?_eq_some hvalue
  dsimp only at hfound
  split at hfound
  · next hkey =>
    cases hfound
    exact ⟨entry, hentry, environmentKey?_eq_some_iff.1 hkey, rfl⟩
  · cases hfound

theorem ofEnvironment?_replace (hname : ¬ Sets name key) (before after : List (String × String))
    (value value' : String) :
    ofEnvironment? (before ++ (name, value') :: after) key =
      ofEnvironment? (before ++ (name, value) :: after) key := by
  have hkey : environmentKey? name ≠ some key := fun h => hname (environmentKey?_eq_some_iff.1 h)
  simp [ofEnvironment?, List.findSome?_append, hkey]

variable {file : Document}

theorem merged_of_field? (h : file.field? key ≠ none) (environment' : List (String × String)) :
    merged file environment' key = merged file environment key := by
  obtain ⟨d, hd⟩ := Option.ne_none_iff_exists'.1 h
  rw [merged, merged, hd, Option.some_or, Option.some_or]

theorem wins_merged : Wins file environment key (merged file environment key) := by
  cases hfile : file.field? key with
  | some d =>
    rw [merged, hfile]
    exact .file hfile
  | none =>
    rw [merged, hfile, Option.none_or]
    cases henv : ofEnvironment? environment key with
    | some d =>
      obtain ⟨entry, hentry, hsets, rfl⟩ := sets_of_ofEnvironment? henv
      exact .environment hfile hentry hsets
    | none => exact .nothing hfile (ofEnvironment?_eq_none_iff.1 henv)

theorem Wins.unique (hnames : HasDistinctNames environment) {value value' : Option Document}
    (h : Wins file environment key value) (h' : Wins file environment key value') : value = value' := by
  cases h with
  | file hd =>
    cases h' with
    | file hd' => rw [← hd, hd']
    | environment hfile => simp [hd] at hfile
    | nothing hfile => simp [hd] at hfile
  | environment hfile hentry hsets =>
    cases h' with
    | file hd' => simp [hd'] at hfile
    | environment _ hentry' hsets' =>
      cases hnames.eq_of_sets hentry hentry' hsets hsets'
      rfl
    | nothing _ hnone => exact absurd hsets (hnone _ hentry)
  | nothing hfile hnone =>
    cases h' with
    | file hd' => simp [hd'] at hfile
    | environment _ hentry' hsets' => exact absurd hsets' (hnone _ hentry')
    | nothing => rfl

theorem wins_iff (hnames : HasDistinctNames environment) {value : Option Document} :
    Wins file environment key value ↔ value = merged file environment key := by
  constructor
  · intro h
    exact h.unique hnames wins_merged
  · rintro rfl
    exact wins_merged

end GuildBot.Settings

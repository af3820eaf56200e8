import TextAdventure.Proofs.Turns

/-!
# Loading, saving and loading again

A file of settings holds a mapping with any names and values. What is loaded from it is said here
name by name (`TextAdventure.Settings.IsGivenBy`): all known names are there; a value in the file
counts unless it is nothing; articles that are given as a text are the list of its words. From there
on nothing changes but the debug mode, which becomes a truth value when it is saved. Loading what
was saved restores all other settings, known or not (`TextAdventure.Settings.IsRestoredFrom`), and
saving and loading once more restores all of them (`TextAdventure.Settings.load_save_load`).

Names are compared by value, and a name may be any document that can be a key. So what an unknown
name gives rests on two things about the mapping that was read: its names can be keys, and no two of
them are equal (`TextAdventure.Yaml.isKeyed_of_read`).
-/

namespace TextAdventure

/-! ### Mappings that are read -/

/-- What is so of the keys of a mapping that stands in a file. -/
structure Document.IsKeyed (entries : Table Document Document) : Prop where
  canBeKey : ∀ k ∈ entries.keys, k.canBeKey
  distinct : Table.Distinct entries.keys

namespace Yaml

/-- The value of a scalar is no mapping. -/
theorem scalarValue_ne_mapping (tag : Tag) (s : String) (entries : Table Document Document) :
    scalarValue tag s ≠ .ok (.mapping entries) := by
  cases tag with
  | bool =>
    simp only [scalarValue]
    split_ifs <;> simp
  | int => cases hvalue : intOf s.toList <;> simp [scalarValue, hvalue]
  | float => cases hvalue : floatOf s.toList <;> simp [scalarValue, hvalue]
  | time => cases hvalue : timeOf s.toList <;> simp [scalarValue, hvalue]
  | _ => simp [scalarValue]

/-- How an entry of a mapping is read: its key first, which has to be one. -/
def entryOf (fuel : ℕ) (e : Node × Node) : Except Fault (Document × Document) := do
  let key ← (keyNode e.1).toDocument fuel
  if key.canBeKey then
    let value ← e.2.toDocument fuel
    return (key, value)
  else .error .unreadable

theorem canBeKey_of_entryOf {fuel : ℕ} {n : Node × Node} {e : Document × Document}
    (h : entryOf fuel n = .ok e) : e.1.canBeKey := by
  obtain ⟨key, -, hentry⟩ := bind_eq_ok_iff.mp h
  by_cases hkey : key.canBeKey = true
  · rw [if_pos hkey] at hentry
    obtain ⟨value, -, hvalue⟩ := bind_eq_ok_iff.mp hentry
    obtain rfl := Except.ok.inj hvalue
    exact hkey
  · rw [if_neg hkey] at hentry
    cases hentry

/-- Reads entries and enters them, one after the other. -/
def enterEntries (fuel : ℕ) (table : Table Document Document) (nodes : List (Node × Node)) :
    Except Fault (Table Document Document) :=
  nodes.foldlM (fun (table : Table Document Document) n =>
    entryOf fuel n >>= fun e => .ok (table.insert e.1 e.2)) table

theorem enterEntries_nil (fuel : ℕ) (table : Table Document Document) :
    enterEntries fuel table [] = .ok table := rfl

theorem enterEntries_cons (fuel : ℕ) (table : Table Document Document) (n : Node × Node)
    (ns : List (Node × Node)) :
    enterEntries fuel table (n :: ns) =
      entryOf fuel n >>= fun e => enterEntries fuel (table.insert e.1 e.2) ns := by
  rw [enterEntries, List.foldlM_cons, bind_assoc]
  rfl

theorem isKeyed_of_enterEntries {fuel : ℕ} {nodes : List (Node × Node)}
    {entries : Table Document Document} (h : enterEntries fuel [] nodes = .ok entries) :
    Document.IsKeyed entries := by
  have hnil := enterEntries_nil fuel
  have hcons := enterEntries_cons fuel
  refine ⟨?_, ?_⟩
  · exact forall_key_of_enterAll (enterEntries fuel) hnil hcons (fun k => k.canBeKey = true)
      (fun _ _ => canBeKey_of_entryOf) h fun k hk => absurd hk List.not_mem_nil
  · obtain ⟨read, -, rfl⟩ := (enterAll_eq_ok_iff (enterEntries fuel) hnil hcons
      (fun _ _ _ => Iff.rfl) [] entries).mp h
    have hnone : Table.Distinct (Table.keys ([] : Table Document Document)) := List.Pairwise.nil
    exact Table.distinct_keys_update hnone read

/-- The entries of a mapping node are read and entered in this way. -/
theorem toDocument_mapping (fuel : ℕ) (nodes : List (Node × Node)) :
    (Node.mapping .map nodes).toDocument (fuel + 1) =
      withTaken (takenEntries nodes) nodes >>= fun all =>
        enterEntries fuel [] all >>= fun table => .ok (.mapping table) := by
  rw [Node.toDocument, if_pos rfl]
  refine bind_congr fun all => ?_
  congr 1
  rw [enterEntries]
  congr 1
  funext table n
  -- the key is read first, then it is looked at, and only then the value is read
  rw [entryOf]
  cases (keyNode n.1).toDocument fuel with
  | error f => rfl
  | ok key =>
    by_cases hkey : key.canBeKey = true
    · simp only [bind, Except.bind, if_pos hkey]
      cases n.2.toDocument fuel <;> rfl
    · simp only [bind, Except.bind, if_neg hkey]

theorem isKeyed_of_toDocument {fuel : ℕ} {n : Node} {entries : Table Document Document}
    (h : n.toDocument fuel = .ok (.mapping entries)) : Document.IsKeyed entries := by
  cases fuel with
  | zero => cases h
  | succ fuel =>
    cases n with
    | scalar tag s => exact absurd h (scalarValue_ne_mapping tag s entries)
    | sequence tag items =>
      rw [Node.toDocument] at h
      split_ifs at h
      cases hitems : items.mapM (Node.toDocument fuel) with
      | error f => simp [hitems, Except.map] at h
      | ok ds => simp [hitems, Except.map] at h
    | mapping tag nodes =>
      by_cases htag : tag = .map
      · rw [htag, toDocument_mapping] at h
        obtain ⟨all, -, htable⟩ := bind_eq_ok_iff.mp h
        obtain ⟨table, hentered, hresult⟩ := bind_eq_ok_iff.mp htable
        obtain rfl := Document.mapping.inj (Except.ok.inj hresult)
        exact isKeyed_of_enterEntries hentered
      · rw [Node.toDocument, if_neg htag] at h
        cases h

/-- **A mapping that is read** has keys, no two of which are equal. -/
theorem isKeyed_of_read {s : String} {entries : Table Document Document}
    (h : read s = .ok (.mapping entries)) : Document.IsKeyed entries := by
  rw [read] at h
  split at h
  · cases h
  · split at h
    · cases h
    · exact Document.noConfusion (Except.ok.inj h)
    · exact isKeyed_of_toDocument h

end Yaml

namespace Settings

/-! ### What a file gives -/

/-- **What loading makes of the entries of a file.** -/
structure IsGivenBy (s : Settings) (entries : Table Document Document) : Prop where
  /-- All known names are there. -/
  known : ∀ e ∈ defaults, e.1 ∈ s.keys
  /-- What is something in the file counts. -/
  entered : ∀ name d, entries.get? name = some d → d ≠ .null →
    (∀ words, (name, d) ≠ (articles, .text words)) → s.get? name = some d
  /-- Articles that are given as a text are the list of its words. -/
  split : ∀ words, entries.get? articles = some (.text words) →
    s.get? articles = some (.ofTexts (Text.words words))
  /-- Where the file says nothing, there is the default, if there is one. -/
  missing : ∀ name, entries.get? name = none ∨ entries.get? name = some .null →
    s.get? name = Table.get? name defaults

variable {s : Settings} {entries : Table Document Document}

/-- The settings before a text of articles is split. -/
theorem get?_update_defaults (h : Document.IsKeyed entries) (name : Document) :
    (Table.update defaults (entries.filter fun e => !(e.2 == Document.null))).get? name =
      ((entries.get? name).filter fun d => !(d == Document.null)).or
        (Table.get? name defaults) := by
  have hdefaults : ∀ k ∈ Table.keys defaults, Table.IsComparedBy Document.worth k := by
    intro k hk
    obtain ⟨e, he, rfl⟩ := List.mem_map.mp hk
    simp only [defaults, List.mem_cons, List.not_mem_nil, or_false] at he
    rcases he with rfl | rfl | rfl | rfl | rfl <;> exact Document.isComparedBy_worth rfl
  have hentries : ∀ k ∈ entries.keys, Table.IsComparedBy Document.worth k :=
    fun k hk => Document.isComparedBy_worth (h.canBeKey k hk)
  -- what is entered has some of the names in the file, and each only once
  have hsub : (entries.filter fun e => !(e.2 == Document.null)).Sublist entries :=
    List.filter_sublist
  have hfilter : Table.get? name (entries.filter fun e => !(e.2 == Document.null)) =
      (entries.get? name).filter fun d => !(d == Document.null) :=
    (Table.isSingle_of_isComparedBy hentries h.distinct name).get?_filter fun _ _ _ => rfl
  rw [Table.get?_update hdefaults (fun k hk => hentries k ((hsub.map Prod.fst).subset hk))
    (Table.distinct_of_sublist h.distinct hsub), hfilter]

theorem get?_withArticleList_of_ne {name : Document} (h : name ≠ articles) :
    (withArticleList s).get? name = s.get? name := by
  rw [withArticleList]
  split
  · exact Table.get?_insert_of_ne isExact_articles h
  · rfl

theorem get?_withArticleList_of_text {words : String} (h : s.get? articles = some (.text words)) :
    (withArticleList s).get? articles = some (.ofTexts (Text.words words)) := by
  rw [withArticleList, h]
  exact Table.get?_insert_self isExact_articles

/-- A setting is what was there before the articles were split, unless it is a text of articles. -/
theorem get?_withArticleList {name : Document} {d? : Option Document} (h : s.get? name = d?)
    (hnoText : ∀ words, (name, d?) ≠ (articles, some (.text words))) :
    (withArticleList s).get? name = d? := by
  by_cases hname : name = articles
  · rw [withArticleList_of_noText, h]
    intro words hwords
    exact hnoText words (by rw [← h, hname, hwords])
  · rw [get?_withArticleList_of_ne hname, h]

/-- **The settings that a mapping gives.** -/
theorem isGivenBy_ofEntries (h : Document.IsKeyed entries) :
    (ofEntries entries).IsGivenBy entries where
  known := by
    intro e he
    exact (isLoaded_ofEntries entries).known.subset (List.mem_map_of_mem he)
  entered := by
    intro name d hd hnull hnoText
    have hkept : (!(d == Document.null)) = true := by
      rw [Bool.not_eq_true', ← Bool.not_eq_true, (Document.isExact_null d).1]
      exact hnull
    refine get?_withArticleList ?_ fun words hwords => ?_
    · rw [get?_update_defaults h, hd, Option.filter_some, if_pos hkept, Option.some_or]
    · obtain ⟨rfl, hd'⟩ := Prod.mk.inj hwords
      exact hnoText words (by rw [Option.some.inj hd'])
  split := by
    intro words hwords
    refine get?_withArticleList_of_text ?_
    rw [get?_update_defaults h, hwords]
    rfl
  missing := by
    intro name hname
    have hnone : ((entries.get? name).filter fun d => !(d == Document.null)) = none := by
      rcases hname with hname | hname
      · rw [hname, Option.filter_none]
      · rw [hname]
        rfl
    refine get?_withArticleList (by rw [get?_update_defaults h, hnone, Option.none_or]) ?_
    -- the default of the articles is a list already
    intro words hwords
    obtain ⟨rfl, hdefault⟩ := Prod.mk.inj hwords
    exact Document.noConfusion (Option.some.inj hdefault)

/-! ### What saving keeps -/

/-- Settings are *restored from* others if they are the same, but for the debug mode, which is a
truth value now. In what order their names stand depends on how a file is written, and is left
open. -/
structure IsRestoredFrom (s first : Settings) : Prop where
  debug : ∃ d, first.get? debugMode = some d ∧ s.get? debugMode = some (.bool d.isTrue)
  others : ∀ name, name ≠ debugMode → s.get? name = first.get? name
  keys : s.keys.Perm first.keys

/-- Whether the reader gives back what is written of some settings. -/
def IsReadBack (s : Settings) : Prop :=
  Yaml.read (Yaml.write (.mapping s.saved)) = .ok (.mapping s.saved)

theorem IsLoaded.has_debugMode (h : s.IsLoaded) : s.has debugMode = true := by
  rw [Table.has_iff_mem_keys isExact_debugMode]
  exact h.known.subset (by simp [Table.keys, defaults])

theorem IsLoaded.isRestoredFrom (h : s.IsLoaded) :
    (s.withDebug s.isDebug).IsRestoredFrom s where
  debug := by
    obtain ⟨d, hd⟩ := Option.isSome_iff_exists.mp h.has_debugMode
    refine ⟨d, hd, ?_⟩
    rw [Settings.withDebug, Table.get?_insert_self isExact_debugMode, isDebug, hd, Option.any_some]
  others := fun _ hname => get?_withDebug hname s _
  keys := .of_eq (Table.keys_insert_of_has h.has_debugMode)

variable {env : Environment} {folder : Folder} {given : Document}

/-- **A file that holds a mapping**: the file of the settings is there, and its text is read as
one. -/
def Holds (env : Environment) (folder : Folder) (given : Document)
    (entries : Table Document Document) : Prop :=
  ∃ file name text, Folder.pathText (path env given) = .ok file ∧ Folder.target file = .file name ∧
    folder.get? name = some text ∧ Yaml.read text = .ok (.mapping entries)

theorem Holds.isKeyed (h : Holds env folder given entries) : Document.IsKeyed entries := by
  obtain ⟨_, _, _, -, -, -, hread⟩ := h
  exact Yaml.isKeyed_of_read hread

/-- From a file that holds a mapping, the settings are loaded that the mapping gives. -/
theorem Holds.load (h : Holds env folder given entries) (henv : debugForced env = false) :
    Settings.load env folder given = (folder, .ok (ofEntries entries)) := by
  obtain ⟨file, name, text, hpath, htarget, hget, hread⟩ := h
  obtain ⟨hhas, hfile⟩ := Folder.of_get? htarget hget
  rw [load_of_hasPath hpath hhas, loadFile_of_read henv hfile hread]

/-- Any settings can be saved where a file is. -/
theorem Holds.exists_save (h : Holds env folder given entries) (folder' : Folder) (s : Settings) :
    ∃ folder'', save env folder' s given = (folder'', .ok (path env given)) := by
  obtain ⟨file, name, -, hpath, htarget, -, -⟩ := h
  simp only [save, hpath, Folder.write, htarget]
  exact ⟨_, rfl⟩

/-- **Loading, saving and loading again.** Let a file hold a mapping, and the environment say
nothing of the debug mode. Then settings are loaded that the mapping gives, name by name, and can be
saved. If the reader gives back what was written, loading again restores them, with the debug mode
as a truth value; and saving and loading once more changes nothing. -/
theorem load_save_load (h : Holds env folder given entries) (henv : env.debug = none) :
    ∃ first, Settings.load env folder given = (folder, .ok first) ∧ first.IsGivenBy entries ∧
      ∃ saved, save env folder first given = (saved, .ok (path env given)) ∧
        (first.IsReadBack → ∃ second, Settings.load env saved given = (saved, .ok second) ∧
          second.IsRestoredFrom first ∧
          ∃ savedAgain, save env saved second given = (savedAgain, .ok (path env given)) ∧
            (second.IsReadBack →
              Settings.load env savedAgain given = (savedAgain, .ok second))) := by
  have hforced : debugForced env = false := by rw [debugForced, henv]
  have hfirst := isLoaded_ofEntries entries
  obtain ⟨saved, hsave⟩ := h.exists_save folder (ofEntries entries)
  refine ⟨ofEntries entries, h.load hforced, isGivenBy_ofEntries h.isKeyed, saved, hsave,
    fun hread => ?_⟩
  obtain ⟨savedAgain, hsaveAgain⟩ :=
    h.exists_save saved ((ofEntries entries).withDebug (ofEntries entries).isDebug)
  refine ⟨_, hfirst.load_of_save hforced hsave hread, hfirst.isRestoredFrom, savedAgain, hsaveAgain,
    fun hreadAgain => ?_⟩
  -- the debug mode is a truth value already
  have hagain := (hfirst.withDebug _).load_of_save hforced hsaveAgain hreadAgain
  rwa [isDebug_withDebug, withDebug_withDebug] at hagain

end Settings

namespace Hall

/-- A file of settings with unknown names, a text of articles, a value that is nothing and a debug
mode that is no truth value. -/
def sundryText : String :=
  "mood: grim\n1: [a, 2]\narticles: the an\nworld_file: null\ndebug_mode: 5\n"

/-- The entries of the file. -/
def sundryEntries : Table Document Document :=
  [(.text "mood", .text "grim"), (.int 1, .list [.text "a", .int 2]),
    (Settings.articles, .text "the an"), (Settings.worldFile, .null), (Settings.debugMode, .int 5)]

/-- The settings as they are loaded. -/
def sundry : Settings := Settings.ofEntries sundryEntries

theorem holds_sundryText :
    Settings.Holds environment (folder sundryText) .null sundryEntries :=
  ⟨"config.yaml", "config.yaml", sundryText, rfl, rfl, rfl, Yaml.read_of_holds (by decide +kernel)⟩

end Hall

open Hall in
/-- The file is loaded, the settings are saved and loaded twice. -/
theorem Settings.load_save_load_sundry :
    Holds environment (folder sundryText) .null sundryEntries ∧ environment.debug = none ∧
      ∃ saved second savedAgain,
        load environment (folder sundryText) .null = (folder sundryText, .ok sundry) ∧
        save environment (folder sundryText) sundry .null = (saved, .ok (.text "config.yaml")) ∧
        sundry.IsReadBack ∧ load environment saved .null = (saved, .ok second) ∧
        second.get? debugMode = some (.bool true) ∧
        second.get? articles = some (.ofTexts ["the", "an"]) ∧
        second.get? worldFile = some (.text Bundle.worldPath) ∧
        second.get? (.int 1) = some (.list [.text "a", .int 2]) ∧
        save environment saved second .null = (savedAgain, .ok (.text "config.yaml")) ∧
        second.IsReadBack ∧ load environment savedAgain .null = (savedAgain, .ok second) := by
  have henv : environment.debug = none := rfl
  obtain ⟨first, hload, hgiven, saved, hsave, hrest⟩ := load_save_load holds_sundryText henv
  obtain rfl : sundry = first := by
    have hloaded := holds_sundryText.load rfl
    rw [hload, Prod.mk.injEq] at hloaded
    exact (Except.ok.inj hloaded.2).symm
  have hread : sundry.IsReadBack := Yaml.read_of_holds (by decide +kernel)
  obtain ⟨second, hsecond, hrestored, savedAgain, hsaveAgain, hagain⟩ := hrest hread
  obtain rfl : sundry.withDebug sundry.isDebug = second := by
    have hloaded := (isLoaded_ofEntries sundryEntries).load_of_save rfl hsave hread
    rw [hsecond, Prod.mk.injEq] at hloaded
    exact (Except.ok.inj hloaded.2).symm
  have hreadAgain : (sundry.withDebug sundry.isDebug).IsReadBack :=
    Yaml.read_of_holds (by decide +kernel)
  have hothers := hrestored.others
  refine ⟨holds_sundryText, henv, saved, _, savedAgain, hload, hsave, hread, hsecond, ?_, ?_, ?_,
    ?_, hsaveAgain, hreadAgain, hagain hreadAgain⟩
  · obtain ⟨d, hd, hdebug⟩ := hrestored.debug
    rw [hgiven.entered debugMode (.int 5) rfl (by simp) (by simp [debugMode, articles])] at hd
    obtain rfl := Option.some.inj hd
    exact hdebug
  · have hwords : Text.words "the an" = ["the", "an"] := by decide +kernel
    rw [hothers articles articles_ne_debugMode, hgiven.split "the an" rfl, hwords]
  · rw [hothers worldFile (by simp [worldFile, debugMode]), hgiven.missing worldFile (Or.inr rfl)]
    rfl
  · rw [hothers (.int 1) (by simp [debugMode])]
    exact hgiven.entered (.int 1) _ rfl (by simp) (by simp [articles])

end TextAdventure

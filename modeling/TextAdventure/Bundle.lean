/-!
# The bundled game

A small game that is played unless the settings name other files: its grammar, its world, and the
folder in which both are found.
-/

namespace TextAdventure.Bundle

/-- The folder of the bundled files. -/
def folder : String := "/usr/share/text-adventure"

/-- The path of the bundled grammar. -/
def grammarPath : String := folder ++ "/grammar.yaml"

/-- The path of the bundled world. -/
def worldPath : String := folder ++ "/world.yaml"

/-- The bundled grammar. -/
def grammarText : String :=
  "symbols:
  single: entity
  dance_style:
    phrases: [waltz, tango, funky chicken]

verbs:
  - words: [give]
    rules:
      - pattern: 'single single'
        action: give
      - pattern: 'single \"to\" single'
        action: give_reversed
  - words: [pick]
    rules:
      - pattern: '\"up\" single'
        action: take
      - pattern: '\"up\" single \"on\" single'
        action: take_from
  - words: [dance]
    rules:
      - pattern: ''
        action: dance
      - pattern: 'dance_style'
        action: dance_with_style
  - words: [put, place]
    rules:
      - pattern: 'single \"on\" single'
        action: put
  - words: [gain]
    rules:
      - pattern: '\"possession of\" single'
        action: take
"

/-- The bundled world. -/
def worldText : String :=
  "title: The Storeroom
start_scene: storeroom
scenes:
  - id: storeroom
    name: A Cluttered Storeroom
    description: Dust hangs in the air. An old man dozes beside a desk stacked with crates.
    objects:
      - name: old rusty key
        description: It might still turn a lock.
      - name: old man
        aliases: [stranger]
      - name: desk
      - name: big crate
      - name: small crate
"

end TextAdventure.Bundle

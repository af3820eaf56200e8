import TextAdventure.Main
import TextAdventure.Proofs.Leaders
import TextAdventure.Proofs.Sense
import TextAdventure.Proofs.Dispatch
import TextAdventure.Proofs.Loading
import TextAdventure.Proofs.ScopeInvariance
import TextAdventure.Proofs.Exactness
import TextAdventure.Proofs.Locality
import TextAdventure.Proofs.Naming
import TextAdventure.Proofs.Phrasing
import TextAdventure.Proofs.Reporting
import TextAdventure.Proofs.Tables
import TextAdventure.Proofs.SettingsFile
import TextAdventure.Proofs.DebugMode
import TextAdventure.Proofs.HighestScore
import TextAdventure.Proofs.SameWords
import TextAdventure.Proofs.Verdicts
import TextAdventure.Proofs.Playthrough
import TextAdventure.Proofs.Disambiguation
import TextAdventure.Proofs.FirstPhrase
import TextAdventure.Proofs.NormalForm
import TextAdventure.Proofs.Composition
import TextAdventure.Proofs.Sayable
import TextAdventure.Proofs.Keys
import TextAdventure.Proofs.Sheets
import TextAdventure.Proofs.GrammarSheets
import TextAdventure.Proofs.WorldSheets
import TextAdventure.Proofs.Loops
import TextAdventure.Proofs.Registrations
import TextAdventure.Proofs.Leftovers
import TextAdventure.Proofs.SavedSettings
import TextAdventure.Proofs.WordLists
import TextAdventure.Proofs.CursorRuns

import Nostalgia.MacroManager.Position
import Nostalgia.MacroManager.Effects
import Nostalgia.MacroManager.Casting
import Nostalgia.MacroManager.Wellformed
import Nostalgia.MacroManager.InFlight
import Nostalgia.MacroManager.Confirmation
import Nostalgia.MacroManager.Failure
import Nostalgia.MacroManager.Inactivity
import Nostalgia.MacroManager.FirstFit
import Nostalgia.MacroManager.Shown
import Nostalgia.MacroManager.Ready
import Nostalgia.MacroManager.SavedVariables
import Nostalgia.MacroManager.Editor
import Nostalgia.MacroManager.UnsavedChanges
import Nostalgia.MacroManager.Cursor
import Nostalgia.MacroManager.Usability
import Nostalgia.MacroManager.MacroIcon
import Nostalgia.Controller.GroundSpells
import Nostalgia.Controller.NamedSpells
import Nostalgia.Controller.Elements
import Nostalgia.Controller.Discovery
import Nostalgia.Controller.Bindings
import Nostalgia.Controller.Scan
import Nostalgia.Controller.Navigation
import Nostalgia.Controller.Spatial
import Nostalgia.Controller.Scrolling
import Nostalgia.Controller.Targeting
import Nostalgia.Controller.LootPosition
import Nostalgia.Controller.Session
import Nostalgia.Controller.Keys
import Nostalgia.Controller.Restore
import Nostalgia.Controller.TemporaryBindings
import Nostalgia.Controller.FocusStability
import Nostalgia.Controller.Confirm
import Nostalgia.Controller.LootRoll
import Nostalgia.Controller.RollMoves
import Nostalgia.Controller.Suspended
import Nostalgia.Controller.Completes
import Nostalgia.Controller.Agreement
import Nostalgia.Controller.Hover
import Nostalgia.Controller.ScreenKeys
import Nostalgia.Controller.Menu
import Nostalgia.Together.BotAttack
import Nostalgia.Quests.Machine
import Nostalgia.Quests.Dialogs
import Nostalgia.Quests.Watch
import Nostalgia.Quests.NewEntries
import Nostalgia.Web.Walks
import Nostalgia.Web.Restore
import Nostalgia.Web.PushLevel
import Nostalgia.Web.Srp6
import Nostalgia.Web.Accounts

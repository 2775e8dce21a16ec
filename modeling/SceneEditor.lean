import SceneEditor.Proofs.Arena.Encounters
import SceneEditor.Proofs.Bridge.Delivery
import SceneEditor.Proofs.Color.Channels
import SceneEditor.Proofs.Color.Spellings
import SceneEditor.Proofs.Number.Fixed
import SceneEditor.Proofs.Program.Drawing
import SceneEditor.Proofs.Scene.Answers
import SceneEditor.Proofs.Scene.Commuting
import SceneEditor.Proofs.Scene.PropertyStore
import SceneEditor.Proofs.Scene.Reloading
import SceneEditor.Proofs.Script.Replacement

import SceneScript.Main
import SceneScript.Files.Tree
import SceneScript.Proofs.Extension
import SceneScript.Proofs.WrittenScene
import SceneScript.Proofs.Layout
import SceneScript.Proofs.LineByLine
import SceneScript.Proofs.NameChecks
import SceneScript.Proofs.Labels
import SceneScript.Proofs.Keywords
import SceneScript.Proofs.BlockEnds
import SceneScript.Proofs.ListPlace
import SceneScript.Proofs.Tiling
import SceneScript.Proofs.FileNames
import SceneScript.Proofs.DataModel
import SceneScript.Proofs.LineBreakOutcome
import SceneScript.Proofs.ParameterPieces
import SceneScript.Proofs.WarningPlaces
import SceneScript.Proofs.RefusedNames
import SceneScript.Proofs.StyleEntries
import SceneScript.Proofs.QuotedValues
import SceneScript.Proofs.CreatedFiles
import SceneScript.Proofs.RenameHints
import SceneScript.Proofs.Verdicts
import SceneScript.Proofs.ReportContent

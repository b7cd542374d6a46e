import Pipeline.Component.Compose
import Pipeline.Component.Describe
import Pipeline.Config.Build
import Pipeline.Config.Load
import Pipeline.Config.Show
import Pipeline.Proofs.BoundedLoops
import Pipeline.Proofs.Building
import Pipeline.Proofs.Composition
import Pipeline.Proofs.Confinement
import Pipeline.Proofs.Durability
import Pipeline.Proofs.ElementRuns
import Pipeline.Proofs.ErrorLog
import Pipeline.Proofs.ErrorPath
import Pipeline.Proofs.ErrorText
import Pipeline.Proofs.FailureContainment
import Pipeline.Proofs.FastExit
import Pipeline.Proofs.FilterFusion
import Pipeline.Proofs.Flatten
import Pipeline.Proofs.HandOff
import Pipeline.Proofs.IndependentActions
import Pipeline.Proofs.Isolation
import Pipeline.Proofs.Iteration
import Pipeline.Proofs.KeyRemoval
import Pipeline.Proofs.Labels
import Pipeline.Proofs.LeafNames
import Pipeline.Proofs.ListMode
import Pipeline.Proofs.LogErasure
import Pipeline.Proofs.LogLevel
import Pipeline.Proofs.LoopSignal
import Pipeline.Proofs.PopOnce
import Pipeline.Proofs.RenameGrammar
import Pipeline.Proofs.RenameSteps
import Pipeline.Proofs.StepEvents
import Pipeline.Proofs.StoreFrame
import Pipeline.Proofs.StoreRefinement
import Pipeline.Proofs.SwitchComposition
import Pipeline.Stock.Executable
import Pipeline.Stock.Predicate

import Rollout.Fixture.Workspace
import Rollout.Main
import Rollout.Proofs.Graph.Condensation
import Rollout.Proofs.Graph.Dependents
import Rollout.Proofs.Graph.Release
import Rollout.Proofs.Graph.Checked.Sort
import Rollout.Proofs.Graph.Part
import Rollout.Proofs.DeploymentOrder
import Rollout.Proofs.Batch
import Rollout.Proofs.Expansion.Template
import Rollout.Proofs.Path.Cancelling
import Rollout.Proofs.Path.Parent
import Rollout.Proofs.DryRun.References
import Rollout.Proofs.DryRun.Batches
import Rollout.Proofs.Project
import Rollout.Proofs.Project.Grouping
import Rollout.Proofs.Identity
import Rollout.Proofs.Plan.Handover
import Rollout.Proofs.Plan.Coverage
import Rollout.Proofs.Plan.Selection
import Rollout.Proofs.Isolation
import Rollout.Proofs.EnvironmentSelection
import Rollout.Proofs.Configuration
import Rollout.Proofs.OrderIndependence
import Rollout.Proofs.OverrideSelection
import Rollout.Proofs.LongReference
import Rollout.Proofs.Coordinate
import Rollout.Proofs.BlankFile
import Rollout.Proofs.DefinitionFiles
import Rollout.Proofs.FileFormat
import Rollout.Proofs.DefinitionText

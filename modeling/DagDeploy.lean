import DagDeploy.Disk.Storing
import DagDeploy.Main
import DagDeploy.Proofs.BoardRules
import DagDeploy.Proofs.FirstListing
import DagDeploy.Proofs.Hyperperiod
import DagDeploy.Proofs.Resolution
import DagDeploy.Proofs.TaskGraph
import DagDeploy.Proofs.Description
import DagDeploy.Proofs.Acceptance
import DagDeploy.Proofs.TaskFields
import DagDeploy.Checked.Conversion
import DagDeploy.Proofs.Circuits
import DagDeploy.Proofs.EdgeCounts
import DagDeploy.Proofs.CommonPeriod
import DagDeploy.Proofs.CheckedRun
import DagDeploy.Proofs.HyperperiodOutcome
import DagDeploy.Proofs.Repetitions
import DagDeploy.Proofs.Refusals
import DagDeploy.Proofs.CpuGaps
import DagDeploy.Proofs.CpuTable
import DagDeploy.Proofs.Independence
import DagDeploy.Proofs.Renumbering
import DagDeploy.Proofs.Places
import DagDeploy.Proofs.DiskSteps
import DagDeploy.Proofs.FolderMaking
import DagDeploy.Proofs.Dumping
import DagDeploy.Proofs.DescriptorFiles
import DagDeploy.Proofs.ProgramRun
import DagDeploy.Proofs.BlockReading
import DagDeploy.Proofs.DocumentReading
import DagDeploy.Proofs.FloatText
import DagDeploy.Proofs.PlainWords
import DagDeploy.Proofs.Records
import DagDeploy.Proofs.DescriptorReading
import DagDeploy.Proofs.FileAccess
import DagDeploy.Proofs.Reloading
import DagDeploy.Proofs.IslandOrder
import DagDeploy.Proofs.DeadlineBudget
import DagDeploy.Proofs.KernelEntries
import DagDeploy.Proofs.InputReading
import DagDeploy.Proofs.RecordShapes
import DagDeploy.Proofs.KnownKeys
import DagDeploy.Proofs.CopyReading
import DagDeploy.Proofs.ConversionLog
import DagDeploy.Proofs.GraphGrowth
import DagDeploy.Proofs.ArgumentSpelling
import DagDeploy.Proofs.FolderCreation

import ClojureBuild.Decimal.Quick
import ClojureBuild.Process.Scripted
import ClojureBuild.Main
import ClojureBuild.Proofs.Rules.Reference
import ClojureBuild.Proofs.Planning.Coverage
import ClojureBuild.Proofs.Compile.SourceBytes
import ClojureBuild.Proofs.Rules.Failure
import ClojureBuild.Proofs.Rules.InStep
import ClojureBuild.Proofs.Compile.Primary
import ClojureBuild.Proofs.Compile.Again
import ClojureBuild.Proofs.Compile.Duplicates
import ClojureBuild.Proofs.Compile.PrimaryFailure
import ClojureBuild.Proofs.Compile.Confinement
import ClojureBuild.Proofs.Compile.Dispatch
import ClojureBuild.Proofs.Planning.RootOrder
import ClojureBuild.Proofs.Rules.FixedPoint
import ClojureBuild.Proofs.Cli.StartDirectory
import ClojureBuild.Proofs.Cli.Scaffold
import ClojureBuild.Proofs.Planning.RoundTrip
import ClojureBuild.Proofs.Cli.NewProject
import ClojureBuild.Proofs.Cli.Testing
import ClojureBuild.Proofs.Planning.Collision
import ClojureBuild.Proofs.Planning.Circulation
import ClojureBuild.Proofs.Planning.Mirroring
import ClojureBuild.Proofs.Rules.Copying
import ClojureBuild.Proofs.Compile.SourceLists
import ClojureBuild.Proofs.Compile.ListedFiles
import ClojureBuild.Proofs.Config.Loading
import ClojureBuild.Proofs.Compile.OneClasspath
import ClojureBuild.Proofs.Suites.ExitStatus
import ClojureBuild.Proofs.Suites.Selection
import ClojureBuild.Proofs.World.Coinciding
import ClojureBuild.Proofs.Compile.Repetition
import ClojureBuild.Proofs.World.Entering
import ClojureBuild.Proofs.Cli.Discovery
import ClojureBuild.Proofs.Repository
import ClojureBuild.Proofs.Cli.NearestRoot
import ClojureBuild.Proofs.Cli.WayBuilds

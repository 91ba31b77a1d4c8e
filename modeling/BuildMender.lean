import BuildMender.Build.Session
import BuildMender.FileView.Memory
import BuildMender.Main
import BuildMender.Proofs.Patch.Confinement
import BuildMender.Proofs.Patch.Coverage
import BuildMender.Proofs.Patch.History
import BuildMender.Proofs.Patch.Commands
import BuildMender.Proofs.Patch.InTurn
import BuildMender.Proofs.Fix.Account
import BuildMender.Proofs.Fix.Commits
import BuildMender.Proofs.Patch.Forecast
import BuildMender.Proofs.Patch.OpenBlock
import BuildMender.Proofs.Patch.Sections
import BuildMender.Proofs.Diagnostic.Form
import BuildMender.Proofs.Diagnostic.Seam
import BuildMender.Proofs.Diagnostic.Written.Msvc
import BuildMender.Proofs.Diagnostic.Written.CMake
import BuildMender.Proofs.Diagnostic.Colour
import BuildMender.Proofs.Diagnostic.Encoding
import BuildMender.Proofs.Patch.LineEndings
import BuildMender.Proofs.CommandLine
import BuildMender.Proofs.Request.Listing
import BuildMender.Proofs.Request.Window
import BuildMender.Proofs.Build.Session
import BuildMender.Proofs.Cli.Check
import BuildMender.Proofs.Project.Encoding
import BuildMender.Proofs.Dependency.Cache
import BuildMender.Proofs.Project.Load
import BuildMender.Proofs.Template
import BuildMender.Proofs.Request.BuildLog
import BuildMender.Proofs.Convention.Advice

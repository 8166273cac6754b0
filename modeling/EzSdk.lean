import EzSdk.Bridge.Bookkeeping
import EzSdk.Bridge.Handles
import EzSdk.Bridge.ReaderWriter
import EzSdk.Bridge.Reading
import EzSdk.Bridge.ServiceEvents
import EzSdk.Bridge.Startup
import EzSdk.Bridge.Statuses
import EzSdk.Bridge.ThreadPool
import EzSdk.Bridge.Writes
import EzSdk.Client.Calls
import EzSdk.Client.FileshareEvents
import EzSdk.Client.Fileshares
import EzSdk.Client.Ids
import EzSdk.Client.Memshares
import EzSdk.Client.Stubs
import EzSdk.Deploy.CaseFiles
import EzSdk.Deploy.Compose
import EzSdk.Deploy.FindFile
import EzSdk.Deploy.Run
import EzSdk.Devkit.BuildEvents
import EzSdk.Devkit.BuildImages
import EzSdk.Devkit.BuildOrder
import EzSdk.Devkit.Checksums
import EzSdk.Devkit.Cleanup
import EzSdk.Devkit.CommitMessage
import EzSdk.Devkit.Coverage
import EzSdk.Devkit.CoverageGate
import EzSdk.Devkit.CoverageListing
import EzSdk.Devkit.CoverageSections
import EzSdk.Devkit.EventListener
import EzSdk.Devkit.ExternalMounts
import EzSdk.Devkit.HashInputs
import EzSdk.Devkit.HomeMounts
import EzSdk.Devkit.ImageNames
import EzSdk.Devkit.ImageRuns
import EzSdk.Devkit.Lcov
import EzSdk.Devkit.LineRanges
import EzSdk.Devkit.MinimalMounts
import EzSdk.Devkit.MountScan
import EzSdk.Devkit.MountTargets
import EzSdk.Devkit.Paths
import EzSdk.Devkit.Validation
import EzSdk.Client.SharedCommits
import EzSdk.Examples.SummationBackend
import EzSdk.Foundation.Coverings
import EzSdk.Foundation.DependencyOrders
import EzSdk.Foundation.Discovery
import EzSdk.Foundation.FileTrees
import EzSdk.Foundation.FormatStrings
import EzSdk.Foundation.LineFolding
import EzSdk.Foundation.RangeLists
import EzSdk.Foundation.Scripts
import EzSdk.Foundation.Texts
import EzSdk.Foundation.Worklist
import EzSdk.Local.Relay
import EzSdk.Local.Sockets
import EzSdk.Local.StateNotice
import EzSdk.Rust.Startup
import EzSdk.Local.StreamBridge
import EzSdk.Local.StreamEnds
import EzSdk.Local.UpstreamWrites
import EzSdk.Parity.Admission
import EzSdk.Parity.Decoding
import EzSdk.Parity.Envelopes
import EzSdk.Plugin.Generate
import EzSdk.Plugin.Parameters
import EzSdk.Plugin.RustModules
import EzSdk.Plugin.Snakecase
import EzSdk.Rust.EndToEnd

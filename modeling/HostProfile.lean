import HostProfile.Main
import HostProfile.Proofs.Cli.Colours
import HostProfile.Proofs.Cli.LocaleRows
import HostProfile.Proofs.Cli.Lookup
import HostProfile.Proofs.Cli.Outcomes
import HostProfile.Proofs.Cli.PropertyLines
import HostProfile.Proofs.Cli.TableLines
import HostProfile.Proofs.Collect.Encodings
import HostProfile.Proofs.Collect.Isolation
import HostProfile.Proofs.Collect.Locales
import HostProfile.Proofs.Collect.NativeEncoding
import HostProfile.Proofs.Collect.Overrides
import HostProfile.Proofs.Collect.UserName
import HostProfile.Proofs.Collect.WellFormed
import HostProfile.Proofs.Json
import HostProfile.Proofs.Locale.RoundTrip
import HostProfile.Proofs.NativeText.Lossy
import HostProfile.Proofs.Processor.Blocks
import HostProfile.Proofs.Proxy.Modes
import HostProfile.Proofs.Proxy.Nested
import HostProfile.Proofs.Proxy.RoundTrip
import HostProfile.Proofs.Record.FormatLocale
import HostProfile.Proofs.Record.JsonView
import HostProfile.Proofs.Record.ProxyProperties
import HostProfile.Proofs.Record.Runs
import HostProfile.Proofs.Record.Widths
import HostProfile.Proofs.Settings.LeafValues
import HostProfile.Proofs.Settings.OverrideVariable
import HostProfile.Proofs.WindowsVersion

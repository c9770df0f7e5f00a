import RinRuntime.Firewall.Policy
import RinRuntime.FileOperation.CopyRun
import RinRuntime.Rinfs.JournalCrash
import RinRuntime.Rinfs.Xattr
import RinRuntime.PieceTable.Reachable
import RinRuntime.FileOperation.UndoRecovery
import RinRuntime.FileOperation.CrashRecovery
import RinRuntime.FileOperation.SafeSave
import RinRuntime.PeLoader.Bounds
import RinRuntime.Dns.Order
import RinRuntime.Dns.Names
import RinRuntime.Dns.Responses
import RinRuntime.Revocation.Cache
import RinRuntime.TrustStore.Update
import RinRuntime.Crypt.Torn
import RinRuntime.Dhcpv6.Reconfigure
import RinRuntime.Dhcpv6.BindingRuns
import RinRuntime.Dhcpv6.Identity
import RinRuntime.Dhcpv6.Transport
import RinRuntime.Compression.Lz4
import RinRuntime.Text.Editor

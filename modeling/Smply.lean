import Smply.App.ReconnectPolicy
import Smply.Boot.Listing
import Smply.Cbor.Outcome
import Smply.Cbor.Poison
import Smply.Dfu.Approval
import Smply.Dfu.Inspection
import Smply.Dfu.Installs
import Smply.Dfu.Modes
import Smply.Dfu.Recovery
import Smply.Dfu.Refusal
import Smply.Dfu.Reports
import Smply.Dfu.Trial
import Smply.Host.Blame
import Smply.Image.Served
import Smply.Package.Archive
import Smply.Package.Json
import Smply.Smp.Bounds
import Smply.Smp.Provenance
import Smply.Smp.Rebind
import Smply.Smp.Timeouts
import Smply.Transport.Fragmenter
import Smply.Transport.Frames
import Smply.Transport.SendQueue
import Smply.Upload.Accounts
import Smply.Upload.Bounded
import Smply.Util.Dispatcher

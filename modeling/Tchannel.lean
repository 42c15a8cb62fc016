import Tchannel.FrameStream
import Tchannel.PayloadRoundTrip
import Tchannel.PayloadSafety
import Tchannel.Reassembly
import Tchannel.Fragments
import Tchannel.MessageRoundTrip
import Tchannel.RpcResult
import Tchannel.FrameHandler
import Tchannel.Confinement
import Tchannel.Dispatcher
import Tchannel.Lib.Steps
import Tchannel.Lib.Mux
import Tchannel.ServerConnection
import Tchannel.ServerInvariant
import Tchannel.Demultiplexing
import Tchannel.Draining
import Tchannel.Isolation
import Tchannel.FrameEnds
import Tchannel.MessageShape
import Tchannel.MessageReaders
import Tchannel.HostileStreams
import Tchannel.LengthField
import Tchannel.Truncation
import Tchannel.Lib.GetOrCreate
import Tchannel.Registries
import Tchannel.ClientConnection
import Tchannel.ClientInvariant
import Tchannel.Multiplexing
import Tchannel.Wedging
import Tchannel.Registration
import Tchannel.Deadlock
import Tchannel.ArgGrammar
import Tchannel.Conservation
import Tchannel.FragmentationLoop
import Tchannel.SkippedFrames
import Tchannel.OversizedArgs
import Tchannel.Reencoding
import Tchannel.PendingIds
import Tchannel.StreamGuarantees
import Tchannel.SharedGuarantees

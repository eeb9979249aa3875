import ZmuxPy.Machine
import ZmuxPy.Parties
import ZmuxPy.Slots
import ZmuxPy.Mpsc
import ZmuxPy.FairLock
import ZmuxPy.LockTurns
import ZmuxPy.Ownership
import ZmuxPy.Asyncio
import ZmuxPy.AsyncioStreams
import ZmuxPy.Duplex
import ZmuxPy.Pyo3
import ZmuxPy.UriAuthority
import ZmuxPy.WordMixing
import ZmuxPy.ByteWords
import ZmuxPy.RustFloat
import ZmuxPy.FutureIntoPy
import ZmuxPy.FutureRefs
import ZmuxPy.IntoFuture
import ZmuxPy.BridgedAwait
import ZmuxPy.ExitGate
import ZmuxPy.StreamWriter
import ZmuxPy.WriterWaiters
import ZmuxPy.WriterBacklog
import ZmuxPy.SendPart
import ZmuxPy.SendData
import ZmuxPy.WriterStream
import ZmuxPy.RecvData
import ZmuxPy.StreamHelpers
import ZmuxPy.SpliceLimiter
import ZmuxPy.CarrierTransport
import ZmuxPy.TransportSteps
import ZmuxPy.TransportWrites
import ZmuxPy.TransportRuns
import ZmuxPy.TransportFlow
import ZmuxPy.TransportReading
import ZmuxPy.BufferedDelivery
import ZmuxPy.TransportSilence
import ZmuxPy.TransportFailures
import ZmuxPy.TransportClose
import ZmuxPy.TransportContract
import ZmuxPy.LayerChannel
import ZmuxPy.LayerFailure
import ZmuxPy.LayerWrap
import ZmuxPy.WrappedCarrier
import ZmuxPy.WrappedWrites
import ZmuxPy.WrappedReads
import ZmuxPy.WrappedBounds
import ZmuxPy.WrappedFlush
import ZmuxPy.StreamBridge
import ZmuxPy.BridgeInward
import ZmuxPy.BridgeOutward
import ZmuxPy.BridgeRuns
import ZmuxPy.PipeOptions
import ZmuxPy.PoolPolicy
import ZmuxPy.CarrierHandles
import ZmuxPy.CarrierCallbacks
import ZmuxPy.ExchangeAuthority
import ZmuxPy.CarrierInfo
import ZmuxPy.CarrierPanics
import ZmuxPy.AdmissionLoops
import ZmuxPy.ListenerTasks
import ZmuxPy.ShapingSeed

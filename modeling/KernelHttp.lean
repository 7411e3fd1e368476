import KernelHttp.Engine.CloseDelimited
import KernelHttp.Engine.PunycodeArithmetic
import KernelHttp.Engine.SharedUse
import KernelHttp.Hpack.Conformance
import KernelHttp.Hpack.SizeSignalling
import KernelHttp.Http1.CodingMemory
import KernelHttp.Http1.CompressRoundTrip
import KernelHttp.Http2.Contiguity
import KernelHttp.Http2.FrameSize
import KernelHttp.Http2.ReceiveWindow
import KernelHttp.Http2.Slots
import KernelHttp.Tls.Retry
import KernelHttp.WebSocket.Outbound
import KernelHttp.Engine.Delivery
import KernelHttp.Tls.RecordOverflow
import KernelHttp.WebSocket.Codec
import KernelHttp.WebSocket.Recovery
import KernelHttp.Crypto.KeyAgreement
import KernelHttp.Crypto.KeyAgreement448
import KernelHttp.Crypto.FfdheAgreement
import KernelHttp.Crypto.PlaintextRelease
import KernelHttp.Tls.PolicyDepth
import KernelHttp.Tls.Exporter
import KernelHttp.Tls.MessageOrder
import KernelHttp.Tls.SlowReceive
import KernelHttp.Tls.Authentication
import KernelHttp.Engine.HostIdentity
import KernelHttp.Tls.CachedSessions
import KernelHttp.Tls.Revocation
import KernelHttp.Engine.RewrittenRequest
import KernelHttp.Tls.DerScan
import KernelHttp.Http1.CompressSafety

/-
  The TLS policy of a connection (`tls/TlsPolicy.h`).
-/
import KernelHttp.Core.Types

namespace KernelHttp.Tls

inductive TlsSecurityProfile where
  | modernDefault
  | compatibilityExplicit
deriving DecidableEq

structure TlsPolicy where
  profile : TlsSecurityProfile := .modernDefault
  enableTls12RsaKeyExchange : Bool := false
  enableTls12Cbc : Bool := false
  enableTls12Renegotiation : Bool := false
  enableTls12Sha1Signatures : Bool := false
  enablePostHandshakeClientAuth : Bool := false
  requireRevocationCheck : Bool := false
deriving DecidableEq

end KernelHttp.Tls

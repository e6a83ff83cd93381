import SaslExchange.Anonymous
import SaslExchange.Base64
import SaslExchange.Bytes
import SaslExchange.Calls
import SaslExchange.Credentials
import SaslExchange.Digest
import SaslExchange.Digest.Blocks
import SaslExchange.Digest.Md5
import SaslExchange.Digest.Sha1
import SaslExchange.Digest.Sha256
import SaslExchange.DigestMd5.AttributeList
import SaslExchange.DigestMd5.Client
import SaslExchange.DigestMd5.Proof
import SaslExchange.DigestMd5.Scanner
import SaslExchange.DigestMd5.Server
import SaslExchange.Exchange.Client
import SaslExchange.Exchange.Server
import SaslExchange.Exchange.Step
import SaslExchange.Faults
import SaslExchange.Hex
import SaslExchange.Hmac
import SaslExchange.KeyDerivation
import SaslExchange.Keying
import SaslExchange.Log
import SaslExchange.Nonce
import SaslExchange.Plain
import SaslExchange.Proofs.Ascii
import SaslExchange.Proofs.Calls
import SaslExchange.Proofs.DigestMd5.Agreement
import SaslExchange.Proofs.DigestMd5.ClientRuns
import SaslExchange.Proofs.DigestMd5.ClientSteps
import SaslExchange.Proofs.DigestMd5.Grammar
import SaslExchange.Proofs.DigestMd5.PlainKeys
import SaslExchange.Proofs.DigestMd5.Reception
import SaslExchange.Proofs.DigestMd5.RoundTrip
import SaslExchange.Proofs.DigestMd5.Scanning
import SaslExchange.Proofs.DigestMd5.Secrets
import SaslExchange.Proofs.DigestMd5.ServerRuns
import SaslExchange.Proofs.DigestMd5.ServerSteps
import SaslExchange.Proofs.Discretion
import SaslExchange.Proofs.Entries
import SaslExchange.Proofs.Finality
import SaslExchange.Proofs.Footprint
import SaslExchange.Proofs.FormAnswers
import SaslExchange.Proofs.Guards
import SaslExchange.Proofs.KeyBlocks
import SaslExchange.Proofs.PasswordUse
import SaslExchange.Proofs.PlainMessages
import SaslExchange.Proofs.Redaction
import SaslExchange.Proofs.Runs
import SaslExchange.Proofs.Scram.Acceptance
import SaslExchange.Proofs.Scram.ClientSteps
import SaslExchange.Proofs.Scram.FrameRoundTrip
import SaslExchange.Proofs.Scram.HonestServer
import SaslExchange.Proofs.Scram.Pieces
import SaslExchange.Proofs.Scram.Saslnames
import SaslExchange.Proofs.Scram.ServerFirst
import SaslExchange.Proofs.Scram.Transcripts
import SaslExchange.Proofs.Scripts
import SaslExchange.Proofs.Splitting
import SaslExchange.Proofs.Transparency
import SaslExchange.Registry
import SaslExchange.Scram.Client
import SaslExchange.Scram.Frame
import SaslExchange.Scram.Hash
import SaslExchange.Scram.Saslname
import SaslExchange.Text.Quoted
import SaslExchange.Text.Utf8
import SaslExchange.UrlEncoded
import SaslExchange.Vendor.XFacebookPlatform
import SaslExchange.Vendor.XMessengerOAuth2
import SaslExchange.Vendor.XOAuth2

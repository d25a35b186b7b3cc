import SignedHandshake.AlgorithmPair
import SignedHandshake.Attempt
import SignedHandshake.Bytes.Basic
import SignedHandshake.CertificateVerify.Message
import SignedHandshake.CertificateVerify.Signer
import SignedHandshake.CertificateVerify.Verifier
import SignedHandshake.CertificateVerify.Workshop
import SignedHandshake.Config
import SignedHandshake.Curve.Basic
import SignedHandshake.Der.Basic
import SignedHandshake.Digest.BlockHash
import SignedHandshake.Digest.Sha
import SignedHandshake.Digest.Shake256
import SignedHandshake.Engine.Basic
import SignedHandshake.Engine.Scripted
import SignedHandshake.Engine.Standard
import SignedHandshake.Failure
import SignedHandshake.Handshake.Message
import SignedHandshake.Key.Basic
import SignedHandshake.Key.Factory
import SignedHandshake.Key.Pair
import SignedHandshake.Key.Reencoding
import SignedHandshake.Log
import SignedHandshake.NameMap
import SignedHandshake.Number.Basic
import SignedHandshake.Number.Numerals
import SignedHandshake.Proofs.AlgorithmPair.Names
import SignedHandshake.Proofs.Attempt.Matching
import SignedHandshake.Proofs.Attempt.Rules
import SignedHandshake.Proofs.Bytes.HexPairs
import SignedHandshake.Proofs.Bytes.HexReading
import SignedHandshake.Proofs.CertificateVerify.Agreement
import SignedHandshake.Proofs.CertificateVerify.AllOrNothing
import SignedHandshake.Proofs.CertificateVerify.FailClosed
import SignedHandshake.Proofs.CertificateVerify.Fallback
import SignedHandshake.Proofs.CertificateVerify.Families
import SignedHandshake.Proofs.CertificateVerify.Grammar
import SignedHandshake.Proofs.CertificateVerify.Lengths
import SignedHandshake.Proofs.CertificateVerify.Outcomes
import SignedHandshake.Proofs.CertificateVerify.Roles
import SignedHandshake.Proofs.CertificateVerify.Routing
import SignedHandshake.Proofs.CertificateVerify.SecondTry
import SignedHandshake.Proofs.CertificateVerify.Sensitivity
import SignedHandshake.Proofs.CertificateVerify.Stages
import SignedHandshake.Proofs.CertificateVerify.Streams
import SignedHandshake.Proofs.CertificateVerify.Support
import SignedHandshake.Proofs.Config.Settings
import SignedHandshake.Proofs.Der.Arcs
import SignedHandshake.Proofs.Der.Digits
import SignedHandshake.Proofs.Der.Grammar
import SignedHandshake.Proofs.Der.Identifiers
import SignedHandshake.Proofs.Der.Padding
import SignedHandshake.Proofs.Der.RoundTrip
import SignedHandshake.Proofs.Der.Tiling
import SignedHandshake.Proofs.Engine.Acceptance
import SignedHandshake.Proofs.Engine.Calls
import SignedHandshake.Proofs.Engine.Machine
import SignedHandshake.Proofs.Engine.Refinement
import SignedHandshake.Proofs.Engine.Runs
import SignedHandshake.Proofs.Engine.Steps
import SignedHandshake.Proofs.Handshake.Addresses
import SignedHandshake.Proofs.Handshake.Framing
import SignedHandshake.Proofs.Key.Export
import SignedHandshake.Proofs.Key.Factories
import SignedHandshake.Proofs.Key.Names
import SignedHandshake.Proofs.Key.Registrations
import SignedHandshake.Proofs.Key.Secret
import SignedHandshake.Proofs.NameMap.Histories
import SignedHandshake.Proofs.NameMap.Rules
import SignedHandshake.Proofs.Number.Decimal
import SignedHandshake.Proofs.Number.Exactness
import SignedHandshake.Proofs.Scheme.Lawful
import SignedHandshake.Proofs.Text.Case
import SignedHandshake.Proofs.Text.Words
import SignedHandshake.Proofs.Wire.Reading
import SignedHandshake.Proofs.Wire.Rewinding
import SignedHandshake.Proofs.Wire.Runs
import SignedHandshake.Proofs.Workshop.Addresses
import SignedHandshake.Proofs.Workshop.Caches
import SignedHandshake.Proofs.Workshop.Companions
import SignedHandshake.Proofs.Workshop.Counterparts
import SignedHandshake.Proofs.Workshop.Following
import SignedHandshake.Proofs.Workshop.Growth
import SignedHandshake.Proofs.Workshop.History
import SignedHandshake.Proofs.Workshop.Invariant
import SignedHandshake.Proofs.Workshop.Lines
import SignedHandshake.Scheme.Standard
import SignedHandshake.Session
import SignedHandshake.Text.Basic
import SignedHandshake.Text.Case
import SignedHandshake.Wire.Datagram

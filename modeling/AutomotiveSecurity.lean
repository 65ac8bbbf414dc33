import AutomotiveSecurity.Foundations.HostInteger
import AutomotiveSecurity.Foundations.HostLength
import AutomotiveSecurity.Foundations.Memory
import AutomotiveSecurity.Foundations.CString
import AutomotiveSecurity.Foundations.Overwriting
import AutomotiveSecurity.Foundations.Hex
import AutomotiveSecurity.Foundations.Prefix
import AutomotiveSecurity.Foundations.Runs
import AutomotiveSecurity.Foundations.OrderedChannel
import AutomotiveSecurity.Foundations.Pkcs7
import AutomotiveSecurity.Foundations.BlockMode
import AutomotiveSecurity.Foundations.Chaining
import AutomotiveSecurity.Foundations.PaddedBlocks
import AutomotiveSecurity.Foundations.StreamAead
import AutomotiveSecurity.Foundations.IncrementalHash
import AutomotiveSecurity.Foundations.BitDistance
import AutomotiveSecurity.OpenSSL.Cmac
import AutomotiveSecurity.OpenSSL.DigestSign
import AutomotiveSecurity.OpenSSL.DigestVerify
import AutomotiveSecurity.OpenSSL.Digest
import AutomotiveSecurity.OpenSSL.BlockCipher
import AutomotiveSecurity.OpenSSL.PaddedDecryption
import AutomotiveSecurity.OpenSSL.Gcm
import AutomotiveSecurity.SecOC.Pdu
import AutomotiveSecurity.SecOC.FailureModes
import AutomotiveSecurity.SecOC.CmacDemo
import AutomotiveSecurity.SecOC.Simulation
import AutomotiveSecurity.SecOC.Agreement
import AutomotiveSecurity.SecOC.Freshness
import AutomotiveSecurity.SecOC.FailingMacs
import AutomotiveSecurity.SecOC.Demonstration
import AutomotiveSecurity.CodeSigning.Package
import AutomotiveSecurity.CodeSigning.SignFirmware
import AutomotiveSecurity.CodeSigning.DocumentedFormat
import AutomotiveSecurity.CodeSigning.VerifyFirmware
import AutomotiveSecurity.CodeSigning.RoundTrip
import AutomotiveSecurity.CodeSigning.Tampering
import AutomotiveSecurity.CodeSigning.SigningFaults
import AutomotiveSecurity.SecureBoot.BootStage
import AutomotiveSecurity.SecureBoot.BootSequence
import AutomotiveSecurity.SecureBoot.FaultInjection
import AutomotiveSecurity.SecureBoot.Manufacture
import AutomotiveSecurity.Tls.Endpoint
import AutomotiveSecurity.Tls.Connection
import AutomotiveSecurity.Tls.Exchange
import AutomotiveSecurity.Tls.Processes
import AutomotiveSecurity.Tls.Outcomes
import AutomotiveSecurity.Tls.Completion
import AutomotiveSecurity.HashIntegrity.FileHash
import AutomotiveSecurity.HashIntegrity.HexDigest
import AutomotiveSecurity.HashIntegrity.Modes
import AutomotiveSecurity.HashIntegrity.Avalanche
import AutomotiveSecurity.HashIntegrity.HashDemo
import AutomotiveSecurity.HashIntegrity.AvalancheDemo
import AutomotiveSecurity.HashIntegrity.HmacDemo
import AutomotiveSecurity.AesEncryption.Padding
import AutomotiveSecurity.AesEncryption.AesCbc
import AutomotiveSecurity.AesEncryption.EcbVsCbc
import AutomotiveSecurity.AesEncryption.AesGcm
import AutomotiveSecurity.AesEncryption.GcmRefinement
import AutomotiveSecurity.AesEncryption.Coverage
import AutomotiveSecurity.AesEncryption.CbcDecryption
import AutomotiveSecurity.AesEncryption.ManualPadding
import AutomotiveSecurity.AesEncryption.Patterns
import AutomotiveSecurity.AesEncryption.CbcDemonstration
import AutomotiveSecurity.AesEncryption.GcmDemonstration
import AutomotiveSecurity.AesEncryption.KeyDerivation
import AutomotiveSecurity.AsymmetricCrypto.RsaEncrypt
import AutomotiveSecurity.AsymmetricCrypto.EcdhExchange
import AutomotiveSecurity.DigitalSignature.SignDemos

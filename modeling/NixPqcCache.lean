import NixPqcCache.Foundation.Text
import NixPqcCache.Foundation.Base64
import NixPqcCache.Foundation.Decimal
import NixPqcCache.Foundation.Joined
import NixPqcCache.Foundation.Candidates
import NixPqcCache.Foundation.Runs
import NixPqcCache.Foundation.Pieces
import NixPqcCache.Foundation.Formats
import NixPqcCache.Foundation.Stateful
import NixPqcCache.Foundation.Attempts
import NixPqcCache.Foundation.Journals
import NixPqcCache.Foundation.LastWrites
import NixPqcCache.Data
import NixPqcCache.Hybrid
import NixPqcCache.Narinfo
import NixPqcCache.Filesystem
import NixPqcCache.Keys
import NixPqcCache.Commands
import NixPqcCache.Proxy
import NixPqcCache.NarinfoGrammar
import NixPqcCache.NarinfoRoundTrip
import NixPqcCache.NarinfoLines
import NixPqcCache.SignatureEntries
import NixPqcCache.KeyFiles
import NixPqcCache.HybridCandidates
import NixPqcCache.HybridPairing
import NixPqcCache.TestVectors
import NixPqcCache.Fingerprint
import NixPqcCache.FingerprintNix
import NixPqcCache.FingerprintSeparators
import NixPqcCache.VerifyPolicy
import NixPqcCache.SignRuns
import NixPqcCache.SignAgain
import NixPqcCache.CappedReader
import NixPqcCache.ProxyAnswers
import NixPqcCache.ProxyChain
import NixPqcCache.Provenance
import NixPqcCache.ClassicalView
import NixPqcCache.NarinfoLengths
import NixPqcCache.SignNormalForm
import NixPqcCache.Server
import NixPqcCache.Pipeline
import NixPqcCache.PipelineClients
import NixPqcCache.Paths
import NixPqcCache.Writes
import NixPqcCache.WriteFailures
import NixPqcCache.DiskCommands
import NixPqcCache.KeygenRuns
import NixPqcCache.KeyFileRoundTrip
import NixPqcCache.SignDirectory
import NixPqcCache.ConcurrentWrites
import NixPqcCache.ConcurrentJobs
import NixPqcCache.ConcurrentCommands
import NixPqcCache.ConcurrentKeygen
import NixPqcCache.ConcurrentSigning
import NixPqcCache.SignRecovery
import NixPqcCache.Lifecycle
import NixPqcCache.PowerLoss
import NixPqcCache.PowerLossCommands

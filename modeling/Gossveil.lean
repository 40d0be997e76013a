import Gossveil.Braid
import Gossveil.BraidAgreement
import Gossveil.Cipher
import Gossveil.Circle
import Gossveil.CircleBounds
import Gossveil.KeyStream
import Gossveil.CodeRecord
import Gossveil.StreamRecord
import Gossveil.BraidRecord
import Gossveil.PqRecord
import Gossveil.FlowKeys
import Gossveil.StreamKeys
import Gossveil.RecordSafety
import Gossveil.RecordRuns
import Gossveil.PqTotality
import Gossveil.Reload
import Gossveil.Downgrade
import Gossveil.LossyRuns
import Gossveil.Session
import Gossveil.SessionRecord
import Gossveil.Archive
import Gossveil.Call
import Gossveil.Address
import Gossveil.RatchetPost
import Gossveil.Handshake
import Gossveil.Engine
import Gossveil.EngineOpen
import Gossveil.SessionReach
import Gossveil.FirstMessages
import Gossveil.SealTotality
import Gossveil.Abi
import Gossveil.AbiCells
import Gossveil.AbiSessions
import Gossveil.Scanning
import Gossveil.Content
import Gossveil.Multiseal
import Gossveil.Listing
import Gossveil.SealedSender
import Gossveil.AnyPieces
import Gossveil.FlowWindow
import Gossveil.SkipStore
import Gossveil.LaneStore
import Gossveil.HandshakeAgreement
import Gossveil.ArchiveStore
import Gossveil.Received
import Gossveil.Seal
import Gossveil.ManyRecipients
import Gossveil.CircleMembers
import Gossveil.CircleStore
import Gossveil.CircleDelivery
import Gossveil.PieceRuns
import Gossveil.BraidAcks
import Gossveil.BraidLiveness
import Gossveil.BraidRounds
import Gossveil.DeviceRecords
import Gossveil.Bridge
import Gossveil.WasmClient
import Gossveil.WasmTrust
import Gossveil.CodecSequence
import Gossveil.Bindings
import Gossveil.PostRoundTrip
import Gossveil.Certificates
import Gossveil.CircleAtomicity
import Gossveil.CircleRecord
import Gossveil.Chunking
import Gossveil.ChunkMac
import Gossveil.ChunkMacStreams
import Gossveil.Numerals
import Gossveil.HandleName
import Gossveil.HandleScalars
import Gossveil.SessionOnce
import Gossveil.CbcBijection
import Gossveil.Scalars
import Gossveil.Safety
import Gossveil.SafetyMatch
import Gossveil.HandleCandidates
import Gossveil.HandleLink
import Gossveil.ServiceIdTexts
import Gossveil.Sponge
import Gossveil.HandleProof
import Gossveil.HandleComplete
import Gossveil.HandleCase
import Gossveil.Pratt
import Gossveil.Field25519
import Gossveil.CurveEncoding
import Gossveil.Sign
import Gossveil.SignVerify
import Gossveil.Transform
import Gossveil.Delivers
import Gossveil.Reductions
import Gossveil.Polynomials
import Gossveil.PolynomialRuns
import Gossveil.RootTree
import Gossveil.NttForward
import Gossveil.NttInverse
import Gossveil.PolynomialSpecs
import Gossveil.Compression
import Gossveil.BitPacking
import Gossveil.Sampling
import Gossveil.MlKem
import Gossveil.CompressionSpecs
import Gossveil.DecompressionSpecs
import Gossveil.NoiseSpecs
import Gossveil.UniformSpecs
import Gossveil.SplitKem
import Gossveil.SplitVectors
import Gossveil.SplitCarry
import Gossveil.SplitEncapsulation
import Gossveil.SplitRanges
import Gossveil.NttProduct
import Gossveil.PacketCursor
import Gossveil.StreamCounts
import Gossveil.CountedRuns
import Gossveil.SessionKeys
import Gossveil.SessionRuns
import Gossveil.SessionSafety
import Gossveil.Rejection
import Gossveil.Vault
import Gossveil.Interleaving
import Gossveil.StoreCalls
import Gossveil.StoreRuns
import Gossveil.SealPlaces
import Gossveil.StoreOverlap
import Gossveil.Report
import Gossveil.LosslessRuns
import Gossveil.DoubleRatchet
import Gossveil.LaneTurns
import Gossveil.InOrder
import Gossveil.BridgeRuns
import Gossveil.Devices
import Gossveil.OneTimeKeys
import Gossveil.PinnedIdentity

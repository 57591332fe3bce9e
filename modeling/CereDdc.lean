import CereDdc.Kit.Blocks
import CereDdc.Kit.Runs
import CereDdc.Kit.Retry
import CereDdc.Kit.Promise
import CereDdc.Kit.Readable
import CereDdc.Kit.Program
import CereDdc.Kit.Parallel
import CereDdc.Kit.Schedule
import CereDdc.Kit.Exclusion
import CereDdc.Kit.Base32
import CereDdc.Kit.Base58
import CereDdc.Kit.Base64
import CereDdc.Kit.PosixPath
import CereDdc.Kit.Disk
import CereDdc.Kit.Heap
import CereDdc.Kit.StableSort
import CereDdc.Kit.Reader
import CereDdc.Constants
import CereDdc.Streams
import CereDdc.Piece
import CereDdc.FileApi
import CereDdc.StorageNode
import CereDdc.BalancedNode
import CereDdc.Uploads
import CereDdc.RetriedContent
import CereDdc.StorePiece
import CereDdc.ClonedPiece
import CereDdc.FileStorage
import CereDdc.FileLayout
import CereDdc.StoredFile
import CereDdc.Signer
import CereDdc.Token
import CereDdc.AuthToken
import CereDdc.SdkToken
import CereDdc.TokenChain
import CereDdc.OperationToken
import CereDdc.TokenCreation
import CereDdc.Router
import CereDdc.RouterChain
import CereDdc.TokenExpiry
import CereDdc.TokenAccounts
import CereDdc.FailedTokens
import CereDdc.NodeTokens
import CereDdc.NodeFailures
import CereDdc.TokenReuse
import CereDdc.Blockchain
import CereDdc.ApiMessages
import CereDdc.ApiRequests
import CereDdc.Validators
import CereDdc.ApiCalls
import CereDdc.RawPieceExchange
import CereDdc.FileAcknowledgments
import CereDdc.FileAuthentication
import CereDdc.ApiSignatures
import CereDdc.Routing
import CereDdc.Fallback
import CereDdc.RetriedOperation
import CereDdc.CidText
import CereDdc.NodeClient
import CereDdc.CnsNames
import CereDdc.Correlation
import CereDdc.PingStrategy
import CereDdc.MarshalledNodes
import CereDdc.BlockchainStrategy
import CereDdc.NodeSelection
import CereDdc.RoutedNodes
import CereDdc.PingRecords
import CereDdc.InFlightPings
import CereDdc.PingThresholds
import CereDdc.NodeOrder
import CereDdc.AcceptedFiles
import CereDdc.Cli
import CereDdc.CliPaths
import CereDdc.ListedFiles
import CereDdc.CliWorld
import CereDdc.CliLog
import CereDdc.DirectoryRoundTrip
import CereDdc.TokenSignatures
import CereDdc.NodeRecovery
import CereDdc.WebsocketTransport
import CereDdc.SettledCalls
import CereDdc.KeyringPairs
import CereDdc.ContentStreams
import CereDdc.ErrorLogger
import CereDdc.BinaryReader
import CereDdc.WireReader
import CereDdc.TokenMessages
import CereDdc.TokenRoundTrip
import CereDdc.DecodedTokens
import CereDdc.TokenText
import CereDdc.WireContent
import CereDdc.SignedMessages
import CereDdc.StoredMessages
import CereDdc.ActivityMessages
import CereDdc.VerifiedCalls
import CereDdc.VerifiedContent
import CereDdc.TimedCalls
import CereDdc.Kit.RelyGuarantee
import CereDdc.Kit.Tries
import CereDdc.SharedNode
import CereDdc.NodeScripts
import CereDdc.Kit.Effects
import CereDdc.RetriedStores
import CereDdc.WalletSigners
import CereDdc.LossyCluster
import CereDdc.SharedCluster

import DatumGateway.AnnounceBeforeUse
import DatumGateway.AnnouncedStreams
import DatumGateway.AnnouncementFlow
import DatumGateway.AuthenticatedEvents
import DatumGateway.BlockPayloads
import DatumGateway.BlockReaders
import DatumGateway.BlockSubmits
import DatumGateway.BlockTemplate
import DatumGateway.ByteReader
import DatumGateway.ByteString
import DatumGateway.ChannelManager
import DatumGateway.ChannelOpening
import DatumGateway.ChannelTargets
import DatumGateway.CheckedRuns
import DatumGateway.CoinbaseSplit
import DatumGateway.CoinbaseTransaction
import DatumGateway.Coinbaser
import DatumGateway.CoinbaserBlobs
import DatumGateway.CoinbaserParses
import DatumGateway.CoinbaserRequests
import DatumGateway.CommandDelivery
import DatumGateway.CompactTargets
import DatumGateway.ConcurrentSends
import DatumGateway.ConfigValidation
import DatumGateway.ConnectionSetup
import DatumGateway.ConservedLogs
import DatumGateway.CookieReloads
import DatumGateway.DialogueReplies
import DatumGateway.DifficultyTargets
import DatumGateway.DigestAuth
import DatumGateway.DispatchLoop
import DatumGateway.DupeCaches
import DatumGateway.EmitSnapshots
import DatumGateway.ExtranonceContract
import DatumGateway.ExtranonceSpace
import DatumGateway.FifoCaches
import DatumGateway.FloatValues
import DatumGateway.FrameHeaders
import DatumGateway.FrameSends
import DatumGateway.GatewayJobs
import DatumGateway.GatewayTemplates
import DatumGateway.HandshakeAgreement
import DatumGateway.HeaderAgreement
import DatumGateway.HeaderKeys
import DatumGateway.HeightScripts
import DatumGateway.HelloPayloads
import DatumGateway.Hex
import DatumGateway.HexTexts
import DatumGateway.JobIndexNames
import DatumGateway.JobResolution
import DatumGateway.JobSizes
import DatumGateway.JobStores
import DatumGateway.JobStreams
import DatumGateway.JobTracker
import DatumGateway.JsonValues
import DatumGateway.KeyedMaps
import DatumGateway.LeasedSlots
import DatumGateway.ListPrefixes
import DatumGateway.MerkleBranchSeparation
import DatumGateway.MerkleBranches
import DatumGateway.MerkleTree
import DatumGateway.MessageCodecs
import DatumGateway.MessageDecoders
import DatumGateway.MinerChannels
import DatumGateway.MinerDialogues
import DatumGateway.MiningConnection
import DatumGateway.MiningListener
import DatumGateway.NoiseFrames
import DatumGateway.NotifyPatches
import DatumGateway.OpenRequests
import DatumGateway.PayoutCap
import DatumGateway.PoolOverrides
import DatumGateway.PoolReads
import DatumGateway.PublishedStates
import DatumGateway.QueueSchedules
import DatumGateway.RecencyCaches
import DatumGateway.RpcClient
import DatumGateway.RpcRequests
import DatumGateway.RpcResponses
import DatumGateway.ScriptSigBudget
import DatumGateway.SendFailures
import DatumGateway.SentinelSoundness
import DatumGateway.SessionNonces
import DatumGateway.ShareAcknowledgements
import DatumGateway.ShareBodyParsing
import DatumGateway.ShareEncoder
import DatumGateway.ShareForwarding
import DatumGateway.SharePath
import DatumGateway.SharePipeline
import DatumGateway.ShareRelay
import DatumGateway.ShareValidity
import DatumGateway.SharedTemplate
import DatumGateway.StratumV1Assembler
import DatumGateway.StratumV1Connection
import DatumGateway.StratumV1Messages
import DatumGateway.StratumV1Server
import DatumGateway.SubmitRelay
import DatumGateway.SubmittedExtranonces
import DatumGateway.SubmittedHeader
import DatumGateway.TableReplicas
import DatumGateway.TaggedLogs
import DatumGateway.TemplateFeeds
import DatumGateway.TemplatePublisher
import DatumGateway.TemplatePulls
import DatumGateway.ThreadExtranonces
import DatumGateway.TrackerStructure
import DatumGateway.TransactionFormat
import DatumGateway.TransitionSystem
import DatumGateway.UpstreamFrames
import DatumGateway.UpstreamHandshake
import DatumGateway.UpstreamLink
import DatumGateway.UpstreamMessages
import DatumGateway.UpstreamSession
import DatumGateway.Utf8Encodings
import DatumGateway.Utf8Text
import DatumGateway.VardiffControllers
import DatumGateway.VersionRolling
import DatumGateway.WatchChannels
import DatumGateway.WatchViews
import DatumGateway.WordBijections

import TelegramPub.Ports.IncomingPackets
import TelegramPub.Ports.ClientMessageIds
import TelegramPub.Ports.IncomingConfirmations
import TelegramPub.Ports.NewSessionCreated
import TelegramPub.Ports.ContextAuthActions
import TelegramPub.Ports.KeyValueConversions
import TelegramPub.Ports.UpdateRouting
import TelegramPub.Ports.VoipPackets
import TelegramPub.Ports.ChannelHoleRemoval
import TelegramPub.Ports.ChannelBatchOrder
import TelegramPub.Ports.PtsBatchIndependence
import TelegramPub.Ports.TLRoundTrip
import TelegramPub.Ports.TLReadersAgree
import TelegramPub.Ports.ServiceMessages
import TelegramPub.Ports.TransactionResolution
import TelegramPub.Ports.TransportWakeups
import TelegramPub.Ports.Reconnection
import TelegramPub.Ports.QuickAcks
import TelegramPub.Ports.ActorWatchers
import TelegramPub.Ports.ActorQueues
import TelegramPub.Ports.VoipCallState
import TelegramPub.Ports.SecretHeader
import TelegramPub.Ports.SecretResends
import TelegramPub.Ports.SecretInOrder
import TelegramPub.Ports.SecretSentSeqOut
import TelegramPub.Ports.SecretConfirmations
import TelegramPub.Ports.SecretRekeyAgreement
import TelegramPub.Ports.SecretBatches
import TelegramPub.Ports.ActorDispatch
import TelegramPub.Ports.PartResumes
import TelegramPub.Ports.CdnDeliveries
import TelegramPub.Ports.FetchRange
import TelegramPub.Ports.PartGapRuns
import TelegramPub.Ports.AesIge
import TelegramPub.Ports.VoipCongestion
import TelegramPub.Ports.PrimeCache
import TelegramPub.Ports.HandshakeNumbers
import TelegramPub.Ports.HandshakeRobustness
import TelegramPub.Ports.PlaybackSpeed
import TelegramPub.Ports.VoipRoundTrip
import TelegramPub.Ports.JitterPlayout
import TelegramPub.Ports.UploadLimits
import TelegramPub.Ports.MediaCacheRuns
import TelegramPub.Ports.ResourceStatusRuns
import TelegramPub.Ports.UpdateMessages
import TelegramPub.Ports.LengthVarints
import TelegramPub.Ports.InsertionRecords
import TelegramPub.Ports.InitialSalt
import TelegramPub.Ports.ContainerPacking
import TelegramPub.Ports.ProgressAnswers
import TelegramPub.Ports.BackupData
import TelegramPub.Ports.SocksReplies
import TelegramPub.Ports.VoipTcpRelay
import TelegramPub.Ports.TrailingHoles
import TelegramPub.Ports.ChannelPolls
import TelegramPub.Ports.MessageSortKeys
import TelegramPub.Ports.ChannelTransactions

import AsyncMqtt.Spec.ChunkingCorrect
import AsyncMqtt.Spec.DecodeSafety
import AsyncMqtt.Spec.Qos2Delivery
import AsyncMqtt.Spec.RoundTripV5
import AsyncMqtt.Spec.SendAtomic
import AsyncMqtt.Spec.PacketIdAccounting
import AsyncMqtt.Spec.ReceivedCorrect
import AsyncMqtt.Spec.SendReleases
import AsyncMqtt.Spec.FreshSession
import AsyncMqtt.Spec.Line
import AsyncMqtt.Spec.ConnectRefused
import AsyncMqtt.Spec.RecvSignals
import AsyncMqtt.Spec.StoreSteps
import AsyncMqtt.Spec.ClientTurn
import AsyncMqtt.Spec.RecvErrors
import AsyncMqtt.Spec.PacketSizeLimit
import AsyncMqtt.Spec.RecvMaximum
import AsyncMqtt.Spec.SessionResume
import AsyncMqtt.Spec.StoredAckable
import AsyncMqtt.Spec.LeftoverBytes
import AsyncMqtt.Spec.SendNotLost
import AsyncMqtt.Native.IocQueue
import AsyncMqtt.Native.Stream
import AsyncMqtt.Spec.BulkWrite
import AsyncMqtt.Native.AcquireWaitUntil
import AsyncMqtt.Spec.WaitersServed
import AsyncMqtt.Native.Client
import AsyncMqtt.ForStd.Keyed
import AsyncMqtt.Spec.ClientResponses
import AsyncMqtt.Native.Endpoint
import AsyncMqtt.Spec.EndpointSteps
import AsyncMqtt.Spec.QueuedPublish
import AsyncMqtt.Spec.AutoResponse
import AsyncMqtt.Spec.EventsHandled
import AsyncMqtt.ForStd.FlatTree
import AsyncMqtt.Native.SubscriptionMap
import AsyncMqtt.ForStd.LevelMatch
import AsyncMqtt.Spec.SubscriptionCounts
import AsyncMqtt.Spec.SubscriptionMapCorrect
import AsyncMqtt.Spec.SubscriptionMapRuns
import AsyncMqtt.Native.RetainedTopicMap
import AsyncMqtt.ForStd.CountedTree
import AsyncMqtt.Spec.RetainedCalls
import AsyncMqtt.ForStd.PathOrder
import AsyncMqtt.Spec.RetainedFind
import AsyncMqtt.Spec.RetainedMatch
import AsyncMqtt.Spec.RetainedRuns
import AsyncMqtt.Spec.LiveAndRetained
import AsyncMqtt.ForStd.OrdMap
import AsyncMqtt.Native.Security
import AsyncMqtt.Spec.SecurityRules
import AsyncMqtt.Spec.PropertyRoundTrip
import AsyncMqtt.Spec.RoundTripWide
import AsyncMqtt.Spec.AnnouncedLengths
import AsyncMqtt.Spec.DecodedRules
import AsyncMqtt.Spec.PropertyDecode
import AsyncMqtt.Spec.SubscriptionPairs
import AsyncMqtt.Spec.ResponseRules
import AsyncMqtt.Spec.RetainedLast
import AsyncMqtt.Native.SessionWill
import AsyncMqtt.Spec.WillsPublished
import AsyncMqtt.Native.InflightMessages
import AsyncMqtt.Native.OfflineMessages
import AsyncMqtt.Spec.InflightResume
import AsyncMqtt.Spec.OfflineOrder
import AsyncMqtt.ForStd.Utf8
import AsyncMqtt.Native.Utf8Validate
import AsyncMqtt.Spec.Utf8Correct
import AsyncMqtt.Spec.FreeValues
import AsyncMqtt.Spec.TopicAliasTables
import AsyncMqtt.ForStd.Recency
import AsyncMqtt.Spec.TopicAliasRecency
import AsyncMqtt.Spec.TopicAliasUses
import AsyncMqtt.Spec.LeastRecentAlias
import AsyncMqtt.ForStd.Latch
import AsyncMqtt.Spec.TimerFlags
import AsyncMqtt.Spec.KeepAlive
import AsyncMqtt.Spec.PublishProcessing
import AsyncMqtt.Native.PublishMutators
import AsyncMqtt.Spec.PublishLengths
import AsyncMqtt.Spec.RegulateStore
import AsyncMqtt.Native.CloseOp
import AsyncMqtt.Spec.ConcurrentCloses
import AsyncMqtt.Native.TopicFilterLoops
import AsyncMqtt.Spec.TopicFilterGrammar
import AsyncMqtt.Spec.CompareTopicFilter
import AsyncMqtt.ForStd.LevelMeet
import AsyncMqtt.Spec.SubscribeFilters
import AsyncMqtt.Spec.AuthDecisions
import AsyncMqtt.Spec.SharedTargetRuns
import AsyncMqtt.Spec.RetainedRejected
import AsyncMqtt.Spec.RetainedCounts
import AsyncMqtt.Spec.SingleSubscriptionMap
import AsyncMqtt.Spec.SingleSubscriptionRuns
import AsyncMqtt.Spec.HandleNames
import AsyncMqtt.Spec.HandleRuns
import AsyncMqtt.Spec.LengthCodecs
import AsyncMqtt.Spec.JsonComments
import AsyncMqtt.Spec.LargestValue
import AsyncMqtt.Native.MakeProperties
import AsyncMqtt.Spec.PropertyProgress
import AsyncMqtt.ForStd.OrderedDelivery
import AsyncMqtt.Spec.ExchangeTraffic
import AsyncMqtt.Spec.ExchangeRecv
import AsyncMqtt.Spec.ExchangeCalls
import AsyncMqtt.Spec.ExchangeBegin
import AsyncMqtt.Spec.ExchangeDirection
import AsyncMqtt.Spec.LineStage
import AsyncMqtt.Spec.TwoParties
import AsyncMqtt.Spec.PartyMessages
import AsyncMqtt.Native.Broker
import AsyncMqtt.Spec.SubscribedHandles
import AsyncMqtt.Spec.SubscriptionBooks
import AsyncMqtt.Spec.BrokerRuns
import AsyncMqtt.Spec.PublishFanOut
import AsyncMqtt.Spec.SubscribeAnswers

import PscMockServer.Foundations.Text
import PscMockServer.Foundations.Delimited
import PscMockServer.Foundations.EditScript
import PscMockServer.Foundations.OrderedMap
import PscMockServer.Gnmi.Messages
import PscMockServer.Utils.CanonicalXpath
import PscMockServer.Backend.DataProvider
import PscMockServer.Backend.StoreBackedProvider
import PscMockServer.Backend.SystemConfigProvider
import PscMockServer.Backend.PscPowerSensorProvider
import PscMockServer.Gnmi.SubscribeEmit
import PscMockServer.Gnmi.Get
import PscMockServer.Gnmi.Set
import PscMockServer.Server.Registry
import PscMockServer.Server.SchemaInvariant
import PscMockServer.Server.SetTransaction
import PscMockServer.Foundations.CheckThenCommit
import PscMockServer.Server.ConcurrentSets
import PscMockServer.Telemetry.Emission
import PscMockServer.Server.GetAnswers
import PscMockServer.Telemetry.ClientView
import PscMockServer.Telemetry.EmitterScripts
import PscMockServer.Gnmi.Subscribe
import PscMockServer.Gnmi.Streams
import PscMockServer.Foundations.Runs
import PscMockServer.Telemetry.Heartbeats
import PscMockServer.Telemetry.Serving
import PscMockServer.Gnmi.Observations
import PscMockServer.Telemetry.StreamBuckets
import PscMockServer.Telemetry.CallSteps
import PscMockServer.Telemetry.Listening
import PscMockServer.Telemetry.Retellings
import PscMockServer.Telemetry.OnChange
import PscMockServer.Telemetry.AtomicRecords
import PscMockServer.Foundations.ConsistentReads
import PscMockServer.Telemetry.TornRecords
import PscMockServer.Telemetry.AbsolutePaths
import PscMockServer.Telemetry.RequestPrefix
import PscMockServer.Telemetry.OpenStreams
import PscMockServer.Telemetry.UpdatesOnly
import PscMockServer.Foundations.RunningMax
import PscMockServer.Telemetry.Stamps
import PscMockServer.Telemetry.ExactEmissions
import PscMockServer.Telemetry.ReportedEvents
import PscMockServer.Telemetry.EventTimes
import PscMockServer.Utils.PathCoding
import PscMockServer.Utils.PathPrefix
import PscMockServer.Backend.Addressing
import PscMockServer.Backend.Selection
import PscMockServer.Backend.OmittedKeys
import PscMockServer.Foundations.Dispatch
import PscMockServer.Server.Routing
import PscMockServer.Backend.LeafHistory
import PscMockServer.Backend.KeyOrder
import PscMockServer.Server.PrefixCuts
import PscMockServer.Server.Acknowledgements
import PscMockServer.Foundations.Timers
import PscMockServer.Telemetry.HeartbeatCadence
import PscMockServer.Telemetry.OnceAgrees
import PscMockServer.Gnmi.PollSteps
import PscMockServer.Gnmi.PollTranscripts
import PscMockServer.Telemetry.PollProtocol
import PscMockServer.Security.Authentication
import PscMockServer.Foundations.GridWalks
import PscMockServer.Backend.SensorWalks
import PscMockServer.Foundations.Loops
import PscMockServer.Utils.ParserSafety
import PscMockServer.Backend.Owners
import PscMockServer.Server.Extensibility
import PscMockServer.Server.Domains
import PscMockServer.Server.LastWrites
import PscMockServer.Server.PathIsolation
import PscMockServer.Server.IndependentSets
import PscMockServer.Foundations.Samplers
import PscMockServer.Telemetry.StreamEntries
import PscMockServer.Telemetry.SampleCadence
import PscMockServer.Security.AuthBuilder
import PscMockServer.Server.Startup
import PscMockServer.Server.Service
import PscMockServer.Backend.Coverage
import PscMockServer.Telemetry.CoveredPaths
import PscMockServer.Telemetry.QuietStreams
import PscMockServer.Server.SensorAnswers
import PscMockServer.Server.ReportedPaths
import PscMockServer.Telemetry.Conversations
import PscMockServer.Telemetry.Recovery
import PscMockServer.Foundations.Histories
import PscMockServer.Foundations.SharedLock
import PscMockServer.Foundations.ManyLocks
import PscMockServer.Foundations.Iterators
import PscMockServer.Backend.StoreLocks
import PscMockServer.Server.StoreAccess
import PscMockServer.Telemetry.Traces
import PscMockServer.Server.Provenance
import PscMockServer.Server.Causes

import DubboGo.Triple.UnaryCall
import DubboGo.Triple.SendClose
import DubboGo.Triple.ErrorWire
import DubboGo.Cluster.HashDisruption
import DubboGo.Cluster.InterleavedRoundRobin
import DubboGo.Cluster.Random
import DubboGo.Router.Chain
import DubboGo.Router.ConditionText
import DubboGo.Router.ConditionRouter
import DubboGo.Cluster.Forking
import DubboGo.Cluster.FailbackShutdown
import DubboGo.Cluster.FailbackContext
import DubboGo.Cluster.FailbackLimits
import DubboGo.Registry.Departure
import DubboGo.Registry.Notifications
import DubboGo.Registry.Refresh
import DubboGo.Registry.ClosingRace
import DubboGo.Registry.Publishing
import DubboGo.Common.Equality
import DubboGo.Metadata.ExportedServices
import DubboGo.Registry.Definitions
import DubboGo.Registry.MetadataRetry
import DubboGo.Registry.Convergence
import DubboGo.Registry.KeptRetries
import DubboGo.Registry.MappingListener
import DubboGo.Jsonrpc.Server
import DubboGo.Remoting.GettyClient
import DubboGo.Remoting.GettyServer
import DubboGo.Dubbo.Framing
import DubboGo.Registry.Nodes
import DubboGo.ConfigCenter.AutoWatches
import DubboGo.ConfigCenter.Generations
import DubboGo.Triple.Timeout
import DubboGo.Triple.PercentEncoding
import DubboGo.Triple.ContentType
import DubboGo.Filter.ActiveCount
import DubboGo.Filter.ExecuteLimit
import DubboGo.Filter.HillClimbing
import DubboGo.Filter.TpsLimit
import DubboGo.Filter.GracefulShutdown

import LinkerdProxy.Lib.Machine
import LinkerdProxy.Breaker.SuccessRate
import LinkerdProxy.Breaker.Basic
import LinkerdProxy.Breaker.Task
import LinkerdProxy.Breaker.Unified
import LinkerdProxy.Breaker.Consecutive
import LinkerdProxy.Lib.FirstMax
import LinkerdProxy.HttpRoute.Match
import LinkerdProxy.HttpRoute.Find
import LinkerdProxy.Lib.Reader
import LinkerdProxy.Tls.ClientHello
import LinkerdProxy.Retry.Replay
import LinkerdProxy.Lib.Watch
import LinkerdProxy.Inbound.Authorize
import LinkerdProxy.Inbound.TcpPolicy
import LinkerdProxy.Addr.NameAddr
import LinkerdProxy.Lib.Except
import LinkerdProxy.ClientPolicy.Decode
import LinkerdProxy.Outbound.Router
import LinkerdProxy.Tls.Encode
import LinkerdProxy.Outbound.Profile
import LinkerdProxy.Lib.MultiMap
import LinkerdProxy.Lib.Ascii
import LinkerdProxy.Http.Upgrade
import LinkerdProxy.HttpRoute.Redirect
import LinkerdProxy.HttpRoute.Host
import LinkerdProxy.Lib.Loop
import LinkerdProxy.Retry.Buffer
import LinkerdProxy.Lib.Regex
import LinkerdProxy.HttpRoute.RegexMatch
import LinkerdProxy.Transport.Header
import LinkerdProxy.Http.StreamTimeouts
import LinkerdProxy.Cache.Idle
import LinkerdProxy.Balance.Queue
import LinkerdProxy.Duplex.Copy
import LinkerdProxy.Addr.DnsName
import LinkerdProxy.Breaker.Backoff
import LinkerdProxy.Lib.Text
import LinkerdProxy.Trace.Context
import LinkerdProxy.Retry.Policy
import LinkerdProxy.Control.ReceiveLimits
import LinkerdProxy.Resolve.Recover
import LinkerdProxy.Distribute.Random
import LinkerdProxy.Distribute.Service
import LinkerdProxy.Distribute.Cache
import LinkerdProxy.Reconnect.Service
import LinkerdProxy.Http.OrigProto
import LinkerdProxy.Stack.SwitchReady
import LinkerdProxy.Stack.FailFast
import LinkerdProxy.Lib.Semaphore
import LinkerdProxy.Stack.Gate
import LinkerdProxy.Lib.IndexMap
import LinkerdProxy.Lib.ReadyCache
import LinkerdProxy.Pool.P2c

import Gost.BBR.A0Point
import Gost.BBR.AckAge
import Gost.BBR.PacketMap
import Gost.BBR.SenderInvariant
import Gost.BBR.WindowedMax
import Gost.Brutal.AckRate
import Gost.Bypass.Bypass
import Gost.Chains.Connect
import Gost.Chains.Fifo
import Gost.Chains.Parallel
import Gost.Chains.Strategies
import Gost.Congestion.PacerRate
import Gost.ConnLimit.Slots
import Gost.Entrypoint.ForwardedNode
import Gost.Framing.Concurrent
import Gost.Framing.PacketConn
import Gost.Icmp.Message
import Gost.Matcher.AddrSpec
import Gost.Obfs.Deframe
import Gost.Obfs.FirstWrite
import Gost.Obfs.HttpConn
import Gost.Pht.OneConnection
import Gost.Proxy.Session
import Gost.Quota.Blocked
import Gost.Quota.Persist
import Gost.RateLimit.Group
import Gost.Redis.Metadata
import Gost.Relay.WebSocket
import Gost.Reload.Auth
import Gost.Reload.Snapshots
import Gost.Resolver.Exchange
import Gost.Resolver.Failover
import Gost.RouterHandler.RouteCache
import Gost.Routing.Matcher
import Gost.Sniffer.FailCodes
import Gost.Sniffer.Pairing
import Gost.Sniffer.PatternEvents
import Gost.Sniffer.Ranges
import Gost.Traffic.Expiry
import Gost.Traffic.Group
import Gost.Traffic.Idempotence
import Gost.Traffic.LimitConn
import Gost.Tun.Keepalive
import Gost.XHTTP.Config.PaddingCheck
import Gost.XHTTP.Config.Tokenish
import Gost.XHTTP.PacketUp.GracefulClose
import Gost.XHTTP.PacketUp.WriteContract
import Gost.XHTTP.Uplink
import Gost.XHTTP.UploadQueue.Bounded
import Gost.XHTTP.UploadQueue.Close
import Gost.XHTTP.UploadQueue.Retransmission
import Gost.XHTTP.Xmux.Concurrency
import Gost.XHTTP.Xmux.Requests
import Gost.XHTTP.Xmux.Reuse
import Gost.XHTTP.Xmux.Usage

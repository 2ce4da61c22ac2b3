import Lars.Lib.Run
import Lars.Base
import Lars.Agent.Update
import Lars.Agent.Serving
import Lars.Agent.Pull
import Lars.Lib.Framing
import Lars.Reactor.Buf
import Lars.Reactor.Message
import Lars.Reactor.DoRead
import Lars.Reactor.Receive
import Lars.Reactor.ReadSize
import Lars.Reactor.EventLoop
import Lars.Reactor.Send
import Lars.Reactor.Sender
import Lars.Reactor.Connect
import Lars.Lib.Protobuf
import Lars.Lib.ProtobufWire
import Lars.Codec
import Lars.Wire
import Lars.Agent.DnsClient
import Lars.Reactor.Transfer
import Lars.Dns.Response
import Lars.Dns.Route
import Lars.Dns.Poller
import Lars.Dns.Subscribe
import Lars.Lib.DottedQuad
import Lars.Lib.Ipv6
import Lars.Dns.Answers
import Lars.Web.Console
import Lars.Api.Client
import Lars.Api.Identity
import Lars.Dns.Snapshot
import Lars.Dns.Session
import Lars.Dns.Targets
import Lars.Dns.Rounds
import Lars.Dns.Timeline
import Lars.Agent.Holding
import Lars.Agent.History
import Lars.Deployment
import Lars.Rollout
import Lars.Agent.Independence
import Lars.Agent.Statistics
import Lars.Lib.Unwinding
import Lars.Agent.Isolation
import Lars.Agent.SharedHeap
import Lars.Agent.Twins
import Lars.Agent.ModuleIsolation
import Lars.Agent.Refresh
import Lars.Agent.Schedule
import Lars.Lib.LastWrite
import Lars.Reactor.ThreadQueue
import Lars.Reporter.Store
import Lars.Reactor.Refusal
import Lars.Reactor.Link
import Lars.Reactor.EventTable
import Lars.Reactor.Registration
import Lars.Reactor.Server
import Lars.Reactor.RoundRobin
import Lars.Lib.Linked
import Lars.Reactor.Memory
import Lars.Reactor.Ownership
import Lars.Reactor.Refinement
import Lars.Lib.Text
import Lars.Reactor.ConfigFile
import Lars.Reactor.Udp
import Lars.Reactor.Router
import Lars.Reporter.Delivery
import Lars.Api.Pairing
import Lars.Api.Server
import Lars.Api.Exchange
import Lars.Api.Mirror

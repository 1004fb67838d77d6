import NetworkPoller.Base.Proof.BufferLines
import NetworkPoller.Event.Proof.PollerSync
import NetworkPoller.Event.Proof.HandOver
import NetworkPoller.Event.Proof.LoopPool
import NetworkPoller.Net.Proof.Acceptor
import NetworkPoller.Net.Proof.Teardown
import NetworkPoller.Net.Proof.Producers
import NetworkPoller.Net.Proof.Connect
import NetworkPoller.Net.Proof.Requests
import NetworkPoller.Net.Proof.Callbacks
import NetworkPoller.Net.Proof.HighWater
import NetworkPoller.Net.Proof.WriteSide
import NetworkPoller.Net.Proof.AddrText
import NetworkPoller.Queue.Proof.Capacity
import NetworkPoller.Net.Proof.Input
import NetworkPoller.Net.Proof.Rounds
import NetworkPoller.Net.Proof.Referenced
import NetworkPoller.Net.Proof.LoopProgress
import NetworkPoller.Net.Proof.Lifecycle
import NetworkPoller.Net.Proof.EventArray
import NetworkPoller.Net.Proof.EndToEnd

import Mathlib.Logic.Function.Basic

/-!
# Channels and `EpollPoller`

`EventChannel` (`core/net/event/event_channel.{h,cpp}`) and `EpollPoller`
(`core/net/poller_impl/epoll_poller.cpp`) of one loop. `ι` is the type of channel objects (what an
`EventChannel *` points to) and `fd : ι → Nat` their descriptors, fixed at construction. A poller
keeps three stores: the members of every channel (`chan`), the map `evt_channel_list_` and the
kernel's interest set, which only `epoll_ctl` changes. A failed `epoll_ctl` is ignored by the code;
`ctlFailures` counts the failures.
-/

namespace Liang.Net

/-- The event bits of `poll.h` and `sys/epoll.h`. -/
abbrev Mask := BitVec 32

def pollIn : Mask := 0x001
def pollPri : Mask := 0x002
def pollOut : Mask := 0x004
def pollErr : Mask := 0x008
def pollHup : Mask := 0x010
def pollNval : Mask := 0x020
def pollRdhup : Mask := 0x2000
def epollEt : Mask := 0x80000000

namespace Event

def noneEventFlag : Mask := 0
def readEventFlag : Mask := pollIn ||| pollPri ||| epollEt
def writeEventFlag : Mask := pollOut

end Event

inductive ChannelStatus
  | newChannel
  | addedChannel
  | deleteChannel
  deriving DecidableEq, Repr

/-- The members of an `EventChannel` that change: `events_`, `recieved_events` and
`poller_status_`. -/
structure EventChannel where
  events : Mask := Event.noneEventFlag
  recievedEvents : Mask := 0
  status : ChannelStatus := .newChannel
  deriving DecidableEq, Repr

namespace EventChannel

def isNoneEvent (ch : EventChannel) : Bool := Event.noneEventFlag == ch.events
def isReading (ch : EventChannel) : Bool := Event.readEventFlag &&& ch.events != 0
def isWriting (ch : EventChannel) : Bool := Event.writeEventFlag &&& ch.events != 0

end EventChannel

/-- The asserts of `EpollPoller`. -/
inductive PollerAssert
  /-- `evt_channel_list_.find(fd) == evt_channel_list_.end()` -/
  | absent
  /-- `evt_channel_list_.find(fd) != evt_channel_list_.end()` -/
  | present
  /-- `evt_channel_list_[fd] == evt_channel` -/
  | same
  /-- `evt_channel->IsNoneEvent()` -/
  | noneEvent
  /-- `status == ADDED_CHANNEL || status == DELETE_CHANNEL` -/
  | known
  deriving DecidableEq, Repr

inductive CtlOp
  | add
  | mod
  | del
  deriving DecidableEq, Repr

structure EpollPoller (ι : Type) where
  chan : ι → EventChannel
  evtChannelList : Nat → Option ι
  /-- the kernel's interest set: `data.ptr` and `events` per descriptor -/
  interest : Nat → Option (ι × Mask)
  ctlFailures : Nat

namespace EpollPoller

variable {ι : Type} [DecidableEq ι] (fd : ι → Nat)

/-- `epoll_ctl`: ADD fails exactly when the descriptor is present, MOD and DEL exactly when it is
absent. -/
def epollCtl (k : Nat → Option (ι × Mask)) (op : CtlOp) (n : Nat) (e : ι × Mask) :
    Option (Nat → Option (ι × Mask)) :=
  match op with
  | .add => if (k n).isSome then none else some (Function.update k n (some e))
  | .mod => if (k n).isSome then some (Function.update k n (some e)) else none
  | .del => if (k n).isSome then some (Function.update k n none) else none

def updateEpollCtrl (p : EpollPoller ι) (op : CtlOp) (i : ι) : EpollPoller ι :=
  match epollCtl p.interest op (fd i) (i, (p.chan i).events) with
  | some k => { p with interest := k }
  | none => { p with ctlFailures := p.ctlFailures + 1 }

/-- `SetStatusInPoller`. -/
def setStatus (p : EpollPoller ι) (i : ι) (st : ChannelStatus) : EpollPoller ι :=
  { p with chan := Function.update p.chan i { p.chan i with status := st } }

/-- `evt_channel_list_[fd] = ch`, or `erase(fd)` for `none`. -/
def setList (p : EpollPoller ι) (n : Nat) (ch : Option ι) : EpollPoller ι :=
  { p with evtChannelList := Function.update p.evtChannelList n ch }

def updateEventChannel (p : EpollPoller ι) (i : ι) : Except PollerAssert (EpollPoller ι) :=
  match (p.chan i).status with
  | .newChannel =>
    if p.evtChannelList (fd i) ≠ none then .error .absent
    else .ok (updateEpollCtrl fd ((p.setList (fd i) (some i)).setStatus i .addedChannel) .add i)
  | .addedChannel =>
    if p.evtChannelList (fd i) = none then .error .present
    else if p.evtChannelList (fd i) ≠ some i then .error .same
    else if (p.chan i).isNoneEvent then
      .ok ((updateEpollCtrl fd p .del i).setStatus i .deleteChannel)
    else .ok (updateEpollCtrl fd p .mod i)
  | .deleteChannel =>
    if p.evtChannelList (fd i) = none then .error .present
    else .ok (updateEpollCtrl fd ((p.setList (fd i) (some i)).setStatus i .addedChannel) .add i)

def removeEventChannel (p : EpollPoller ι) (i : ι) : Except PollerAssert (EpollPoller ι) :=
  if p.evtChannelList (fd i) ≠ some i then .error .same
  else if !(p.chan i).isNoneEvent then .error .noneEvent
  else if (p.chan i).status = .newChannel then .error .known
  else
    let q := p.setList (fd i) none
    let q := if (p.chan i).status = .addedChannel then updateEpollCtrl fd q .del i else q
    .ok (q.setStatus i .newChannel)

/-- `SetRecievedEvent`. -/
def setRecievedEvent (p : EpollPoller ι) (i : ι) (ev : Mask) : EpollPoller ι :=
  { p with chan := Function.update p.chan i { p.chan i with recievedEvents := ev } }

/-- A new mask in `events_`, then `UpdateEventChannel`. -/
def setEvents (p : EpollPoller ι) (i : ι) (f : Mask → Mask) : Except PollerAssert (EpollPoller ι) :=
  updateEventChannel fd
    { p with chan := Function.update p.chan i { p.chan i with events := f (p.chan i).events } } i

def enableReading (p : EpollPoller ι) (i : ι) := setEvents fd p i (· ||| Event.readEventFlag)
def disableReading (p : EpollPoller ι) (i : ι) := setEvents fd p i (· &&& ~~~Event.readEventFlag)
def enableWriting (p : EpollPoller ι) (i : ι) := setEvents fd p i (· ||| Event.writeEventFlag)
def disableWriting (p : EpollPoller ι) (i : ι) := setEvents fd p i (· &&& ~~~Event.writeEventFlag)
def disableAll (p : EpollPoller ι) (i : ι) := setEvents fd p i fun _ => Event.noneEventFlag

def removeFromLoop (p : EpollPoller ι) (i : ι) := removeEventChannel fd p i

/-- A poller with fresh channels only. -/
def init : EpollPoller ι := ⟨fun _ => {}, fun _ => none, fun _ => none, 0⟩

/-- What `close(n)` does to the interest set. -/
def dropFd (p : EpollPoller ι) (n : Nat) : EpollPoller ι :=
  { p with interest := Function.update p.interest n none }

/-! ## `Poll` and its array -/

/-- What can be ready: registered descriptors, each once, with events asked for and with
`EPOLLERR` and `EPOLLHUP`. -/
def canBeReady (p : EpollPoller ι) (ready : List (Nat × Mask)) : Bool :=
  decide (ready.map (·.1)).Nodup && ready.all fun (n, ev) =>
    match p.interest n with
    | some (_, m) => ev &&& ~~~(m ||| pollErr ||| pollHup) == 0
    | none => false

/-- `epoll_wait` with room for `maxEvents` events; `none` is `EINVAL`. -/
def epollWait (ready : List (Nat × Mask)) (maxEvents : BitVec 32) : Option (List (Nat × Mask)) :=
  if maxEvents.toInt ≤ 0 then none else some (ready.take maxEvents.toNat)

/-- The channels of the events, by `data.ptr`. -/
def channels (p : EpollPoller ι) (evs : List (Nat × Mask)) : List ι :=
  evs.filterMap fun (n, _) => (p.interest n).map (·.1)

/-- `SetRecievedEvent` on the channel of every event. -/
def setRecievedEvents (p : EpollPoller ι) (evs : List (Nat × Mask)) : EpollPoller ι :=
  evs.foldl (fun q (n, ev) =>
    match p.interest n with
    | some (i, _) => q.setRecievedEvent i ev
    | none => q) p

end EpollPoller

/-- A poller with its array `events_ready`, of which the size is kept. -/
structure ArrayPoller (ι : Type) where
  poller : EpollPoller ι
  eventsReady : Nat

namespace ArrayPoller

variable {ι : Type} [DecidableEq ι]

def new : ArrayPoller ι := ⟨.init, 16⟩

/-- `Poll` into a cleared list, when `ready` are ready. -/
def poll (x : ArrayPoller ι) (ready : List (Nat × Mask)) : ArrayPoller ι × List ι :=
  match EpollPoller.epollWait ready (BitVec.ofNat 32 x.eventsReady) with
  | some evs =>
    if 0 < evs.length then
      ({ poller := x.poller.setRecievedEvents evs
         eventsReady := if evs.length = x.eventsReady then x.eventsReady * 2 else x.eventsReady },
        x.poller.channels evs)
    else (x, [])
  | none => (x, [])

end ArrayPoller

end Liang.Net

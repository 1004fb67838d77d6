import NetworkPoller.Net.Proof.Written

/-!
# The callbacks of the server

`NewConnected` copies the server's callbacks into a new connection, where the handlers find them.
`invoked` are the server's callbacks that a step calls or queues for the connection, by the member they
are found in, and `Served` is what the four setters promise. It holds at every step but those that
complete output and the one that establishes the connection: `written_cb_` is overwritten by the empty
`high_water_cb_`, and `connection_cb_` is given to no connection (`callbacks_reach`).
-/

namespace Liang.Net

open Base TcpConnection

variable {cfg : Cfg} {s s' s₀ s₁ : Sys} {t : Tid} {c : ConnId} {fd : Fd} {r : List Frame} {a : Act}

/-- The callbacks set on the server; no modelled function looks at `connection_cb_`. -/
def Cfg.registered (cfg : Cfg) (connectionCb : Bool) : ServerCb → Bool
  | .message => cfg.msgCb
  | .writeComplete => cfg.wroteCb
  | .connection => connectionCb
  | .connStatus => cfg.statusCb

/-- The members of an accepted connection. -/
def Cfg.slots (cfg : Cfg) (connectionCb : Bool) : TcpConnection.Slots :=
  (TcpServer.Slots.register (cfg.registered connectionCb)).newConnected

theorem slots_eq (b : Bool) : cfg.slots b =
    { msgCb := if cfg.msgCb then some .message else none
      connStatusCb := if cfg.statusCb then some .connStatus else none } := by
  cases hm : cfg.msgCb <;> cases hw : cfg.wroteCb <;> cases hs : cfg.statusCb <;> cases b <;>
    simp [Cfg.slots, TcpServer.Slots.register, Cfg.registered, hm, hw, hs] <;> rfl

/-- The connection of the system model is set up by the same assignments. -/
theorem newConn_slots (cfg : Cfg) (b : Bool) :
    (TcpServer.newConn cfg).msgCb = (cfg.slots b).msgCb.isSome ∧
      (TcpServer.newConn cfg).writtenCb = (cfg.slots b).writtenCb.isSome ∧
      (TcpServer.newConn cfg).highWaterCb = (cfg.slots b).highWaterCb.isSome ∧
      (TcpServer.newConn cfg).statusCb = (cfg.slots b).connStatusCb.isSome := by
  rw [slots_eq]
  cases hm : cfg.msgCb <;> cases hs : cfg.statusCb <;>
    simp [TcpServer.newConn, TcpServer.highWaterCb, hm, hs]

/-! ## What is promised -/

/-- The server's callbacks that the step calls or queues for `c`. -/
def invoked (x : TcpConnection.Slots) (c : ConnId) (s : Sys) (a : Act) (s' : Sys) : List ServerCb :=
  (if (s.conns c).num .msgCb < (s'.conns c).num .msgCb then x.msgCb.toList else []) ++
    (if 0 < scheduled c s a s' then x.writtenCb.toList else []) ++
    (if (s.conns c).num .statusCb < (s'.conns c).num .statusCb then x.connStatusCb.toList else [])

/-- `ReadHandler` reads something. -/
inductive Reads (c : ConnId) (s : Sys) : Act → Prop
  | data {t : Tid} {d : List UInt8} {r : List Frame} (hs : s.stack t = .readHandler c :: r) (hd : d ≠ []) :
      Reads c s (.thread t (.read (.data d)))

/-- The state becomes `st`. -/
def Becomes (st : ConnState) (c : ConnId) (s s' : Sys) : Prop :=
  (s.conns c).state ≠ st ∧ (s'.conns c).state = st

/-- What is promised for each callback that is set, given the callbacks `calls` of the step. -/
structure Served (reg : ServerCb → Bool) (calls : List ServerCb) (c : ConnId) (s : Sys) (a : Act)
    (s' : Sys) : Prop where
  writeComplete : reg .writeComplete = true → Completes c s s' a → .writeComplete ∈ calls
  connection : reg .connection = true → Becomes .connected c s s' → .connection ∈ calls
  message : reg .message = true → Reads c s a → .message ∈ calls
  connStatus : reg .connStatus = true → Becomes .connected c s s' ∨ Becomes .disconnected c s s' →
    .connStatus ∈ calls

/-! ## An accepted connection -/

/-- The connection that is made of the descriptor `fd` in `s`. -/
def Sys.accepted (cfg : Cfg) (s : Sys) (fd : Fd) : ConnId :=
  ⟨s.nextSerial, fd, TcpServer.getEventLoopFromPoolForHash cfg fd, .server⟩

theorem accept_conn (hI : Inv cfg .any s₀) (hs : s₀.stack t = .acceptHandle :: r)
    (hstep : step cfg s₀ (.thread t (.fd (.ok fd))) = some s₁) :
    s₁.conns (s₀.accepted cfg fd) = TcpServer.newConn cfg ∧ s₁.nextSerial = s₀.nextSerial + 1 := by
  obtain rfl : t = .loop cfg.serverLoop := hI.sound.loop_thread hs
  rcases step_at hs hstep with ⟨gs, s₂, hx, rfl⟩ | ⟨e, hx, rfl⟩
  all_goals
    simp only [exec, TcpAcceptor.acceptHandle, TcpServer.newConnected, Res.assert, if_true] at hx
    split at hx
    · cases hx
      all_goals exact ⟨Function.update_self .., rfl⟩
    · cases hx

/-- Only the setters change the callbacks of a connection. -/
theorem step_told (hI : Inv cfg .any s) (hser : c.serial < s.nextSerial) (hk : KeepsCallbacks c s a)
    (hstep : step cfg s a = some s') : (s.conns c).Told (s'.conns c) := by
  refine ((step_routine hI hstep).conns c hser).resolve_left fun hv => ?_
  unfold Act.notable at hv
  split at hv
  · split at hv
    · rename_i f r hs
      unfold Frame.notable at hv
      split at hv
      · exact hv.elim
      · exact hv.elim
      · simp only [KeepsCallbacks, hs] at hk
        exact hk hv.symm
      · exact hv.elim
      · split at hv <;> exact hv.elim
      · exact hv.elim
    · exact hv.elim
  · exact hv.elim

/-- An accepted connection keeps the callbacks it was given. -/
theorem accepted_callbacks (h₀ : Runs.Reach (step cfg) (fun _ _ => True) (Sys.init cfg) s₀)
    (hs : s₀.stack t = .acceptHandle :: r) (hacc : step cfg s₀ (.thread t (.fd (.ok fd))) = some s₁)
    (hc : c = s₀.accepted cfg fd) (h : Runs.Reach (step cfg) (KeepsCallbacks c) s₁ s) :
    (s.conns c).cbs = (TcpServer.newConn cfg).cbs ∧ c.serial < s.nextSerial := by
  have hr₁ : Runs.Reach (step cfg) (fun _ _ => True) (Sys.init cfg) s₁ := .snoc h₀ trivial hacc
  refine h.inv (I := fun s => (s.conns c).cbs = (TcpServer.newConn cfg).cbs ∧ c.serial < s.nextSerial)
    ?_ fun s a s' hr hi hk hstep => ?_
  · obtain ⟨hconn, hn⟩ := accept_conn (Inv.any h₀) hs hacc
    rw [hc, hconn, hn]
    exact ⟨rfl, Nat.lt_succ_self _⟩
  · have hI := Inv.any (hr₁.join hr)
    exact ⟨(step_told hI hi.2 hk hstep).cbs.trans hi.1,
      Nat.lt_of_lt_of_le hi.2 (step_routine hI hstep).serial⟩

/-! ## The promise -/

/-- A read that returns something, with `msg_cb_` set. -/
theorem readHandler_data {d : List UInt8} (hcb : (s.conns c).msgCb = true) (hd : d ≠ []) :
    readHandler cfg (.loop c.loop) c (.data d) s =
      if canRead (s.conns c).readBuffer (.data d) then
        .ok ((s.updConn c fun x =>
          { x with readBuffer := ((s.conns c).readBuffer.readFromFD (.data d)).1 }).note c [.msgCb])
          [.user (some c), .readHandler c]
      else .disabled := by
  have hn : ((s.conns c).readBuffer.readFromFD (.data d)).2.1 = d.length := by
    simp only [Buffer.readFromFD]
    split <;> rfl
  have hpos : (0 : Int) < d.length := Int.natCast_pos.2 (List.length_pos_iff.2 hd)
  simp only [readHandler, Res.assert, if_true, hn, if_pos hpos, Sys.updConn_self, hcb]

theorem reads_noted (hI : Inv cfg .any s) (hcb : (s.conns c).msgCb = true) (h : Reads c s a)
    (hstep : step cfg s a = some s') : (s.conns c).num .msgCb < (s'.conns c).num .msgCb := by
  obtain @⟨t, d, r, hs, hd⟩ := h
  obtain rfl : t = .loop c.loop := hI.sound.loop_thread hs
  rcases step_at hs hstep with ⟨gs, s₂, hx, rfl⟩ | ⟨e, hx, rfl⟩
  all_goals
    simp only [exec, readHandler_data hcb hd] at hx
    split at hx
  · cases hx
    simp [Conn.num, Sys.note, Sys.updConn, Sys.push]
  all_goals cases hx

theorem status_noted (hcb : (s.conns c).statusCb = true) (ht : (s.conns c).Told (s'.conns c))
    (h : Becomes .connected c s s' ∨ Becomes .disconnected c s s') :
    (s.conns c).num .statusCb < (s'.conns c).num .statusCb := by
  rcases ht.status with hst | hst | hst
  · rcases h with ⟨h1, h2⟩ | ⟨h1, h2⟩ <;> exact absurd (hst ▸ h2) h1
  · rcases h with ⟨h1, h2⟩ | ⟨h1, h2⟩ <;> rw [hst] at h2 <;> cases h2
  · exact hst hcb

/-- What no member holds is not called. -/
theorem not_mem_invoked {x : TcpConnection.Slots} {cb : ServerCb} (hm : x.msgCb ≠ some cb)
    (hw : x.writtenCb ≠ some cb) (hs : x.connStatusCb ≠ some cb) : cb ∉ invoked x c s a s' := by
  unfold invoked
  simp only [List.mem_append, not_or]
  refine ⟨⟨?_, ?_⟩, ?_⟩ <;> split <;> simp_all

/-- **The callbacks of the server.** For every set of callbacks registered before `Start`, in every run
and at every step, as long as the callbacks of an accepted connection are not set anew: the connection is
served as promised exactly if a write-complete callback is not registered or the step completes no
output, and a connection callback is not registered or the step does not establish the connection. -/
theorem callbacks_reach (b : Bool) (h₀ : Runs.Reach (step cfg) (fun _ _ => True) (Sys.init cfg) s₀)
    (hs : s₀.stack t = .acceptHandle :: r) (hacc : step cfg s₀ (.thread t (.fd (.ok fd))) = some s₁)
    (hc : c = s₀.accepted cfg fd) (h : Runs.Reach (step cfg) (KeepsCallbacks c) s₁ s)
    (hk : KeepsCallbacks c s a) (hstep : step cfg s a = some s') :
    Served (cfg.registered b) (invoked (cfg.slots b) c s a s') c s a s' ↔
      (cfg.wroteCb = true → ¬ Completes c s s' a) ∧ (b = true → ¬ Becomes .connected c s s') := by
  obtain ⟨hcbs, hser⟩ := accepted_callbacks h₀ hs hacc hc h
  have hI := Inv.any ((Runs.Reach.snoc h₀ trivial hacc).join h)
  obtain ⟨hm, -, -, hst⟩ := newConn_slots cfg b
  have hmsg := (congrArg Callbacks.msg hcbs).trans hm
  have hstatus := (congrArg Callbacks.status hcbs).trans hst
  rw [slots_eq] at hmsg hstatus ⊢
  constructor
  · intro hS
    refine ⟨fun hw hcomp => ?_, fun hb hest => ?_⟩
    · exact absurd (hS.writeComplete hw hcomp) (not_mem_invoked (by simp) (by simp) (by simp))
    · exact absurd (hS.connection hb hest) (not_mem_invoked (by simp) (by simp) (by simp))
  · rintro ⟨hw, hb⟩
    refine ⟨fun hreg hcomp => absurd hcomp (hw hreg), fun hreg hest => absurd hest (hb hreg),
      fun hreg hread => ?_, fun hreg hchange => ?_⟩
    · have hreg : cfg.msgCb = true := hreg
      have hn := reads_noted hI (hmsg.trans (by rw [hreg]; rfl)) hread hstep
      simp [invoked, hn, hreg]
    · have hreg : cfg.statusCb = true := hreg
      have hn := status_noted (hstatus.trans (by rw [hreg]; rfl)) (step_told hI hser hk hstep) hchange
      simp [invoked, hn, hreg]

/-- All callbacks are set on the server. -/
def Cfg.sampleServed : Cfg := { Cfg.sample with wroteCb := true }

/-- The server listens, and a connection waits to be accepted. -/
def sampleAccepting : List Act :=
  loopActs [.call .start, .cas false, .none, .ret, .poll [], .none, .none, .none,
    .poll [(3, pollIn)], .none, .none]

/-- It is established and becomes readable. -/
def sampleReadable : List Act :=
  loopActs [.fd (.error eAgain), .none, .none, .ret, .none, .poll [(5, pollIn)], .none, .none]

/-- A read is reported. -/
theorem callbacks_reach_sample :
    ∃ s₀ s₁ s s', Runs.run (step .sampleServed) (Sys.init .sampleServed) sampleAccepting = some s₀ ∧
      step .sampleServed s₀ (.thread (.loop 0) (.fd (.ok 5))) = some s₁ ∧
      Runs.run (step .sampleServed) s₁ sampleReadable = some s ∧
      step .sampleServed s (.thread (.loop 0) (.read (.data [7]))) = some s' ∧
      .message ∈ invoked (Cfg.sampleServed.slots true) sampleConn s
        (.thread (.loop 0) (.read (.data [7]))) s' := by
  have hrun : ((Runs.run (step .sampleServed) (Sys.init .sampleServed) sampleAccepting).bind fun s₀ =>
      (step .sampleServed s₀ (.thread (.loop 0) (.fd (.ok 5)))).bind fun s₁ =>
      (Runs.run (step .sampleServed) s₁ sampleReadable).bind fun s =>
      (step .sampleServed s (.thread (.loop 0) (.read (.data [7])))).map fun s' =>
        ((s₀.stack (.loop 0), s₀.accepted .sampleServed 5, s.stack (.loop 0)),
          ((s.conns sampleConn).state,
            decide (Runs.Admits (step .sampleServed) (KeepsCallbacks sampleConn) s₁ sampleReadable)))) =
      some (([.acceptHandle, .loopDispatch 0], sampleConn, [.readHandler sampleConn, .loopDispatch 0]),
        (.connected, true)) := by
    decide +kernel
  obtain ⟨s₀, hs₀, hrun⟩ := Option.bind_eq_some_iff.1 hrun
  obtain ⟨s₁, hs₁, hrun⟩ := Option.bind_eq_some_iff.1 hrun
  obtain ⟨s, hs, hrun⟩ := Option.bind_eq_some_iff.1 hrun
  obtain ⟨s', hs', hx⟩ := Option.map_eq_some_iff.1 hrun
  simp only [Prod.mk.injEq, decide_eq_true_eq] at hx
  obtain ⟨⟨hstack₀, hc, hstack⟩, hst, hadm⟩ := hx
  have hr : Runs.Reach (step .sampleServed) (fun _ _ => True) (Sys.init .sampleServed) s₀ :=
    .of_run _ hs₀ (Runs.admits_of_forall (fun _ _ => trivial) _ _)
  have hno : ¬ Completes sampleConn s s' (.thread (.loop 0) (.read (.data [7]))) := fun hcomp => by
    cases hcomp with
    | emptied hs' =>
      rw [hstack] at hs'
      cases hs'
  have hserved := (callbacks_reach true hr hstack₀ hs₁ hc.symm (.of_run _ hs hadm)
    (by simp [KeepsCallbacks, hstack]) hs').2 ⟨fun _ => hno, fun _ hest => hest.1 hst⟩
  exact ⟨s₀, s₁, s, s', hs₀, hs₁, hs, hs', hserved.message rfl (.data hstack (by simp))⟩

/-- The connection is established, and a byte that user code sends is taken by the kernel: neither the
connection callback nor the write-complete callback of the server is called. -/
theorem callbacks_dropped :
    ∃ s₀ s₁ s s' s₂ s₃, Runs.run (step .sampleServed) (Sys.init .sampleServed) sampleAccepting = some s₀ ∧
      step .sampleServed s₀ (.thread (.loop 0) (.fd (.ok 5))) = some s₁ ∧
      Runs.run (step .sampleServed) s₁ (loopActs [.fd (.error eAgain), .none]) = some s ∧
      step .sampleServed s (.thread (.loop 0) .none) = some s' ∧
      Becomes .connected sampleConn s s' ∧
      invoked (Cfg.sampleServed.slots true) sampleConn s (.thread (.loop 0) .none) s' = [.connStatus] ∧
      Runs.run (step .sampleServed) s' (loopActs [.call (.send sampleConn [1])]) = some s₂ ∧
      step .sampleServed s₂ (.thread (.loop 0) (.write (.accepted 1))) = some s₃ ∧
      Completes sampleConn s₂ s₃ (.thread (.loop 0) (.write (.accepted 1))) ∧
      scheduled sampleConn s₂ (.thread (.loop 0) (.write (.accepted 1))) s₃ = 0 ∧
      invoked (Cfg.sampleServed.slots true) sampleConn s₂ (.thread (.loop 0) (.write (.accepted 1))) s₃ =
        [] := by
  have hrun : ((Runs.run (step .sampleServed) (Sys.init .sampleServed) sampleAccepting).bind fun s₀ =>
      (step .sampleServed s₀ (.thread (.loop 0) (.fd (.ok 5)))).bind fun s₁ =>
      (Runs.run (step .sampleServed) s₁ (loopActs [.fd (.error eAgain), .none])).bind fun s =>
      (step .sampleServed s (.thread (.loop 0) .none)).bind fun s' =>
      (Runs.run (step .sampleServed) s' (loopActs [.call (.send sampleConn [1])])).bind fun s₂ =>
      (step .sampleServed s₂ (.thread (.loop 0) (.write (.accepted 1)))).map fun s₃ =>
        (((s.conns sampleConn).state, (s'.conns sampleConn).state,
            invoked (Cfg.sampleServed.slots true) sampleConn s (.thread (.loop 0) .none) s'),
          (s₂.stack (.loop 0), decide (s₂.SendWrites sampleConn)),
          (scheduled sampleConn s₂ (.thread (.loop 0) (.write (.accepted 1))) s₃,
            invoked (Cfg.sampleServed.slots true) sampleConn s₂
              (.thread (.loop 0) (.write (.accepted 1))) s₃))) =
      some ((.connecting, .connected, [.connStatus]), ([.api (.send sampleConn [1]),
        .user (some sampleConn), .taskDone (.connectEstablished sampleConn), .loopPoll 0], true),
        (0, [])) := by
    decide +kernel
  obtain ⟨s₀, hs₀, hrun⟩ := Option.bind_eq_some_iff.1 hrun
  obtain ⟨s₁, hs₁, hrun⟩ := Option.bind_eq_some_iff.1 hrun
  obtain ⟨s, hs, hrun⟩ := Option.bind_eq_some_iff.1 hrun
  obtain ⟨s', hs', hrun⟩ := Option.bind_eq_some_iff.1 hrun
  obtain ⟨s₂, hs₂, hrun⟩ := Option.bind_eq_some_iff.1 hrun
  obtain ⟨s₃, hs₃, hx⟩ := Option.map_eq_some_iff.1 hrun
  simp only [Prod.mk.injEq, decide_eq_true_eq] at hx
  obtain ⟨⟨hst, hst', hcalls⟩, ⟨hstack, hw⟩, hsched, hcalls'⟩ := hx
  exact ⟨s₀, s₁, s, s', s₂, s₃, hs₀, hs₁, hs, hs', ⟨by rw [hst]; nofun, hst'⟩, hcalls, hs₂, hs₃,
    .direct (m := [1]) (.direct hstack (.send rfl) hw), hsched, hcalls'⟩

end Liang.Net

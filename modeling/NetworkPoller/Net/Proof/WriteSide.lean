import NetworkPoller.Net.Proof.Moves

/-!
# Write interest, and what is written after a shutdown

Two invariants of the port of a connection, each kept by every move a step makes. `Port.Interested`
gives `write_interest`. `Port.Shut` holds in the runs in which no message follows a shutdown
(`SendsEarly`) and gives `no_write_after_shutdown`; `write_after_shutdown` is a run outside them.
`step_writes` and `writes_input` say that the steps named there (`Act.Writes`) are those that use the
result of a `::write`.
-/

namespace Liang.Net

open Base TcpConnection EpollPoller

variable {cfg : Cfg} {d : Discipline} {s s' : Sys} {t : Tid} {c c' : ConnId} {gs : List Frame}
  {inp : Input} {l : LoopId} {e : Enters}

/-! ## Write interest -/

/-- The channel asks for write events only if there is something to write. -/
def Port.Interested (a : Port) : Prop :=
  a.state ≠ .disconnected → a.wrapped = false → a.writing = true → a.buffer.readable ≠ []

theorem PortStep.interested {a b : Port} (h : a.Interested) (hwf : a.wrapped = false → a.buffer.Wf)
    (hs : PortStep e a b) : b.Interested := by
  cases hs with
  | same => exact h
  | move hst => exact fun hd => h fun hd' => hd (hst hd')
  | close => exact fun hd => absurd rfl hd
  | append he hst hm =>
    intro _ hwr _
    obtain ⟨hwr0, hlt⟩ := Bool.or_eq_false_iff.1 hwr
    obtain ⟨-, hread, -⟩ := Buffer.append_spec (hwf hwr0) (Nat.lt_of_not_le (of_decide_eq_false hlt))
    rw [hread]
    exact fun hnil => hm (List.append_eq_nil_iff.1 hnil).2
  | @drain n hw hn =>
    intro _ hwr hw'
    obtain ⟨hwf', -⟩ := Buffer.clearReadIndex_spec (hwf hwr) n
    rw [ne_eq, ← readable_nil_iff hwf', ← isEmpty_iff]
    simpa using hw'
  | shut he hw =>
    intro _ _ hw'
    rw [show a.writing = true from hw'] at hw
    cases hw

theorem PortMove.interested {a b : Port} (h : a.Interested) (hwf : a.wrapped = false → a.buffer.Wf)
    (hs : PortMove e a b) : b.Interested := by
  cases hs with
  | work hs => exact hs.interested h hwf
  | queue hk => exact h
  | @take _ ks _ hq hs => exact PortStep.interested (a := { a with tasks := ks }) h hwf hs

theorem interested_reach {P : Sys → Act → Prop} (h : Runs.Reach (step cfg) P (Sys.init cfg) s)
    (c : ConnId) : (s.port c).Interested := by
  have h0 : ((Sys.init cfg).port c).Interested := fun _ _ hw => by
    simp [Sys.port, Conn.port, Sys.chan, Sys.init, EpollPoller.init, EventChannel.isWriting,
      Event.noneEventFlag] at hw
  refine h.inv (I := fun s => (s.port c).Interested) h0 fun s a s' hr hi _ hs => ?_
  exact (step_port (Inv.any hr) hs c).interested hi fun hw => (flows_reach hr c hw).1

theorem PortStep.writing_of_shut {a b : Port} (hs : PortStep e a b) (h : b.shutWr ≠ a.shutWr) :
    a.writing = false := by
  cases hs with
  | shut he hw => exact hw
  | same | move | close | append | drain => exact absurd rfl h

/-- `ShutdownWrite` is called when the channel does not ask for write events. -/
theorem PortMove.writing_of_shut {a b : Port} (hs : PortMove e a b) (h : b.shutWr ≠ a.shutWr) :
    a.writing = false := by
  cases hs with
  | work hs => exact hs.writing_of_shut h
  | queue hk => exact absurd rfl h
  | take hq hs => exact hs.writing_of_shut h

/-- **Write interest tracks pending output.** In every run, as long as `write_buffer_`'s indices
have not reached `2 ^ 32`, a connection that is `CONNECTED` or `DISCONNECTING` asks for write events
exactly if `write_buffer_` holds bytes; so pending output has `EPOLLOUT` in the mask, and a step that
calls `ShutdownWrite` finds the buffer empty. -/
theorem write_interest (h : Runs.Reach (step cfg) (fun _ _ => True) (Sys.init cfg) s) (c : ConnId)
    (hst : (s.conns c).state = .connected ∨ (s.conns c).state = .disconnecting)
    (hw : (s.conns c).wrapped = false) :
    ((s.chan c).isWriting = true ↔ (s.conns c).writeBuffer.readable ≠ []) ∧
      ((s.conns c).writeBuffer.readable ≠ [] → (s.chan c).events &&& pollOut ≠ 0) ∧
      ∀ a s', step cfg s a = some s' → (s'.conns c).shutWr ≠ (s.conns c).shutWr →
        (s.conns c).writeBuffer.readable = [] := by
  have hst' : (s.conns c).state ≠ .disconnected := by
    rcases hst with hst | hst <;> rw [hst] <;> nofun
  have hempty : (s.chan c).isWriting = false → (s.conns c).writeBuffer.readable = [] :=
    ((flows_reach h c hw).2 hst').2
  have hback : (s.conns c).writeBuffer.readable ≠ [] → (s.chan c).isWriting = true := fun hne => by
    cases hwr : (s.chan c).isWriting with
    | true => rfl
    | false => exact absurd (hempty hwr) hne
  refine ⟨⟨interested_reach h c hst' hw, hback⟩, fun hne => ?_, fun a s' hs hsh => hempty ?_⟩
  · rw [BitVec.and_comm]
    exact bne_iff_ne.1 (hback hne)
  · exact (step_port (Inv.any h) hs c).writing_of_shut hsh

theorem write_interest_sample :
    ∃ s, Runs.run (step .sample) (Sys.init .sample) sampleSends = some s ∧
      (s.conns sampleConn).writeBuffer.readable = [3, 4] ∧
      (s.chan sampleConn).isWriting = true := by
  have hrun : (Runs.run (step .sample) (Sys.init .sample) sampleSends).map
      (fun s => ((s.conns sampleConn).writeBuffer.readable, (s.conns sampleConn).state,
        (s.conns sampleConn).wrapped)) = some ([3, 4], .connected, false) := by decide +kernel
  obtain ⟨s, hs, hx, hr⟩ := Runs.Reach.of_map _ hrun
    (Runs.admits_of_forall (fun _ _ => trivial) _ _)
  simp only [Prod.mk.injEq] at hx
  obtain ⟨hb, hst, hw⟩ := hx
  exact ⟨s, hs, hb, (write_interest hr sampleConn (.inl hst) hw).1.2 (by rw [hb]; nofun)⟩

/-! ## Which steps write -/

/-- Given the result of a `::write`, the function waits for something else or would do the same
without it. -/
def NoWrite (g : Input → Res) : Prop :=
  (∀ w, g (.write w) = .disabled) ∨ ∀ inp inp', g inp = g inp'

namespace NoWrite

variable {g g' : Input → Res} {p : Prop} [Decidable p]

theorem disabled (h : ∀ w, g (.write w) = .disabled) : NoWrite g := .inl h

theorem const (x : Res) : NoWrite fun _ => x := .inr fun _ _ => rfl

theorem ite (h : p → NoWrite g) (h' : ¬ p → NoWrite g') :
    NoWrite fun inp => if p then g inp else g' inp := by
  by_cases hp : p
  · simpa only [if_pos hp] using h hp
  · simpa only [if_neg hp] using h' hp

theorem assert {a : Assert} (h : NoWrite g) : NoWrite fun inp => .assert p a (g inp) :=
  ite (fun _ => h) fun _ => const _

theorem followedBy (hs : List Frame) (h : NoWrite g) : NoWrite fun inp => (g inp).followedBy hs := by
  rcases h with h | h
  · exact .inl fun w => congrArg (·.followedBy hs) (h w)
  · exact .inr fun inp inp' => congrArg (·.followedBy hs) (h inp inp')

end NoWrite

theorem writeHandler_noWrite (h : (s.chan c).isWriting ≠ true) :
    NoWrite fun inp => writeHandler cfg t c inp s :=
  .assert (.ite (fun hw => absurd hw h) fun _ => .const _)

theorem sendInLoop_noWrite {T : Tid} {m : Msg} (h : ¬ s.SendWrites c) :
    NoWrite fun inp => sendInLoop cfg t c T m inp s := by
  refine .assert (.ite (fun _ => .const _) fun hd => .ite (fun hw => absurd ?_ h) fun _ => .const _)
  rw [Sys.updConn_self] at hd hw
  exact ⟨hd, hw⟩

theorem startInLoop_noWrite {k : ClientId} :
    NoWrite fun inp => TcpConnector.startInLoop cfg t k inp s :=
  .assert (.assert (.disabled fun _ => rfl))

theorem task_noWrite {k : Task} (h : ∀ c T m, k = .sendInLoop c T m → ¬ s.SendWrites c) :
    NoWrite fun inp => k.run cfg t inp s := by
  cases k with
  | sendInLoop c T m => exact sendInLoop_noWrite (h c T m rfl)
  | connectorStart k => exact startInLoop_noWrite
  | _ => exact .const _

theorem api_noWrite {a : Api} (h : ∀ c m, a = .send c m → t = .loop c.loop → ¬ s.SendWrites c) :
    NoWrite fun inp => a.run cfg t inp s := by
  cases a with
  | send c m =>
    refine .ite (fun ht => sendInLoop_noWrite fun hw => h c m rfl ht ?_) fun _ => .const _
    rwa [Sys.SendWrites, Sys.updConn_self] at hw
  | disconnect k =>
    simp only [Api.run, TcpClient.disconnect]
    split
    · exact .disabled fun _ => rfl
    · exact .const _
  | shutdown | forceClose | start | connect => exact .disabled fun _ => rfl
  | _ => exact .const _

theorem exec_noWrite {f : Frame} {r : List Frame} (hI : Inv cfg d s) (hs : s.stack t = f :: r)
    (h : ∀ c, ¬ (Act.thread t inp).Writes s c) : NoWrite fun inp => exec cfg t inp s f := by
  simp only [Act.Writes, hs] at h
  cases f with
  | writeHandler c => exact writeHandler_noWrite fun hw => h c ⟨rfl, hw⟩
  | api a =>
    refine api_noWrite fun c m ha ht hw => ?_
    subst ha
    exact h c ⟨rfl, ht, hw⟩
  | loopTasks l =>
    simp only [exec]
    cases hq : s.queue l with
    | nil => exact .const _
    | cons k ks =>
      refine .followedBy _ (task_noWrite fun c T m hk hw => h c ?_)
      subst hk
      simp only [hq]
      exact ⟨trivial, hw⟩
  | runInLoop l k =>
    refine .ite (fun _ => task_noWrite fun c T m hk => ?_) fun _ => .const _
    rcases (hI.sound.loop_thread hs).2 with rfl | ⟨j, rfl⟩ <;> cases hk
  | connectorRun k => exact .ite (fun _ => startInLoop_noWrite) fun _ => .const _
  | loopPoll | acceptHandle => exact .assert (.disabled fun _ => rfl)
  | user | forceCloseAgain | readHandler | reAccept | reOpen | writeEventRest =>
    exact .disabled fun _ => rfl
  | _ => exact .const _

/-- **The result of a `::write` is used by the steps that write.** A step that is given one writes to
the socket of a connection, or it would be the same step whatever it is given. -/
theorem step_writes {w : WriteRes} (hI : Inv cfg d s)
    (h : step cfg s (.thread t (.write w)) = some s') :
    (∃ c, (Act.thread t (.write w)).Writes s c) ∨
      ∀ inp, step cfg s (.thread t inp) = some s' := by
  by_cases hw : ∃ c, (Act.thread t (.write w)).Writes s c
  · exact .inl hw
  · refine .inr fun inp => ?_
    rw [← h]
    cases hs : s.stack t with
    | nil => simp only [step, hs]
    | cons f r =>
      rcases exec_noWrite hI hs (not_exists.1 hw) with hx | hx
      · rcases step_at hs h with ⟨gs, s₁, hok, -⟩ | ⟨e, hfail, -⟩
        · exact absurd ((hx w).symm.trans hok) (by simp)
        · exact absurd ((hx w).symm.trans hfail) (by simp)
      · have hx' : exec cfg t inp s f = exec cfg t (.write w) s f := hx inp (.write w)
        simp only [step, hs, hx']

theorem Res.ne_disabled {x : Res} {hs : List Frame} (h : x.followedBy hs ≠ .disabled) :
    x ≠ .disabled := by
  rintro rfl
  exact h rfl

theorem writeHandler_input (hw : (s.chan c).isWriting = true)
    (h : writeHandler cfg (.loop c.loop) c inp s ≠ .disabled) : ∃ w, inp = .write w := by
  simp only [writeHandler, Res.assert, if_true, hw] at h
  split at h
  · exact ⟨_, rfl⟩
  · exact ⟨_, rfl⟩
  · exact absurd rfl h

theorem sendInLoop_input {T : Tid} {m : Msg} (hw : s.SendWrites c)
    (h : sendInLoop cfg (.loop c.loop) c T m inp s ≠ .disabled) : ∃ w, inp = .write w := by
  simp only [sendInLoop, Res.assert, if_true, Sys.updConn_self, if_neg hw.1] at h
  split at h
  · split at h
    · exact ⟨_, rfl⟩
    · exact ⟨_, rfl⟩
    · exact absurd rfl h
  · rename_i he
    exact absurd hw.2 he

/-- A frame that writes waits for the result. -/
theorem exec_input {f : Frame} {r : List Frame} (hI : Inv cfg d s) (hs : s.stack t = f :: r)
    (hw : (Act.thread t inp).Writes s c) (h : exec cfg t inp s f ≠ .disabled) :
    ∃ w, inp = .write w := by
  have hh := hI.sound.loop_thread hs
  simp only [Act.Writes, hs] at hw
  cases f with
  | writeHandler c' =>
    obtain ⟨rfl, hw⟩ := hw
    obtain rfl : t = .loop c'.loop := hh
    exact writeHandler_input hw h
  | api a =>
    cases a with
    | send c' m =>
      obtain ⟨rfl, rfl, hw⟩ := hw
      simp only [exec, Api.run, send, if_true] at h
      refine sendInLoop_input (s := s.updConn c' _) ?_ h
      rwa [Sys.SendWrites, Sys.updConn_self]
    | _ => exact hw.elim
  | loopTasks l =>
    obtain rfl : t = .loop l := hh
    cases hq : s.queue l with
    | nil => simp [hq] at hw
    | cons k ks =>
      simp only [exec, hq] at hw h
      cases k with
      | sendInLoop c' T m =>
        obtain ⟨rfl, hw⟩ := hw
        have hmem : Task.sendInLoop c' T m ∈ s.queue l := hq ▸ List.mem_cons_self
        obtain rfl := (hI.sound.tasks l _ hmem).home.1
        exact sendInLoop_input (s := s.dequeue _ _ _ ks) hw (Res.ne_disabled h)
      | _ => exact hw.elim
  | _ => exact hw.elim

/-- A step that writes is given the result of a `::write`. -/
theorem writes_input {a : Act} (hI : Inv cfg d s) (hw : a.Writes s c)
    (h : step cfg s a = some s') : ∃ t w, a = .thread t (.write w) := by
  cases a with
  | destroy | openFd | closeFd => exact hw.elim
  | thread t inp =>
    cases hs : s.stack t with
    | nil => simp [Act.Writes, hs] at hw
    | cons f r =>
      obtain ⟨w, rfl⟩ : ∃ w, inp = .write w := by
        refine exec_input hI hs hw ?_
        rcases step_at hs h with ⟨gs, s₁, hok, -⟩ | ⟨e, hfail, -⟩
        · simp [hok]
        · simp [hfail]
      exact ⟨t, w, rfl⟩

/-! ## After `ShutdownWrite` -/

/-- A connection that is being shut down, or was, is `DISCONNECTING` or `DISCONNECTED`. -/
def Cell.Ending (a : Cell) : Prop :=
  a.conn.closer ≠ none ∨ a.conn.shutWr ≠ [] →
    a.conn.Est ∧ (a.conn.state = .disconnecting ∨ a.conn.state = .disconnected)

namespace Cell.Ending

variable {a b : Cell}

theorem of_same (h : a.Ending) (hc : b.conn.closer = a.conn.closer)
    (hs : b.conn.shutWr = a.conn.shutWr) (he : a.conn.Est → b.conn.Est)
    (hst : b.conn.state = a.conn.state) : b.Ending := by
  intro hl
  rw [hc, hs] at hl
  exact ⟨he (h hl).1, hst ▸ (h hl).2⟩

theorem enter {w : Bool} {T : Tid} {m : Msg} {x : Conn} (h : a.Ending)
    (hx : Enter w T m x b.conn) (hxa : x.closer = a.conn.closer ∧ x.shutWr = a.conn.shutWr ∧
      x.trace = a.conn.trace ∧ x.state = a.conn.state) : b.Ending := by
  obtain ⟨-, -, hc, hs⟩ := hx.history
  obtain ⟨htr, -, hst⟩ := hx.same
  exact h.of_same (hc.trans hxa.1) (hs.trans hxa.2.1)
    (fun he => by rw [Conn.Est, htr, hxa.2.2.1]; exact he) (hst.trans hxa.2.2.2)

theorem step (h : a.Ending) (hs : CellStep d t c a b) : b.Ending := by
  cases hs with
  | create hp hq hx =>
    obtain ⟨cm, cw, cs, rfl⟩ := hx
    exact fun hl => absurd hl (by simp)
  | establish hn hd hst => exact fun hl => absurd (h hl).1 hn
  | conn he hx =>
    cases hx with
    | misc | drain => exact h.of_same rfl rfl id rfl
    | msg => exact h.of_same rfl rfl (List.mem_append_left _) rfl
    | send ht hen => exact h.enter hen ⟨rfl, rfl, rfl, rfl⟩
    | shut hst hw ho => exact fun _ => ⟨he, .inl hst⟩
    | shutdown | forceClose => exact fun _ => ⟨he, .inl rfl⟩
  | events | sendQueued | shutQueued => exact h.of_same rfl rfl id rfl
  | sendTaken he hT hq hx => exact h.enter hx ⟨rfl, rfl, rfl, rfl⟩
  | sendFailed he hT hq hst hn =>
    exact fun _ => ⟨List.mem_append_left _ (List.mem_append_left _ he), .inr rfl⟩
  | shutTaken he hq hz hx =>
    rcases hx with rfl | ⟨-, rfl⟩
    · exact h.of_same rfl rfl id rfl
    · exact fun _ => h (.inl hz)
  | close he hc hst =>
    exact fun _ => ⟨List.mem_append_left _ (List.mem_append_left _ he), .inr rfl⟩
  | closeCb | unlink | destroyed => exact h.of_same rfl rfl (List.mem_append_left _) rfl

end Cell.Ending

theorem ending_reach {P : Sys → Act → Prop} (h : Runs.Reach (step cfg) P (Sys.init cfg) s)
    (c : ConnId) : (s.cell c).Ending :=
  Cell.reach (d := .any) (I := Cell.Ending) (fun hl => absurd hl (by simp))
    (fun _ _ _ h hs => h.step hs) (fun _ _ _ _ _ _ _ => Discipline.any_allows) h

/-- No message waits. -/
def NoSends (ks : List Task) : Prop := ∀ k ∈ ks, k.isSend = false

/-- The messages wait in front of the shutdown. -/
def SendsFirst : List Task → Prop
  | [] => True
  | k :: ks => (k.isSend = false → NoSends ks) ∧ SendsFirst ks

theorem SendsFirst.of_sends : ∀ {ks : List Task}, (∀ k ∈ ks, k.isSend = true) → SendsFirst ks
  | [], _ => trivial
  | k :: ks, h => by
    refine ⟨fun hk => ?_, of_sends fun k' hk' => h k' (List.mem_cons_of_mem _ hk')⟩
    rw [h k List.mem_cons_self] at hk
    cases hk

/-- A shutdown is queued. -/
theorem SendsFirst.snoc {k : Task} (hk : k.isSend = false) :
    ∀ {ks : List Task}, SendsFirst ks → SendsFirst (ks ++ [k])
  | [], _ => ⟨fun _ => nofun, trivial⟩
  | _ :: ks, ⟨h, hs⟩ => ⟨fun hk' j hj => by
      rcases List.mem_append.1 hj with hj | hj
      · exact h hk' j hj
      · rwa [List.mem_singleton.1 hj], hs.snoc hk⟩

/-- After `ShutdownWrite`: the channel does not ask for write events, and no message waits for a
connection that would still write it. -/
structure Port.Shut (a : Port) : Prop where
  quiet : a.shutWr ≠ [] → a.writing = false
  none : a.shutWr ≠ [] → a.state ≠ .disconnected → NoSends a.tasks
  order : a.state ≠ .disconnected → SendsFirst a.tasks

theorem PortStep.port_shut {a b : Port} (h : a.Shut)
    (hsend : e.send → a.state ≠ .disconnected → a.shutWr = [])
    (hshut : e.shut → a.writing = false → a.state ≠ .disconnected → NoSends a.tasks)
    (hs : PortStep e a b) : b.Shut := by
  cases hs with
  | same => exact h
  | move hst =>
    exact ⟨h.quiet, fun hsh hd => h.none hsh fun hd' => hd (hst hd'),
      fun hd => h.order fun hd' => hd (hst hd')⟩
  | close => exact ⟨fun _ => rfl, fun _ hd => absurd rfl hd, fun hd => absurd rfl hd⟩
  | append he hst hm =>
    have hnil := hsend he hst
    exact ⟨fun hsh => absurd hnil hsh, fun hsh => absurd hnil hsh, h.order⟩
  | drain hw hn =>
    have hnil : a.shutWr = [] := by
      by_contra hsh
      rw [h.quiet hsh] at hw
      cases hw
    exact ⟨fun hsh => absurd hnil hsh, fun hsh => absurd hnil hsh, h.order⟩
  | shut he hw => exact ⟨fun _ => hw, fun _ hd => hshut he hw hd, h.order⟩

theorem PortMove.port_shut {a b : Port} (h : a.Shut)
    (hearly : a.state = .connecting ∨ a.state = .connected →
      a.shutWr = [] ∧ ∀ k ∈ a.tasks, k.isSend = true)
    (hsend : e.send → a.state ≠ .disconnecting)
    (hshut : e.shut → a.writing = false → NoSends a.tasks) (hs : PortMove e a b) : b.Shut := by
  have hopen : e.send → a.state ≠ .disconnected → a.state = .connecting ∨ a.state = .connected := by
    intro he hd
    have hne := hsend he
    cases hst : a.state with
    | connecting => exact .inl rfl
    | connected => exact .inr rfl
    | disconnecting => exact absurd hst hne
    | disconnected => exact absurd hst hd
  cases hs with
  | work hs => exact hs.port_shut h (fun he hd => (hearly (hopen he hd)).1) fun he hw _ => hshut he hw
  | @queue k hk =>
    cases hks : k.isSend with
    | true =>
      -- nothing was shut down, and no shutdown waits
      have hf := fun hd => hearly (hopen (hk hks) hd)
      refine ⟨h.quiet, fun hsh hd => absurd (hf hd).1 hsh, fun hd => .of_sends fun j hj => ?_⟩
      rcases List.mem_append.1 hj with hj | hj
      · exact (hf hd).2 j hj
      · rwa [List.mem_singleton.1 hj]
    | false =>
      refine ⟨h.quiet, fun hsh hd j hj => ?_, fun hd => (h.order hd).snoc hks⟩
      rcases List.mem_append.1 hj with hj | hj
      · exact h.none hsh hd j hj
      · rwa [List.mem_singleton.1 hj]
  | @take k ks b hq hs =>
    have h₀ : Port.Shut { a with tasks := ks } := by
      refine ⟨h.quiet, fun hsh hd j hj => h.none hsh hd j (hq ▸ List.mem_cons_of_mem _ hj),
        fun hd => ?_⟩
      have hord := h.order hd
      rw [hq] at hord
      exact hord.2
    refine PortStep.port_shut h₀ (fun hk hd => ?_) (fun hk _ hd => ?_) hs
    · by_contra hsh
      have := h.none hsh hd k (hq ▸ List.mem_cons_self)
      rw [show k.isSend = true from hk] at this
      cases this
    · have hord := h.order hd
      rw [hq] at hord
      exact hord.1 hk

theorem SendsEarly.send {a : Act} (h : SendsEarly s a) (he : (a.enters s c).send) :
    (s.conns c).state ≠ .disconnecting := by
  cases a with
  | thread t inp =>
    cases hst : s.stack t with
    | nil => simp [Act.enters, hst] at he
    | cons f r =>
      simp only [Act.enters, hst] at he
      simp only [SendsEarly, hst] at h
      cases f with
      | api a =>
        cases a with
        | send c' m =>
          obtain rfl : c' = c := he
          exact h
        | _ => exact he.elim
      | _ => exact he.elim
  | destroy | openFd | closeFd => exact he.elim

theorem SendsEarly.shut {a : Act} (h : SendsEarly s a) (he : (a.enters s c).shut)
    (hw : (s.chan c).isWriting = false) : NoSends (s.outputs c) := by
  cases a with
  | thread t inp =>
    cases hst : s.stack t with
    | nil => simp [Act.enters, hst] at he
    | cons f r =>
      simp only [Act.enters, hst] at he
      simp only [SendsEarly, hst] at h
      obtain ⟨rfl, hdis⟩ := he
      exact h hdis hw
  | destroy | openFd | closeFd => exact he.elim

/-- A connection that is not being shut down has no shutdown behind it, or before it. -/
theorem early_reach {P : Sys → Act → Prop} (h : Runs.Reach (step cfg) P (Sys.init cfg) s)
    (hst : (s.conns c).state = .connecting ∨ (s.conns c).state = .connected) :
    (s.conns c).shutWr = [] ∧ ∀ k ∈ s.outputs c, k.isSend = true := by
  have hend : ¬ ((s.conns c).closer ≠ none ∨ (s.conns c).shutWr ≠ []) := fun hl => by
    have hend := (ending_reach h c hl).2
    rw [show (s.cell c).conn = s.conns c from rfl] at hend
    rcases hst with hst | hst <;> rw [hst] at hend <;> rcases hend with hend | hend <;> cases hend
  rw [not_or, not_not, not_not] at hend
  refine ⟨hend.2, fun k hk => ?_⟩
  obtain ⟨hk, hout⟩ := List.mem_filter.1 hk
  cases k with
  | sendInLoop => rfl
  | shutdownInLoop c' =>
    obtain rfl : c' = c := of_decide_eq_true hout
    exact absurd hend.1 (((Inv.any h).sound.tasks _ _ hk).shut c' rfl)
  | _ => cases hout

theorem shut_reach (h : Runs.Reach (step cfg) SendsEarly (Sys.init cfg) s) (c : ConnId) :
    (s.port c).Shut := by
  refine h.inv (I := fun s => (s.port c).Shut) ⟨fun h => absurd rfl h, fun h => absurd rfl h,
    fun _ => trivial⟩ fun s a s' hr hi hp hs => ?_
  exact (step_port (Inv.any hr) hs c).port_shut hi (early_reach hr) hp.send hp.shut

/-- **No write after shutdown.** In a run in which `Send` is called on no `DISCONNECTING` connection
and `WriteHandler` does not shut a socket down ahead of a message in the queue, a step that calls
`Write` on a socket is made before `ShutdownWrite` was called on it. -/
theorem no_write_after_shutdown (h : Runs.Reach (step cfg) SendsEarly (Sys.init cfg) s) (c : ConnId)
    {a : Act} (hp : SendsEarly s a) (hw : a.Writes s c) : (s.conns c).shutWr = [] := by
  have hS := (Inv.any h).sound
  have hshut := shut_reach h c
  by_contra hsh
  cases a with
  | destroy | openFd | closeFd => exact hw
  | thread t inp =>
    simp only [Act.Writes] at hw
    split at hw
    · -- `WriteHandler`
      have hq := hshut.quiet hsh
      rw [show (s.port c).writing = true from hw.2] at hq
      cases hq
    · -- `Send` on the loop's thread
      rename_i hst
      obtain ⟨rfl, -, hd, -⟩ := hw
      simp only [SendsEarly, hst] at hp
      rcases (ending_reach h _ (.inr hsh)).2 with h' | h'
      · exact hp h'
      · exact hd h'
    · -- a message from the queue
      split at hw
      · rename_i _ l _ hst _ _ T m ks hq
        obtain ⟨rfl, hd, -⟩ := hw
        have hmem : Task.sendInLoop _ T m ∈ s.queue l := hq ▸ List.mem_cons_self
        obtain rfl := (hS.tasks l _ hmem).home.1
        have := hshut.none hsh hd _ (List.mem_filter.2 ⟨hmem, decide_eq_true rfl⟩)
        cases this
      · exact hw
    · exact hw

/-- The message of `sampleShutdown` is about to be written; `Shutdown` has been called. -/
def sampleWrite : List Act :=
  sampleStart ++
  [.thread (.user 7) (.call (.send sampleConn [1, 2])), .thread (.user 7) .none,
    .thread (.user 7) (.call (.shutdown sampleConn)), .thread (.user 7) (.cas false),
    .thread (.user 7) .none] ++
  loopActs [.poll [], .none]

theorem no_write_after_shutdown_sample :
    ∃ s, Runs.run (step .sample) (Sys.init .sample) sampleWrite = some s ∧
      (s.conns sampleConn).state = .disconnecting ∧
      Act.Writes s sampleConn (.thread (.loop 0) (.write (.accepted 2))) ∧
      (s.conns sampleConn).shutWr = [] := by
  have hrun : (Runs.run (step .sample) (Sys.init .sample) sampleWrite).map
      (fun s => ((s.conns sampleConn).state,
        decide (Act.Writes s sampleConn (.thread (.loop 0) (.write (.accepted 2)))),
        decide (SendsEarly s (.thread (.loop 0) (.write (.accepted 2)))))) =
      some (.disconnecting, true, true) := by decide +kernel
  obtain ⟨s, hs, hx, hr⟩ := Runs.Reach.of_map _ hrun (P := SendsEarly) (by decide +kernel)
  simp only [Prod.mk.injEq, decide_eq_true_eq] at hx
  obtain ⟨hst, hw, hp⟩ := hx
  exact ⟨s, hs, hst, hw, no_write_after_shutdown hr sampleConn hp hw⟩

/-- A user's thread shuts the connection down and sends a message after it. -/
def lateSendRun : List Act :=
  sampleStart ++
  [.thread (.user 7) (.call (.shutdown sampleConn)), .thread (.user 7) (.cas false),
    .thread (.user 7) .none,
    .thread (.user 7) (.call (.send sampleConn [1])), .thread (.user 7) .none] ++
  loopActs [.poll [], .none, .none, .none, .poll [], .none]

/-- `SendInLoop` writes to a socket that has been shut down; the write fails with `EPIPE`. -/
theorem write_after_shutdown :
    ∃ s, Runs.run (step .sample) (Sys.init .sample) lateSendRun = some s ∧
      (s.conns sampleConn).shutWr = [⟨.disconnecting, [], []⟩] ∧
      Act.Writes s sampleConn (.thread (.loop 0) (.write (.error ePipe))) ∧
      (step .sample s (.thread (.loop 0) (.write (.error ePipe)))).isSome := by
  have hrun : (Runs.run (step .sample) (Sys.init .sample) lateSendRun).map
      (fun s => ((s.conns sampleConn).shutWr,
        decide (Act.Writes s sampleConn (.thread (.loop 0) (.write (.error ePipe)))),
        (step .sample s (.thread (.loop 0) (.write (.error ePipe)))).isSome)) =
      some ([⟨.disconnecting, [], []⟩], true, true) := by decide +kernel
  obtain ⟨s, hs, hx⟩ := Option.map_eq_some_iff.1 hrun
  simp only [Prod.mk.injEq, decide_eq_true_eq] at hx
  exact ⟨s, hs, hx⟩

end Liang.Net

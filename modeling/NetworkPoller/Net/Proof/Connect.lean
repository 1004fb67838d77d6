import NetworkPoller.Net.Proof.Attempts

/-!
# How `StartInLoop` judges `connect`

`StartInLoop` switches on `errno` whether `connect` has failed or not, and a `connect` that succeeds
leaves `errno` as it was. `Sys.Judged` is the outcome that the result of the call asks for;
`connect_judged` says when it is the outcome there is.
-/

namespace Liang.Net

open EpollPoller

variable {cfg : Cfg} {s s' s₁ : Sys} {t : Tid} {k : ClientId} {sock : Option Fd} {err : Option Nat}
  {stale : Nat}

/-! ## The channel -/

section

variable {p p' : EpollPoller ChanId} {i : ChanId}

/-- A channel that is new is registered where its descriptor has no other. -/
theorem enableWriting_new (cfg : Cfg) (hst : (p.chan i).status = .newChannel) :
    (∃ p', p.enableWriting (ChanId.fd cfg) i = .ok p') ↔ p.evtChannelList (i.fd cfg) = none := by
  unfold enableWriting setEvents updateEventChannel
  simp only [Function.update_self, hst]
  split
  · rename_i hl
    refine ⟨?_, fun h => absurd h hl⟩
    rintro ⟨p', h⟩
    cases h
  · rename_i hl
    exact ⟨fun _ => not_not.1 hl, fun _ => ⟨_, rfl⟩⟩

theorem enableWriting_registers (hb : Book (ChanId.fd cfg) p) (hst : (p.chan i).status = .newChannel)
    (h : p.enableWriting (ChanId.fd cfg) i = .ok p') :
    p'.evtChannelList (i.fd cfg) = some i ∧ p'.interest (i.fd cfg) = some (i, (p'.chan i).events) ∧
      (p'.chan i).isWriting = true := by
  have hl : p.evtChannelList (i.fd cfg) = none := (enableWriting_new cfg hst).1 ⟨p', h⟩
  have hk : p.interest (i.fd cfg) = none := hb.interest_none (.inl hl) (by rw [hst]; decide)
  have hw := isWriting_enabled h
  rcases setEvents_cases h with ⟨st, -, -, rfl⟩ | ⟨ha, -⟩ | ⟨ha, -⟩
  · refine ⟨by simp, ?_, hw⟩
    rw [updateEpollCtrl_add]
    · exact Function.update_self ..
    · exact hk
  · rw [hst] at ha
    cases ha
  · rw [hst] at ha
    cases ha

end

theorem channelOp_of_ok {l : LoopId} {op : EpollPoller ChanId → Except PollerAssert (EpollPoller ChanId)}
    {p : EpollPoller ChanId} (h : op (s.pollers l) = .ok p) :
    s.channelOp (.loop l) l op = .ok (s.setPoller l p) := by
  simp [Sys.channelOp, h]

/-! ## The outcome -/

/-- `connect` has returned 0 (`none`), or has failed with an error after which the attempt goes on. -/
def connects : Option Nat → Bool
  | none => true
  | some e => e == eInProgress || e == eIntr || e == eIsConn

theorem goesOn_eq (e : Nat) : TcpConnector.goesOn e = (e == 0 || connects (some e)) := by
  simp [TcpConnector.goesOn, connects, Bool.or_assoc]

/-- The connector keeps the socket, with a channel registered for write interest. -/
structure Sys.KeepsSocket (cfg : Cfg) (k : ClientId) (fd : Fd) (s : Sys) : Prop where
  isOpen : s.fds fd = some (.connector k)
  registered : ∃ n, (s.clients k).channel = some (n, fd) ∧
    (s.pollers (cfg.clientLoop k)).evtChannelList fd = some (.connector k n fd) ∧
    (s.pollers (cfg.clientLoop k)).interest fd = some (.connector k n fd,
      ((s.pollers (cfg.clientLoop k)).chan (.connector k n fd)).events) ∧
    ((s.pollers (cfg.clientLoop k)).chan (.connector k n fd)).isWriting = true

/-- The socket is closed, if there is one, and nothing is registered. -/
structure Sys.DropsSocket (k : ClientId) (sock : Option Fd) (s : Sys) : Prop where
  isClosed : ∀ fd, sock = some fd → s.fds fd = none
  unregistered : s.NoChannel k

/-- What the result `err` of `connect` asks for. -/
def Sys.Judged (cfg : Cfg) (k : ClientId) (sock : Option Fd) (err : Option Nat) (s : Sys) : Prop :=
  if connects err then ∃ fd, sock = some fd ∧ s.KeepsSocket cfg k fd else s.DropsSocket k sock

/-- The state `StartInLoop` runs in. -/
structure Sys.Ready (cfg : Cfg) (k : ClientId) (s : Sys) : Prop where
  connecting : (s.clients k).state = .connecting
  book : (s.pollers (cfg.clientLoop k)).Book (ChanId.fd cfg)
  fresh : ∀ n fd, ((s.pollers (cfg.clientLoop k)).chan (.connector k n fd)).status = .newChannel
  noChannel : s.NoChannel k

/-- Closing a descriptor and a change of the client register nothing. -/
theorem noChannel_closeFd {fd : Fd} {u : FdUse} {f : Client → Client} (h : s.NoChannel k) :
    ((((s.openFd fd u).closeFd fd).updClient k f)).NoChannel k := by
  rintro n fd' ⟨l, hl | ⟨m, x, hx⟩ | ha⟩
  · exact h n fd' ⟨l, .inl hl⟩
  · change Function.update (s.pollers l).interest fd none m = _ at hx
    by_cases hm : m = fd
    · rw [hm, Function.update_self] at hx
      cases hx
    · rw [Function.update_of_ne hm] at hx
      exact h n fd' ⟨l, .inr (.inl ⟨m, x, hx⟩)⟩
  · exact h n fd' ⟨l, .inr (.inr ha)⟩

theorem keepsSocket_started {fd : Fd} {n : Nat} {p : EpollPoller ChanId} (h : s.Ready cfg k)
    (hp : (s.pollers (cfg.clientLoop k)).enableWriting (ChanId.fd cfg) (.connector k n fd) = .ok p) :
    (((s.openFd fd (.connector k)).updClient k fun x =>
      { x with attempts := n + 1, channel := some (n, fd), phase := .polling n fd }).setPoller
        (cfg.clientLoop k) p).KeepsSocket cfg k fd := by
  obtain ⟨hl, hk, hw⟩ := enableWriting_registers h.book (h.fresh n fd) hp
  refine ⟨Function.update_self .., n, ?_, ?_⟩
  · show (Function.update s.clients k _ k).channel = _
    rw [Function.update_self]
  · rw [Sys.setPoller_self]
    exact ⟨hl, hk, hw⟩

/-- `errno` is that of the call: it was harmless before a `connect` that succeeds, a failure sets it,
and the number of a socket that is kept has no channel left from before. -/
structure Sys.JudgesWell (cfg : Cfg) (k : ClientId) (sock : Option Fd) (err : Option Nat) (stale : Nat)
    (s : Sys) : Prop where
  harmless : err = none → TcpConnector.goesOn stale = true
  set : err ≠ some 0
  free : connects err = true → ∀ fd, sock = some fd →
    (s.pollers (cfg.clientLoop k)).evtChannelList fd = none

/-- What `StartInLoop` looks at agrees with the result of `connect`. -/
theorem Sys.JudgesWell.goesOn_eq (h : s.JudgesWell cfg k sock err stale) :
    TcpConnector.goesOn (err.getD stale) = connects err := by
  cases err with
  | none => exact h.harmless rfl
  | some e =>
    have he : (e == 0) = false := beq_false_of_ne fun he => h.set (by rw [he])
    show TcpConnector.goesOn e = _
    rw [Net.goesOn_eq, he, Bool.false_or]

theorem judgesWell_of (hg : TcpConnector.goesOn (err.getD stale) = connects err)
    (hfree : connects err = true → ∀ fd, sock = some fd →
      (s.pollers (cfg.clientLoop k)).evtChannelList fd = none) :
    s.JudgesWell cfg k sock err stale := by
  refine ⟨fun he => ?_, fun he => ?_, hfree⟩
  · subst he
    exact hg
  · subst he
    cases hg

/-- `StartInLoop` returns unless the channel of the socket cannot be registered. -/
theorem startInLoop_returns {fd : Fd} (h : s.Ready cfg k) (hf : s.fds fd = none) :
    (∃ s', TcpConnector.startInLoop cfg (.loop (cfg.clientLoop k)) k (.connect (some fd) err stale) s =
      .ok s' []) ↔ (TcpConnector.goesOn (err.getD stale) = true →
        (s.pollers (cfg.clientLoop k)).evtChannelList fd = none) := by
  simp only [TcpConnector.startInLoop, Res.assert, h.connecting, hf, if_true]
  split
  · rename_i hg
    have hnew := enableWriting_new cfg (h.fresh (s.clients k).attempts fd)
    rw [show (TcpConnector.goesOn (err.getD stale) = true → _) ↔ _ from ⟨fun hl => hl hg, fun hl _ => hl⟩]
    refine Iff.trans ?_ hnew
    constructor
    · rintro ⟨s', hx⟩
      obtain ⟨s₁, hop, -⟩ := Res.bind_ok hx
      obtain ⟨-, p, hp, -⟩ := channelOp_ok hop
      exact ⟨p, hp⟩
    · rintro ⟨p, hp⟩
      rw [channelOp_of_ok (p := p) hp]
      exact ⟨_, rfl⟩
  · rename_i hg
    exact ⟨fun _ hg' => absurd hg' hg, fun _ => ⟨_, rfl⟩⟩

theorem Started.judged {fd : Fd} (h : s.Ready cfg k)
    (hst : Started cfg k s (.connect (some fd) err stale) s') :
    s'.Judged cfg k (some fd) err ↔ TcpConnector.goesOn (err.getD stale) = connects err := by
  unfold Sys.Judged
  cases hst with
  | polling hf hg hn ho =>
    have hk := keepsSocket_started h ho
    rw [hg]
    split
    · rename_i hc
      exact ⟨fun _ => hc.symm, fun _ => ⟨fd, rfl, hk⟩⟩
    · rename_i hc
      refine ⟨fun hd => ?_, fun hc' => absurd hc'.symm hc⟩
      have ho := hk.isOpen
      rw [hd.isClosed fd rfl] at ho
      cases ho
  | closed hf hg =>
    have hcl : Function.update (Function.update s.fds fd (some (.connector k))) fd none fd = none :=
      Function.update_self ..
    rw [hg]
    split
    · rename_i hc
      rw [hc]
      refine ⟨?_, nofun⟩
      rintro ⟨fd', hfd, hk⟩
      cases hfd
      cases hcl.symm.trans hk.isOpen
    · rename_i hc
      refine ⟨fun _ => (Bool.not_eq_true _ ▸ hc).symm, fun _ => ⟨fun fd' hfd => ?_, ?_⟩⟩
      · cases hfd
        exact hcl
      · exact noChannel_closeFd h.noChannel

/-- `StartInLoop` does what the result of `connect` asks for exactly if `errno` is that of the call. -/
theorem startInLoop_judged (h : s.Ready cfg k)
    (hen : TcpConnector.startInLoop cfg (.loop (cfg.clientLoop k)) k (.connect sock err stale) s ≠
      .disabled) :
    (∃ s', TcpConnector.startInLoop cfg (.loop (cfg.clientLoop k)) k (.connect sock err stale) s =
      .ok s' [] ∧ s'.Judged cfg k sock err) ↔ s.JudgesWell cfg k sock err stale := by
  cases sock with
  | none =>
    simp only [TcpConnector.startInLoop, Res.assert, h.connecting, if_true] at hen ⊢
    by_cases he : err = some eBadf
    · subst he
      refine ⟨fun _ => judgesWell_of rfl (by simp), fun _ => ⟨_, if_pos rfl, ?_⟩⟩
      exact ⟨by simp, h.noChannel⟩
    · exact absurd (if_neg he) hen
  | some fd =>
    have hf : s.fds fd = none := by
      by_contra hf
      simp [TcpConnector.startInLoop, Res.assert, h.connecting, hf] at hen
    refine ⟨?_, fun hj => ?_⟩
    · rintro ⟨s', hx, hj⟩
      have hg := ((startInLoop_ok hx).2.2.judged h).1 hj
      refine judgesWell_of hg fun hc fd' hfd => ?_
      cases hfd
      exact (startInLoop_returns h hf).1 ⟨s', hx⟩ (hg.trans hc)
    · obtain ⟨s', hx⟩ := (startInLoop_returns h hf).2 fun hg =>
        hj.free (hj.goesOn_eq.symm.trans hg) fd rfl
      exact ⟨s', hx, ((startInLoop_ok hx).2.2.judged h).2 hj.goesOn_eq⟩

/-! ## Runs -/

/-- The next step of `t` runs `StartInLoop`: in `Start` on the connector's own loop, or from the
queue. -/
def Sys.StartsInLoop (cfg : Cfg) (k : ClientId) (t : Tid) (s : Sys) : Prop :=
  t = .loop (cfg.clientLoop k) ∧ ((∃ r, s.stack t = .connectorRun k :: r) ∨
    ∃ l r ks, s.stack t = .loopTasks l :: r ∧ s.queue l = .connectorStart k :: ks)

theorem ready_of_starts {P : Sys → Act → Prop} (h : Runs.Reach (step cfg) P (Sys.init cfg) s)
    (hs : s.StartsInLoop cfg k t) : s.Ready cfg k := by
  have hI := Inv.any h
  have hO := pursuit_reach h k
  obtain ⟨hp, hu, ha⟩ : (s.clients k).phase ≠ .idle ∧ (s.pursuit cfg k).Unregistered ∧
      (s.pursuit cfg k).active = 0 := by
    rcases hs.2 with ⟨r, hs⟩ | ⟨l, r, ks, -, hq⟩
    · obtain ⟨hp, -, hu, ha⟩ := phase_of_run hO (t := t) (hs ▸ List.mem_cons_self)
      exact ⟨by rw [hp]; nofun, hu, ha⟩
    · obtain ⟨hp, -, hu, ha⟩ := phase_of_startTask hI.sound hO hq
      exact ⟨by rw [hp]; nofun, hu, ha⟩
  refine ⟨?_, hI.sound.books _, fun n fd => not_not.1 (hu n fd), noChannel_of hI.sound hu ha⟩
  exact (begun_reach h k).elim (fun hb => absurd hb.2 hp) And.left

theorem Sys.Judged.push {fs : List Frame} :
    (s.push t fs).Judged cfg k sock err ↔ s.Judged cfg k sock err := by
  unfold Sys.Judged
  split
  · exact ⟨fun ⟨fd, hfd, h⟩ => ⟨fd, hfd, h.1, h.2⟩, fun ⟨fd, hfd, h⟩ => ⟨fd, hfd, h.1, h.2⟩⟩
  · exact ⟨fun h => ⟨h.1, h.2⟩, fun h => ⟨h.1, h.2⟩⟩

theorem Res.followedBy_nil (x : Res) : x.followedBy [] = x := by
  cases x <;> simp [Res.followedBy]

theorem Started.failed {inp : Input} (h : Started cfg k s inp s') : s'.failed = s.failed := by
  cases h <;> rfl

/-- What the frame of a step does, where it runs `StartInLoop` in `s₁`. -/
theorem step_judged {f : Frame} {r q : List Frame} (hR : s₁.Ready cfg k)
    (hstep : step cfg s (.thread (.loop (cfg.clientLoop k)) (.connect sock err stale)) = some s')
    (hfail : s₁.failed = s.failed) (hst : s.stack (.loop (cfg.clientLoop k)) = f :: r)
    (hf : exec cfg (.loop (cfg.clientLoop k)) (.connect sock err stale) s f =
      (TcpConnector.startInLoop cfg (.loop (cfg.clientLoop k)) k (.connect sock err stale) s₁).followedBy q) :
    s'.failed = none ∧ s'.Judged cfg k sock err ↔ s₁.JudgesWell cfg k sock err stale := by
  have hok : s.failed = none := by
    by_contra hne
    simp [step, hne] at hstep
  simp only [step, hok, hst, hf, ne_eq, not_true_eq_false, if_false] at hstep
  rw [← startInLoop_judged hR fun hd => by rw [hd] at hstep; cases hstep]
  cases hx : TcpConnector.startInLoop cfg (.loop (cfg.clientLoop k)) k (.connect sock err stale) s₁ with
  | disabled => rw [hx] at hstep; cases hstep
  | fail e =>
    rw [hx] at hstep
    cases hstep
    refine ⟨fun h => ?_, ?_⟩
    · cases h.1
    · rintro ⟨s₂, he, -⟩
      cases he
  | ok s₂ gs =>
    rw [hx] at hstep
    cases hstep
    obtain ⟨-, rfl, hst'⟩ := startInLoop_ok hx
    rw [Sys.Judged.push]
    refine ⟨fun h => ⟨s₂, rfl, h.2⟩, ?_⟩
    rintro ⟨s₃, he, hj⟩
    cases he
    exact ⟨(hst'.failed.trans hfail).trans hok, hj⟩

/-- **When the result of `connect` is judged by the call.** In every state of a run in which
`StartInLoop` runs, for every `errno` left before and every outcome of `connect`: the socket is kept,
with a channel registered for write interest, if `connect` returned 0 or failed with `EINPROGRESS`,
`EINTR` or `EISCONN`, and is closed with nothing registered otherwise, exactly if `errno` was
harmless before a `connect` that succeeds, a failing `connect` sets it, and the socket's number has no
other channel in the poller. -/
theorem connect_judged (h : Runs.Reach (step cfg) (fun _ _ => True) (Sys.init cfg) s)
    (hs : s.StartsInLoop cfg k t)
    (hstep : step cfg s (.thread t (.connect sock err stale)) = some s') :
    s'.failed = none ∧ s'.Judged cfg k sock err ↔ s.JudgesWell cfg k sock err stale := by
  have hR := ready_of_starts h hs
  obtain ⟨rfl, hs⟩ := hs
  rcases hs with ⟨r, hs⟩ | ⟨l, r, ks, hs, hq⟩
  · refine step_judged (q := []) hR hstep rfl hs ?_
    show TcpConnector.startRest _ _ _ _ _ = _
    rw [TcpConnector.startRest, if_pos rfl, Res.followedBy_nil]
  · obtain rfl : l = cfg.clientLoop k :=
      ((Inv.any h).sound.tasks l (.connectorStart k) (hq ▸ List.mem_cons_self)).home
    have hR' : (s.dequeue (.loop (cfg.clientLoop k)) (cfg.clientLoop k) (.connectorStart k) ks).Ready
        cfg k := ⟨hR.1, hR.2, hR.3, hR.4⟩
    refine (step_judged (q := [.taskDone (.connectorStart k), .loopPoll (cfg.clientLoop k)]) hR' hstep rfl
      hs ?_).trans ⟨fun h => ⟨h.1, h.2, h.3⟩, fun h => ⟨h.1, h.2, h.3⟩⟩
    simp only [exec, hq, Task.run]

/-- A client connects; `StartInLoop` is in front of the queue. -/
def sampleConnecting : List Act :=
  [.thread (.loop 0) .ret, .thread (.user 7) (.call (.connect 0)), .thread (.user 7) (.cas false),
    .thread (.user 7) .none] ++ loopActs [.poll [], .none]

theorem connect_judged_sample :
    ∃ s s', Runs.run (step .sample) (Sys.init .sample) sampleConnecting = some s ∧
      step .sample s (.thread (.loop 0) (.connect (some 5) (some eInProgress) eAgain)) = some s' ∧
      s'.failed = none ∧ s'.KeepsSocket .sample 0 5 := by
  have hrun : ((Runs.run (step .sample) (Sys.init .sample) sampleConnecting).bind fun s =>
      (step .sample s (.thread (.loop 0) (.connect (some 5) (some eInProgress) eAgain))).map fun _ =>
        (s.stack (.loop 0), s.queue 0, (s.pollers 0).evtChannelList 5)) =
      some ([.loopTasks 0], [.connectorStart 0], none) := by decide +kernel
  obtain ⟨s, hs, hrun⟩ := Option.bind_eq_some_iff.1 hrun
  obtain ⟨s', hs', hx⟩ := Option.map_eq_some_iff.1 hrun
  simp only [Prod.mk.injEq] at hx
  obtain ⟨hstack, hq, hfree⟩ := hx
  have hr : Runs.Reach (step .sample) (fun _ _ => True) (Sys.init .sample) s :=
    .of_run _ hs (Runs.admits_of_forall (fun _ _ => trivial) _ _)
  have hwell : s.JudgesWell .sample 0 (some 5) (some eInProgress) eAgain :=
    judgesWell_of (by decide) fun _ fd hfd => by cases hfd; exact hfree
  obtain ⟨hok, hj⟩ := (connect_judged hr ⟨rfl, .inr ⟨0, [], [], hstack, hq⟩⟩ hs').2 hwell
  obtain ⟨fd, hfd, hk⟩ : ∃ fd, some 5 = some fd ∧ s'.KeepsSocket .sample 0 fd := hj
  cases hfd
  exact ⟨s, s', hs, hs', hok, hk⟩

/-- `connect` succeeds, but an earlier call has left `EAGAIN` in `errno`: the socket is closed. -/
theorem connect_misjudged :
    ∃ s s', Runs.run (step .sample) (Sys.init .sample) sampleConnecting = some s ∧
      s.stack (.loop 0) = [.loopTasks 0] ∧ s.queue 0 = [.connectorStart 0] ∧
      step .sample s (.thread (.loop 0) (.connect (some 5) none eAgain)) = some s' ∧
      s'.fds 5 = none ∧ (s'.clients 0).channel = none ∧ (s'.pollers 0).evtChannelList 5 = none ∧
      ¬ s'.Judged .sample 0 (some 5) none := by
  have hrun : ((Runs.run (step .sample) (Sys.init .sample) sampleConnecting).bind fun s =>
      (step .sample s (.thread (.loop 0) (.connect (some 5) none eAgain))).map fun s' =>
        (s.stack (.loop 0), s.queue 0, (s'.fds 5).isNone, (s'.clients 0).channel.isNone,
          ((s'.pollers 0).evtChannelList 5).isNone)) =
      some ([.loopTasks 0], [.connectorStart 0], true, true, true) := by decide +kernel
  obtain ⟨s, hs, hrun⟩ := Option.bind_eq_some_iff.1 hrun
  obtain ⟨s', hs', hx⟩ := Option.map_eq_some_iff.1 hrun
  simp only [Prod.mk.injEq, Option.isNone_iff_eq_none] at hx
  obtain ⟨hstack, hq, hfd, hch, hl⟩ := hx
  refine ⟨s, s', hs, hstack, hq, hs', hfd, hch, hl, fun hj => ?_⟩
  obtain ⟨fd, he, hk⟩ : ∃ fd, some 5 = some fd ∧ s'.KeepsSocket .sample 0 fd := hj
  cases he
  cases hfd.symm.trans hk.isOpen

end Liang.Net

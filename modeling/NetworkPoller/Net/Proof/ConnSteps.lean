import NetworkPoller.Net.Proof.Life

/-!
# The effects of the functions of `TcpConnection`

`Inv` collects the invariants of every run, `Discipline.Allows` says when a step keeps the
discipline. One lemma for each function says which effects it has when it succeeds.
-/

namespace Liang.Net

open Base TcpConnection EpollPoller

/-- The invariants of every run. -/
structure Inv (cfg : Cfg) (d : Discipline) (s : Sys) : Prop where
  sound : Sound cfg d s
  shape : Shape s
  life : ∀ c, (s.ledger cfg c).Ok

/-- Every effect keeps them. -/
theorem Inv.effect {cfg : Cfg} {d : Discipline} {t : Tid} {s s' : Sys} (h : Inv cfg d s)
    (he : Effect cfg d t s s') : Inv cfg d s' :=
  ⟨h.sound.effect he, h.shape.effect h.sound he, fun c => (he.ledger h.sound (h.life c)).ok (h.life c)⟩

/-- The step of `t` with the top frame `f` keeps the discipline. -/
def Discipline.AllowsFrame (cfg : Cfg) (d : Discipline) (s : Sys) (inp : Input) : Frame → Prop
  | .user _ => ∀ c, inp = .call (.startRead c) → d.reads
  | .loopTasks l => ∀ c ks, s.queue l = .startReadInLoop c :: ks → d.reads → s.Closed c → d.rearms
  | .closeHandler c => s.Closed c → d.recloses
  | .readHandler c => ∀ bytes, inp = .read (.data bytes) → s.Closed c → d.recloses
  | .writeHandlerRest c => (s.conns c).state = .disconnecting → (s.chan c).isWriting = false →
      (s.conns c).CloserEntered ∨ d.overtakes
  | .closeIdle => (s.Harmless cfg.idleFd ∨ d.steals) ∧
      ((∀ k, s.fds cfg.idleFd ≠ some (.connector k)) ∨ d.strips)
  | .writeEventRest _ fd => ∀ e, inp = .soError e → e ≠ 0 → s.Harmless fd ∨ d.steals
  | _ => True

/-- The step keeps the discipline. -/
def Discipline.Allows (cfg : Cfg) (d : Discipline) (s : Sys) : Act → Prop
  | .thread t inp => ∀ f r, s.stack t = f :: r → d.AllowsFrame cfg s inp f
  | .destroy c => (s.Unreached c ∨ d.dangles) ∧ (s.SoleOn c ∨ d.steals)
  | .openFd _ | .closeFd _ => True

variable {cfg : Cfg} {d : Discipline} {s s' s₁ : Sys} {t : Tid} {c : ConnId} {r gs : List Frame}
  {inp : Input}

/-! ## Results -/

theorem Res.assert_ok {p : Prop} [Decidable p] {a : Assert} {x : Res}
    (h : Res.assert p a x = .ok s' gs) : p ∧ x = .ok s' gs := by
  unfold Res.assert at h
  split at h
  · exact ⟨‹p›, h⟩
  · cases h

theorem Res.bind_ok {e : Except Assert Sys} {k : Sys → Res} (h : Res.bind e k = .ok s' gs) :
    ∃ s₁, e = .ok s₁ ∧ k s₁ = .ok s' gs := by
  cases e with
  | ok s₁ => exact ⟨s₁, rfl, h⟩
  | error a => cases h

theorem Res.followedBy_ok {x : Res} {hs : List Frame} (h : x.followedBy hs = .ok s' gs) :
    ∃ gs', x = .ok s' gs' ∧ gs = gs' ++ hs := by
  cases x with
  | ok s₁ gs' => cases h; exact ⟨gs', rfl, rfl⟩
  | disabled => cases h
  | fail a => cases h

theorem channelOp_ok {l : LoopId}
    {op : EpollPoller ChanId → Except PollerAssert (EpollPoller ChanId)}
    (h : s.channelOp t l op = .ok s₁) :
    t = .loop l ∧ ∃ p, op (s.pollers l) = .ok p ∧ s₁ = s.setPoller l p := by
  unfold Sys.channelOp at h
  split at h
  · cases h
  · rename_i ht
    split at h
    · rename_i p hp
      cases h
      exact ⟨not_not.1 ht, p, hp, rfl⟩
    · cases h

theorem removeFromLoop_ok {i : ChanId} (h : s.removeFromLoop cfg t i = .ok s₁) :
    t = .loop (i.loop cfg) ∧ ∃ p,
      (s.pollers (i.loop cfg)).removeEventChannel (ChanId.fd cfg) i = .ok p ∧
        s₁ = s.setPoller (i.loop cfg) p := by
  unfold Sys.removeFromLoop at h
  split at h
  · cases h
  · split at h
    · cases h
    · exact channelOp_ok h

/-! ## The end of a frame -/

/-- Stacks are the same, and what was live is. -/
theorem Rest.mono (h : Rest d s t r) (hst : s₁.stack = s.stack)
    (hV : (s.view d).Le (s₁.view d)) : Rest d s₁ t r := by
  cases h with
  | frame hs hf => exact .frame (by rw [hst, hs]) hf
  | task hs hk => exact .task (by rw [hst, hs]) fun c hc => hV.live c (hk c hc)

theorem View.Le.refl (V : View) : V.Le V := ⟨fun _ => id, fun _ => id⟩

theorem Effects.finish (hr : Rest d s t r) (hg : ∀ g ∈ gs, g.light = true ∧
      g.Fits cfg d (s.view d) t ∧
      (g.isHandler = true → (∃ l, .loopDispatch l ∈ r) ∧ s.Handling t g.about)) :
    Effects cfg d t s (s.push t (gs ++ r)) := .single (.finish hr hg)

theorem Effects.done (hr : Rest d s t r) : Effects cfg d t s (s.push t ([] ++ r)) :=
  Effects.finish hr fun _ hg => absurd hg List.not_mem_nil

/-- A callback of the user's is called. -/
theorem Effects.callback (hr : Rest d s t r) (hl : s.Live d c) :
    Effects cfg d t s (s.push t ([.user (some c)] ++ r)) :=
  Effects.finish hr fun g hg => by
    rw [List.mem_singleton.1 hg]
    exact ⟨rfl, .user hl, nofun⟩

/-! ## Masks -/

theorem writing_enableWriting (e : Mask) :
    Event.writeEventFlag &&& (e ||| Event.writeEventFlag) ≠ 0 := by
  rw [BitVec.or_comm, BitVec.and_or_distrib_left, BitVec.and_self]
  intro h
  have h' : Event.writeEventFlag = 0 := by
    rw [← BitVec.and_self (x := Event.writeEventFlag)]
    exact (BitVec.or_eq_zero_iff.1 h).1
  exact absurd h' (by decide)

theorem writing_disableWriting (e : Mask) :
    Event.writeEventFlag &&& (e &&& ~~~Event.writeEventFlag) = 0 := by
  rw [BitVec.and_comm e, ← BitVec.and_assoc,
    show Event.writeEventFlag &&& ~~~Event.writeEventFlag = 0#32 by decide, BitVec.zero_and]
  rfl

theorem writing_enableReading (e : Mask) :
    Event.writeEventFlag &&& (e ||| Event.readEventFlag) = Event.writeEventFlag &&& e := by
  rw [BitVec.and_or_distrib_left,
    show Event.writeEventFlag &&& Event.readEventFlag = 0#32 by decide, BitVec.or_zero]

theorem writing_disableReading (e : Mask) :
    Event.writeEventFlag &&& (e &&& ~~~Event.readEventFlag) = Event.writeEventFlag &&& e := by
  rw [BitVec.and_comm e, ← BitVec.and_assoc,
    show Event.writeEventFlag &&& ~~~Event.readEventFlag = Event.writeEventFlag by decide]

/-! ## Connections -/

theorem statusFrames_congr (h : (s₁.conns c).statusCb = (s.conns c).statusCb) :
    statusFrames c s₁ = statusFrames c s := by
  unfold statusFrames
  rw [h]

theorem statusFrames_updConn {f : Conn → Conn}
    (hf : (f (s.conns c)).statusCb = (s.conns c).statusCb) :
    statusFrames c (s.updConn c f) = statusFrames c s :=
  statusFrames_congr (by rw [Sys.updConn_self, hf])

theorem closeHandler_ok (h : closeHandler cfg t c s = .ok s' gs) :
    t = .loop c.loop ∧ ∃ p, (s.pollers c.loop).disableAll (ChanId.fd cfg) (.conn c) = .ok p ∧
      s' = s.closeConn c p ∧ gs = statusFrames c s ++ [.closeCb c] := by
  obtain ⟨ht, h⟩ := Res.assert_ok h
  obtain ⟨s₁, h1, h⟩ := Res.bind_ok h
  obtain ⟨-, p, hp, rfl⟩ := channelOp_ok h1
  cases h
  refine ⟨ht, p, hp, rfl, ?_⟩
  rw [statusFrames_congr (s := s)]
  simp [Sys.setPoller, Sys.note, setState, Sys.updConn]

theorem closeHandler_effects (hr : Rest d s t r) (hl : s.Live d c)
    (hc : s.Closed c → d.recloses ∧ s.Handling t (some c)) (h : closeHandler cfg t c s = .ok s' gs) :
    Effects cfg d t s (s'.push t (gs ++ r)) := by
  obtain ⟨ht, p, hp, rfl, rfl⟩ := closeHandler_ok h
  rw [List.append_assoc]
  exact .single (.close hr hl ht hc hp)

theorem Effects.conn {x' : Conn} (hl : s.Live d c)
    (h : ConnStep d t c (s.chan c).isWriting (s.conns c) x') :
    Effects cfg d t s (s.updConn c fun _ => x') := .single (.conn hl h)

/-- A step of the connection changes neither a stack nor what is live. -/
theorem Rest.updConn {x' : Conn} (hr : Rest d s t r)
    (h : ConnStep d t c (s.chan c).isWriting (s.conns c) x') :
    Rest d (s.updConn c fun _ => x') t r := hr.mono rfl (view_updConn h.grows.1 h.grows.2)

theorem Live.updConn {x' : Conn} (hl : s.Live d c)
    (h : ConnStep d t c (s.chan c).isWriting (s.conns c) x') :
    (s.updConn c fun _ => x').Live d c := (view_updConn h.grows.1 h.grows.2).live c hl

theorem readFromFD_nonneg {b : Buffer} {x : ReadRes} (h : 0 ≤ (b.readFromFD x).2.1) :
    ∃ bytes, x = .data bytes := by
  cases x with
  | data bytes => exact ⟨bytes, rfl⟩
  | error e => simp [Buffer.readFromFD] at h

theorem readHandler_effects (hs : s.stack t = .readHandler c :: r) (hl : s.Live d c)
    (hd : (∃ l, .loopDispatch l ∈ r) ∧ s.Handling t (some c)) {x : ReadRes}
    (hc : ∀ bytes, x = .data bytes → s.Closed c → d.recloses)
    (h : readHandler cfg t c x s = .ok s' gs) : Effects cfg d t s (s'.push t (gs ++ r)) := by
  obtain ⟨ht, h⟩ := Res.assert_ok h
  split at h
  · generalize hb : (s.conns c).readBuffer.readFromFD x = res at h
    obtain ⟨b, len, err⟩ := res
    have hx : ConnStep d t c (s.chan c).isWriting (s.conns c)
        { s.conns c with readBuffer := b } :=
      .misc b _ _ _ _ _
    have hr := (Rest.frame (d := d) hs rfl).updConn hx
    have hl' := Live.updConn hl hx
    have hcl : (s.updConn c fun _ => { s.conns c with readBuffer := b }).Closed c → 0 ≤ len →
        d.recloses := by
      intro hcl hlen
      obtain ⟨bytes, rfl⟩ := readFromFD_nonneg (b := (s.conns c).readBuffer) (x := x) (by rwa [hb])
      rw [Sys.Closed, Sys.updConn_self] at hcl
      exact hc bytes rfl hcl
    refine (Effects.conn hl hx).trans ?_
    dsimp only at h
    split at h
    · rename_i hpos
      split at h
      · cases h
        have hm : ConnStep d t c (s.chan c).isWriting
            ((s.updConn c fun _ => { s.conns c with readBuffer := b }).conns c) _ :=
          .msg fun hcl' => hcl hcl' (Int.le_of_lt hpos)
        refine (Effects.conn hl' hm).trans (Effects.finish (hr.updConn hm) fun g hg => ?_)
        have hl'' := Live.updConn hl' hm
        simp only [List.mem_cons, List.not_mem_nil, or_false] at hg
        rcases hg with rfl | rfl
        · exact ⟨rfl, .user hl'', nofun⟩
        · exact ⟨rfl, .of ht (fun c' hc' => by cases hc'; exact hl'') nofun nofun, fun _ => hd⟩
      · exact closeHandler_effects hr hl' (fun hcl' => ⟨hcl hcl' (Int.le_of_lt hpos), hd.2⟩) h
    · split at h
      · rename_i hz
        exact closeHandler_effects hr hl' (fun hcl' => ⟨hcl hcl' (Int.le_of_eq hz), hd.2⟩) h
      · split at h
        · cases h
          exact Effects.done hr
        · cases h
          refine Effects.finish hr fun g hg => ?_
          rw [List.mem_singleton.1 hg]
          exact ⟨rfl, .of ht (fun c' hc' => by cases hc'; exact hl') nofun nofun, fun _ => hd⟩
  · cases h

/-- A channel operation of the connection `c`. -/
theorem Effects.events {g : Mask → Mask} {p : EpollPoller ChanId} (ht : t = .loop c.loop)
    (ho : (s.pollers c.loop).setEvents (ChanId.fd cfg) (.conn c) g = .ok p)
    (hi : EventsOk d s g (.conn c)) : Effects cfg d t s (s.setPoller c.loop p) :=
  .single (.events (i := .conn c) ht ho hi)

theorem isWriting_ne_zero {ch : EventChannel} (h : ch.isWriting = true) :
    ch.events ≠ Event.noneEventFlag := by
  intro h0
  rw [EventChannel.isWriting, h0] at h
  exact absurd h (by decide)

theorem isReading_ne_zero {ch : EventChannel} (h : ch.isReading = true) :
    ch.events ≠ Event.noneEventFlag := by
  intro h0
  rw [EventChannel.isReading, h0] at h
  exact absurd h (by decide)

theorem isEmpty_iff {b : Buffer} : b.isEmpty = true ↔ b.readableBytes = 0 := by
  simp [Buffer.isEmpty, Buffer.isReadble]

theorem writeHandler_effects (hs : s.stack t = .writeHandler c :: r) (hl : s.Live d c)
    (hd : (∃ l, .loopDispatch l ∈ r) ∧ s.Handling t (some c)) (h : writeHandler cfg t c inp s = .ok s' gs) :
    Effects cfg d t s (s'.push t (gs ++ r)) := by
  obtain ⟨ht, h⟩ := Res.assert_ok h
  have hr := Rest.frame (d := d) hs rfl
  split at h
  · rename_i hw
    split at h
    · rename_i n _
      split at h
      · rename_i hn
        split at h
        · have hx : ConnStep d t c (s.chan c).isWriting (s.conns c) _ := .drain n hn
          have hr' := hr.updConn hx
          have hl' := Live.updConn hl hx
          refine (Effects.conn hl hx).trans ?_
          dsimp only at h
          split at h
          · rename_i he
            obtain ⟨s₁, h1, h⟩ := Res.bind_ok h
            obtain ⟨-, p, hp, rfl⟩ := channelOp_ok h1
            cases h
            refine (Effects.events ht hp ⟨hl', fun _ h0 => absurd h0 (isWriting_ne_zero hw),
              fun _ _ => isEmpty_iff.1 he⟩).trans ?_
            refine Effects.finish (hr'.mono rfl (.refl _)) fun g hg => ?_
            rcases List.mem_append.1 hg with hg | hg
            · split at hg <;> simp only [List.mem_singleton, List.not_mem_nil] at hg
              subst hg
              exact ⟨rfl, .user hl', nofun⟩
            · rw [List.mem_singleton.1 hg]
              exact ⟨rfl, .of ht (fun c' hc' => by cases hc'; exact hl') nofun nofun, fun _ => hd⟩
          · cases h
            exact Effects.done hr'
        · cases h
          exact Effects.done hr
      · cases h
    · cases h
      exact Effects.done hr
    · cases h
  · cases h
    exact Effects.done hr

theorem shutdownInLoop_ok (h : shutdownInLoop t c s = .ok s' gs) :
    t = .loop c.loop ∧ gs = [] ∧ ((s.chan c).isWriting = true ∧ s' = s ∨
      (s.chan c).isWriting = false ∧ s' = s.updConn c fun _ => (s.conns c).shut) := by
  obtain ⟨ht, h⟩ := Res.assert_ok h
  split at h
  · rename_i hw
    cases h
    exact ⟨ht, rfl, .inl ⟨hw, rfl⟩⟩
  · rename_i hw
    cases h
    exact ⟨ht, rfl, .inr ⟨Bool.eq_false_iff.2 hw, rfl⟩⟩

theorem writeHandlerRest_effects (hs : s.stack t = .writeHandlerRest c :: r) (hl : s.Live d c)
    (ha : (s.conns c).state = .disconnecting → (s.chan c).isWriting = false →
      (s.conns c).CloserEntered ∨ d.overtakes)
    (h : writeHandlerRest t c s = .ok s' gs) : Effects cfg d t s (s'.push t (gs ++ r)) := by
  have hr := Rest.frame (d := d) hs rfl
  unfold writeHandlerRest at h
  split at h
  · rename_i hst
    obtain ⟨-, rfl, ⟨-, rfl⟩ | ⟨hw, rfl⟩⟩ := shutdownInLoop_ok h
    · exact Effects.done hr
    · have hx : ConnStep d t c (s.chan c).isWriting (s.conns c) _ := .shut hst hw (ha hst hw)
      exact (Effects.conn hl hx).trans (Effects.done (hr.updConn hx))
  · cases h
    exact Effects.done hr

theorem not_closed (hb : (s.ledger cfg c).Ok) (hst : (s.conns c).state ≠ .disconnected) :
    ¬ s.Closed c :=
  fun hc => hst (of_decide_eq_true (hb.disc.2 (List.count_pos_iff.2 hc)))

theorem forceCloseInLoop_effects (hb : (s.ledger cfg c).Ok) (hr : Rest d s t r) (hl : s.Live d c)
    (h : forceCloseInLoop cfg t c s = .ok s' gs) : Effects cfg d t s (s'.push t (gs ++ r)) := by
  obtain ⟨-, h⟩ := Res.assert_ok h
  split at h
  · rename_i hst
    refine closeHandler_effects hr hl (fun hc => absurd hc (not_closed hb ?_)) h
    rcases hst with hst | hst <;> rw [hst] <;> nofun
  · cases h
    exact Effects.done hr

theorem startReadInLoop_effects (hr : Rest d s t r) (hl : s.Live d c)
    (hc : s.Closed c → d.rearms) (h : startReadInLoop cfg t c s = .ok s' gs) :
    Effects cfg d t s (s'.push t (gs ++ r)) := by
  obtain ⟨ht, h⟩ := Res.assert_ok h
  split at h
  · cases h
    exact Effects.done hr
  · obtain ⟨s₁, h1, h⟩ := Res.bind_ok h
    obtain ⟨-, p, hp, rfl⟩ := channelOp_ok h1
    cases h
    refine (Effects.events ht hp ⟨hl, fun hcl _ => hc hcl, fun hz hw => ?_⟩).trans
      (Effects.done (hr.mono rfl (.refl _)))
    rw [writing_enableReading] at hz
    simp [EventChannel.isWriting, hz] at hw

theorem stopReadInLoop_effects (hr : Rest d s t r) (hl : s.Live d c)
    (h : stopReadInLoop cfg t c s = .ok s' gs) : Effects cfg d t s (s'.push t (gs ++ r)) := by
  obtain ⟨ht, h⟩ := Res.assert_ok h
  split at h
  · rename_i hrd
    obtain ⟨s₁, h1, h⟩ := Res.bind_ok h
    obtain ⟨-, p, hp, rfl⟩ := channelOp_ok h1
    cases h
    refine (Effects.events ht hp ⟨hl, fun _ h0 => absurd h0 (isReading_ne_zero hrd),
      fun hz hw => ?_⟩).trans (Effects.done (hr.mono rfl (.refl _)))
    rw [writing_disableReading] at hz
    simp [EventChannel.isWriting, hz] at hw
  · cases h
    exact Effects.done hr

/-! ### `Send` -/

/-- What `SendInLoop` queues. -/
inductive Queued (t : Tid) (c : ConnId) (s : Sys) : Sys → Prop
  | nothing : Queued t c s s
  | written : Queued t c s (s.queueInLoop t c.loop (.writtenCb c))
  | highWater (n : Nat) : Queued t c s (s.queueInLoop t c.loop (.highWaterCb c n))

/-- `SendInLoop` asks for write events if it has to. -/
inductive Armed (cfg : Cfg) (t : Tid) (c : ConnId) (s : Sys) : Sys → Prop
  | already : Armed cfg t c s s
  | armed {p : EpollPoller ChanId} (ht : t = .loop c.loop)
      (hst : (s.conns c).state ≠ .disconnected)
      (ho : (s.pollers c.loop).enableWriting (ChanId.fd cfg) (.conn c) = .ok p) :
      Armed cfg t c s (s.setPoller c.loop p)

theorem isWriting_enabled {p p' : EpollPoller ChanId} {i : ChanId}
    (h : p.enableWriting (ChanId.fd cfg) i = .ok p') : (p'.chan i).isWriting = true := by
  rw [EventChannel.isWriting, (setEvents_chan h).1]
  exact bne_iff_ne.2 (writing_enableWriting _)

theorem sendRemaining_ok {m : Msg} (hst : (s.conns c).state ≠ .disconnected)
    (h : sendRemaining cfg t c m s = .ok s' gs) :
    gs = [] ∧ (m = [] ∧ s' = s ∨ ∃ s₁, Armed cfg t c s s₁ ∧ (s₁.chan c).isWriting = true ∧
      Queued t c (s₁.updConn c (append m)) s') := by
  unfold sendRemaining at h
  split at h
  · dsimp only at h
    split at h <;> split at h
    · rename_i hw
      cases h
      exact ⟨rfl, .inr ⟨s, .already, hw, .highWater _⟩⟩
    · obtain ⟨s₁, h1, h⟩ := Res.bind_ok h
      obtain ⟨ht, p, hp, rfl⟩ := channelOp_ok h1
      cases h
      refine ⟨rfl, .inr ⟨s.setPoller c.loop p, .armed ht hst hp, ?_, .highWater _⟩⟩
      rw [Sys.chan, Sys.setPoller_self]
      exact isWriting_enabled hp
    · rename_i hw
      cases h
      exact ⟨rfl, .inr ⟨s, .already, hw, .nothing⟩⟩
    · obtain ⟨s₁, h1, h⟩ := Res.bind_ok h
      obtain ⟨ht, p, hp, rfl⟩ := channelOp_ok h1
      cases h
      refine ⟨rfl, .inr ⟨s.setPoller c.loop p, .armed ht hst hp, ?_, .nothing⟩⟩
      rw [Sys.chan, Sys.setPoller_self]
      exact isWriting_enabled hp
  · rename_i hm
    cases h
    exact ⟨rfl, .inl ⟨by simpa using hm, rfl⟩⟩

theorem updConn_updConn (f g : Conn → Conn) :
    (s.updConn c f).updConn c g = s.updConn c fun x => g (f x) := by
  simp [Sys.updConn]

/-- Changes of the connection that keep its state do not matter to `Armed`. -/
theorem Armed.of_updConn {f : Conn → Conn} (hf : (f (s.conns c)).state = (s.conns c).state)
    (h : Armed cfg t c (s.updConn c f) s₁) :
    ∃ s₂, Armed cfg t c s s₂ ∧ s₁ = s₂.updConn c f := by
  cases h with
  | already => exact ⟨s, .already, rfl⟩
  | armed ht hst ho =>
    rw [Sys.updConn_self, hf] at hst
    exact ⟨_, .armed ht hst ho, rfl⟩

theorem Armed.conns (h : Armed cfg t c s s₁) : s₁.conns = s.conns := by cases h <;> rfl

/-- `SendInLoop` enters the message `m` of `T`, with no fatal error. -/
def Entered (cfg : Cfg) (t : Tid) (c : ConnId) (T : Tid) (m : Msg) (s s' : Sys) : Prop :=
  ∃ s₁ x', Armed cfg t c s s₁ ∧ Enter (s₁.chan c).isWriting T m (s.conns c) x' ∧
    Queued t c (s₁.updConn c fun _ => x') s'

/-- After `n` bytes are written the rest of the message goes to the buffer. -/
theorem sendRemaining_entered {T : Tid} {m : Msg} {n : Nat} (hn : n ≤ m.length)
    (hst : (s.conns c).state ≠ .disconnected)
    (he : n = 0 ∨ (s.conns c).writeBuffer.readableBytes = 0)
    (h : sendRemaining cfg t c (m.drop n) (s.updConn c fun x =>
      { x with entered := x.entered ++ [(T, m)], out := x.out ++ m.take n }) = .ok s' gs) :
    gs = [] ∧ Entered cfg t c T m s s' := by
  obtain ⟨rfl, ⟨hm, rfl⟩ | ⟨s₁, ha, hw, hq⟩⟩ := sendRemaining_ok (by simpa using hst) h
  · refine ⟨rfl, s, _, .already, ?_, .nothing⟩
    have hlen : m.length ≤ n := List.drop_eq_nil_iff.1 hm
    rw [List.take_of_length_le hlen]
    rcases he with rfl | he
    · obtain rfl := List.eq_nil_of_length_eq_zero (Nat.le_zero.1 hlen)
      rw [List.append_nil]
      exact .empty hst rfl
    · exact .written hst he
  · obtain ⟨s₂, ha', rfl⟩ := ha.of_updConn rfl
    rw [updConn_updConn] at hq
    refine ⟨rfl, s₂, _, ha', .kept n hst hn he hw, ?_⟩
    rw [← ha'.conns]
    exact hq

/-- `SendInLoop` enters the message, or the write fails for good and it closes the connection. -/
theorem sendInLoop_ok {T : Tid} {m : Msg} (h : sendInLoop cfg t c T m inp s = .ok s' gs) :
    (gs = [] ∧ Entered cfg t c T m s s') ∨
    ((s.conns c).state ≠ .disconnected ∧ closeHandler cfg t c (s.updConn c fun x =>
      { x with entered := x.entered ++ [(T, m)] }) = .ok s' gs) := by
  obtain ⟨-, h⟩ := Res.assert_ok h
  simp only [Sys.updConn_self] at h
  have hz : (s.updConn c fun x => { x with entered := x.entered ++ [(T, m)] }) =
      s.updConn c fun x => { x with entered := x.entered ++ [(T, m)], out := x.out ++ m.take 0 } := by
    simp
  split at h
  · rename_i hst
    cases h
    exact .inl ⟨rfl, s, _, .already, .dropped hst, .nothing⟩
  · rename_i hst
    split at h
    · rename_i he
      split at h
      · rename_i n _
        split at h
        · rename_i hn
          rw [updConn_updConn] at h
          split at h
          · -- all is written, and `write_complete_cb_` queued
            rename_i hall
            have hm : m.drop n = [] := List.drop_eq_nil_iff.2 (Nat.le_of_eq hall.1.symm)
            rw [hm] at h
            cases h
            refine .inl ⟨rfl, s, _, .already, .written hst he.2, ?_⟩
            rw [List.take_of_length_le (Nat.le_of_eq hall.1.symm)]
            exact .written
          · exact .inl (sendRemaining_entered hn hst (.inr he.2) h)
        · cases h
      · split at h
        · exact .inr ⟨hst, h⟩
        · rw [hz] at h
          exact .inl (sendRemaining_entered (Nat.zero_le _) hst (.inl rfl) h)
      · cases h
    · rw [hz] at h
      exact .inl (sendRemaining_entered (Nat.zero_le _) hst (.inl rfl) h)

theorem Queued.finish (h : Queued t c s s') (hr : Rest d s t r) (hl : s.Live d c) :
    Effects cfg d t s (s'.push t ([] ++ r)) := by
  have hk : ∀ k : Task, k.light = true → k.Home cfg c.loop → k.conn? = some c →
      (∀ c, k ≠ .startReadInLoop c) → (∀ c, k ≠ .shutdownInLoop c) →
      Effects cfg d t s ((s.queueInLoop t c.loop k).push t ([] ++ r)) := by
    intro k hk hh hc hr' hs'
    have hf : k.Fits cfg d (s.view d) c.loop :=
      .of hh (fun c' hc' => by rw [hc] at hc'; cases hc'; exact hl) hr' hs'
    exact (Relation.ReflTransGen.single (.enqueue (.inl hk) hf)).trans
      (Effects.done (hr.mono rfl (.refl _)))
  cases h with
  | nothing => exact Effects.done hr
  | written => exact hk _ rfl rfl rfl nofun nofun
  | highWater n => exact hk _ rfl rfl rfl nofun nofun

theorem Armed.effects (h : Armed cfg t c s s₁) (hb : (s.ledger cfg c).Ok) (hl : s.Live d c) :
    Effects cfg d t s s₁ := by
  cases h with
  | already => exact .refl
  | armed ht hst ho =>
    exact Effects.events ht ho ⟨hl, fun hc => absurd hc (not_closed hb hst),
      fun hz => absurd hz (writing_enableWriting _)⟩

theorem Armed.of_dequeue {l : LoopId} {k : Task} {ks : List Task}
    (h : Armed cfg t c (s.dequeue t l k ks) s₁) :
    ∃ s₂, Armed cfg t c s s₂ ∧ s₁ = s₂.dequeue t l k ks := by
  cases h with
  | already => exact ⟨s, .already, rfl⟩
  | armed ht hst ho => exact ⟨_, .armed ht hst ho, rfl⟩

theorem Armed.rest (h : Armed cfg t c s s₁) :
    s₁.stack = s.stack ∧ s₁.queue = s.queue ∧ s₁.view d = s.view d := by
  cases h <;> exact ⟨rfl, rfl, rfl⟩

/-- `SendInLoop` taken from the queue. -/
theorem sendTask_effects {l : LoopId} {T : Tid} {m : Msg} {ks : List Task} (hB : Inv cfg d s)
    (hs : s.stack t = .loopTasks l :: r) (hq : s.queue l = .sendInLoop c T m :: ks)
    (h : sendInLoop cfg t c T m inp (s.dequeue t l (.sendInLoop c T m) ks) = .ok s' gs) :
    Effects cfg d t s (s'.push t (gs ++ .taskDone (.sendInLoop c T m) :: .loopPoll l :: r)) := by
  have hl := hB.sound.task_live hq rfl nofun
  rcases sendInLoop_ok h with ⟨rfl, s₁, x', ha₁, hx, hqd⟩ | ⟨hst, hcl⟩
  · obtain ⟨s₂, ha, rfl⟩ := ha₁.of_dequeue
    obtain ⟨hst, hqu, hv⟩ := ha.rest (d := d)
    refine (ha.effects (hB.life c) hl).trans (.head (.sendTaken (by rw [hst, hs]) (by rw [hqu, hq])
      (by rw [ha.conns]; exact hx)) ?_)
    have hV : (s.view d).Le (((s₂.dequeue t l (.sendInLoop c T m) ks).updConn c fun _ => x').view d) := by
      rw [← hv]
      refine view_updConn (s := s₂.dequeue t l _ ks) (fun he => ?_) fun hz => ?_
      · rw [Conn.Est, hx.same.1]
        exact hl.1
      · rw [hx.same.2.1]
        rwa [show (s₂.dequeue t l _ ks).conns = s.conns from ha.conns] at hz
    exact hqd.finish (.task (by exact hst ▸ hs) fun c' hc' => by cases hc'; exact hV.live c hl)
      (hV.live c hl)
  · obtain ⟨ht, p, hp, rfl, rfl⟩ := closeHandler_ok hcl
    rw [List.append_assoc, statusFrames_updConn rfl]
    exact .single (.sendFailed hs hq ht hst hp)

/-- `Send` called by user code. -/
theorem send_effects {m : Msg} (hb : (s.ledger cfg c).Ok) (hl : s.Live d c)
    (hr : Rest d s t r) (h : send cfg t c m inp s = .ok s' gs) :
    Effects cfg d t s (s'.push t (gs ++ r)) := by
  unfold send at h
  dsimp only at h
  split at h
  · rename_i ht
    rcases sendInLoop_ok h with ⟨rfl, s₁, x', ha₁, hx, hqd⟩ | ⟨hst, hcl⟩
    · obtain ⟨s₂, ha, rfl⟩ := ha₁.of_updConn rfl
      rw [updConn_updConn] at hqd
      obtain ⟨hst, hqu, hv⟩ := ha.rest (d := d)
      have hl₂ : s₂.Live d c := by
        have : (s₂.view d).live c := by rw [hv]; exact hl
        exact this
      have hx' : ConnStep d t c (s₂.chan c).isWriting (s₂.conns c) x' := by
        rw [ha.conns]
        rw [Sys.updConn_self] at hx
        exact .send ht hx
      refine (ha.effects hb hl).trans ((Effects.conn hl₂ hx').trans ?_)
      exact hqd.finish ((hr.mono hst (hv ▸ .refl _)).updConn hx') (Live.updConn hl₂ hx')
    · -- the connection is closed, and the message counts as dropped
      rw [updConn_updConn] at hcl
      obtain ⟨-, p, hp, rfl, rfl⟩ := closeHandler_ok hcl
      rw [List.append_assoc, statusFrames_updConn rfl]
      rw [Sys.updConn_self] at hst
      have hx : ConnStep d t c ((s.closeConn c p).chan c).isWriting ((s.closeConn c p).conns c) _ :=
        .send (m := m) ht (.dropped (by rw [Sys.closeConn_self]))
      have hl' : (Sys.push (s.closeConn c p) t (statusFrames c s ++ .closeCb c :: r)).Live d c :=
        (view_closeConn p).live c hl
      have : Effects cfg d t s _ := .head
        (.close hr hl ht (fun hc => absurd hc (not_closed hb hst)) hp) (Effects.conn hl' hx)
      convert this using 1
      simp [Sys.closeConn, Sys.push, Sys.updConn, Sys.note, noteStatus, setState, Sys.setPoller]
  · rename_i ht
    cases h
    refine .head (.sendQueued (m := m) hl ht) (Effects.done (hr.mono rfl ?_))
    exact view_updConn (f := fun x => { x with sent := x.sent ++ [(t, m)] }) id id

end Liang.Net

import NetworkPoller.Net.Proof.Attempts
import NetworkPoller.Net.Proof.Table

/-!
# Who owns a connection, and its number

`Owned`: the number of every connection that exists is open as this connection's, that of a socket a
connector has in hand as the connector's, and a client's connection that is not removed is its
`connection_`. A connection without a reference has therefore been removed; then `ConnectDestoryed`
has run, and the reactor does not reach its channel (`unreached_of`). This needs that the numbers
are not closed behind their owners' backs, which `AcceptHandle` does (`channel_dangles`);
`destroyed_unreachable` is about the runs in which it does not.
-/

namespace Liang.Net

open Base TcpConnection EpollPoller

variable {cfg : Cfg} {d : Discipline} {s s' : Sys} {t : Tid} {c : ConnId} {k : ClientId}

/-- The connector has the socket in hand. -/
def Client.InHand (x : Client) (fd : Fd) : Prop :=
  (∃ n, x.phase = .polling n fd) ∨ x.phase = .judging fd

structure Owned (cfg : Cfg) (s : Sys) : Prop where
  threads : ∀ t, s.stack t ≠ [] → t ∈ cfg.threads
  conn : ∀ c, s.alive c = true → s.fds c.fd = some (.conn c)
  connector : ∀ k fd, (s.clients k).InHand fd → s.fds fd = some (.connector k)
  /-- there is one connection at most per client, and it is the last thing its connector does -/
  ended : ∀ c k, s.alive c = true → c.owner = .client k → (s.clients k).phase = .ended
  one : ∀ c c' k, s.alive c = true → s.alive c' = true → c.owner = .client k →
    c'.owner = .client k → c = c'
  owner : ∀ c k, (s.clients k).connection = some c → c.owner = .client k
  kept : ∀ c k, s.alive c = true → c.owner = .client k → ¬ s.Removed c →
    (s.clients k).connection = some c

theorem stack_push {q : Tid → List Frame} {fs : List Frame} (h : q t ≠ []) (t' : Tid)
    (h' : Function.update q t fs t' ≠ []) : q t' ≠ [] := by
  by_cases ht : t' = t
  · rw [ht]
    exact h
  · rwa [Function.update_of_ne ht] at h'

theorem PursuitStep.ended {home : Tid} {b b' : Pursuit} (hO : b.Ok k home)
    (h : PursuitStep k home b b') (hp : b.phase = .ended) : b'.phase = .ended := by
  have hsource : ∀ {b₀}, b.Source k b₀ → False := fun hs => by
    cases hs with
    | frame hf =>
      have := (hO.phase_of_frame hf).2.2.2
      rw [hp] at this
      cases this
    | task ht =>
      have := (hO.phase_of_start ht).1
      rw [hp] at this
      cases this
  cases h with
  | connect hst =>
    rw [hO.idle hst] at hp
    cases hp
  | queued hf => exact (hsource (.frame hf)).elim
  | attempt hs => exact (hsource hs).elim
  | failed hs => rfl
  | removed hf =>
    obtain ⟨-, n, fd, hp'⟩ := (hO.phase_of_frame hf).2.2.2
    rw [hp] at hp'
    cases hp'
  | retry hf =>
    have := (hO.phase_of_frame hf).2.2.2.2
    rw [hp] at this
    cases this
  | made => rfl
  | same | polled | dispatched | dropped | reset => exact hp

namespace Owned

/-- No connection is made or destroyed, and no `connection_` changes. -/
theorem of (h : Owned cfg s) (hst : ∀ t, s'.stack t ≠ [] → s.stack t ≠ [])
    (ha : s'.alive = s.alive) (hr : ∀ c, s.Removed c → s'.Removed c)
    (hcl : ∀ k, (s'.clients k).connection = (s.clients k).connection)
    (ho : ∀ k, (s.clients k).phase = .ended → (s'.clients k).phase = .ended)
    (hfc : ∀ c, s.alive c = true → s'.fds c.fd = s.fds c.fd)
    (hfk : ∀ k fd, (s'.clients k).InHand fd → s'.fds fd = some (.connector k)) : Owned cfg s' where
  threads t ht := h.threads t (hst t ht)
  conn c hc := by
    rw [ha] at hc
    rw [hfc c hc]
    exact h.conn c hc
  connector := hfk
  ended c k hc hk := ho k (h.ended c k (ha ▸ hc) hk)
  one := by rw [ha]; exact h.one
  owner c k hc := h.owner c k (hcl k ▸ hc)
  kept c k hc hk hrm := by
    rw [hcl]
    exact h.kept c k (ha ▸ hc) hk fun hx => hrm (hr c hx)

/-- Nothing of what is owned has changed. -/
theorem same (h : Owned cfg s) (hst : ∀ t, s'.stack t ≠ [] → s.stack t ≠ [])
    (ha : s'.alive = s.alive) (hr : ∀ c, s.Removed c → s'.Removed c) (hcl : s'.clients = s.clients)
    (hf : s'.fds = s.fds) : Owned cfg s' :=
  h.of hst ha hr (fun _ => by rw [hcl]) (fun _ => by rw [hcl]; exact id) (fun _ _ => by rw [hf])
    (by rw [hcl, hf]; exact h.connector)

theorem ne_connector (h : Owned cfg s) {fd : Fd} (hk : (s.clients k).InHand fd)
    (hc : s.alive c = true) : c.fd ≠ fd := by
  rintro rfl
  have hcf := h.conn c hc
  rw [h.connector k _ hk] at hcf
  cases hcf

theorem soleOn (h : Owned cfg s) (hc : s.alive c = true) : s.SoleOn c := fun c' hc' hfd => by
  have h' := h.conn c' hc'
  rw [hfd, h.conn c hc] at h'
  cases h'
  rfl

/-- A number that is free is no connection's and in no connector's hand. -/
theorem ne_free (h : Owned cfg s) {n : Fd} (hn : s.fds n = none) :
    (∀ c, s.alive c = true → c.fd ≠ n) ∧ ∀ k fd, (s.clients k).InHand fd → fd ≠ n := by
  refine ⟨fun c hc => ?_, fun k fd hk => ?_⟩
  · rintro rfl
    rw [h.conn c hc] at hn
    cases hn
  · rintro rfl
    rw [h.connector k fd hk] at hn
    cases hn

/-- A connector goes on, with a number opened or closed that is no one else's. -/
theorem proceed (h : Owned cfg s) (hst : ∀ t, s'.stack t ≠ [] → s.stack t ≠ [])
    (ha : s'.alive = s.alive) (hr : ∀ c, s.Removed c → s'.Removed c)
    (ho : ∀ k, (s.clients k).phase = .ended → (s'.clients k).phase = .ended) {x : Client}
    (hcl : s'.clients = Function.update s.clients k x)
    (hx : x.connection = (s.clients k).connection)
    (hfc : ∀ c, s.alive c = true → s'.fds c.fd = s.fds c.fd)
    (hfk : ∀ k' fd, k' ≠ k → (s.clients k').InHand fd → s'.fds fd = s.fds fd)
    (hk : ∀ fd, x.InHand fd → s'.fds fd = some (.connector k)) : Owned cfg s' := by
  refine h.of hst ha hr (fun k' => ?_) ho hfc fun k' fd hin => ?_
  · rw [hcl]
    by_cases hkk : k' = k
    · subst hkk
      rw [Function.update_self, hx]
    · rw [Function.update_of_ne hkk]
  · rw [hcl] at hin
    by_cases hkk : k' = k
    · subst hkk
      rw [Function.update_self] at hin
      exact hk fd hin
    · rw [Function.update_of_ne hkk] at hin
      rw [hfk k' fd hkk hin]
      exact h.connector k' fd hin

/-- It goes on with the numbers there are. -/
theorem setPhase (h : Owned cfg s) (hst : ∀ t, s'.stack t ≠ [] → s.stack t ≠ [])
    (ha : s'.alive = s.alive) (hr : ∀ c, s.Removed c → s'.Removed c)
    (ho : ∀ k, (s.clients k).phase = .ended → (s'.clients k).phase = .ended) {x : Client}
    (hcl : s'.clients = Function.update s.clients k x)
    (hx : x.connection = (s.clients k).connection) (hf : s'.fds = s.fds)
    (hk : ∀ fd, x.InHand fd → s.fds fd = some (.connector k)) : Owned cfg s' :=
  h.proceed hst ha hr ho hcl hx (fun _ _ => by rw [hf]) (fun _ _ _ _ => by rw [hf])
    (by rw [hf]; exact hk)

theorem accept (h : Owned cfg s) (hst : s'.stack = s.stack) (hc : c.owner = .server)
    (hn : s.fds c.fd = none) (ha : s'.alive = Function.update s.alive c true)
    (hr : ∀ c, s.Removed c → s'.Removed c) (hcl : s'.clients = s.clients)
    (hf : s'.fds = Function.update s.fds c.fd (some (.conn c))) : Owned cfg s' := by
  have hal : ∀ c' k, s'.alive c' = true → c'.owner = .client k → s.alive c' = true := by
    intro c' k hc' ho
    have hne : c' ≠ c := by
      rintro rfl
      rw [hc] at ho
      cases ho
    rwa [ha, Function.update_of_ne hne] at hc'
  refine ⟨fun t ht => h.threads t (hst ▸ ht), fun c' hc' => ?_, fun k fd hin => ?_,
    fun c' k hc' ho => ?_, fun c₁ c₂ k h₁ h₂ ho₁ ho₂ => ?_, fun c' k => ?_, fun c' k hc' ho hrm => ?_⟩
  · by_cases hcc : c' = c
    · rw [hf, hcc, Function.update_self]
    · rw [ha, Function.update_of_ne hcc] at hc'
      rw [hf, Function.update_of_ne ((h.ne_free hn).1 c' hc')]
      exact h.conn c' hc'
  · rw [hcl] at hin
    rw [hf, Function.update_of_ne ((h.ne_free hn).2 k fd hin)]
    exact h.connector k fd hin
  · rw [hcl]
    exact h.ended c' k (hal c' k hc' ho) ho
  · exact h.one c₁ c₂ k (hal c₁ k h₁ ho₁) (hal c₂ k h₂ ho₂) ho₁ ho₂
  · rw [hcl]
    exact h.owner c' k
  · rw [hcl]
    exact h.kept c' k (hal c' k hc' ho) ho fun hx => hrm (hr c' hx)

/-- The socket in hand becomes the client's connection, the first it has. -/
theorem newConnection (h : Owned cfg s) (hst : ∀ t, s'.stack t ≠ [] → s.stack t ≠ [])
    (hc : c.owner = .client k) (hp : (s.clients k).phase = .judging c.fd)
    (ha : s'.alive = Function.update s.alive c true) (hr : ∀ c, s.Removed c → s'.Removed c)
    {x : Client} (hcl : s'.clients = Function.update s.clients k x) (hx : x.phase = .ended)
    (hxc : x.connection = some c)
    (hf : s'.fds = Function.update s.fds c.fd (some (.conn c))) : Owned cfg s' := by
  have hhand : (s.clients k).InHand c.fd := .inr hp
  have hself : s'.clients k = x := by rw [hcl, Function.update_self]
  have hother : ∀ {k'}, k' ≠ k → s'.clients k' = s.clients k' := fun hk => by
    rw [hcl, Function.update_of_ne hk]
  -- the connections of before are other clients'
  have hold : ∀ c' k', s'.alive c' = true → c'.owner = .client k' →
      c' = c ∧ k' = k ∨ s.alive c' = true ∧ k' ≠ k := by
    intro c' k' hc' ho
    by_cases hcc : c' = c
    · subst hcc
      rw [hc] at ho
      cases ho
      exact .inl ⟨rfl, rfl⟩
    · rw [ha, Function.update_of_ne hcc] at hc'
      refine .inr ⟨hc', ?_⟩
      rintro rfl
      have := h.ended c' k' hc' ho
      rw [hp] at this
      cases this
  refine ⟨fun t ht => h.threads t (hst t ht), fun c' hc' => ?_, fun k' fd hin => ?_,
    fun c' k' hc' ho => ?_, fun c₁ c₂ k' h₁ h₂ ho₁ ho₂ => ?_, fun c' k' hcon => ?_,
    fun c' k' hc' ho hrm => ?_⟩
  · by_cases hcc : c' = c
    · rw [hf, hcc, Function.update_self]
    · rw [ha, Function.update_of_ne hcc] at hc'
      rw [hf, Function.update_of_ne (h.ne_connector hhand hc')]
      exact h.conn c' hc'
  · by_cases hkk : k' = k
    · subst hkk
      rw [hself] at hin
      rcases hin with ⟨n, hin⟩ | hin <;> rw [hx] at hin <;> cases hin
    · rw [hother hkk] at hin
      have hfd := h.connector k' fd hin
      have hne : fd ≠ c.fd := by
        rintro rfl
        rw [h.connector k _ hhand] at hfd
        cases hfd
        exact hkk rfl
      rw [hf, Function.update_of_ne hne, hfd]
  · rcases hold c' k' hc' ho with ⟨-, rfl⟩ | ⟨hc', hk⟩
    · rw [hself, hx]
    · rw [hother hk]
      exact h.ended c' k' hc' ho
  · rcases hold c₁ k' h₁ ho₁ with ⟨rfl, rfl⟩ | ⟨h₁, hk₁⟩ <;>
      rcases hold c₂ k' h₂ ho₂ with ⟨rfl, hk₂⟩ | ⟨h₂, hk₂⟩
    · rfl
    · exact absurd rfl hk₂
    · exact absurd hk₂ hk₁
    · exact h.one c₁ c₂ k' h₁ h₂ ho₁ ho₂
  · by_cases hkk : k' = k
    · subst hkk
      rw [hself, hxc] at hcon
      cases hcon
      exact hc
    · rw [hother hkk] at hcon
      exact h.owner c' k' hcon
  · rcases hold c' k' hc' ho with ⟨rfl, rfl⟩ | ⟨hc', hk⟩
    · rw [hself, hxc]
    · rw [hother hk]
      exact h.kept c' k' hc' ho fun hx => hrm (hr c' hx)

theorem unlinkClient (h : Owned cfg s) (hst : ∀ t, s'.stack t ≠ [] → s.stack t ≠ [])
    (hc : c.owner = .client k) (hal : s.alive c = true) (ha : s'.alive = s.alive)
    (hr : ∀ c, s.Removed c → s'.Removed c) (hrm : s'.Removed c) {x : Client}
    (hcl : s'.clients = Function.update s.clients k x) (hx : x.phase = (s.clients k).phase)
    (hxc : x.connection = none) (hf : s'.fds = s.fds) : Owned cfg s' := by
  have hphase : ∀ k', (s'.clients k').phase = (s.clients k').phase := fun k' => by
    rw [hcl]
    by_cases hkk : k' = k
    · subst hkk
      rw [Function.update_self, hx]
    · rw [Function.update_of_ne hkk]
  refine ⟨fun t ht => h.threads t (hst t ht), by rw [ha, hf]; exact h.conn, fun k' fd hin => ?_,
    fun c' k' hc' ho => ?_, by rw [ha]; exact h.one, fun c' k' hcon => ?_,
    fun c' k' hc' ho hrm' => ?_⟩
  · rw [hf]
    unfold Client.InHand at hin
    rw [hphase] at hin
    exact h.connector k' fd hin
  · rw [hphase]
    exact h.ended c' k' (ha ▸ hc') ho
  · rw [hcl] at hcon
    by_cases hkk : k' = k
    · subst hkk
      rw [Function.update_self, hxc] at hcon
      cases hcon
    · rw [Function.update_of_ne hkk] at hcon
      exact h.owner c' k' hcon
  · rw [ha] at hc'
    have hkk : k' ≠ k := by
      rintro rfl
      exact hrm' (h.one c c' k' hal hc' hc ho ▸ hrm)
    rw [hcl, Function.update_of_ne hkk]
    exact h.kept c' k' hc' ho fun hx => hrm' (hr c' hx)

theorem destroy (h : Owned cfg s) (hc : s.alive c = true) : Owned cfg (s.destroy c) := by
  refine ⟨h.threads, fun c' hc' => ?_, fun k fd hin => ?_,
    fun c' k hc' => h.ended c' k (alive_destroy hc').1,
    fun c₁ c₂ k h₁ h₂ => h.one c₁ c₂ k (alive_destroy h₁).1 (alive_destroy h₂).1, h.owner,
    fun c' k hc' => h.kept c' k (alive_destroy hc').1⟩
  · obtain ⟨hc', hne⟩ := alive_destroy hc'
    have hfd : c'.fd ≠ c.fd := fun hfd => hne (h.soleOn hc c' hc' hfd)
    exact (Function.update_of_ne hfd ..).trans (h.conn c' hc')
  · have hfd : fd ≠ c.fd := Ne.symm (h.ne_connector hin hc)
    exact (Function.update_of_ne hfd ..).trans (h.connector k fd hin)

end Owned

theorem Rest.stack_ne {r : List Frame} (h : Rest d s t r) : s.stack t ≠ [] := by
  cases h with
  | frame hs _ | task hs _ =>
    rw [hs]
    nofun

theorem not_inHand {x : Client} {P : Fd → Prop} (hp : ∀ n fd, x.phase ≠ .polling n fd)
    (hj : ∀ fd, x.phase ≠ .judging fd) (fd : Fd) (h : x.InHand fd) : P fd := by
  rcases h with ⟨n, h⟩ | h
  · exact absurd h (hp n fd)
  · exact absurd h (hj fd)

theorem Owned.effect (h : Owned cfg s) (hI : Inv cfg d s)
    (hO : ∀ k, (s.pursuit cfg k).Ok k (.loop (cfg.clientLoop k))) (hd : ¬ d.steals)
    (hp : ¬ d.strips) (hg : ¬ d.dangles) (he : Effect cfg d t s s') : Owned cfg s' := by
  have hr : ∀ c, s.Removed c → s'.Removed c := fun c hx =>
    removed_iff.2 (Nat.lt_of_lt_of_le (removed_iff.1 hx) (he.ledger hI.sound (hI.life c)).grows.2.1)
  have ho : ∀ k, (s.clients k).phase = .ended → (s'.clients k).phase = .ended := fun k =>
    (he.pursuit hI (hO k)).ended (hO k)
  have hne : ∀ {f : Frame} {r : List Frame}, s.stack t = f :: r → s.stack t ≠ [] := fun hs => by
    rw [hs]
    nofun
  cases he with
  | poll hs | dispatch hs | dispatched hs | idle hs | establish hs | sendFailed hs | handOver hs
  | unlink hs | unlinkTaken hs | destroyed hs | handled hs =>
    exact h.same (stack_push (hne hs)) rfl hr rfl rfl
  | finish hs | close hs => exact h.same (stack_push hs.stack_ne) rfl hr rfl rfl
  | dequeue | enqueue | conn | events | sendQueued | sendTaken | shutTaken | hold | start | initPool | stop =>
    exact h.same (fun _ => id) rfl hr rfl rfl
  | @unlinkClient r c' k hs hc ht =>
    have hal : s.alive c' = true := (hI.sound.frame_live hs rfl).2.resolve_right hg
    exact h.unlinkClient (stack_push (hne hs)) hc hal rfl hr
      (removed_unlinkClient (t := t) |>.2 (.inl rfl)) rfl rfl rfl rfl
  | @accept c' hc hf ht => exact h.accept (c := c') rfl (by rw [hc]) hf rfl hr rfl rfl
  | connect hs =>
    exact h.setPhase (stack_push hs.stack_ne) rfl hr ho rfl rfl rfl (not_inHand nofun nofun)
  | connectQueued hs =>
    exact h.setPhase (stack_push (hne hs)) rfl hr ho rfl rfl rfl (not_inHand nofun nofun)
  | @attempt k s₀ r fd n p hs ht hf hn ho' =>
    obtain ⟨hc, hk⟩ := h.ne_free hf
    cases hs with
    | frame hs | task hs =>
      refine h.proceed (stack_push (hne hs)) rfl hr ho rfl rfl
        (fun c hal => Function.update_of_ne (hc c hal) ..)
        (fun k' fd' _ hin => Function.update_of_ne (hk k' fd' hin) ..) fun fd' hin => ?_
      rcases hin with ⟨_, hin⟩ | hin <;> cases hin
      exact Function.update_self ..
  | attemptFailed hs =>
    cases hs with
    | frame hs | task hs =>
      exact h.setPhase (stack_push (hne hs)) rfl hr ho rfl rfl rfl (not_inHand nofun nofun)
  | @removeChannel k r n fd p p' hs ht hk ho' hp' =>
    obtain ⟨n', fd', hph, hch⟩ := phase_of_handler (hO k) (hs ▸ List.mem_cons_self)
    rw [hk] at hch
    cases hch
    refine h.setPhase (stack_push (hne hs)) rfl hr ho rfl rfl rfl fun fd' hin => ?_
    rcases hin with ⟨_, hin⟩ | hin <;> cases hin
    exact h.connector k fd (.inl ⟨n, hph⟩)
  | @retry k fd r hs hf =>
    have hhand : (s.clients k).InHand fd := .inr (phase_of_rest (hO k) (hs ▸ List.mem_cons_self)).1
    refine h.proceed (stack_push (hne hs)) rfl hr ho rfl rfl
      (fun c hal => Function.update_of_ne (h.ne_connector hhand hal) ..)
      (fun k' fd' hkk hin => Function.update_of_ne ?_ ..) (not_inHand nofun nofun)
    rintro rfl
    have hfd := h.connector k' fd' hin
    rw [h.connector k fd' hhand] at hfd
    cases hfd
    exact hkk rfl
  | @newConnection k r c' p hs hc ht ho' =>
    have hph := (phase_of_rest (hO k) (hs ▸ List.mem_cons_self)).1
    exact h.newConnection (c := c') (stack_push (hne hs)) (by rw [hc]) hph rfl hr rfl rfl rfl rfl
  | @reset l r ks k hs hq =>
    exact h.setPhase (stack_push (hne hs)) rfl hr ho rfl rfl rfl (h.connector k)
  | openFd hn hu =>
    obtain ⟨hc, hk⟩ := h.ne_free hn
    exact h.of (fun _ => id) rfl hr (fun _ => rfl) ho (fun c hal => Function.update_of_ne (hc c hal) ..)
      fun k fd hin => (Function.update_of_ne (hk k fd hin) ..).trans (h.connector k fd hin)
  | @closeFd n hn hk =>
    refine h.of (fun _ => id) rfl hr (fun _ => rfl) ho (fun c hal => Function.update_of_ne ?_ ..)
      fun k fd hin => (Function.update_of_ne ?_ ..).trans (h.connector k fd hin)
    · rcases hn.resolve_right hd with hn | hn
      · rintro rfl
        exact hn c (h.conn c hal)
      · exact hn c hal
    · rintro rfl
      exact hk.resolve_right hp k (h.connector k fd hin)
  | destroy ha => exact h.destroy ha

/-! ## Without a reference -/

theorem Task.Home.loop_mem {l : LoopId} {k : Task} (h : k.Home cfg l) (hc : k.conn? = some c) :
    l = c.loop ∨ l = cfg.serverLoop := by
  cases k with
  | removeConnectionInLoop => exact .inr h.1
  | connectEstablished | sendInLoop =>
    cases hc
    exact .inl h.1
  | connectDestoryed | startReadInLoop | stopReadInLoop | shutdownInLoop | forceCloseInLoop | writtenCb
  | highWaterCb =>
    cases hc
    exact .inl h
  | listen | connectorStart | connectorReset | connectorStop | functor => cases hc

/-- A frame on a connection is a handler, or holds it. -/
theorem Frame.about_cases {f : Frame} (hh : f.Home cfg t) (h : f.about = some c) :
    f.isHandler = true ∨ f.conn? = some c := by
  cases f with
  | closeHandler | errorHandler | readHandler | writeHandler | writeHandlerRest | handleEvent =>
    exact .inl rfl
  | destoryedRest => exact hh.elim
  | _ => exact .inr h

/-- What has been removed without a reference being left has been through `ConnectDestoryed`. -/
theorem destroyed_of (hI : Inv cfg d s) (hT : Table cfg s) (hW : Owned cfg s)
    (hal : s.alive c = true) (hu : s.Unreferenced cfg c) : .destroyed ∈ (s.conns c).trace := by
  have hrm : s.Removed c := by
    by_contra hrm
    cases ho : c.owner with
    | server => exact hu.connections (hT.listed c hal ho hrm)
    | client k => exact hu.client k ho (hW.kept c k hal ho hrm)
  have hq : (s.ledger cfg c).destroys = 0 :=
    List.count_eq_zero_of_not_mem fun hm => hu.queue c.loop (hT.born c hal).2 _ hm rfl
  have hpos : 0 < (s.ledger cfg c).unlinked := removed_iff.1 hrm
  rw [(hI.life c).unlinked, hq, Nat.zero_add] at hpos
  exact List.count_pos_iff.1 hpos

/-- **A connection without a reference is out of reach.** -/
theorem unreached_of (hI : Inv cfg d s) (hT : Table cfg s) (hW : Owned cfg s) (hG : s.Gone c)
    (hal : s.alive c = true) (hr : s.referenced cfg c = false) : s.Unreached c := by
  have hS := hI.sound
  have hu := unreferenced hr
  have hheld : ∀ t, ∀ f ∈ s.stack t, f.conn? ≠ some c := fun t f hf =>
    hu.stack t (hW.threads t (List.ne_nil_of_mem hf)) f hf
  refine ⟨fun t f hf hc => ?_, fun l k hk hc => ?_, fun l hm => ?_, fun l => ?_, hu.held,
    fun k hk => hu.client k (hW.owner c k hk) hk, fun n hn => ?_⟩
  · rcases Frame.about_cases (hS.frames t f hf).home hc with hh | hh
    · exact (hG (destroyed_of hI hT hW hal hu)).handlers t ⟨f, hf, hh, hc⟩
    · exact hheld t f hf hh
  · refine hu.queue l ?_ k hk hc
    rcases (hS.tasks l k hk).home.loop_mem hc with rfl | rfl
    · exact (hT.born c hal).2
    · exact cfg.server_mem
  · exact (hG (destroyed_of hI hT hW hal hu)).active l hm
  · by_contra hst
    obtain rfl : c.loop = l := (hS.chans l _ hst).home
    exact hst (hG (destroyed_of hI hT hW hal hu)).chan
  · obtain ⟨rfl, -⟩ := hT.entry n c hn
    exact hu.connections hn

/-! ## Runs -/

/-- What is left to such a run. -/
def Discipline.careful : Discipline :=
  { reads := False, rearms := False, recloses := True, steals := False, strips := False
    overtakes := True, dangles := False }

/-- What holds in such a run. -/
structure Careful (cfg : Cfg) (s : Sys) : Prop where
  inv : Inv cfg .careful s
  table : Table cfg s
  owned : Owned cfg s
  quiet : ∀ c, (s.cell c).Quiet
  gone : ∀ c, s.Gone c
  pursuit : ∀ k, (s.pursuit cfg k).Ok k (.loop (cfg.clientLoop k))

theorem KeepsNumbers.allows {a : Act} (hC : Careful cfg s) (h : KeepsNumbers cfg s a)
    (hs : step cfg s a = some s') : Discipline.careful.Allows cfg s a := by
  cases a with
  | thread t inp =>
    intro f r hst
    simp only [KeepsNumbers, hst] at h
    cases f with
    | user c? =>
      rintro c rfl
      exact h
    | loopTasks l => exact fun _ _ _ hr => hr.elim
    | closeHandler c => exact fun _ => trivial
    | readHandler c => exact fun _ _ _ => trivial
    | writeHandlerRest c => exact fun _ _ => .inr trivial
    | closeIdle =>
      refine ⟨.inl (.inl fun c hc => ?_), .inl fun k hk => ?_⟩
      · simp only [hc] at h
      · simp only [hk] at h
    | writeEventRest k fd =>
      have hhand : (s.clients k).InHand fd :=
        .inr (phase_of_rest (hC.pursuit k) (hst ▸ List.mem_cons_self)).1
      refine fun _ _ _ => .inl (.inl fun c hc => ?_)
      rw [hC.owned.connector k fd hhand] at hc
      cases hc
    | _ => trivial
  | destroy c =>
    rcases step_cases hs with ⟨_, _, _, _, _, _, he, -⟩ | ⟨_, _, _, _, _, he, -⟩ |
      ⟨c', he, hal, hr, -⟩ | ⟨_, he, -⟩ | ⟨_, he, -⟩ <;> cases he
    exact ⟨.inl (unreached_of hC.inv hC.table hC.owned (hC.gone c) hal hr),
      .inl (hC.owned.soleOn hal)⟩
  | openFd | closeFd => trivial

theorem owned_init : Owned cfg (Sys.init cfg) where
  threads t ht := by
    cases t with
    | loop l =>
      simp only [Sys.init, ne_eq, ite_eq_right_iff, not_forall] at ht
      exact List.mem_append_left _ (List.mem_map_of_mem ht.1)
    | user u =>
      simp only [Sys.init, ne_eq, ite_eq_right_iff, not_forall] at ht
      exact List.mem_append_right _ (List.mem_map_of_mem ht.1)
  conn := nofun
  connector _ _ h := by rcases h with ⟨_, h⟩ | h <;> cases h
  ended := nofun
  one := nofun
  owner := nofun
  kept := nofun

/-- A connection that is to be removed is there. -/
theorem Sys.Leaving.live (hS : Sound cfg d s) (h : s.Leaving cfg c) : s.Live d c := by
  have h' : 0 < (s.ledger cfg c).calls ∨ 0 < (s.ledger cfg c).removals := by
    unfold Sys.Leaving at h
    omega
  rcases h' with h' | h'
  · exact (hS.frames _ _ (List.count_pos_iff.1 h')).about c rfl
  · exact ((hS.tasks _ _ (List.count_pos_iff.1 h')).about c rfl).resolve_left nofun

theorem Careful.init : Careful cfg (Sys.init cfg) where
  inv := .init
  table := ⟨nofun, nofun, nofun, nofun, nofun⟩
  owned := owned_init
  quiet _ := ⟨nofun, nofun, nofun, nofun⟩
  gone _ := nofun
  pursuit := pursuit_reach (P := fun _ _ => True) .init

theorem Careful.effect (h : Careful cfg s) (he : Effect cfg .careful t s s') : Careful cfg s' := by
  have hal : ∀ c, s.Leaving cfg c → s.alive c = true := fun c hl =>
    (hl.live h.inv.sound).2.resolve_right id
  exact
    { inv := h.inv.effect he
      table := h.table.effect h.inv.sound id hal he
      owned := h.owned.effect h.inv h.pursuit id id id he
      quiet := fun c => Cell.effect (fun _ _ hq hs => hq.step id hs) h.inv (h.quiet c) he
      gone := fun c => (h.gone c).effect (h.quiet c) id h.inv he
      pursuit := fun k => (he.pursuit h.inv (h.pursuit k)).ok (h.pursuit k) }

theorem Careful.effects (h : Careful cfg s) (he : Effects cfg .careful t s s') : Careful cfg s' := by
  induction he with
  | refl => exact h
  | tail _ he ih => exact ih.effect he

theorem Careful.step {a : Act} (h : Careful cfg s) (hp : KeepsNumbers cfg s a)
    (hs : step cfg s a = some s') : Careful cfg s' := by
  obtain ⟨t, hes, -⟩ := step_effects h.inv (hp.allows h hs) hs
  exact h.effects hes

theorem careful_reach (h : Runs.Reach (step cfg) (KeepsNumbers cfg) (Sys.init cfg) s) :
    Careful cfg s :=
  h.inv .init fun _ _ _ _ hC hp hs => hC.step hp hs

/-- `channel_` is dropped when the reactor has nothing of the connector left. -/
theorem noChannel_of_dropped {a : Act} {n : Nat} {fd : Fd} (hI : Inv cfg d s)
    (hO : (s.pursuit cfg k).Ok k (.loop (cfg.clientLoop k)))
    (hc : (s.clients k).channel = some (n, fd)) (hs : step cfg s a = some s')
    (hc' : (s'.clients k).channel ≠ some (n, fd)) : s.NoChannel k := by
  have hh := hO.holds
  have ht := step_try hI hO hs
  generalize connectorEvents cfg k s a = es at ht
  generalize hy : s'.clients k = y at ht hc'
  cases ht with
  | same _ _ hch => exact absurd (hch.trans hc) hc'
  | attempt _ hn =>
    rw [hc] at hn
    cases hn
  | reset hp =>
    rcases hp with hp | hp <;> rw [show (s.pursuit cfg k).phase = _ from hp] at hh
    · exact noChannel_of hI.sound hh.2.2.1 hh.2.1
    · exact noChannel_of hI.sound hh.2.2.1 hh.2.1
  | called | queued | failed | removed | retry | made => exact absurd hc hc'

/-- **No channel is destroyed while the reactor can reach it**, in a run in which `AcceptHandle`
closes no number that is a connection's or a connector's: when a connection is destroyed, and when a
connector's `channel_` is dropped. -/
theorem destroyed_unreachable (h : Runs.Reach (step cfg) (KeepsNumbers cfg) (Sys.init cfg) s) :
    (∀ c s', step cfg s (.destroy c) = some s' → ¬ s.Reaches (.conn c)) ∧
      ∀ k n fd a s', (s.clients k).channel = some (n, fd) → step cfg s a = some s' →
        (s'.clients k).channel ≠ some (n, fd) → ¬ s.Reaches (.connector k n fd) := by
  have hC := careful_reach h
  refine ⟨fun c s' hs => ?_, fun k n fd a s' hc hs hc' => ?_⟩
  · rcases step_cases hs with ⟨_, _, _, _, _, _, he, -⟩ | ⟨_, _, _, _, _, he, -⟩ |
      ⟨c', he, hal, hr, -⟩ | ⟨_, he, -⟩ | ⟨_, he, -⟩ <;> cases he
    have hu := unreached_of hC.inv hC.table hC.owned (hC.gone c) hal hr
    exact not_reaches hC.inv.sound (hu.chan _) (hu.active _)
  · exact noChannel_of_dropped hC.inv (hC.pursuit k) hc hs hc' n fd

/-- The peer closes `sampleConn`, `ConnectDestoryed` runs, and user code drops its reference. -/
def sampleDestroy : List Act :=
  sampleClose ++ loopActs [.none, .none, .none] ++
    [.thread (.user 7) (.call (.release sampleConn)), .thread (.user 7) .none]

theorem destroyed_unreachable_sample :
    ∃ s s', Runs.run (step .sample) (Sys.init .sample) sampleDestroy = some s ∧
      step .sample s (.destroy sampleConn) = some s' ∧ ¬ s.Reaches (.conn sampleConn) := by
  have hrun : (Runs.run (step .sample) (Sys.init .sample) sampleDestroy).map
      (fun s => (step .sample s (.destroy sampleConn)).isSome) = some true := by decide +kernel
  obtain ⟨s, hs, hx, hr⟩ := Runs.Reach.of_map _ hrun (P := KeepsNumbers .sample) (by decide +kernel)
  obtain ⟨s', hs'⟩ := Option.isSome_iff_exists.1 hx
  exact ⟨s, s', hs, hs', (destroyed_unreachable hr).1 _ _ hs'⟩

/-- A failed accept closes the reserve `4` for good, the next connection gets that number; a second
failed accept closes it again, and another connection gets it. -/
def reusedRun : List Act :=
  loopActs [
    .call .start, .cas false, .none, .ret, .poll [], .none, .none, .none,
    -- `accept` fails with `ENFILE`, and so does `::open` after it
    .poll [(3, pollIn)], .none, .none, .fd (.error eNfile), .none, .fd (.error eAgain), .none,
    .fd (.error eNfile),
    -- a connection on `4`
    .fd (.ok 4), .fd (.error eAgain), .none, .none, .ret, .none,
    -- the same again
    .poll [(3, pollIn)], .none, .none, .fd (.error eNfile), .none, .fd (.error eAgain), .none,
    .fd (.error eNfile), .fd (.ok 4)]

/-- The first connection on `4` has lost its entry of `connections_`, the only reference to it. -/
def reusedConn : ConnId := ⟨0, 4, 0, .server⟩

/-- It can be destroyed, while its channel is in `evt_channel_list_`. -/
theorem channel_dangles :
    ∃ s s', Runs.run (step .sample) (Sys.init .sample) reusedRun = some s ∧
      step .sample s (.destroy reusedConn) = some s' ∧
      (s.pollers 0).evtChannelList 4 = some (.conn reusedConn) := by
  have hrun : (Runs.run (step .sample) (Sys.init .sample) reusedRun).map
      (fun s => ((step .sample s (.destroy reusedConn)).isSome, (s.pollers 0).evtChannelList 4)) =
      some (true, some (.conn reusedConn)) := by decide +kernel
  obtain ⟨s, hs, hx⟩ := Option.map_eq_some_iff.1 hrun
  simp only [Prod.mk.injEq] at hx
  obtain ⟨s', hs'⟩ := Option.isSome_iff_exists.1 hx.1
  exact ⟨s, s', hs, hs', hx.2⟩

end Liang.Net

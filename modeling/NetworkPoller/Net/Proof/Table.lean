import NetworkPoller.Event.Proof.LoopPool
import NetworkPoller.Net.Proof.Close
import NetworkPoller.Net.Proof.Moves

/-!
# The table of connections

`Table`: a connection's descriptor is open as long as the object exists, so its number is not given
out again; `connections_` holds the server's connections that exist and are not removed, each under
its own descriptor, and no two of the server's connections share one. `Table.effect`: every effect
keeps this, if numbers that are descriptors of connections are closed by the destructors only
(`¬ d.steals`) and a connection that is to be removed exists: the pending removal holds the object,
and with it the number. `Tabled.step`: so does a step in which the functions of connections run on
objects that exist, `CloseHandler` any number of times.
-/

namespace Liang.Net

open Base TcpConnection EpollPoller

variable {cfg : Cfg} {d : Discipline} {s s' : Sys} {t t' : Tid} {c c' : ConnId}

/-- `RemoveConnectionInLoop`, or `TcpClient::RemoveConnection`, has run on the connection. -/
def Conn.Removed (x : Conn) : Prop := .destroyQueued ∈ x.trace

abbrev Sys.Removed (s : Sys) (c : ConnId) : Prop := (s.conns c).Removed

structure Table (cfg : Cfg) (s : Sys) : Prop where
  opened : ∀ c, s.alive c = true → ∃ c', s.fds c.fd = some (.conn c')
  entry : ∀ n c, s.connections n = some c →
    c.fd = n ∧ s.alive c = true ∧ c.owner = .server ∧ ¬ s.Removed c
  listed : ∀ c, s.alive c = true → c.owner = .server → ¬ s.Removed c →
    s.connections c.fd = some c
  sole : ∀ c c', s.alive c = true → s.alive c' = true → c.owner = .server → c'.owner = .server →
    c.fd = c'.fd → c = c'
  born : ∀ c, s.alive c = true → c.serial < s.nextSerial ∧ c.loop ∈ cfg.loops

/-- No reference: none in the tables, none with user code, none bound into a queued functor and none
on a stack. -/
structure Sys.Unreferenced (cfg : Cfg) (s : Sys) (c : ConnId) : Prop where
  connections : s.connections c.fd ≠ some c
  client : ∀ k, c.owner = .client k → (s.clients k).connection ≠ some c
  held : s.held c = false
  queue : ∀ l ∈ cfg.loops, ∀ k ∈ s.queue l, k.conn? ≠ some c
  stack : ∀ t ∈ cfg.threads, ∀ f ∈ s.stack t, f.conn? ≠ some c

theorem unreferenced (h : s.referenced cfg c = false) : s.Unreferenced cfg c := by
  simp only [Sys.referenced, Bool.or_eq_false_iff, List.any_eq_false, beq_eq_false_iff_ne,
    Bool.not_eq_true, beq_iff_eq] at h
  obtain ⟨⟨⟨⟨h1, h2⟩, h3⟩, h4⟩, h5⟩ := h
  refine ⟨h1, fun k hk => ?_, h3, h4, h5⟩
  rw [hk] at h2
  exact beq_eq_false_iff_ne.1 h2

/-- `close_cb_` is to be called on the connection, or `RemoveConnectionInLoop` is queued. -/
def Sys.Leaving (cfg : Cfg) (s : Sys) (c : ConnId) : Prop :=
  0 < (s.ledger cfg c).calls + (s.ledger cfg c).removals

theorem Sys.Leaving.of_closeCb (hS : Sound cfg d s) {r : List Frame}
    (hs : s.stack t = .closeCb c :: r) : s.Leaving cfg c := by
  obtain rfl : t = .loop c.loop := hS.loop_thread hs
  have : 0 < (s.ledger cfg c).calls := List.count_pos_iff.2 (hs ▸ List.mem_cons_self)
  exact Nat.add_pos_left this _

theorem Sys.Leaving.of_removal (hS : Sound cfg d s) {l : LoopId} {ks : List Task}
    (hq : s.queue l = .removeConnectionInLoop c :: ks) : s.Leaving cfg c := by
  have hm : Task.removeConnectionInLoop c ∈ s.queue l := hq ▸ List.mem_cons_self
  obtain ⟨rfl, -⟩ := (hS.tasks l _ hm).home
  have : 0 < (s.ledger cfg c).removals := List.count_pos_iff.2 hm
  exact Nat.add_pos_right _ this

/-- What is to be removed is referenced. -/
theorem Sys.Leaving.not_unreferenced (h : s.Leaving cfg c) (hl : c.loop ∈ cfg.loops)
    (hr : s.referenced cfg c = false) : False := by
  have hu := unreferenced hr
  have h' : 0 < (s.ledger cfg c).calls ∨ 0 < (s.ledger cfg c).removals := by
    unfold Sys.Leaving at h
    omega
  rcases h' with h' | h'
  · refine hu.stack (.loop c.loop) ?_ _ (List.count_pos_iff.1 h') rfl
    exact List.mem_append_left _ (List.mem_map_of_mem hl)
  · exact hu.queue _ cfg.server_mem _ (List.count_pos_iff.1 h') rfl

/-! ## Removed -/

theorem Conn.SameLife.removed {x x' : Conn} (h : x.SameLife x') : x'.Removed ↔ x.Removed := by
  simp only [Conn.Removed, ← List.count_pos_iff]
  rw [show x'.trace.count .destroyQueued = x.trace.count .destroyQueued from h.unlinked]

theorem removed_destroyQueued :
    (s.note c' [.destroyQueued]).Removed c ↔ c = c' ∨ s.Removed c := by
  by_cases hc : c = c'
  · subst hc
    simp [Sys.Removed, Conn.Removed, Sys.note]
  · rw [Sys.Removed, note_of_ne hc]
    exact ⟨.inr, fun h => h.resolve_left hc⟩

theorem removed_unlink {t : Tid} : (s.unlink t c').Removed c ↔ c = c' ∨ s.Removed c :=
  removed_destroyQueued (s := s)

theorem removed_unlinkClient {t : Tid} {k : ClientId} :
    (s.unlinkClient t k c').Removed c ↔ c = c' ∨ s.Removed c :=
  removed_destroyQueued (s := s)

theorem alive_destroy (h : (s.destroy c).alive c' = true) : s.alive c' = true ∧ c' ≠ c := by
  have h : Function.update s.alive c false c' = true := h
  by_cases hcc : c' = c
  · rw [hcc, Function.update_self] at h
    cases h
  · rw [Function.update_of_ne hcc] at h
    exact ⟨h, hcc⟩

/-- `NewConnected` asks the server's pool, with the descriptor as hash code. -/
theorem getEventLoop_pool {p : EventLoopThreadPool LoopId} {n : Nat} (hn : n < 2 ^ 32)
    (hsz : cfg.workers.length < 2 ^ 32) (hl : p.loopList = cfg.workers)
    (hm : p.mainLoop = cfg.serverLoop) :
    (p.getEventLoopFromPoolForHash (.ofNat n)).map (·.loop) =
      some (TcpServer.getEventLoopFromPoolForHash cfg n) := by
  obtain ⟨pick, hp, hpick⟩ := EventLoopThreadPool.getEventLoopFromPoolForHash_spec (hl ▸ hsz) (.ofNat n)
  rw [UInt32.toNat_ofNat_of_lt' hn] at hpick
  rw [hp, Option.map_some, TcpServer.getEventLoopFromPoolForHash]
  by_cases h0 : cfg.workers = []
  · rw [EventLoopThreadPool.Picks, if_pos (hl.trans h0)] at hpick
    rw [hpick, if_pos (by rw [h0]; rfl), hm]
  · have hloop := hpick.loop_eq (hl ▸ h0)
    rw [hl] at hloop
    rw [if_neg (Nat.ne_of_gt (List.length_pos_iff.2 h0)), List.getD_eq_getElem?_getD, hloop]
    rfl

theorem getEventLoop_mem (n : Nat) :
    TcpServer.getEventLoopFromPoolForHash cfg n ∈ cfg.loops := by
  unfold TcpServer.getEventLoopFromPoolForHash
  split
  · exact cfg.server_mem
  · rename_i hne
    have hlt : n % cfg.workers.length < cfg.workers.length := Nat.mod_lt _ (Nat.pos_of_ne_zero hne)
    rw [List.getD_eq_getElem?_getD, List.getElem?_eq_getElem hlt, Option.getD_some]
    exact cfg.workers_mem _ (List.getElem_mem hlt)

namespace Table

/-- Numbers are opened and closed, none of them a connection's. -/
theorem setFds (h : Table cfg s) (hr : ∀ c, s'.Removed c ↔ s.Removed c) (ha : s'.alive = s.alive)
    (hc : s'.connections = s.connections) (hn : s'.nextSerial = s.nextSerial)
    (hf : ∀ c, s.alive c = true → s'.fds c.fd = s.fds c.fd) : Table cfg s' where
  opened c hal := by
    rw [ha] at hal
    rw [hf c hal]
    exact h.opened c hal
  entry n c hm := by
    rw [hr, ha]
    exact h.entry n c (hc ▸ hm)
  listed c hal ho hrm := by
    rw [hc]
    exact h.listed c (ha ▸ hal) ho fun hx => hrm ((hr c).2 hx)
  sole := by rw [ha]; exact h.sole
  born := by rw [ha, hn]; exact h.born

/-- Nothing the table reads has changed. -/
theorem same (h : Table cfg s) (hr : ∀ c, s'.Removed c ↔ s.Removed c) (ha : s'.alive = s.alive)
    (hc : s'.connections = s.connections) (hn : s'.nextSerial = s.nextSerial) (hf : s'.fds = s.fds) :
    Table cfg s' := h.setFds hr ha hc hn fun c _ => by rw [hf]

theorem of_life (h : Table cfg s) (hx : ∀ c, (s.conns c).SameLife (s'.conns c))
    (ha : s'.alive = s.alive) (hc : s'.connections = s.connections)
    (hn : s'.nextSerial = s.nextSerial) (hf : s'.fds = s.fds) : Table cfg s' :=
  h.same (fun c => (hx c).removed) ha hc hn hf

/-- A number that is free is no connection's. -/
theorem fd_ne (h : Table cfg s) {n : Fd} (hn : s.fds n = none) (ha : s.alive c = true) :
    c.fd ≠ n := by
  rintro rfl
  obtain ⟨c', hc⟩ := h.opened c ha
  rw [hn] at hc
  cases hc

/-- Nor is one that can be closed. -/
theorem fd_ne_of_harmless (h : Table cfg s) {n : Fd} (hn : s.Harmless n) (ha : s.alive c = true) :
    c.fd ≠ n := by
  rcases hn with hn | hn
  · rintro rfl
    obtain ⟨c', hc⟩ := h.opened c ha
    exact hn c' hc
  · exact hn c ha

/-- The object made last is no older one. -/
theorem ne_new (h : Table cfg s) (hser : c'.serial = s.nextSerial) (ha : s.alive c = true) :
    c ≠ c' := by
  rintro rfl
  exact Nat.lt_irrefl _ (hser ▸ (h.born c ha).1)

/-- A new connection; `connections_` changes, if at all, under its descriptor. -/
theorem create (h : Table cfg s) (hser : c.serial = s.nextSerial) (hl : c.loop ∈ cfg.loops)
    (hrm : ¬ s.Removed c) (hr : ∀ c', s'.Removed c' ↔ s.Removed c')
    (ha : s'.alive = Function.update s.alive c true)
    (hf : s'.fds = Function.update s.fds c.fd (some (.conn c)))
    (hn : s'.nextSerial = s.nextSerial + 1)
    (hc : c.owner = .server ∧ s.fds c.fd = none ∧
        s'.connections = Function.update s.connections c.fd (some c) ∨
      c.owner ≠ .server ∧ s'.connections = s.connections) : Table cfg s' := by
  have hal : ∀ c', s'.alive c' = true → c' = c ∨ s.alive c' = true ∧ c' ≠ c := fun c' h' => by
    by_cases hcc : c' = c
    · exact .inl hcc
    · rw [ha, Function.update_of_ne hcc] at h'
      exact .inr ⟨h', hcc⟩
  have hal' : ∀ c', s.alive c' = true → s'.alive c' = true := fun c' h' => by
    rw [ha, Function.update_of_ne (h.ne_new hser h'), h']
  refine ⟨fun c' h' => ?_, fun n c' hm => ?_, fun c' h' ho hr' => ?_, fun c₁ c₂ h₁ h₂ ho₁ ho₂ hfd => ?_,
    fun c' h' => ?_⟩
  · by_cases hfd : c'.fd = c.fd
    · exact ⟨c, by rw [hf, hfd, Function.update_self]⟩
    · rw [hf, Function.update_of_ne hfd]
      exact h.opened c' ((hal c' h').resolve_left fun hcc => hfd (by rw [hcc])).1
  · rw [hr]
    rcases hc with ⟨ho, -, hc⟩ | ⟨-, hc⟩
    · rw [hc] at hm
      by_cases hnc : n = c.fd
      · subst hnc
        rw [Function.update_self] at hm
        cases hm
        exact ⟨rfl, by rw [ha, Function.update_self], ho, hrm⟩
      · rw [Function.update_of_ne hnc] at hm
        obtain ⟨h1, h2, h3⟩ := h.entry n c' hm
        exact ⟨h1, hal' c' h2, h3⟩
    · obtain ⟨h1, h2, h3⟩ := h.entry n c' (hc ▸ hm)
      exact ⟨h1, hal' c' h2, h3⟩
  · rw [hr] at hr'
    rcases hc with ⟨-, hfree, hc⟩ | ⟨hne, hc⟩
    · rw [hc]
      rcases hal c' h' with rfl | ⟨h', -⟩
      · exact Function.update_self ..
      · rw [Function.update_of_ne (h.fd_ne hfree h')]
        exact h.listed c' h' ho hr'
    · rw [hc]
      rcases hal c' h' with rfl | ⟨h', -⟩
      · exact absurd ho hne
      · exact h.listed c' h' ho hr'
  · rcases hc with ⟨ho, hfree, -⟩ | ⟨hne, -⟩
    · rcases hal c₁ h₁ with rfl | ⟨h₁, -⟩ <;> rcases hal c₂ h₂ with rfl | ⟨h₂, -⟩
      · rfl
      · exact absurd hfd.symm (h.fd_ne hfree h₂)
      · exact absurd hfd (h.fd_ne hfree h₁)
      · exact h.sole c₁ c₂ h₁ h₂ ho₁ ho₂ hfd
    · refine h.sole c₁ c₂ ((hal c₁ h₁).resolve_left ?_).1 ((hal c₂ h₂).resolve_left ?_).1 ho₁ ho₂ hfd
      · rintro rfl
        exact hne ho₁
      · rintro rfl
        exact hne ho₂
  · rw [hn]
    rcases hal c' h' with rfl | ⟨h', -⟩
    · exact ⟨by omega, hl⟩
    · exact ⟨Nat.lt_succ_of_lt (h.born c' h').1, (h.born c' h').2⟩

/-- `RemoveConnectionInLoop` of a connection that exists: no other is under its descriptor. -/
theorem unlink (h : Table cfg s) (hal : s.alive c = true) (ho : c.owner = .server)
    (hr : ∀ c', s'.Removed c' ↔ c' = c ∨ s.Removed c') (ha : s'.alive = s.alive)
    (hc : s'.connections = Function.update s.connections c.fd none)
    (hn : s'.nextSerial = s.nextSerial) (hf : s'.fds = s.fds) : Table cfg s' := by
  refine ⟨by rw [ha, hf]; exact h.opened, fun n c' hm => ?_, fun c' h' ho' hr' => ?_,
    by rw [ha]; exact h.sole, by rw [ha, hn]; exact h.born⟩
  · rw [hc] at hm
    by_cases hnc : n = c.fd
    · subst hnc
      rw [Function.update_self] at hm
      cases hm
    · rw [Function.update_of_ne hnc] at hm
      obtain ⟨h1, h2, h3, h4⟩ := h.entry n c' hm
      refine ⟨h1, ha ▸ h2, h3, fun hx => ?_⟩
      rcases (hr c').1 hx with rfl | hx
      · exact hnc h1.symm
      · exact h4 hx
  · rw [hr, not_or] at hr'
    rw [ha] at h'
    rw [hc, Function.update_of_ne fun hfd => hr'.1 (h.sole c' c h' hal ho' ho hfd)]
    exact h.listed c' h' ho' hr'.2

/-- A client's connection is removed. -/
theorem unlinkClient (h : Table cfg s) (ho : c.owner ≠ .server)
    (hr : ∀ c', s'.Removed c' ↔ c' = c ∨ s.Removed c') (ha : s'.alive = s.alive)
    (hc : s'.connections = s.connections) (hn : s'.nextSerial = s.nextSerial)
    (hf : s'.fds = s.fds) : Table cfg s' := by
  refine ⟨by rw [ha, hf]; exact h.opened, fun n c' hm => ?_, fun c' h' ho' hr' => ?_,
    by rw [ha]; exact h.sole, by rw [ha, hn]; exact h.born⟩
  · obtain ⟨h1, h2, h3, h4⟩ := h.entry n c' (hc ▸ hm)
    refine ⟨h1, ha ▸ h2, h3, fun hx => ?_⟩
    rcases (hr c').1 hx with rfl | hx
    · exact ho h3
    · exact h4 hx
  · rw [hc]
    exact h.listed c' (ha ▸ h') ho' fun hx => hr' ((hr c').2 (.inr hx))

theorem destroy (h : Table cfg s) (hr : s.referenced cfg c = false) (hs : s.SoleOn c) :
    Table cfg (s.destroy c) := by
  refine ⟨fun c' h' => ?_, fun n c' hm => ?_, fun c' h' => h.listed c' (alive_destroy h').1,
    fun c₁ c₂ h₁ h₂ => h.sole c₁ c₂ (alive_destroy h₁).1 (alive_destroy h₂).1,
    fun c' h' => h.born c' (alive_destroy h').1⟩
  · obtain ⟨h', hne⟩ := alive_destroy h'
    show ∃ c'', Function.update s.fds c.fd none c'.fd = some (.conn c'')
    rw [Function.update_of_ne fun hfd => hne (hs c' h' hfd)]
    exact h.opened c' h'
  · obtain ⟨h1, h2, h3, h4⟩ := h.entry n c' hm
    -- an entry is a reference
    have hne : c' ≠ c := by
      rintro rfl
      subst h1
      exact (unreferenced hr).connections hm
    exact ⟨h1, (Function.update_of_ne hne ..).trans h2, h3, h4⟩

theorem startSource (h : Table cfg s) {k : ClientId} {s₀ : Sys} {r : List Frame}
    (hs : StartSource t k s s₀ r) : Table cfg s₀ ∧ s₀.fds = s.fds := by
  cases hs with
  | frame hs => exact ⟨h, rfl⟩
  | task hs hq => exact ⟨h.same (fun _ => .rfl) rfl rfl rfl rfl, rfl⟩

theorem openFd (h : Table cfg s) {n : Fd} (u : FdUse) (hn : s.fds n = none) :
    Table cfg (s.openFd n u) :=
  h.setFds (fun _ => .rfl) rfl rfl rfl fun _ hal => Function.update_of_ne (h.fd_ne hn hal) ..

theorem closeFd (h : Table cfg s) {n : Fd} (hn : s.Harmless n) : Table cfg (s.closeFd n) :=
  h.setFds (fun _ => .rfl) rfl rfl rfl fun _ hal =>
    Function.update_of_ne (h.fd_ne_of_harmless hn hal) ..

theorem effect (h : Table cfg s) (hS : Sound cfg d s) (hd : ¬ d.steals)
    (hal : ∀ c, s.Leaving cfg c → s.alive c = true) (he : Effect cfg d t s s') : Table cfg s' := by
  cases he with
  | conn hl hx => exact h.of_life (fun c => updConn_sameLife hx.sameLife) rfl rfl rfl rfl
  | @sendQueued c' m hl ht =>
    have hx : ∀ c, (s.conns c).SameLife ((s.updConn c' fun x =>
        { x with sent := x.sent ++ [(t, m)] }).conns c) := fun c => updConn_sameLife (.of_eq rfl .rfl)
    exact h.of_life hx rfl rfl rfl rfl
  | sendTaken hs hq hx =>
    exact h.of_life (fun c => updConn_sameLife (s := s.dequeue t _ _ _) hx.sameLife) rfl rfl rfl rfl
  | shutTaken hs hq hx =>
    refine h.of_life (fun c => updConn_sameLife (s := s.dequeue t _ _ _) ?_) rfl rfl rfl rfl
    rcases hx with rfl | ⟨-, rfl⟩ <;> exact .of_eq rfl .rfl
  | establish hs hq ht ho =>
    exact h.same (fun c => mem_establish (s := s.dequeue t _ _ _) nofun nofun) rfl rfl rfl rfl
  | close hr hl ht hc ho => exact h.same (fun c => mem_closeConn nofun nofun) rfl rfl rfl rfl
  | @sendFailed l r ks c' T m p hs hq ht hst ho =>
    have hx : ∀ c, (s.conns c).SameLife (((s.dequeue t l (.sendInLoop c' T m) ks).updConn c'
        fun x => { x with entered := x.entered ++ [(T, m)] }).conns c) := fun c =>
      updConn_sameLife (s := s.dequeue _ _ _ _) (.of_eq rfl .rfl)
    exact h.same (fun c => (mem_closeConn (e := .destroyQueued) nofun nofun).trans (hx c).removed)
      rfl rfl rfl rfl
  | handOver hs ho => exact h.same (fun c => mem_note (by decide)) rfl rfl rfl rfl
  | @unlink r c' hs ho ht =>
    have hr : ∀ c, ((s.note c' [.closeCb]).unlink t c').Removed c ↔ c = c' ∨ s.Removed c := fun c =>
      removed_unlink.trans (or_congr_right (mem_note (by decide)))
    exact h.unlink (hal c' (.of_closeCb hS hs)) ho hr rfl rfl rfl rfl
  | @unlinkTaken l r ks c' hs hq ht =>
    exact h.unlink (hal c' (.of_removal hS hq))
      (hS.tasks l (.removeConnectionInLoop c') (hq ▸ List.mem_cons_self)).home.2
      (fun c => removed_unlink (s := s.dequeue t _ _ _) (t := t)) rfl rfl rfl rfl
  | @unlinkClient r c' k hs ho ht =>
    have hr : ∀ c, ((s.note c' [.closeCb]).unlinkClient t k c').Removed c ↔ c = c' ∨ s.Removed c :=
      fun c => removed_unlinkClient.trans (or_congr_right (mem_note (by decide)))
    exact h.unlinkClient (by rw [ho]; nofun) hr rfl rfl rfl rfl
  | destroyed hs hq ht ho =>
    exact h.same (fun c => mem_note (s := s) (by decide)) rfl rfl rfl rfl
  | @accept c' hc hf ht =>
    have hser : c'.serial = s.nextSerial := by rw [hc]
    have hlife := fun c => create_sameLife (c := c) hS hser (x := TcpServer.newConn cfg) rfl rfl
    have hnew : ¬ s.Removed c' := by
      rw [Sys.Removed, hS.pristine c' (Nat.le_of_eq hser.symm)]
      nofun
    refine h.create hser ?_ hnew (fun c => (hlife c).removed) rfl rfl rfl
      (.inl ⟨by rw [hc], hf, rfl⟩)
    rw [hc]
    exact getEventLoop_mem c'.fd
  | @attempt k s₀ r fd n p hs ht hf hn ho =>
    obtain ⟨h₀, hfds⟩ := h.startSource hs
    exact (h₀.openFd (.connector k) (hfds ▸ hf)).same (fun _ => .rfl) rfl rfl rfl rfl
  | attemptFailed hs =>
    obtain ⟨h₀, -⟩ := h.startSource hs
    exact h₀.same (fun _ => .rfl) rfl rfl rfl rfl
  | retry hs hf =>
    exact (h.closeFd (hf.resolve_right hd)).same (fun _ => .rfl) rfl rfl rfl rfl
  | @newConnection k r c' p hs hc ht ho =>
    have hser : c'.serial = s.nextSerial := by rw [hc]
    have hlife := fun c => create_sameLife (c := c) hS hser (x := TcpClient.newConn cfg k) rfl rfl
    have hnew : ¬ s.Removed c' := by
      rw [Sys.Removed, hS.pristine c' (Nat.le_of_eq hser.symm)]
      nofun
    refine h.create hser ?_ hnew
      (fun c => (mem_establish (e := .destroyQueued) nofun nofun).trans (hlife c).removed) rfl rfl rfl
      (.inr ⟨by rw [hc]; nofun, rfl⟩)
    rw [hc]
    exact cfg.client_mem k
  | openFd hn hu => exact h.openFd _ hn
  | closeFd hn hk => exact h.closeFd (hn.resolve_right hd)
  | destroy ha hr hu hf => exact h.destroy hr (hf.resolve_right hd)
  | poll | dispatch | dispatched | idle | dequeue | finish | enqueue | events | connect
  | connectQueued | handled | removeChannel | reset | hold | start | initPool | stop =>
    exact h.same (fun _ => .rfl) rfl rfl rfl rfl

end Table

/-! ## One step -/

/-- What an effect does to the connection's book: what is counted only grows, and it begins to leave
when `CloseHandler` runs. -/
theorem LedgerStep.grows {again : Prop} {b b' : Ledger} (h : LedgerStep again b b') :
    b.closes ≤ b'.closes ∧ b.unlinked ≤ b'.unlinked ∧
      (0 < b'.calls + b'.removals → 0 < b.calls + b.removals ∨ b.closes < b'.closes) := by
  cases h with
  | same => exact ⟨Nat.le_refl _, Nat.le_refl _, .inl⟩
  | establish => exact ⟨Nat.le_refl _, Nat.le_refl _, .inl⟩
  | close => exact ⟨Nat.le_succ _, Nat.le_refl _, fun _ => .inr (Nat.lt_succ_self _)⟩
  | handOver hn => exact ⟨Nat.le_refl _, Nat.le_refl _, fun _ => .inl (by omega)⟩
  | unlink hn => exact ⟨Nat.le_refl _, Nat.le_succ _, fun _ => .inl (by omega)⟩
  | unlinkTaken hn => exact ⟨Nat.le_refl _, Nat.le_succ _, fun _ => .inl (by omega)⟩
  | destroy => exact ⟨Nat.le_refl _, Nat.le_refl _, .inl⟩

theorem removed_iff : s.Removed c ↔ 0 < (s.ledger cfg c).unlinked := List.count_pos_iff.symm

/-- An object is made with a new serial number, and destroyed when it is not referenced. -/
theorem Effect.alive (he : Effect cfg d t s s') (c : ConnId) :
    s'.alive c = s.alive c ∨ c.serial = s.nextSerial ∧ s'.alive c = true ∨
      s.referenced cfg c = false ∧ s'.alive c = false := by
  cases he with
  | @accept c' hc hf ht =>
    by_cases hcc : c = c'
    · subst hcc
      exact .inr (.inl ⟨by rw [hc], Function.update_self ..⟩)
    · exact .inl (Function.update_of_ne hcc ..)
  | @newConnection k r c' p hs hc ht ho =>
    by_cases hcc : c = c'
    · subst hcc
      exact .inr (.inl ⟨by rw [hc], Function.update_self ..⟩)
    · exact .inl (Function.update_of_ne hcc ..)
  | @destroy c' ha hr hu hf =>
    by_cases hcc : c = c'
    · subst hcc
      exact .inr (.inr ⟨hr, Function.update_self ..⟩)
    · exact .inl (Function.update_of_ne hcc ..)
  | attempt hs ht hf hn ho => cases hs <;> exact .inl rfl
  | attemptFailed hs => cases hs <;> exact .inl rfl
  | _ => exact .inl rfl

/-- `connections_` gets an entry under a number that was free, and loses the one of a connection
that is leaving. -/
theorem Effect.connections (hS : Sound cfg d s) (he : Effect cfg d t s s') :
    s'.connections = s.connections ∨
      (∃ c, s.fds c.fd = none ∧ s'.connections = Function.update s.connections c.fd (some c)) ∨
      ∃ c, s.Leaving cfg c ∧ c.owner = .server ∧ s'.Removed c ∧
        s'.connections = Function.update s.connections c.fd none := by
  cases he with
  | accept hc hf ht => exact .inr (.inl ⟨_, hf, rfl⟩)
  | @unlink r c' hs ho ht =>
    exact .inr (.inr ⟨c', .of_closeCb hS hs, ho, removed_unlink (t := t) |>.2 (.inl rfl), rfl⟩)
  | @unlinkTaken l r ks c' hs hq ht =>
    refine .inr (.inr ⟨c', .of_removal hS hq, ?_, ?_, rfl⟩)
    · exact (hS.tasks l (.removeConnectionInLoop c') (hq ▸ List.mem_cons_self)).home.2
    · exact removed_unlink (s := s.dequeue t _ _ _) (t := t) |>.2 (.inl rfl)
  | attempt hs ht hf hn ho => cases hs <;> exact .inl rfl
  | attemptFailed hs => cases hs <;> exact .inl rfl
  | _ => exact .inl rfl

/-- The table is in order, what leaves exists, and the entries of `s₀` are there unless they have
been removed. -/
structure Tabled (cfg : Cfg) (s₀ s : Sys) : Prop where
  table : Table cfg s
  leaving : ∀ c, s.Leaving cfg c → s.alive c = true
  kept : ∀ n c, s₀.connections n = some c → s.connections n = some c ∨ s.Removed c

/-- `CloseHandler` has run since `s₀` on a connection that does not exist. -/
def ClosedDead (cfg : Cfg) (s₀ s : Sys) : Prop :=
  ∃ c, (s₀.ledger cfg c).closes < (s.ledger cfg c).closes ∧ s.alive c = false

theorem Tabled.effect {s₀ : Sys} (h : Tabled cfg s₀ s) (hI : Inv cfg d s) (hd : ¬ d.steals)
    (hle : ∀ c, (s₀.ledger cfg c).closes ≤ (s.ledger cfg c).closes) (he : Effect cfg d t s s') :
    ClosedDead cfg s₀ s' ∨ Tabled cfg s₀ s' := by
  by_cases hdead : ClosedDead cfg s₀ s'
  · exact .inl hdead
  have hgrow := fun c => (he.ledger hI.sound (hI.life c)).grows
  refine .inr ⟨h.table.effect hI.sound hd h.leaving he, fun c hl => ?_, fun n c hn => ?_⟩
  · rcases (hgrow c).2.2 hl with hl | hlt
    · have hal := h.leaving c hl
      rcases he.alive c with hal' | ⟨-, hal'⟩ | ⟨hr, -⟩
      · rw [hal', hal]
      · exact hal'
      · exact (Sys.Leaving.not_unreferenced hl (h.table.born c hal).2 hr).elim
    · by_contra hal
      exact hdead ⟨c, Nat.lt_of_le_of_lt (hle c) hlt, Bool.eq_false_iff.2 hal⟩
  · have hmono : s.Removed c → s'.Removed c := fun hr =>
      removed_iff.2 (Nat.lt_of_lt_of_le (removed_iff.1 hr) (hgrow c).2.1)
    refine (h.kept n c hn).elim (fun hc => ?_) fun hr => .inr (hmono hr)
    obtain ⟨hfd, hal, ho, -⟩ := h.table.entry n c hc
    rcases he.connections hI.sound with heq | ⟨c', hf, heq⟩ | ⟨c', hl, ho', hr, heq⟩
    · exact .inl (heq ▸ hc)
    · refine .inl ?_
      rw [heq, Function.update_of_ne fun hnc => h.table.fd_ne hf hal (hfd.trans hnc), hc]
    · by_cases hnc : n = c'.fd
      · obtain rfl := h.table.sole c c' hal (h.leaving c' hl) ho ho' (hfd.trans hnc)
        exact .inr hr
      · exact .inl (by rw [heq, Function.update_of_ne hnc, hc])

theorem ClosedDead.effect {s₀ : Sys} (h : ClosedDead cfg s₀ s) (hI : Inv cfg d s)
    (he : Effect cfg d t s s') : ClosedDead cfg s₀ s' := by
  obtain ⟨c, hlt, hal⟩ := h
  have hgrow := (he.ledger hI.sound (hI.life c)).grows.1
  refine ⟨c, Nat.lt_of_lt_of_le hlt hgrow, ?_⟩
  rcases he.alive c with hal' | ⟨hser, -⟩ | ⟨-, hal'⟩
  · rw [hal', hal]
  · -- a connection that was closed is no new one
    have hcl : 0 < (s.conns c).num .closeHandler := Nat.lt_of_le_of_lt (Nat.zero_le _) hlt
    rw [hI.sound.pristine c (Nat.le_of_eq hser.symm)] at hcl
    cases hcl
  · exact hal'

/-! ## A step -/

/-- The connection whose function the step runs exists. -/
def RunsAlive (s : Sys) : Act → Prop
  | .thread t _ => ∀ f r, s.stack t = f :: r → ∀ c, f.on? s = some c → s.alive c = true
  | _ => True

/-- What `CloseHandler` has run on in the step exists. -/
theorem RunsAlive.alive {a : Act} (h : RunsAlive s a) (hI : Inv cfg d s)
    (hs : step cfg s a = some s')
    (hlt : (s.conns c).num .closeHandler < (s'.conns c).num .closeHandler) : s'.alive c = true := by
  rcases step_cases hs with ⟨t, inp, f, r, gs, s₁, rfl, hst, he, rfl⟩ |
    ⟨t, inp, f, r, e, rfl, hst, he, rfl⟩ | ⟨c', rfl, -, -, rfl⟩ | ⟨n, rfl, -, rfl⟩ | ⟨n, rfl, -, rfl⟩
  · have hon : f.on? s = some c := by
      by_contra hon
      exact absurd (exec_closes hI hst he hon) (Nat.not_le.2 hlt)
    exact ((exec_failed hI hst).2 s₁ gs he).2 c (h f r hst c hon)
  all_goals exact absurd hlt (Nat.lt_irrefl _)

def Discipline.unstolen : Discipline := { Discipline.any with steals := False }

theorem ClosesOwn.allows {a : Act} (h : ClosesOwn cfg s a) : Discipline.unstolen.Allows cfg s a := by
  cases a with
  | thread t inp =>
    intro f r hs
    simp only [ClosesOwn, hs] at h
    cases f with
    | closeIdle => exact ⟨.inl (.inr h), .inr trivial⟩
    | writeEventRest k fd => exact fun e he he0 => .inl (.inr (h e he he0))
    | user | closeHandler | readHandler | writeHandlerRest | loopTasks =>
      simp [Discipline.AllowsFrame, Discipline.unstolen, Discipline.any]
    | _ => trivial
  | destroy c => exact ⟨.inr trivial, .inl h⟩
  | openFd | closeFd => trivial

/-- From a state in which the table is in order, a step leaves it so. -/
theorem Tabled.step {a : Act} (h : Tabled cfg s s) (hI : Inv cfg .unstolen s)
    (ho : ClosesOwn cfg s a) (hc : RunsAlive s a) (hs : Net.step cfg s a = some s') :
    Tabled cfg s s' := by
  obtain ⟨t, hes, -⟩ := step_effects hI ho.allows hs
  let J : Sys → Prop := fun s₁ => (∀ c, (s.ledger cfg c).closes ≤ (s₁.ledger cfg c).closes) ∧
    (ClosedDead cfg s s₁ ∨ Tabled cfg s s₁)
  have hJ : J s' := by
    refine (Inv.effects (I := J) (fun s₁ s₂ hI₁ hi he => ⟨fun c => ?_, ?_⟩) hI
      ⟨fun _ => Nat.le_refl _, .inr h⟩ hes).2
    · exact Nat.le_trans (hi.1 c) (he.ledger hI₁.sound (hI₁.life c)).grows.1
    · rcases hi.2 with hdead | htab
      · exact .inl (hdead.effect hI₁ he)
      · exact htab.effect hI₁ id hi.1 he
  refine hJ.2.resolve_left ?_
  rintro ⟨c, hlt, hal⟩
  rw [hc.alive hI hs hlt] at hal
  cases hal

theorem Tabled.init : Tabled cfg (Sys.init cfg) (Sys.init cfg) := by
  refine ⟨⟨nofun, nofun, nofun, nofun, nofun⟩, fun c hl => ?_, nofun⟩
  have hcl := ((Inv.init : Inv cfg .unstolen (Sys.init cfg)).life c).closes
  unfold Sys.Leaving at hl
  have h0 : ((Sys.init cfg).ledger cfg c).closes = 0 := rfl
  omega

theorem Tabled.restart {s₀ : Sys} (h : Tabled cfg s₀ s) : Tabled cfg s s :=
  ⟨h.table, h.leaving, fun _ _ => .inl⟩

end Liang.Net

import NetworkPoller.Net.Conditions
import NetworkPoller.Event.Proof.PollerSync

/-!
# Everything stands where it belongs

`Sound cfg d s`: every frame fits its thread, every functor its loop and every channel its poller,
and what they point to is established and, unless the run dangles, alive; the pollers' books are in
order; `ConnectEstablished` is queued once for a new connection and nothing else knows it yet. The
operations of the model keep it (`Sound.push`, `Sound.queueInLoop`, ...), and so does every effect
(`Sound.effect`).
-/

namespace Liang.Net

open Base TcpConnection EpollPoller

/-- A client's connection is on the client's loop. -/
def ConnId.Wf (cfg : Cfg) (c : ConnId) : Prop := ∀ k, c.owner = .client k → c.loop = cfg.clientLoop k

structure Sound (cfg : Cfg) (d : Discipline) (s : Sys) : Prop where
  frames : ∀ t, ∀ f ∈ s.stack t, f.Fits cfg d (s.view d) t
  tasks : ∀ l, ∀ k ∈ s.queue l, k.Fits cfg d (s.view d) l
  active : ∀ l, ∀ i ∈ s.active l, i.Fits cfg (s.view d) l
  chans : ∀ l i, ((s.pollers l).chan i).status ≠ .newChannel → i.Fits cfg (s.view d) l
  books : ∀ l, (s.pollers l).Book (ChanId.fd cfg)
  held : ∀ c, s.held c = true → s.Live d c
  client : ∀ k c, (s.clients k).connection = some c → s.Live d c
  wf : ∀ c, s.Est c → c.Wf cfg
  pristine : ∀ c, s.nextSerial ≤ c.serial → s.conns c = {}
  pending : ∀ l c, .connectEstablished c ∈ s.queue l →
    ¬ s.Est c ∧ s.There d c ∧ c.serial < s.nextSerial
  once : ∀ c, (s.queue c.loop).count (.connectEstablished c) ≤ 1

variable {cfg : Cfg} {d : Discipline} {s s' : Sys} {t : Tid}

/-! ## Views -/

/-- `V'` allows what `V` allows. -/
structure View.Le (V V' : View) : Prop where
  live : ∀ c, V.live c → V'.live c
  shut : ∀ c, V.shut c → V'.shut c

theorem View.Le.trans {V V' V'' : View} (h : V.Le V') (h' : V'.Le V'') : V.Le V'' :=
  ⟨fun c hc => h'.live c (h.live c hc), fun c hc => h'.shut c (h.shut c hc)⟩

theorem view_updConn {c : ConnId} {f : Conn → Conn} (hm : s.Est c → (f (s.conns c)).Est)
    (hz : (s.conns c).closer ≠ none → (f (s.conns c)).closer ≠ none) :
    (s.view d).Le ((s.updConn c f).view d) := by
  refine ⟨fun c' hc' => ⟨?_, hc'.2⟩, fun c' hc' => ?_⟩ <;> by_cases hcc : c' = c
  · subst hcc
    rw [Sys.Est, Sys.updConn_self]
    exact hm hc'.1
  · rw [Sys.Est, Sys.updConn_of_ne _ hcc]
    exact hc'.1
  · subst hcc
    simp only [Sys.view, Sys.updConn_self]
    exact hz hc'
  · simp only [Sys.view, Sys.updConn_of_ne _ hcc]
    exact hc'

theorem view_note {c : ConnId} (es : List ConnEv) : (s.view d).Le ((s.note c es).view d) :=
  view_updConn (List.mem_append_left _) id

theorem view_setState {c : ConnId} (st : ConnState) :
    (s.view d).Le ((setState c st s).view d) := view_updConn id id

theorem view_closeConn {c : ConnId} (p : EpollPoller ChanId) :
    (s.view d).Le ((s.closeConn c p).view d) :=
  ((view_setState _).trans (view_note _)).trans (view_note _)

theorem Frame.Fits.mono {V V' : View} {f : Frame} (h : f.Fits cfg d V t) (hV : V.Le V') :
    f.Fits cfg d V' t :=
  ⟨h.home, fun c hc => hV.live c (h.about c hc), h.reads, fun l c hc => hV.shut c (h.shut l c hc)⟩

theorem Task.Fits.mono {V V' : View} {l : LoopId} {k : Task} (h : k.Fits cfg d V l)
    (hV : V.Le V') : k.Fits cfg d V' l :=
  ⟨h.home, fun c hc => (h.about c hc).imp_right (hV.live c), h.reads,
    fun c hc => hV.shut c (h.shut c hc)⟩

theorem ChanId.Fits.mono {V V' : View} {l : LoopId} {i : ChanId} (h : i.Fits cfg V l)
    (hV : V.Le V') : i.Fits cfg V' l :=
  ⟨h.home, fun c hc => hV.live c (h.about c hc)⟩

/-- A frame that neither calls `StartRead` nor queues a `ShutdownInLoop`. -/
theorem Frame.Fits.of {V : View} {f : Frame} (hh : f.Home cfg t)
    (ha : ∀ c, f.about = some c → V.live c) (hr : ∀ c, f ≠ .api (.startRead c))
    (hs : ∀ l c, f ≠ .queueInLoop l (.shutdownInLoop c)) : f.Fits cfg d V t :=
  ⟨hh, ha, fun c hc => absurd hc (hr c), fun l c hc => absurd hc (hs l c)⟩

/-- A functor that neither arms a channel nor shuts a socket down. -/
theorem Task.Fits.of {V : View} {l : LoopId} {k : Task} (hh : k.Home cfg l)
    (ha : ∀ c, k.conn? = some c → V.live c) (hr : ∀ c, k ≠ .startReadInLoop c)
    (hs : ∀ c, k ≠ .shutdownInLoop c) : k.Fits cfg d V l :=
  ⟨hh, fun c hc => .inr (ha c hc), fun c hc => absurd hc (hr c), fun c hc => absurd hc (hs c)⟩

theorem Frame.Fits.user {V : View} {c : ConnId} (h : V.live c) :
    (Frame.user (some c)).Fits cfg d V t :=
  .of trivial (fun c' hc' => by cases hc'; exact h) nofun nofun

theorem Frame.Fits.plainUser {V : View} : (Frame.user none).Fits cfg d V t :=
  .of trivial nofun nofun nofun

theorem Frame.Fits.closeCb {V : View} {c : ConnId} (ht : t = .loop c.loop) (h : V.live c) :
    (Frame.closeCb c).Fits cfg d V t :=
  .of ht (fun c' hc' => by cases hc'; exact h) nofun nofun

theorem Frame.Fits.taskDone {V : View} {k : Task} (h : ∀ c, k.conn? = some c → V.live c) :
    (Frame.taskDone k).Fits cfg d V t := .of trivial h nofun nofun

theorem Frame.Fits.loopPoll {V : View} {l : LoopId} (ht : t = .loop l) :
    (Frame.loopPoll l).Fits cfg d V t := .of ht nofun nofun nofun

theorem Task.Fits.connectorStart {V : View} (k : ClientId) :
    (Task.connectorStart k).Fits cfg d V (cfg.clientLoop k) := .of rfl nofun nofun nofun

theorem Task.Fits.connectorReset {V : View} (k : ClientId) :
    (Task.connectorReset k).Fits cfg d V (cfg.clientLoop k) := .of rfl nofun nofun nofun

theorem mem_statusFrames {c : ConnId} {f : Frame} (h : f ∈ statusFrames c s) :
    f = .user (some c) := by
  unfold statusFrames at h
  split at h <;> simp_all

theorem Sound.lt_next (h : Sound cfg d s) {c : ConnId} (hc : s.Est c) : c.serial < s.nextSerial := by
  by_contra hn
  rw [Sys.Est, h.pristine c (Nat.le_of_not_lt hn)] at hc
  cases hc

/-! ## The operations -/

namespace Sound

variable {l : LoopId} {k : Task} {c : ConnId}

theorem push (h : Sound cfg d s) {fs : List Frame}
    (hf : ∀ f ∈ fs, f ∈ s.stack t ∨ f.Fits cfg d (s.view d) t) : Sound cfg d (s.push t fs) :=
  { h with
    frames := fun t' f hm => by
      by_cases ht : t' = t
      · subst ht
        rw [Sys.push_self] at hm
        exact (hf f hm).elim (h.frames _ f) id
      · rw [Sys.push_of_ne _ ht] at hm
        exact h.frames t' f hm }

theorem dequeue (h : Sound cfg d s) {ks : List Task} (hq : s.queue l = k :: ks) :
    Sound cfg d (s.dequeue t l k ks) := by
  have hsub : ∀ l' k', k' ∈ (s.dequeue t l k ks).queue l' → k' ∈ s.queue l' := by
    intro l' k' hm
    by_cases hl : l' = l
    · subst hl
      rw [Sys.dequeue_self] at hm
      exact hq ▸ List.mem_cons_of_mem _ hm
    · rwa [Sys.dequeue_of_ne _ _ hl] at hm
  refine { h with
    tasks := fun l' k' hm => h.tasks l' k' (hsub l' k' hm)
    pending := fun l' c hm => h.pending l' c (hsub l' _ hm)
    once := fun c => ?_ }
  by_cases hl : c.loop = l
  · have := h.once c
    rw [hl, hq] at this
    rw [hl, Sys.dequeue_self]
    exact Nat.le_trans (List.count_le_count_cons ..) this
  · rw [Sys.dequeue_of_ne _ _ hl]
    exact h.once c

theorem queueInLoop_mem {k' : Task} {l' : LoopId} (h : k' ∈ (s.queueInLoop t l k).queue l') :
    k' ∈ s.queue l' ∨ l' = l ∧ k' = k := by
  by_cases hl : l' = l
  · subst hl
    rw [Sys.queueInLoop_self, List.mem_append, List.mem_singleton] at h
    exact h.imp_right fun h => ⟨rfl, h⟩
  · rw [Sys.queueInLoop_of_ne _ _ hl] at h
    exact .inl h

theorem queueInLoop (h : Sound cfg d s) (hk : k.Fits cfg d (s.view d) l)
    (hp : ∀ c, k = .connectEstablished c →
      (¬ s.Est c ∧ s.There d c ∧ c.serial < s.nextSerial) ∧ k ∉ s.queue l) :
    Sound cfg d (s.queueInLoop t l k) := by
  refine { h with
    tasks := fun l' k' hm => ?_
    pending := fun l' c hm => ?_
    once := fun c => ?_ }
  · rcases queueInLoop_mem hm with hm | ⟨rfl, rfl⟩
    · exact h.tasks l' k' hm
    · exact hk
  · rcases queueInLoop_mem hm with hm | ⟨-, hc⟩
    · exact h.pending l' c hm
    · exact (hp c hc.symm).1
  · by_cases hl : c.loop = l
    · subst hl
      rw [Sys.queueInLoop_self, List.count_append]
      by_cases hk' : k = .connectEstablished c
      · have := List.count_eq_zero_of_not_mem (hp c hk').2
        rw [← hk', this]
        simp
      · rw [List.count_singleton]
        simpa [hk'] using h.once c
    · rw [Sys.queueInLoop_of_ne _ _ hl]
      exact h.once c

/-- A functor other than `ConnectEstablished`. -/
theorem queueInLoop_of_ne (h : Sound cfg d s) (hk : k.Fits cfg d (s.view d) l)
    (hn : ∀ c, k ≠ .connectEstablished c) : Sound cfg d (s.queueInLoop t l k) :=
  h.queueInLoop hk fun c hc => absurd hc (hn c)

theorem setPoller (h : Sound cfg d s) {p : EpollPoller ChanId} (hb : p.Book (ChanId.fd cfg))
    (hp : ∀ i, (p.chan i).status ≠ .newChannel →
      ((s.pollers l).chan i).status ≠ .newChannel ∨ i.Fits cfg (s.view d) l) :
    Sound cfg d (s.setPoller l p) := by
  refine { h with
    chans := fun l' i hi => ?_
    books := fun l' => ?_ }
  · by_cases hl : l' = l
    · subst hl
      rw [Sys.setPoller_self] at hi
      exact (hp i hi).elim (h.chans _ i) id
    · rw [Sys.setPoller_of_ne _ hl] at hi
      exact h.chans l' i hi
  · by_cases hl : l' = l
    · subst hl
      rw [Sys.setPoller_self]
      exact hb
    · rw [Sys.setPoller_of_ne _ hl]
      exact h.books l'

/-- A channel of the loop is given a new mask. -/
theorem setEvents (h : Sound cfg d s) {i : ChanId} {g : Mask → Mask} {p : EpollPoller ChanId}
    (ho : (s.pollers l).setEvents (ChanId.fd cfg) i g = .ok p) (hi : i.Fits cfg (s.view d) l) :
    Sound cfg d (s.setPoller l p) := by
  refine h.setPoller (setEvents_book (h.books l) ho) fun j hj => ?_
  by_cases hji : j = i
  · exact .inr (hji ▸ hi)
  · rw [(setEvents_chan ho).2.2 j hji] at hj
    exact .inl hj

/-- A channel of the loop is removed. -/
theorem removeEventChannel (h : Sound cfg d s) {i : ChanId} {p : EpollPoller ChanId}
    (ho : (s.pollers l).removeEventChannel (ChanId.fd cfg) i = .ok p) :
    Sound cfg d (s.setPoller l p) := by
  refine h.setPoller (removeEventChannel_book (h.books l) ho).1 fun j hj => .inl ?_
  obtain ⟨-, hi, hne⟩ := removeEventChannel_chan ho
  by_cases hji : j = i
  · subst hji
    rw [hi] at hj
    exact absurd rfl hj
  · rwa [hne j hji] at hj

/-- More is live; stacks, queues, active lists and pollers are the same. -/
theorem grow (h : Sound cfg d s) (hV : (s.view d).Le (s'.view d)) (hst : s'.stack = s.stack)
    (hq : s'.queue = s.queue) (ha : s'.active = s.active) (hp : s'.pollers = s.pollers)
    (hh : s'.held = s.held) (hc : s'.clients = s.clients) (hw : ∀ c, s'.Est c → c.Wf cfg)
    (hpr : ∀ c, s'.nextSerial ≤ c.serial → s'.conns c = {})
    (hpe : ∀ l c, .connectEstablished c ∈ s.queue l →
      ¬ s'.Est c ∧ s'.There d c ∧ c.serial < s'.nextSerial) : Sound cfg d s' where
  frames t f hf := (h.frames t f (hst ▸ hf)).mono hV
  tasks l k hk := (h.tasks l k (hq ▸ hk)).mono hV
  active l i hi := (h.active l i (ha ▸ hi)).mono hV
  chans l i hi := (h.chans l i (hp ▸ hi)).mono hV
  books l := hp ▸ h.books l
  held c hc' := hV.live c (h.held c (hh ▸ hc'))
  client k c hc' := hV.live c (h.client k c (hc ▸ hc'))
  wf := hw
  pristine := hpr
  pending l c hc' := hpe l c (hq ▸ hc')
  once c := hq ▸ h.once c

/-- A connection that is not established anew keeps what is known of it; one that is, is no longer
waited for in a queue. -/
theorem updConn (h : Sound cfg d s) {f : Conn → Conn} (hlt : c.serial < s.nextSerial)
    (hm : s.Est c → (f (s.conns c)).Est)
    (hz : (s.conns c).closer ≠ none → (f (s.conns c)).closer ≠ none)
    (hg : (f (s.conns c)).Est → s.Est c ∨ c.Wf cfg ∧ ∀ l, .connectEstablished c ∉ s.queue l) :
    Sound cfg d (s.updConn c f) := by
  have hE' : ∀ c', (s.updConn c f).Est c' →
      s.Est c' ∨ c'.Wf cfg ∧ ∀ l, .connectEstablished c' ∉ s.queue l := by
    intro c' hc'
    by_cases hcc : c' = c
    · subst hcc
      rw [Sys.Est, Sys.updConn_self] at hc'
      exact hg hc'
    · rw [Sys.Est, Sys.updConn_of_ne _ hcc] at hc'
      exact .inl hc'
  refine h.grow (view_updConn hm hz) rfl rfl rfl rfl rfl rfl
    (fun c' hc' => (hE' c' hc').elim (h.wf c') (·.1)) (fun c' hc' => ?_) fun l c' hc' => ?_
  · have hcc : c' ≠ c := by
      rintro rfl
      exact Nat.not_le_of_lt hlt hc'
    rw [Sys.updConn_of_ne _ hcc]
    exact h.pristine c' hc'
  · obtain ⟨hne, hrest⟩ := h.pending l c' hc'
    exact ⟨fun he => (hE' c' he).elim hne fun hq => hq.2 l hc', hrest⟩

/-- An update that leaves the trace's `established` and the closer in place. -/
theorem updConn_of_est (h : Sound cfg d s) {f : Conn → Conn} (he : s.Est c)
    (hm : (f (s.conns c)).Est)
    (hz : (s.conns c).closer ≠ none → (f (s.conns c)).closer ≠ none) :
    Sound cfg d (s.updConn c f) :=
  h.updConn (h.lt_next he) (fun _ => hm) hz fun _ => .inl he

theorem note (h : Sound cfg d s) (he : s.Est c) (es : List ConnEv) : Sound cfg d (s.note c es) :=
  h.updConn_of_est he (List.mem_append_left _ he) id

theorem create (h : Sound cfg d s) {x : Conn} (hs : c.serial = s.nextSerial) (hx : x.trace = []) :
    Sound cfg d (s.create c x) := by
  have hold : s.conns c = {} := h.pristine c (Nat.le_of_eq hs.symm)
  have hc : ∀ {c'}, c' ≠ c → (s.create c x).conns c' = s.conns c' := fun h =>
    Function.update_of_ne h ..
  have hself : (s.create c x).conns c = x := Function.update_self ..
  have hE : ∀ c', (s.create c x).Est c' ↔ s.Est c' := by
    intro c'
    by_cases hcc : c' = c
    · subst hcc
      simp only [Sys.Est, Conn.Est, hself, hx, hold]
    · simp only [Sys.Est, hc hcc]
  have hT : ∀ c', s.There d c' → (s.create c x).There d c' := by
    intro c' hc'
    refine hc'.imp_left fun ha => ?_
    by_cases hcc : c' = c
    · subst hcc
      exact Function.update_self ..
    · exact (Function.update_of_ne hcc ..).trans ha
  refine h.grow ⟨fun c' hc' => ⟨(hE c').2 hc'.1, hT c' hc'.2⟩, fun c' hc' => ?_⟩
    rfl rfl rfl rfl rfl rfl (fun c' hc' => h.wf c' ((hE c').1 hc')) (fun c' hc' => ?_)
    fun l c' hc' => ?_
  · by_cases hcc : c' = c
    · subst hcc
      exact absurd (congrArg Conn.closer hold) hc'
    · simp only [Sys.view, hc hcc]
      exact hc'
  · have hlt : s.nextSerial < c'.serial := hc'
    rw [hc fun hcc => absurd hs (hcc ▸ Nat.ne_of_gt hlt)]
    exact h.pristine c' (Nat.le_of_lt hlt)
  · obtain ⟨hne, ht, hlt⟩ := h.pending l c' hc'
    exact ⟨fun he => hne ((hE c').1 he), hT c' ht, Nat.lt_succ_of_lt hlt⟩

theorem closeFd (h : Sound cfg d s) (n : Fd) : Sound cfg d (s.closeFd n) :=
  { h with books := fun l => dropFd_book (h.books l) n }

theorem updClient (h : Sound cfg d s) {k : ClientId} {f : Client → Client}
    (hf : ∀ c, (f (s.clients k)).connection = some c → s.Live d c) :
    Sound cfg d (s.updClient k f) :=
  { h with
    client := fun k' c hc => by
      by_cases hk : k' = k
      · subst hk
        rw [Sys.updClient_self] at hc
        exact hf c hc
      · rw [Sys.updClient_of_ne _ hk] at hc
        exact h.client k' c hc }

theorem dispatch (h : Sound cfg d s) {i : Option ChanId} {is : List ChanId}
    (ha : ∀ j ∈ is, j ∈ s.active l) : Sound cfg d (s.dispatch l i is) :=
  { h with
    active := fun l' j hj => by
      by_cases hl : l' = l
      · subst hl
        simp only [Sys.dispatch, Function.update_self] at hj
        exact h.active _ j (ha j hj)
      · simp only [Sys.dispatch, Function.update_of_ne hl] at hj
        exact h.active l' j hj }

end Sound

/-- What `epoll_wait` reports changes no status, no mask and no book. -/
theorem setRecieved_spec {p : EpollPoller ChanId} (h : p.Book (ChanId.fd cfg))
    (evs : List (Fd × Mask)) :
    (setRecieved p evs).Book (ChanId.fd cfg) ∧
      ∀ i, ((setRecieved p evs).chan i).status = (p.chan i).status ∧
        ((setRecieved p evs).chan i).events = (p.chan i).events := by
  refine List.foldlRecOn evs _ (motive := fun q : EpollPoller ChanId =>
    q.Book (ChanId.fd cfg) ∧ ∀ i, (q.chan i).status = (p.chan i).status ∧
      (q.chan i).events = (p.chan i).events) ⟨h, fun _ => ⟨rfl, rfl⟩⟩ fun q hq e _ => ?_
  obtain ⟨n, ev⟩ := e
  dsimp only
  split
  · rename_i i m _
    refine ⟨setRecievedEvent_book hq.1 i ev, fun j => ?_⟩
    rw [← (hq.2 j).1, ← (hq.2 j).2]
    by_cases hj : j = i
    · subst hj
      simp [setRecievedEvent]
    · simp [setRecievedEvent, Function.update_of_ne hj]
  · exact hq

namespace Sound

variable {l : LoopId} {c : ConnId}

theorem mem_activeChannels {p : EpollPoller ChanId} {evs : List (Fd × Mask)} {i : ChanId}
    (h : i ∈ activeChannels p evs) : ∃ n m, p.interest n = some (i, m) := by
  simp only [activeChannels, List.mem_filterMap, Option.map_eq_some_iff] at h
  obtain ⟨⟨n, ev⟩, -, ⟨i', m⟩, hk, rfl⟩ := h
  exact ⟨n, m, hk⟩

theorem poll (h : Sound cfg d s) (evs : List (Fd × Mask)) : Sound cfg d (s.poll l evs) := by
  obtain ⟨hb, hst⟩ := setRecieved_spec (h.books l) evs
  have h' : Sound cfg d (s.setPoller l (setRecieved (s.pollers l) evs)) :=
    h.setPoller hb fun i hi => .inl ((hst i).1 ▸ hi)
  refine { h' with
    active := fun l' i hi => ?_ }
  by_cases hl : l' = l
  · subst hl
    simp only [Sys.poll, Function.update_self] at hi
    obtain ⟨n, m, hk⟩ := mem_activeChannels hi
    exact h.chans _ i (by rw [((h.books l').polled n i m hk).2]; decide)
  · simp only [Sys.poll, Function.update_of_ne hl] at hi
    exact h.active l' i hi

theorem destroy (h : Sound cfg d s) (hu : s.Unreached c ∨ d.dangles) :
    Sound cfg d (s.destroy c) := by
  -- what is pointed to is another connection, or nobody minds
  have hT : ∀ c', (s.Unreached c → c' ≠ c) → s.There d c' → (s.destroy c).There d c' := by
    intro c' hne hc'
    rcases hu with hu | hu
    · exact hc'.imp_left fun ha => (Function.update_of_ne (hne hu) ..).trans ha
    · exact .inr hu
  have hV : ∀ c', (s.Unreached c → c' ≠ c) → (s.view d).live c' → ((s.destroy c).view d).live c' :=
    fun c' hne hc' => ⟨hc'.1, hT c' hne hc'.2⟩
  exact {
    frames := fun t f hf => { h.frames t f hf with
      about := fun c' hc' => hV c' (fun hu hcc => hu.stack t f hf (hcc ▸ hc'))
        ((h.frames t f hf).about c' hc') }
    tasks := fun l k hk => { h.tasks l k hk with
      about := fun c' hc' => ((h.tasks l k hk).about c' hc').imp_right
        (hV c' fun hu hcc => hu.queue l k hk (hcc ▸ hc')) }
    active := fun l i hi => { h.active l i hi with
      about := fun c' hc' => hV c' (fun hu hcc => hu.active l (hcc ▸ hc' ▸ hi))
        ((h.active l i hi).about c' hc') }
    chans := fun l i hi => { h.chans l i hi with
      about := fun c' hc' => hV c' (fun hu hcc => hi (hc' ▸ hcc ▸ hu.chan l))
        ((h.chans l i hi).about c' hc') }
    books := fun l => dropFd_book (h.books l) c.fd
    held := fun c' hc' => hV c' (fun hu hcc => by
      rw [hcc] at hc'
      exact Bool.noConfusion (hc'.symm.trans hu.held)) (h.held c' hc')
    client := fun k c' hc' => hV c' (fun hu hcc => hu.client k (hcc ▸ hc')) (h.client k c' hc')
    wf := h.wf
    pristine := h.pristine
    pending := fun l c' hc' => by
      obtain ⟨hne, ht, hlt⟩ := h.pending l c' hc'
      exact ⟨hne, hT c' (fun hu hcc => hu.queue l _ hc' (hcc ▸ rfl)) ht, hlt⟩
    once := h.once }

/-- `ConnectEstablished` on a connection that nothing waits for. -/
theorem establish (h : Sound cfg d s) (hlt : c.serial < s.nextSerial) (hw : c.Wf cfg)
    (ht : s.There d c) (hq : ∀ l, .connectEstablished c ∉ s.queue l) {p : EpollPoller ChanId}
    (ho : (s.pollers c.loop).enableReading (ChanId.fd cfg) (.conn c) = .ok p) :
    Sound cfg d (s.establish c p) ∧ (s.establish c p).Live d c := by
  have h1 : Sound cfg d (setState c .connected s) := h.updConn hlt id id .inl
  have he : ((setState c .connected s).note c [.established]).Live d c := by
    refine ⟨?_, ht⟩
    rw [Sys.Est, Sys.note, Sys.updConn_self]
    exact List.mem_append_right _ (List.mem_singleton_self _)
  have h2 : Sound cfg d ((setState c .connected s).note c [.established]) :=
    h1.updConn hlt (List.mem_append_left _) id fun _ => .inr ⟨hw, hq⟩
  have h3 := h2.setEvents ho ⟨rfl, fun c' hc' => by cases hc'; exact he⟩
  exact ⟨h3.note he.1 _, (view_note _).live c he⟩

/-- `CloseHandler` on an established connection. -/
theorem closeConn (h : Sound cfg d s) (hl : s.Live d c) {p : EpollPoller ChanId}
    (ho : (s.pollers c.loop).disableAll (ChanId.fd cfg) (.conn c) = .ok p) :
    Sound cfg d (s.closeConn c p) := by
  have h1 : Sound cfg d (setState c .disconnected s) := h.updConn_of_est hl.1 hl.1 id
  have he : (setState c .disconnected s).Live d c := (view_setState _).live c hl
  have he' := (view_note (c := c) [.closeHandler]).live c he
  exact ((h1.note he.1 [.closeHandler]).setEvents ho
    ⟨rfl, fun c' hc' => by cases hc'; exact he'⟩).note he'.1 _

theorem unlink (h : Sound cfg d s) (hl : s.Live d c) : Sound cfg d (s.unlink t c) := by
  have h1 : Sound cfg d { s with connections := Function.update s.connections c.fd none } :=
    { h with }
  have h2 := h1.note hl.1 [.destroyQueued]
  refine h2.queueInLoop_of_ne (.of rfl (fun c' hc' => ?_) nofun nofun) nofun
  cases hc'
  exact (view_note _).live c hl

/-! ## The effects -/

/-- The thread of a loop's frame is the loop's. -/
theorem loop_thread (h : Sound cfg d s) {f : Frame} {r : List Frame} (hs : s.stack t = f :: r) :
    f.Home cfg t := (h.frames t f (hs ▸ List.mem_cons_self)).home

/-- The connection the top frame is about. -/
theorem frame_live (h : Sound cfg d s) {f : Frame} {r : List Frame} (hs : s.stack t = f :: r)
    (hc : f.about = some c) : s.Live d c :=
  (h.frames t f (hs ▸ List.mem_cons_self)).about c hc

/-- The connection the first functor of a queue is about. -/
theorem task_live (h : Sound cfg d s) {k : Task} {ks : List Task} (hq : s.queue l = k :: ks)
    (hc : k.conn? = some c) (hk : k ≠ .connectEstablished c) : s.Live d c :=
  ((h.tasks l k (hq ▸ List.mem_cons_self)).about c hc).resolve_left hk

/-- What is left under a frame fits. -/
theorem below (h : Sound cfg d s) {f : Frame} {r : List Frame} (hs : s.stack t = f :: r) :
    ∀ g ∈ r, g.Fits cfg d (s.view d) t :=
  fun g hg => h.frames t g (hs ▸ List.mem_cons_of_mem _ hg)

/-- What is left after a functor fits. -/
theorem after_task (h : Sound cfg d s) {k : Task} {r : List Frame}
    (hs : s.stack t = .loopTasks l :: r) (hk : ∀ c, k.conn? = some c → s.Live d c) :
    ∀ g ∈ Frame.taskDone k :: .loopPoll l :: r, g.Fits cfg d (s.view d) t := by
  intro g hg
  simp only [List.mem_cons] at hg
  rcases hg with rfl | rfl | hg
  · exact .taskDone hk
  · exact .loopPoll (h.loop_thread hs)
  · exact h.below hs g hg

theorem rest (h : Sound cfg d s) {r : List Frame} (hr : Rest d s t r) :
    ∀ g ∈ r, g.Fits cfg d (s.view d) t := by
  cases hr with
  | frame hs _ => exact h.below hs
  | task hs hk => exact h.after_task hs hk

end Sound

theorem Enter.same {w : Bool} {T : Tid} {m : Msg} {x x' : Conn} (h : Enter w T m x x') :
    x'.trace = x.trace ∧ x'.closer = x.closer ∧ x'.state = x.state := by
  cases h <;> exact ⟨rfl, rfl, rfl⟩

theorem ConnStep.grows {c : ConnId} {w : Bool} {x x' : Conn} (h : ConnStep d t c w x x') :
    (x.Est → x'.Est) ∧ (x.closer ≠ none → x'.closer ≠ none) := by
  cases h with
  | msg _ => exact ⟨List.mem_append_left _, id⟩
  | send _ he => rw [Conn.Est, Conn.Est, he.same.1, he.same.2.1]; exact ⟨id, id⟩
  | shutdown _ => exact ⟨id, fun _ => Option.some_ne_none _⟩
  | misc | drain | shut | forceClose => exact ⟨id, id⟩

namespace Sound

variable {l : LoopId} {c : ConnId}

theorem enter (h : Sound cfg d s) (he : s.Est c) {w : Bool} {T : Tid} {m : Msg} {x' : Conn}
    (hx : Enter w T m (s.conns c) x') : Sound cfg d (s.updConn c fun _ => x') := by
  refine h.updConn_of_est he ?_ ?_
  · rw [Conn.Est, hx.same.1]
    exact he
  · rw [hx.same.2.1]
    exact id

theorem startSource (h : Sound cfg d s) {k : ClientId} {s₀ : Sys} {r : List Frame}
    (hs : StartSource t k s s₀ r) :
    Sound cfg d s₀ ∧ (∀ g ∈ r, g.Fits cfg d (s.view d) t) ∧ s₀.view d = s.view d ∧
      s₀.clients = s.clients ∧ s₀.pollers = s.pollers := by
  cases hs with
  | frame hs => exact ⟨h, h.below hs, rfl, rfl, rfl⟩
  | task hs hq => exact ⟨h.dequeue hq, h.after_task hs nofun, rfl, rfl, rfl⟩

/-- The loop goes on with another frame of its own. -/
theorem again {f g : Frame} {r : List Frame} (hs : s.stack t = f :: r)
    (hh : g.Home cfg t) (hg : g.isLoop = true) :
    ∀ f ∈ g :: r, f ∈ s.stack t ∨ f.Fits cfg d (s.view d) t := by
  intro f hf
  rcases List.mem_cons.1 hf with rfl | hf
  · refine .inr (.of hh ?_ ?_ ?_) <;> cases f <;> cases hg <;> nofun
  · exact .inl (hs ▸ List.mem_cons_of_mem _ hf)

/-- **Every effect keeps the system sound.** -/
theorem effect (h : Sound cfg d s) (he : Effect cfg d t s s') : Sound cfg d s' := by
  cases he with
  | poll hs hp => exact (h.poll _).push (again hs (h.loop_thread hs :) rfl)
  | @dispatch l r i is hs ha =>
    have hi := h.active l i (ha ▸ List.mem_cons_self)
    refine (h.dispatch fun j hj => ha ▸ List.mem_cons_of_mem _ hj).push fun f hf => ?_
    rcases List.mem_cons.1 hf with rfl | hf
    · refine .inr (.of ?_ (fun c hc => ?_) nofun nofun)
      · rw [Frame.Home, hi.home]
        exact h.loop_thread hs
      · cases i with
        | conn c' => cases hc; exact hi.about c rfl
        | acceptor => cases hc
        | connector => cases hc
    · exact .inl (hs ▸ hf)
  | dispatched hs ha =>
    exact (h.dispatch fun _ hj => absurd hj List.not_mem_nil).push (again hs (h.loop_thread hs :) rfl)
  | idle hs hq => exact h.push (again hs (h.loop_thread hs :) rfl)
  | dequeue hs hq hk => exact h.dequeue hq
  | finish hr hg =>
    refine h.push fun f hf => .inr ?_
    rcases List.mem_append.1 hf with hf | hf
    · exact (hg f hf).2.1
    · exact h.rest hr f hf
  | enqueue hk hf =>
    refine h.queueInLoop_of_ne hf fun c hc => ?_
    subst hc
    rcases hk with hk | ⟨c', hk⟩ <;> cases hk
  | conn he hx => exact h.updConn_of_est he.1 (hx.grows.1 he.1) hx.grows.2
  | @events i g p ht ho hi =>
    refine h.setEvents ho ⟨rfl, fun c hc => ?_⟩
    subst hc
    exact hi.1
  | @sendQueued c m he ht =>
    have h1 := h.updConn_of_est he.1 (f := fun x => { x with sent := x.sent ++ [(t, m)] }) he.1 id
    refine h1.queueInLoop_of_ne (.of ⟨rfl, ht⟩ (fun c' hc' => ?_) nofun nofun) nofun
    cases hc'
    exact ⟨by rw [Sys.Est, Sys.updConn_self]; exact he.1, he.2⟩
  | sendTaken hs hq hx => exact (h.dequeue hq).enter (h.task_live hq rfl nofun).1 hx
  | @shutTaken l r ks c x' hs hq hx =>
    have he := (h.task_live hq rfl nofun).1
    refine (h.dequeue hq).updConn_of_est he ?_ ?_
    · rcases hx with rfl | ⟨-, rfl⟩ <;> exact he
    · rcases hx with rfl | ⟨-, rfl⟩ <;> exact id
  | @establish l r ks c p hs hq ht ho =>
    have hm : Task.connectEstablished c ∈ s.queue l := hq ▸ List.mem_cons_self
    obtain ⟨hne, hth, hlt⟩ := h.pending l c hm
    obtain ⟨hl, hown⟩ := (h.tasks l _ hm).home
    have hnq : ∀ l', .connectEstablished c ∉ (s.dequeue t l (.connectEstablished c) ks).queue l' := by
      intro l' hm'
      have hl' := (((h.dequeue (t := t) hq).tasks l' _ hm').home).1
      have := h.once c
      rw [← hl, hq, List.count_cons_self] at this
      rw [hl', ← hl, Sys.dequeue_self] at hm'
      have := List.count_pos_iff.2 hm'
      omega
    obtain ⟨h1, hlive⟩ := (h.dequeue (t := t) hq).establish hlt (fun k hk => by
      rw [hown] at hk; cases hk) hth hnq ho
    refine h1.push fun f hf => .inr ?_
    rcases List.mem_append.1 hf with hf | hf
    · rw [mem_statusFrames hf]
      exact .user hlive
    · simp only [List.mem_cons] at hf
      rcases hf with rfl | rfl | hf
      · exact .taskDone fun c' hc' => by cases hc'; exact hlive
      · exact .loopPoll (h.loop_thread hs)
      · exact h1.frames t f (show f ∈ s.stack t from hs ▸ List.mem_cons_of_mem _ hf)
  | @close r c p hr he ht hc ho =>
    refine (h.closeConn he ho).push fun f hf => .inr ?_
    have hV : (s.view d).Le ((s.closeConn c p).view d) := view_closeConn p
    rcases List.mem_append.1 hf with hf | hf
    · rw [mem_statusFrames hf]
      exact .user (hV.live c he)
    · rcases List.mem_cons.1 hf with rfl | hf
      · exact .closeCb ht (hV.live c he)
      · exact (h.rest hr f hf).mono hV
  | @sendFailed l r ks c T m p hs hq ht hd ho =>
    have hl := h.task_live hq rfl nofun
    have hV := (view_updConn (d := d) (s := s.dequeue t l (.sendInLoop c T m) ks) (c := c)
      (f := fun x => { x with entered := x.entered ++ [(T, m)] }) id id)
    have h1 := ((h.dequeue (t := t) hq).updConn_of_est (c := c)
      (f := fun x => { x with entered := x.entered ++ [(T, m)] }) hl.1 hl.1 id)
    refine (h1.closeConn (hV.live c hl) ho).push fun f hf => .inr ?_
    have hV := hV.trans (view_closeConn (c := c) p)
    rcases List.mem_append.1 hf with hf | hf
    · rw [mem_statusFrames hf]
      exact .user (hV.live c hl)
    · rcases List.mem_cons.1 hf with rfl | hf
      · exact .closeCb ht (hV.live c hl)
      · exact (h.after_task hs (fun c' hc' => by cases hc'; exact hl) f hf).mono hV
  | @handOver r c hs ho =>
    have hl := h.frame_live hs rfl
    have hV : (s.view d).Le ((s.note c [.closeCb]).view d) := view_note _
    have hk : (Task.removeConnectionInLoop c).Fits cfg d ((s.note c [.closeCb]).view d)
        cfg.serverLoop :=
      .of ⟨rfl, ho⟩ (fun c' hc' => by cases hc'; exact hV.live c hl) nofun nofun
    exact ((h.note hl.1 _).queueInLoop_of_ne hk nofun).push fun f hf =>
      .inr ((h.below hs f hf).mono hV)
  | @unlink r c hs ho ht =>
    have hl := h.frame_live hs rfl
    have hV : (s.view d).Le ((s.note c [.closeCb]).view d) := view_note _
    exact ((h.note hl.1 _).unlink (hV.live c hl)).push fun f hf =>
      .inr ((h.below hs f hf).mono (hV.trans (view_note _)))
  | @unlinkTaken l r ks c hs hq ht =>
    have hl := h.task_live hq rfl nofun
    exact ((h.dequeue hq).unlink hl).push fun f hf =>
      .inr ((h.after_task hs (fun c' hc' => by cases hc'; exact hl) f hf).mono (view_note _))
  | @unlinkClient r c k hs ho ht =>
    have hl := h.frame_live hs rfl
    have hV : (s.view d).Le ((s.note c [.closeCb]).view d) := view_note _
    have h1 := ((h.note hl.1 [.closeCb]).updClient (k := k)
      (f := fun x => { x with connection := none }) nofun).note (hV.live c hl).1 [.destroyQueued]
    have hV' := hV.trans (view_note (c := c) [.destroyQueued])
    have hk : (Task.connectDestoryed c).Fits cfg d
        (((s.note c [.closeCb]).note c [.destroyQueued]).view d) c.loop :=
      .of rfl (fun c' hc' => by cases hc'; exact hV'.live c hl) nofun nofun
    exact (h1.queueInLoop_of_ne hk nofun).push fun f hf => .inr ((h.below hs f hf).mono hV')
  | @destroyed l r ks c p hs hq ht ho =>
    have hl := h.task_live hq rfl nofun
    exact (((h.dequeue (t := t) hq).removeEventChannel ho).note hl.1 _).push fun f hf =>
      .inr ((h.after_task hs (fun c' hc' => by cases hc'; exact hl) f hf).mono (view_note _))
  | @accept c hc hf ht =>
    have hser : c.serial = s.nextSerial := by rw [hc]
    have h1 := h.create (x := TcpServer.newConn cfg) hser rfl
    have h2 : Sound cfg d { s.create c (TcpServer.newConn cfg) with
        connections := Function.update s.connections c.fd (some c) } := { h1 with }
    refine h2.queueInLoop ⟨⟨rfl, by rw [hc]⟩, fun c' hc' => .inl (by cases hc'; rfl), nofun, nofun⟩
      fun c' hc' => ?_
    cases hc'
    refine ⟨⟨fun he => ?_, .inl (Function.update_self ..), hser ▸ Nat.lt_succ_self _⟩, fun hm => ?_⟩
    · rw [Sys.Est, show Sys.conns _ c = TcpServer.newConn cfg from Function.update_self ..] at he
      cases he
    · exact absurd (h.pending _ c hm).2.2 (hser ▸ Nat.lt_irrefl _)
  | connect hr hs =>
    refine (h.updClient fun c hc => h.client _ c hc).push fun f hf => .inr ?_
    rcases List.mem_cons.1 hf with rfl | hf
    · exact .of trivial nofun nofun nofun
    · exact h.rest hr f hf
  | connectQueued hs =>
    exact ((h.updClient fun c hc => h.client _ c hc).queueInLoop_of_ne
      (.connectorStart _) nofun).push fun f hf => .inr (h.below hs f hf)
  | @attempt k s₀ r fd n p hs ht hf hn ho =>
    obtain ⟨h₀, hr, hV, hcl, hpo⟩ := h.startSource hs
    have h1 : Sound cfg d (s₀.openFd fd (.connector k)) := { h₀ with }
    have h2 := h1.updClient (k := k) (f := fun x =>
      { x with attempts := n + 1, channel := some (n, fd), phase := .polling n fd })
      fun c hc => h1.client k c hc
    have hi : (ChanId.connector k n fd).Fits cfg (s₀.view d) (cfg.clientLoop k) := ⟨rfl, nofun⟩
    rw [← hpo] at ho
    exact (h2.setEvents ho hi).push fun f hf => .inr (hV ▸ hr f hf)
  | attemptFailed hs =>
    obtain ⟨h₀, hr, hV, hcl, hpo⟩ := h.startSource hs
    exact (h₀.updClient fun c hc => h₀.client _ c hc).push fun f hf => .inr (hV ▸ hr f hf)
  | @handled k n fd r gs hs hg =>
    refine h.push fun f hf => .inr ?_
    rcases List.mem_append.1 hf with hf | hf
    · rcases hg with rfl | rfl
      · exact absurd hf List.not_mem_nil
      · rw [List.mem_singleton.1 hf]
        exact .of (h.loop_thread hs :) nofun nofun nofun
    · exact h.below hs f hf
  | @removeChannel k r n fd p p' hs ht hk ho hp =>
    have h1 : Sound cfg d (s.setPoller (cfg.clientLoop k) p') := by
      have hb := setEvents_book (h.books _) ho
      refine h.setPoller (removeEventChannel_book hb hp).1 fun i hi => .inl ?_
      by_cases hik : i = .connector k n fd
      · subst hik
        exact absurd (removeEventChannel_book hb hp).2 hi
      · rwa [(removeEventChannel_chan hp).2.2 i hik, (setEvents_chan ho).2.2 i hik] at hi
    refine ((h1.updClient fun c hc => h.client k c hc).queueInLoop_of_ne
      (.connectorReset k) nofun).push fun f hf => .inr ?_
    rcases List.mem_cons.1 hf with rfl | hf
    · exact .of ht nofun nofun nofun
    · exact h.below hs f hf
  | @retry k fd r hs hf =>
    exact (((h.closeFd fd).updClient fun c hc => h.client k c hc).queueInLoop_of_ne
      (.connectorStart k) nofun).push fun f hf => .inr (h.below hs f hf)
  | @newConnection k r c p hs hc ht ho =>
    have hser : c.serial = s.nextSerial := by rw [hc]
    have hown : c.owner = .client k := by rw [hc]
    have hloop : c.loop = cfg.clientLoop k := by rw [hc]
    have h1 := h.create (x := TcpClient.newConn cfg k) hser rfl
    obtain ⟨h2, hl⟩ := h1.establish (hser ▸ Nat.lt_succ_self _)
      (fun k' hk' => by rw [hown] at hk'; cases hk'; exact hloop) (.inl (Function.update_self ..))
      (fun l hm => absurd (h.pending l c hm).2.2 (hser ▸ Nat.lt_irrefl _)) ho
    have h3 := h2.updClient (k := k) (f := fun x => { x with connection := some c, phase := .ended })
      fun c' hc' => by cases hc'; exact hl
    refine Sound.push h3 fun f hf => ?_
    rcases List.mem_append.1 hf with hf | hf
    · split at hf <;> simp at hf
      subst hf
      exact .inr (.user hl)
    · exact .inl (show f ∈ s.stack t from hs ▸ List.mem_cons_of_mem _ hf)
  | @reset l r ks k hs hq =>
    exact ((h.dequeue hq).updClient fun c hc => h.client k c hc).push fun f hf =>
      .inr (h.after_task (k := .connectorReset k) hs nofun f hf)
  | openFd hn hu => exact { h with }
  | closeFd hn hk => exact h.closeFd _
  | destroy ha hr hu hf => exact h.destroy hu
  | @hold c b he =>
    refine { h with held := fun c' hc' => ?_ }
    by_cases hcc : c' = c
    · subst hcc
      exact he
    · exact h.held c' (by simpa only [Function.update_of_ne hcc] using hc')
  | start | initPool => exact { h with }
  | stop => exact { h with }

end Sound

end Liang.Net

import NetworkPoller.Net.Proof.Input

/-!
# Both ends of a connection

A TCP connection has an end in two processes, each a run of the system of its own with its own loops
and threads: the one that called `Connect`, the other that accepted it. `Link` runs the two side by
side. The network is what TCP promises: a read brings a first part of the bytes that the kernel of
the other end has accepted and that are not yet read (`Link.inFlight`).

* `behind_reach`: the bytes accepted are a first part of the messages entered, also when the
  connection is closed at any point.
* `delivered`: user code at one end takes a first part of the messages of the other end's threads,
  each thread's in the order of its calls of `Send`.
* `round_trip`: with an echo at the other end it gets its own bytes back.
-/

namespace Liang.Net

open Base TcpConnection

variable {d : Discipline} {t : Tid} {c : ConnId}

/-! ## Accepted bytes -/

/-- What a step into `DISCONNECTED`, or in it, does to the output. -/
structure Conn.Settles (x y : Conn) : Prop where
  wrapped : y.wrapped = x.wrapped
  pending : x.writeBuffer.Wf →
    y.out ++ y.writeBuffer.readable = x.out ++ x.writeBuffer.readable
  stream : x.stream <+: y.stream

namespace Conn.Settles

variable {x y : Conn}

theorem of_same (hw : y.wrapped = x.wrapped) (ho : y.out = x.out) (hb : y.writeBuffer = x.writeBuffer)
    (he : y.entered = x.entered) : x.Settles y :=
  ⟨hw, fun _ => by rw [ho, hb], by simp [Conn.stream, he]⟩

/-- The message is dropped. -/
theorem entered (x : Conn) (T : Tid) (m : Msg) :
    x.Settles { x with entered := x.entered ++ [(T, m)] } :=
  ⟨rfl, fun _ => rfl, by simp [Conn.stream]⟩

theorem trans {z : Conn} (h : x.Settles y) (h' : y.Settles z) (hb : y.writeBuffer = x.writeBuffer) :
    x.Settles z :=
  ⟨h'.wrapped.trans h.wrapped, fun hwf => (h'.pending (hb ▸ hwf)).trans (h.pending hwf),
    h.stream.trans h'.stream⟩

theorem enter {w : Bool} {T : Tid} {m : Msg} (h : Enter w T m x y) (hd : y.state = .disconnected) :
    x.Settles y := by
  cases h with
  | dropped => exact entered x T m
  | written hs | empty hs | kept _ hs => exact absurd hd hs

theorem connStep {w : Bool} (h : ConnStep d t c w x y) (hd : y.state = .disconnected) :
    x.Settles y := by
  cases h with
  | @send m _ ht he =>
    have hsent : x.Settles { x with sent := x.sent ++ [(t, m)] } := of_same rfl rfl rfl rfl
    exact hsent.trans (enter he hd) rfl
  | drain n hn =>
    refine ⟨rfl, fun hwf => ?_, List.prefix_refl _⟩
    show x.out ++ x.writeBuffer.readable.take n ++ (x.writeBuffer.clearReadIndex n).readable = _
    rw [(Buffer.clearReadIndex_spec hwf n).2, List.append_assoc, List.take_append_drop]
  | misc | msg | shut => exact of_same rfl rfl rfl rfl
  | shutdown | forceClose => cases hd

end Conn.Settles

theorem CellStep.settles {a b : Cell} (h : CellStep d t c a b)
    (hd : b.conn.state = .disconnected) : a.conn.Settles b.conn := by
  cases h with
  | create hp hq hx =>
    obtain ⟨cm, cw, cs, rfl⟩ := hx
    cases hd
  | establish => cases hd
  | conn he h => exact .connStep h hd
  | sendTaken he hT hq hx => exact .enter hx hd
  | sendFailed => exact .trans (.entered ..) (.of_same rfl rfl rfl rfl) rfl
  | shutTaken he hq hz hx =>
    rcases hx with rfl | ⟨-, rfl⟩
    all_goals exact .of_same rfl rfl rfl rfl
  | events | sendQueued | shutQueued | close | closeCb | unlink | destroyed =>
    exact .of_same rfl rfl rfl rfl

/-- The kernel takes back no byte. -/
theorem CellStep.out_le {a b : Cell} (h : CellStep d t c a b) : a.conn.out <+: b.conn.out := by
  have enter {w : Bool} {T : Tid} {m : Msg} {x y : Conn} (he : Enter w T m x y) :
      x.out <+: y.out := by
    cases he with
    | dropped | empty => exact List.prefix_refl _
    | written | kept => exact List.prefix_append ..
  cases h with
  | create hp =>
    rw [hp]
    exact List.nil_prefix
  | conn he h =>
    cases h with
    | @send m _ ht he => exact enter (x := { a.conn with sent := a.conn.sent ++ [(t, m)] }) he
    | drain => exact List.prefix_append ..
    | misc | msg | shut | shutdown | forceClose => exact List.prefix_refl _
  | sendTaken he hT hq hx => exact enter hx
  | shutTaken he hq hz hx =>
    rcases hx with rfl | ⟨-, rfl⟩
    all_goals exact List.prefix_refl _
  | establish | events | sendQueued | sendFailed | shutQueued | close | closeCb | unlink | destroyed =>
    exact List.prefix_refl _

/-- Bytes accepted or pending are a first part of the messages entered. -/
def Conn.Behind (x : Conn) : Prop :=
  x.wrapped = false → x.out ++ x.writeBuffer.readable <+: x.stream

theorem CellStep.behind {a b : Cell} (hf : a.Flows) (ha : a.conn.Behind) (h : CellStep d t c a b) :
    b.conn.Behind := by
  intro hw
  by_cases hd : b.conn.state = .disconnected
  · have hset := h.settles hd
    have hwa : a.conn.wrapped = false := hset.wrapped ▸ hw
    rw [hset.pending (hf hwa).1]
    exact (ha hwa).trans hset.stream
  · exact ((hf.step h hw).2 hd).1 ▸ List.prefix_refl _

section

variable {cfg : Cfg} {s s' : Sys} {P : Sys → Act → Prop}

theorem behind_reach (h : Runs.Reach (step cfg) P (Sys.init cfg) s) (c : ConnId) :
    (s.conns c).Behind := by
  have hcell : (s.cell c).Flows ∧ (s.cell c).conn.Behind :=
    Cell.reach (d := .any) (I := fun a => a.Flows ∧ a.conn.Behind)
      ⟨fun _ => ⟨Buffer.wf_new _, fun _ => ⟨rfl, fun _ => rfl⟩⟩, fun _ => List.prefix_refl _⟩
      (fun _ _ _ ha hs => ⟨ha.1.step hs, hs.behind ha.1 ha.2⟩)
      (fun _ _ _ _ _ _ _ => Discipline.any_allows) h
  exact hcell.2

theorem step_out_le {a : Act} (h : Runs.Reach (step cfg) P (Sys.init cfg) s)
    (hst : step cfg s a = some s') (c : ConnId) : (s.conns c).out <+: (s'.conns c).out := by
  obtain ⟨t, hes, -⟩ := step_effects (Inv.any h) Discipline.any_allows hst
  have hI := Inv.effects (I := fun s₁ => (s.conns c).out <+: (s₁.conns c).out)
    (fun s₁ s₂ hI hi he => Cell.effect (I := fun a => (s.conns c).out <+: a.conn.out)
      (fun a b ha hab => ha.trans hab.out_le) hI hi he)
    (Inv.any h) (List.prefix_refl _) hes
  exact hI.2

end

/-! ## The two ends -/

/-- The ends of a connection. -/
inductive Side
  | near
  | far
  deriving DecidableEq

def Side.other : Side → Side
  | near => far
  | far => near

theorem Side.other_other (i : Side) : i.other.other = i := by cases i <;> rfl

theorem Side.other_ne (i : Side) : i.other ≠ i := by cases i <;> nofun

/-- Two processes, with the bytes that the reads of the connection have brought at each end and
those that user code has taken. -/
structure Link where
  sys : Side → Sys
  got : Side → List UInt8
  took : Side → List UInt8

namespace Link

variable (cfg : Side → Cfg) (c : Side → ConnId)

def init : Link := ⟨fun i => Sys.init (cfg i), fun _ => [], fun _ => []⟩

/-- The connection at its end `i`. -/
def conn (x : Link) (i : Side) : Conn := (x.sys i).conns (c i)

/-- What the other end's kernel has accepted and this end has not read. -/
def inFlight (x : Link) (i : Side) : List UInt8 := (x.conn c i.other).out.drop (x.got i).length

/-- A step of one of the processes. -/
def step (x : Link) : Side × Act → Option Link
  | (i, a) =>
    let evs := inputAt (c i) (x.sys i) a
    if received evs <+: x.inFlight c i then
      (Net.step (cfg i) (x.sys i) a).map fun s =>
        { sys := Function.update x.sys i s
          got := Function.update x.got i (x.got i ++ received evs)
          took := Function.update x.took i (x.took i ++ taken evs) }
    else none

/-- The indices of the read buffers stay below `2 ^ 32`, and user code puts nothing of its own in. -/
def Fits (x : Link) (a : Side × Act) : Prop :=
  InputFits (c a.1) (x.sys a.1) a.2 ∧ puts (inputAt (c a.1) (x.sys a.1) a.2) = []

instance (x : Link) (a : Side × Act) : Decidable (Fits c x a) :=
  inferInstanceAs (Decidable (_ ∧ _))

variable {cfg c} {x : Link}

/-- Each process makes a run of its own. -/
theorem logged (h : Runs.Reach (step cfg c) (Fits c) (init cfg) x) (i : Side) :
    ∃ L, Runs.Logged (Net.step (cfg i)) (InputFits (c i)) (inputAt (c i)) (Sys.init (cfg i)) L
      (x.sys i) ∧ received L = x.got i ∧ taken L = x.took i ∧ puts L = [] := by
  refine h.inv (I := fun x => ∃ L, Runs.Logged (Net.step (cfg i)) (InputFits (c i)) (inputAt (c i))
    (Sys.init (cfg i)) L (x.sys i) ∧ received L = x.got i ∧ taken L = x.took i ∧ puts L = [])
    ⟨[], .init, rfl, rfl, rfl⟩ ?_
  rintro x ⟨j, a⟩ x' _ ⟨L, hL, hgot, htook, hputs⟩ hfit hst
  rw [step, Option.ite_none_right_eq_some] at hst
  obtain ⟨-, hst⟩ := hst
  obtain ⟨s, hs, rfl⟩ := Option.map_eq_some_iff.1 hst
  by_cases hj : i = j
  · subst hj
    simp only [Function.update_self]
    refine ⟨_, .snoc hL hfit.1 hs, ?_, ?_, ?_⟩
    · rw [← hgot, received, received, received, List.flatMap_append]
    · rw [← htook, taken, taken, taken, List.flatMap_append]
    · have hnew := hfit.2
      simp only [puts] at hputs hnew ⊢
      rw [List.flatMap_append, hputs, hnew, List.append_nil]
  · simp only [Function.update_of_ne hj]
    exact ⟨L, hL, hgot, htook, hputs⟩

/-- What an end has read, the other end's kernel has accepted. -/
theorem got_le (h : Runs.Reach (step cfg c) (Fits c) (init cfg) x) (i : Side) :
    x.got i <+: (x.conn c i.other).out := by
  refine h.inv (I := fun x => x.got i <+: (x.conn c i.other).out) List.nil_prefix ?_
  rintro x ⟨j, a⟩ x' hr hle - hst
  obtain ⟨L, hL, -⟩ := logged hr j
  rw [step, Option.ite_none_right_eq_some] at hst
  obtain ⟨hflight, hst⟩ := hst
  obtain ⟨s, hs, rfl⟩ := Option.map_eq_some_iff.1 hst
  by_cases hj : i = j
  · subst hj
    simp only [conn, Function.update_self, Function.update_of_ne i.other_ne]
    obtain ⟨rest, hrest⟩ := hle
    rw [inFlight, ← hrest, List.drop_left] at hflight
    rw [conn] at hrest
    rw [← hrest]
    exact (List.prefix_append_right_inj _).2 hflight
  · have hij : i.other = j := by
      cases i <;> cases j <;> first | rfl | exact absurd rfl hj
    subst hij
    simp only [conn, Function.update_self, Function.update_of_ne hj]
    exact hle.trans (step_out_le hL.reach hs _)

/-- What user code has taken at one end was entered at the other. -/
theorem took_le (h : Runs.Reach (step cfg c) (Fits c) (init cfg) x) (i : Side)
    (hok : (x.sys i).failed = none) (hw : (x.conn c i.other).wrapped = false) :
    x.took i <+: (x.conn c i.other).stream := by
  obtain ⟨L, hL, hgot, htook, hputs⟩ := logged h i
  obtain ⟨L', hL', -⟩ := logged h i.other
  have htaken : x.took i <+: x.got i := by
    rw [← hgot, ← htook, ← filled_of_no_puts hputs, (holds_reach hL hok).stream]
    exact List.prefix_append ..
  have hout : (x.conn c i.other).out <+: (x.conn c i.other).stream :=
    (List.prefix_append ..).trans (behind_reach hL'.reach _ hw)
  exact (htaken.trans (got_le h i)).trans hout

/-- **Delivery.** In every run of two processes that share a connection, whatever either of them
does, closing included, the bytes user code has taken at one end are a first part of the messages
entered at the other, none lost, doubled or reordered, and the messages of each thread there are
entered in the order of its calls of `Send`. -/
theorem delivered (h : Runs.Reach (step cfg c) (Fits c) (init cfg) x) (i : Side)
    (hok : (x.sys i).failed = none) (hw : (x.conn c i.other).wrapped = false) :
    x.took i <+: ((x.conn c i.other).entered.map (·.2)).flatten ∧
      ∀ T, (x.conn c i.other).enteredBy T <+: (x.conn c i.other).sentBy T := by
  obtain ⟨L, hL, -⟩ := logged h i.other
  exact ⟨took_le h i hok hw, fun T => ⟨_, (ordered_reach hL.reach _).order T⟩⟩

/-- A client at the near end, a server at the far one. -/
def sampleEnds : Side → ConnId
  | .near => ⟨0, 5, 0, .client 0⟩
  | .far => sampleConn

/-- The client connects, and its status callback sends two bytes. The server reads both, takes them
and sends them back. The client reads one. -/
def sampleTrip : List (Side × Act) :=
  (loopActs [
    .call (.connect 0), .cas false, .connect (some 5) (some eInProgress) 0, .ret,
    .poll [], .none, .none, .poll [(5, pollOut)], .none, .none, .none, .soError 0,
    .call (.send (sampleEnds .near) [1, 2]), .write (.accepted 2), .ret, .none, .none, .none]).map
      (.near, ·) ++
  (sampleStart ++ loopActs [
    .poll [(5, pollIn)], .none, .none,
    .read (.data [1, 2]), .call (.buffer sampleConn (.readBytes 2)), .none,
    .call (.send sampleConn [1, 2]), .write (.accepted 2), .ret, .read (.error eAgain)]).map
      (.far, ·) ++
  (loopActs [
    .poll [(5, pollIn)], .none, .none,
    .read (.data [1]), .call (.buffer (sampleEnds .near) (.readBytes 1)), .none]).map (.near, ·)

/-- The trip as a run, with what is seen of its end. -/
theorem sampleTrip_reach : ∃ x, Runs.run (step (fun _ => .sample) sampleEnds)
      (init fun _ => .sample) sampleTrip = some x ∧
    Runs.Reach (step (fun _ => .sample) sampleEnds) (Fits sampleEnds) (init fun _ => .sample) x ∧
    (x.took .near = [1] ∧ x.took .far = [1, 2] ∧ ∀ j, (x.sys j).failed = none ∧
      (x.conn sampleEnds j).wrapped = false ∧ (x.conn sampleEnds j).sent = [(.loop 0, [1, 2])]) := by
  have hrun : (Runs.run (step (fun _ => .sample) sampleEnds) (init fun _ => .sample) sampleTrip).map
      (fun x => (x.took .near, x.took .far, [Side.near, .far].all fun j =>
        (x.sys j).failed = none ∧ (x.conn sampleEnds j).wrapped = false ∧
          (x.conn sampleEnds j).sent = [(.loop 0, [1, 2])])) =
      some ([1], [1, 2], true) := by decide +kernel
  obtain ⟨x, hx, hv, hr⟩ := Runs.Reach.of_map _ hrun (P := Fits sampleEnds) (by decide +kernel)
  simp only [Prod.mk.injEq, List.all_eq_true, decide_eq_true_eq] at hv
  obtain ⟨hnear, hfar, hall⟩ := hv
  exact ⟨x, hx, hr, hnear, hfar, fun j => hall j (by cases j <;> decide)⟩

theorem delivered_sample :
    ∃ x, Runs.run (step (fun _ => .sample) sampleEnds) (init fun _ => .sample) sampleTrip = some x ∧
      x.took .far = [1, 2] ∧
      x.took .far <+: ((x.conn sampleEnds .near).entered.map (·.2)).flatten := by
  obtain ⟨x, hx, hr, -, hfar, hall⟩ := sampleTrip_reach
  exact ⟨x, hx, hfar, (delivered hr .far (hall .far).1 (hall .near).2.1).1⟩

/-- The bytes sent at an end, where one thread sends. -/
def sent (c : Side → ConnId) (x : Link) (i : Side) : List UInt8 :=
  ((x.conn c i).sent.map (·.2)).flatten

/-- One thread sends. -/
theorem stream_le_sent {T : Tid} (h : Runs.Reach (step cfg c) (Fits c) (init cfg) x) (i : Side)
    (hT : ∀ e ∈ (x.conn c i).sent, e.1 = T) : (x.conn c i).stream <+: x.sent c i := by
  obtain ⟨L, hL, -⟩ := logged h i
  obtain ⟨ms, hms⟩ := entered_of_single hL.reach hT
  rw [Link.sent, conn, ← hms, List.flatten_append]
  exact List.prefix_append ..

/-- **The round trip of an echo.** One thread sends at each end, and the other end has sent no more
than a first part of what it has taken. Then the bytes taken here are a first part of those sent
here, in every interleaving of the threads of both processes and the network. -/
theorem round_trip {T T' : Tid} (h : Runs.Reach (step cfg c) (Fits c) (init cfg) x) (i : Side)
    (hok : ∀ j, (x.sys j).failed = none) (hw : ∀ j, (x.conn c j).wrapped = false)
    (hT : ∀ e ∈ (x.conn c i).sent, e.1 = T) (hT' : ∀ e ∈ (x.conn c i.other).sent, e.1 = T')
    (hecho : x.sent c i.other <+: x.took i.other) : x.took i <+: x.sent c i := by
  have hback : x.took i <+: x.took i.other :=
    ((took_le h i (hok i) (hw _)).trans (stream_le_sent h i.other hT')).trans hecho
  have hforth : x.took i.other <+: x.sent c i := by
    have hle := took_le h i.other (hok _) (by rw [i.other_other]; exact hw i)
    rw [i.other_other] at hle
    exact hle.trans (stream_le_sent h i hT)
  exact hback.trans hforth

theorem round_trip_sample :
    ∃ x, Runs.run (step (fun _ => .sample) sampleEnds) (init fun _ => .sample) sampleTrip = some x ∧
      x.took .near = [1] ∧ x.took .near <+: [1, 2] := by
  obtain ⟨x, hx, hr, hnear, hfar, hall⟩ := sampleTrip_reach
  have hsent : ∀ j, x.sent sampleEnds j = [1, 2] := by
    intro j
    rw [Link.sent, (hall j).2.2]
    rfl
  have hT : ∀ j, ∀ e ∈ (x.conn sampleEnds j).sent, e.1 = .loop 0 := by
    intro j e he
    rw [(hall j).2.2, List.mem_singleton] at he
    rw [he]
  have hecho : x.sent sampleEnds .far <+: x.took .far := by simp [hsent, hfar]
  refine ⟨x, hx, hnear, ?_⟩
  rw [← hsent .near]
  exact round_trip hr .near (fun j => (hall j).1) (fun j => (hall j).2.1) (hT .near) (hT .far) hecho

end Link

end Liang.Net

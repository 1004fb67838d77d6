import NetworkPoller.Net.Proof.Cell
import NetworkPoller.Base.Proof.BufferFifo

/-!
# The output of a connection

`Conn.Flows`: what the kernel has accepted, followed by what `write_buffer_` holds, is the
concatenation of the messages for which `SendInLoop` was entered, and the buffer is empty unless the
channel asks for write events. `Cell.Ordered`: the messages of a thread that were entered, followed
by those still queued, are what it gave to `Send`. Both are kept by every step of a connection, which
gives the output stream of every run (`output_stream`).

`Cell.Closing` follows a `Shutdown`: its functor stands in the queue behind the messages its thread
had sent (`Covered`), so that when it reaches the socket they are written. `WriteHandler` shuts the
socket down as well, without the queue: `shutdown_overtakes` is a run in which it gets ahead of a
message, `shutdown_delivers` what holds in the runs where it does not.
-/

namespace Liang.Net

open Base TcpConnection

variable {cfg : Cfg} {d : Discipline} {s : Sys} {t : Tid} {c : ConnId} {T : Tid} {m : Msg}

/-! ## The stream -/

/-- The messages entered, one after the other. -/
def Conn.stream (x : Conn) : List UInt8 := (x.entered.map (·.2)).flatten

/-- Nothing is lost, doubled or reordered (module doc); `w` is `IsWriting`. -/
def Conn.Flows (w : Bool) (x : Conn) : Prop :=
  x.wrapped = false → x.writeBuffer.Wf ∧ (x.state ≠ .disconnected →
    x.out ++ x.writeBuffer.readable = x.stream ∧ (w = false → x.writeBuffer.readable = []))

theorem readable_nil_iff {b : Buffer} (h : b.Wf) : b.readableBytes = 0 ↔ b.readable = [] := by
  rw [← h.length_readable, List.length_eq_zero_iff]

namespace Conn.Flows

variable {w w' : Bool} {x x' : Conn}

/-- Changes of the trace, the state or the callbacks. -/
theorem of_same (h : x.Flows w) (hb : x'.writeBuffer = x.writeBuffer) (ho : x'.out = x.out)
    (he : x'.entered = x.entered) (hw : x'.wrapped = x.wrapped)
    (hs : x'.state ≠ .disconnected → x.state ≠ .disconnected) : x'.Flows w := by
  intro hwr
  obtain ⟨hwf, hst⟩ := h (hw ▸ hwr)
  refine ⟨hb ▸ hwf, fun hs' => ?_⟩
  rw [hb, ho, stream, he]
  exact hst (hs hs')

/-- The channel asks for other events; it stops writing with an empty buffer only. -/
theorem of_writing (h : x.Flows w)
    (hw : w' = false → w = true → x.writeBuffer.readableBytes = 0) : x.Flows w' := by
  intro hwr
  obtain ⟨hwf, hst⟩ := h hwr
  refine ⟨hwf, fun hs => ⟨(hst hs).1, fun hw' => ?_⟩⟩
  cases w with
  | false => exact (hst hs).2 rfl
  | true => exact (readable_nil_iff hwf).1 (hw hw' rfl)

theorem of_disconnected (h : x.Flows w) (hb : x'.writeBuffer = x.writeBuffer)
    (hw : x'.wrapped = x.wrapped) (hs : x'.state = .disconnected) : x'.Flows w' :=
  fun hwr => ⟨hb ▸ (h (hw ▸ hwr)).1, fun hs' => absurd hs hs'⟩

theorem enter (h : x.Flows w) (he : Enter w T m x x') : x'.Flows w := by
  cases he with
  | dropped hd => exact h.of_disconnected rfl rfl hd
  | written hs hz =>
    intro hwr
    obtain ⟨hwf, hst⟩ := h hwr
    have hnil := (readable_nil_iff hwf).1 hz
    refine ⟨hwf, fun _ => ⟨?_, fun _ => hnil⟩⟩
    have hflow := (hst hs).1
    rw [hnil, List.append_nil] at hflow
    simp [stream, hnil, hflow]
  | kept n hs hn hz hw =>
    intro hwr
    obtain ⟨hwr0, hlt⟩ : x.wrapped = false ∧
        x.writeBuffer.writeIndex + (m.drop n).length < u32Size := by
      simpa [append] using hwr
    obtain ⟨hwf, hst⟩ := h hwr0
    obtain ⟨hwf', hread, -⟩ := Buffer.append_spec hwf hlt
    refine ⟨hwf', fun _ => ⟨?_, fun hf => by rw [hw] at hf; cases hf⟩⟩
    -- the part written goes out in front of an empty buffer, or is empty itself
    have hsplit : x.out ++ m.take n ++ (x.writeBuffer.readable ++ m.drop n) =
        x.out ++ x.writeBuffer.readable ++ m := by
      rcases hz with rfl | hz
      · simp
      · simp [(readable_nil_iff hwf).1 hz]
    show x.out ++ m.take n ++ (x.writeBuffer.append (m.drop n)).readable = _
    rw [hread, hsplit, (hst hs).1]
    simp [stream, append]
  | empty hs hm =>
    intro hwr
    obtain ⟨hwf, hst⟩ := h hwr
    refine ⟨hwf, fun _ => ⟨?_, (hst hs).2⟩⟩
    rw [(hst hs).1]
    simp [stream, hm]

theorem connStep (h : x.Flows w) (hx : ConnStep d t c w x x') : x'.Flows w := by
  cases hx with
  | @send m _ ht he =>
    have h₁ : Conn.Flows w { x with sent := x.sent ++ [(t, m)] } := h.of_same rfl rfl rfl rfl id
    exact h₁.enter he
  | drain n hn =>
    intro hwr
    obtain ⟨hwf, hst⟩ := h hwr
    obtain ⟨hwf', hread⟩ := Buffer.clearReadIndex_spec hwf n
    refine ⟨hwf', fun hs => ⟨?_, fun hw => ?_⟩⟩
    · show x.out ++ x.writeBuffer.readable.take n ++ (x.writeBuffer.clearReadIndex n).readable = _
      rw [hread, List.append_assoc, List.take_append_drop]
      exact (hst hs).1
    · show (x.writeBuffer.clearReadIndex n).readable = []
      rw [hread, (hst hs).2 hw, List.drop_nil]
  | shutdown hc => exact h.of_same rfl rfl rfl rfl fun _ => by rw [hc]; nofun
  | forceClose hc => exact h.of_same rfl rfl rfl rfl fun _ => by rw [hc]; nofun
  | misc | msg | shut => exact h.of_same rfl rfl rfl rfl id

end Conn.Flows

/-- The cell's output flows. -/
def Cell.Flows (a : Cell) : Prop := a.conn.Flows a.writing

theorem Cell.Flows.step {a b : Cell} (h : a.Flows) (hs : CellStep d t c a b) : b.Flows := by
  cases hs with
  | create hp hq hx =>
    obtain ⟨cm, cw, cs, rfl⟩ := hx
    exact fun _ => ⟨Buffer.wf_new _, fun _ => ⟨rfl, fun _ => rfl⟩⟩
  | establish hn hd hst =>
    have h₁ : a.conn.established.Flows a.writing := Conn.Flows.of_same h rfl rfl rfl rfl fun _ => hd
    show a.conn.established.Flows (Event.writeEventFlag &&& (a.events ||| _) != 0)
    rw [writing_enableReading]
    exact h₁
  | conn he hx => exact Conn.Flows.connStep h hx
  | events he hc hw hst =>
    refine Conn.Flows.of_writing h fun hf => hw ?_
    simpa [Cell.writing] using hf
  | sendQueued he ht => exact Conn.Flows.of_same h rfl rfl rfl rfl id
  | sendTaken he hT hq hx => exact Conn.Flows.enter h hx
  | sendFailed he hT hq hs hst => exact Conn.Flows.of_disconnected h rfl rfl rfl
  | shutQueued hz => exact h
  | shutTaken he hq hz hx =>
    rcases hx with rfl | ⟨-, rfl⟩
    · exact h
    · exact Conn.Flows.of_same h rfl rfl rfl rfl id
  | close he hc hst => exact Conn.Flows.of_disconnected h rfl rfl rfl
  | closeCb hd => exact Conn.Flows.of_same h rfl rfl rfl rfl id
  | unlink hcl => exact Conn.Flows.of_same h rfl rfl rfl rfl id
  | destroyed hcl hev hst => exact Conn.Flows.of_same h rfl rfl rfl rfl id

/-! ## The order of a thread's messages -/

/-- The messages of `T` among functors. -/
def sendsOf (T : Tid) : List Task → List Msg
  | [] => []
  | .sendInLoop _ T' m :: ks => if T' = T then m :: sendsOf T ks else sendsOf T ks
  | _ :: ks => sendsOf T ks

theorem sendsOf_append (T : Tid) : ∀ ks ks', sendsOf T (ks ++ ks') = sendsOf T ks ++ sendsOf T ks'
  | [], _ => rfl
  | k :: ks, ks' => by
    have ih := sendsOf_append T ks ks'
    cases k with
    | sendInLoop c T' m =>
      simp only [List.cons_append, sendsOf, ih]
      split <;> rfl
    | _ => exact ih

/-- The messages of `T` in a history. -/
def messagesOf (T : Tid) (h : List (Tid × Msg)) : List Msg := (h.filter (·.1 = T)).map (·.2)

theorem messagesOf_append (T : Tid) (h : List (Tid × Msg)) (e : Tid × Msg) :
    messagesOf T (h ++ [e]) = messagesOf T h ++ if e.1 = T then [e.2] else [] := by
  simp only [messagesOf, List.filter_append, List.map_append, List.filter_cons, List.filter_nil,
    decide_eq_true_eq]
  split <;> rfl

/-- What was entered and what is queued is what was sent, thread by thread; the loop's own thread
queues nothing. -/
structure Cell.Ordered (c : ConnId) (a : Cell) : Prop where
  order : ∀ T, messagesOf T a.conn.entered ++ sendsOf T a.tasks = messagesOf T a.conn.sent
  own : sendsOf (.loop c.loop) a.tasks = []

theorem Enter.history {w : Bool} {x x' : Conn} (h : Enter w T m x x') :
    x'.entered = x.entered ++ [(T, m)] ∧ x'.sent = x.sent ∧ x'.closer = x.closer ∧
      x'.shutWr = x.shutWr := by
  cases h <;> exact ⟨rfl, rfl, rfl, rfl⟩

namespace Cell.Ordered

variable {a b : Cell}

/-- The histories and the queue are the same. -/
theorem of_same (h : a.Ordered c) (he : b.conn.entered = a.conn.entered)
    (hs : b.conn.sent = a.conn.sent) (hq : b.tasks = a.tasks) : b.Ordered c :=
  ⟨fun T => by rw [he, hs, hq]; exact h.order T, hq ▸ h.own⟩

/-- The first message of the queue is entered. -/
theorem taken (h : a.Ordered c) {ks : List Task} (hT : T ≠ .loop c.loop)
    (hq : a.tasks = .sendInLoop c T m :: ks) (he : b.conn.entered = a.conn.entered ++ [(T, m)])
    (hs : b.conn.sent = a.conn.sent) (hb : b.tasks = ks) : b.Ordered c := by
  refine ⟨fun T' => ?_, ?_⟩
  · have := h.order T'
    rw [hq] at this
    rw [he, hs, hb, ← this, messagesOf_append]
    by_cases hTT : T = T' <;> simp [sendsOf, hTT]
  · have := h.own
    rw [hq] at this
    rw [hb]
    simpa [sendsOf, hT] using this

theorem step (h : a.Ordered c) (hs : CellStep d t c a b) : b.Ordered c := by
  cases hs with
  | create hp hq hx =>
    obtain ⟨cm, cw, cs, rfl⟩ := hx
    exact ⟨fun T => by simp [hq, messagesOf, sendsOf], by simp [hq, sendsOf]⟩
  | conn he hx =>
    cases hx with
    | send ht hen =>
      obtain ⟨h1, h2, -, -⟩ := hen.history
      refine ⟨fun T => ?_, h.own⟩
      have := h.order T
      show messagesOf T _ ++ sendsOf T a.tasks = messagesOf T _
      rw [h1, h2, messagesOf_append, messagesOf_append, ← this]
      by_cases hT : t = T
      · subst hT
        have hown := h.own
        rw [← ht] at hown
        simp [hown]
      · simp [hT]
    | misc | msg | drain | shut | shutdown | forceClose => exact h.of_same rfl rfl rfl
  | @sendQueued m he ht =>
    refine ⟨fun T => ?_, ?_⟩
    · have := h.order T
      show messagesOf T a.conn.entered ++ sendsOf T (a.tasks ++ _) = messagesOf T (a.conn.sent ++ _)
      rw [sendsOf_append, messagesOf_append, ← List.append_assoc, this]
      by_cases hT : t = T <;> simp [sendsOf, hT]
    · show sendsOf _ (a.tasks ++ _) = []
      rw [sendsOf_append, h.own]
      simp [sendsOf, ht]
  | sendTaken he hT hq hx =>
    obtain ⟨h1, h2, -, -⟩ := hx.history
    exact h.taken hT hq h1 h2 rfl
  | sendFailed he hT hq hs hst => exact h.taken hT hq rfl rfl rfl
  | shutQueued hz =>
    refine ⟨fun T => ?_, ?_⟩
    · show _ ++ sendsOf T (a.tasks ++ _) = _
      rw [sendsOf_append]
      simpa [sendsOf] using h.order T
    · show sendsOf _ (a.tasks ++ _) = []
      rw [sendsOf_append, h.own]
      rfl
  | @shutTaken ks x' he hq hz hx =>
    have h' : Cell.Ordered c { a with tasks := ks } :=
      ⟨fun T => by have := h.order T; rwa [hq] at this, by have := h.own; rwa [hq] at this⟩
    rcases hx with rfl | ⟨-, rfl⟩
    · exact h'
    · exact h'.of_same rfl rfl rfl
  | establish | events | close | closeCb | unlink | destroyed => exact h.of_same rfl rfl rfl

end Cell.Ordered

/-! ## Every run -/

theorem flows_reach {P : Sys → Act → Prop} (h : Runs.Reach (step cfg) P (Sys.init cfg) s)
    (c : ConnId) : (s.cell c).Flows :=
  Cell.reach (d := .any) (I := Cell.Flows)
    (fun _ => ⟨Buffer.wf_new _, fun _ => ⟨rfl, fun _ => rfl⟩⟩) (fun _ _ _ h hs => h.step hs)
    (fun _ _ _ _ _ _ _ => Discipline.any_allows) h

theorem ordered_reach {P : Sys → Act → Prop} (h : Runs.Reach (step cfg) P (Sys.init cfg) s)
    (c : ConnId) : (s.cell c).Ordered c :=
  Cell.reach (d := .any) (I := Cell.Ordered c) ⟨fun _ => rfl, rfl⟩ (fun _ _ _ h hs => h.step hs)
    (fun _ _ _ _ _ _ _ => Discipline.any_allows) h

/-- **The output stream.** In every run, as long as `write_buffer_`'s indices have not reached
`2 ^ 32` and the connection is not `DISCONNECTED`, the bytes the kernel has accepted followed by the
readable bytes of `write_buffer_` are the messages for which `SendInLoop` was entered, whole and in
that order; and those of a thread are the first of its calls of `Send`, in their order. -/
theorem output_stream (h : Runs.Reach (step cfg) (fun _ _ => True) (Sys.init cfg) s) (c : ConnId)
    (hw : (s.conns c).wrapped = false) (hst : (s.conns c).state ≠ .disconnected) :
    (s.conns c).out ++ (s.conns c).writeBuffer.readable = ((s.conns c).entered.map (·.2)).flatten ∧
      ∀ T, (s.conns c).enteredBy T <+: (s.conns c).sentBy T :=
  ⟨((flows_reach h c hw).2 hst).1, fun T => ⟨_, (ordered_reach h c).order T⟩⟩

/-- A user's thread sends two messages; the kernel takes a byte of the first, the rest is buffered
with the second, and a write event takes one byte more. -/
def sampleSends : List Act :=
  sampleStart ++
  [.thread (.user 7) (.call (.send sampleConn [1, 2, 3])), .thread (.user 7) .none,
    .thread (.user 7) (.call (.send sampleConn [4])), .thread (.user 7) .none] ++
  loopActs [
    .poll [], .none, .write (.accepted 1), .none,
    .poll [], .none, .none, .none,
    .poll [(5, pollOut)], .none, .none, .write (.accepted 1)]

theorem output_stream_sample :
    ∃ s, Runs.run (step .sample) (Sys.init .sample) sampleSends = some s ∧
      (s.conns sampleConn).out = [1, 2] ∧
      (s.conns sampleConn).out ++ (s.conns sampleConn).writeBuffer.readable = [1, 2, 3, 4] ∧
      (s.conns sampleConn).enteredBy (.user 7) <+: (s.conns sampleConn).sentBy (.user 7) := by
  have hrun : (Runs.run (step .sample) (Sys.init .sample) sampleSends).map
      (fun s => ((s.conns sampleConn).out, (s.conns sampleConn).entered.map (·.2),
        (s.conns sampleConn).wrapped, (s.conns sampleConn).state)) =
      some ([1, 2], [[1, 2, 3], [4]], false, .connected) := by decide +kernel
  obtain ⟨s, hs, hx, hr⟩ := Runs.Reach.of_map _ hrun
    (Runs.admits_of_forall (fun _ _ => trivial) _ _)
  simp only [Prod.mk.injEq] at hx
  obtain ⟨ho, he, hw, hst⟩ := hx
  have hmain := output_stream hr sampleConn hw (by rw [hst]; decide)
  exact ⟨s, hs, ho, by rw [hmain.1, he]; rfl, hmain.2 (.user 7)⟩

/-! ## Shutdown -/

/-- With `e` messages of `T` entered so far, `n` are by the time each `ShutdownInLoop` of the queue
is reached. -/
def Covered (T : Tid) (n : Nat) : Nat → List Task → Prop
  | _, [] => True
  | e, .sendInLoop _ T' _ :: ks => Covered T n (if T' = T then e + 1 else e) ks
  | e, .shutdownInLoop _ :: ks => n ≤ e ∧ Covered T n e ks
  | e, _ :: ks => Covered T n e ks

/-- A functor is queued behind the others. -/
theorem Covered.snoc {n : Nat} {k : Task} : ∀ {q : List Task} {e : Nat}, Covered T n e q →
    (∀ c, k = .shutdownInLoop c → n ≤ e + (sendsOf T q).length) → Covered T n e (q ++ [k])
  | [], e, _, hk => by
    cases k with
    | shutdownInLoop c => exact ⟨by simpa [sendsOf] using hk c rfl, trivial⟩
    | _ => trivial
  | k' :: ks, e, h, hk => by
    cases k' with
    | sendInLoop c T' m =>
      refine Covered.snoc (q := ks) h fun c hc => ?_
      have := hk c hc
      simp only [sendsOf] at this
      split at this
      · rename_i hT
        rw [if_pos hT]
        simp only [List.length_cons] at this
        omega
      · rename_i hT
        rwa [if_neg hT]
    | shutdownInLoop c => exact ⟨h.1, Covered.snoc (q := ks) h.2 hk⟩
    | _ => exact Covered.snoc (q := ks) h hk

/-- More is entered. -/
theorem Covered.mono {n : Nat} : ∀ {q : List Task} {e e' : Nat}, e ≤ e' → Covered T n e q →
    Covered T n e' q
  | [], _, _, _, _ => trivial
  | k :: ks, e, e', he, h => by
    cases k with
    | sendInLoop c T' m =>
      refine Covered.mono (q := ks) ?_ h
      split <;> omega
    | shutdownInLoop c => exact ⟨Nat.le_trans h.1 he, Covered.mono (q := ks) he h.2⟩
    | _ => exact Covered.mono (q := ks) he h

theorem Covered.of_none {n : Nat} : ∀ {q : List Task} {e : Nat},
    (∀ c, .shutdownInLoop c ∉ q) → Covered T n e q
  | [], _, _ => trivial
  | k :: ks, e, h => by
    have hks : ∀ c, .shutdownInLoop c ∉ ks := fun c hm => h c (List.mem_cons_of_mem _ hm)
    cases k with
    | shutdownInLoop c => exact absurd List.mem_cons_self (h c)
    | _ => exact Covered.of_none (q := ks) hks

/-- The call of `ShutdownWrite` comes after the first `n` messages of `T`: all that was entered had
been accepted, and they were. -/
structure ShutWr.Delivers (w : ShutWr) (T : Tid) (n : Nat) (sent : List (Tid × Msg)) : Prop where
  accepted : w.out = (w.entered.map (·.2)).flatten
  entered : (messagesOf T sent).take n <+: messagesOf T w.entered

/-- The closer's messages are written before the socket is shut down. -/
structure Cell.Closing (a : Cell) : Prop where
  made : ∀ T n, a.conn.closer = some (T, n) → n ≤ (messagesOf T a.conn.sent).length
  -- `Shutdown` moves a `CONNECTED` connection only, so there is one closer at most
  left : a.conn.closer ≠ none ∨ a.conn.shutWr ≠ [] → a.conn.Est ∧ a.conn.state ≠ .connected
  pending : ∀ c, .shutdownInLoop c ∈ a.tasks → a.conn.closer ≠ none
  covered : ∀ T n, a.conn.closer = some (T, n) →
    Covered T n (messagesOf T a.conn.entered).length a.tasks
  shut : ∀ w ∈ a.conn.shutWr, w.state ≠ .disconnected → a.conn.wrapped = false →
    ∀ T n, a.conn.closer = some (T, n) → w.Delivers T n a.conn.sent

theorem messagesOf_mono {h h' : List (Tid × Msg)} (hp : h <+: h') :
    messagesOf T h <+: messagesOf T h' := (hp.filter _).map _

theorem ShutWr.Delivers.mono {w : ShutWr} {n : Nat} {h h' : List (Tid × Msg)}
    (hd : w.Delivers T n h) (hn : n ≤ (messagesOf T h).length) (hp : h <+: h') :
    w.Delivers T n h' := by
  refine ⟨hd.accepted, ?_⟩
  obtain ⟨r, hr⟩ := messagesOf_mono (T := T) hp
  rw [← hr, List.take_append_of_le_length hn]
  exact hd.entered

/-- `ShutdownWrite` with nothing left to write, after the closer's messages were entered. -/
theorem Cell.Ordered.delivers {a : Cell} {n : Nat} (h : a.Ordered c) (hf : a.Flows)
    (hw : a.writing = false) (hst : a.conn.state ≠ .disconnected) (hwr : a.conn.wrapped = false)
    (hn : n ≤ (messagesOf T a.conn.entered).length) :
    ShutWr.Delivers ⟨a.conn.state, a.conn.out, a.conn.entered⟩ T n a.conn.sent := by
  obtain ⟨hflow, hnil⟩ := (hf hwr).2 hst
  refine ⟨?_, ?_⟩
  · rw [hnil hw, List.append_nil] at hflow
    exact hflow
  · rw [← h.order T, List.take_append_of_le_length hn]
    exact List.take_prefix ..

theorem Enter.kept_state {w : Bool} {x x' : Conn} (h : Enter w T m x x') :
    x'.state = x.state ∧ (x.Est → x'.Est) ∧ (x'.wrapped = false → x.wrapped = false) := by
  cases h with
  | kept n => exact ⟨rfl, id, fun hw => by simp_all [append]⟩
  | dropped | written | empty => exact ⟨rfl, id, id⟩

namespace Cell.Closing

variable {a b : Cell}

/-- The closer and the calls of `ShutdownWrite` are the same. -/
theorem of_same (h : a.Closing) (hc : b.conn.closer = a.conn.closer)
    (hw : b.conn.shutWr = a.conn.shutWr) (he : a.conn.Est → b.conn.Est)
    (hst : a.conn.Est → a.conn.state ≠ .connected → b.conn.state ≠ .connected)
    (hwr : b.conn.wrapped = false → a.conn.wrapped = false) (hs : a.conn.sent <+: b.conn.sent)
    (hp : ∀ c, .shutdownInLoop c ∈ b.tasks → a.conn.closer = none → .shutdownInLoop c ∈ a.tasks)
    (hq : ∀ T n, a.conn.closer = some (T, n) →
      Covered T n (messagesOf T a.conn.entered).length a.tasks →
      Covered T n (messagesOf T b.conn.entered).length b.tasks) : b.Closing where
  made T n hn := Nat.le_trans (h.made T n (hc ▸ hn)) (messagesOf_mono hs).length_le
  left hl := by
    obtain ⟨h1, h2⟩ := h.left (by rwa [← hc, ← hw])
    exact ⟨he h1, hst h1 h2⟩
  pending c hm := by
    rw [hc]
    exact fun hn => h.pending c (hp c hm hn) hn
  covered T n hn := hq T n (hc ▸ hn) (h.covered T n (hc ▸ hn))
  shut w hm hd hwr' T n hn :=
    (h.shut w (hw ▸ hm) hd (hwr hwr') T n (hc ▸ hn)).mono (h.made T n (hc ▸ hn)) hs

/-- A change of the connection that is not its output's. -/
theorem of_conn (h : a.Closing) (hc : b.conn.closer = a.conn.closer)
    (hw : b.conn.shutWr = a.conn.shutWr) (he : a.conn.Est → b.conn.Est)
    (hst : a.conn.Est → a.conn.state ≠ .connected → b.conn.state ≠ .connected)
    (hwr : b.conn.wrapped = a.conn.wrapped) (hs : b.conn.sent = a.conn.sent)
    (hen : b.conn.entered = a.conn.entered) (hq : b.tasks = a.tasks) : b.Closing :=
  h.of_same hc hw he hst (fun hf => hwr ▸ hf) (hs ▸ List.prefix_rfl) (fun _ hm _ => hq ▸ hm)
    fun _ _ _ hcov => by rwa [hen, hq]

/-- A message leaves the queue. -/
theorem covered_taken {n : Nat} {ks : List Task} {T' : Tid} {e : List (Tid × Msg)}
    (h : Covered T n (messagesOf T e).length (.sendInLoop c T' m :: ks)) :
    Covered T n (messagesOf T (e ++ [(T', m)])).length ks := by
  rw [messagesOf_append]
  simp only [Covered] at h
  by_cases hT : T' = T
  · simpa [hT] using h
  · simpa [hT] using h

/-- `ShutdownWrite` is called. -/
theorem shutWrite (h : a.Closing) (ho : a.Ordered c) (hf : a.Flows) (hw : a.writing = false)
    (hst : a.conn.Est ∧ a.conn.state ≠ .connected) (hn : a.conn.CloserEntered) :
    Cell.Closing { a with conn := a.conn.shut } where
  made := h.made
  left _ := hst
  pending := h.pending
  covered := h.covered
  shut w hm hd hwr T n hc := by
    rcases List.mem_append.1 hm with hm | hm
    · exact h.shut w hm hd hwr T n hc
    · obtain rfl := List.mem_singleton.1 hm
      exact ho.delivers hf hw hd hwr (hn T n hc)

theorem connStep (h : a.Closing) (ho : a.Ordered c) (hf : a.Flows) (hd : ¬ d.overtakes)
    {x' : Conn} (he : a.conn.Est) (hx : ConnStep d t c a.writing a.conn x') :
    Cell.Closing { a with conn := x' } := by
  cases hx with
  | misc | drain => exact h.of_conn rfl rfl id (fun _ => id) rfl rfl rfl rfl
  | msg hm =>
    exact h.of_conn rfl rfl (fun he => List.mem_append_left _ he) (fun _ => id) rfl rfl rfl rfl
  | @send m _ ht hen =>
    obtain ⟨h1, h2, h3, h4⟩ := hen.history
    obtain ⟨hs, hest, hwr⟩ := hen.kept_state
    refine h.of_same h3 h4 hest (fun _ hst => hs ▸ hst) hwr (h2 ▸ ⟨_, rfl⟩) (fun _ hm _ => hm)
      fun T n _ hcov => hcov.mono ?_
    show _ ≤ (messagesOf T x'.entered).length
    rw [h1]
    exact (messagesOf_mono ⟨_, rfl⟩).length_le
  | shut hs hw hen =>
    exact h.shutWrite ho hf hw ⟨he, by rw [hs]; nofun⟩ (hen.resolve_right hd)
  | shutdown hs =>
    -- the first `Shutdown` to succeed: no functor of one is queued, nothing was shut down
    have hfresh : a.conn.closer = none ∧ a.conn.shutWr = [] := by
      refine ⟨?_, ?_⟩ <;> by_contra hne
      · exact (h.left (.inl hne)).2 hs
      · exact (h.left (.inr hne)).2 hs
    have hnone : ∀ c, .shutdownInLoop c ∉ a.tasks := fun c hm => h.pending c hm hfresh.1
    refine ⟨fun T n hn => ?_, fun _ => ⟨he, nofun⟩, nofun, fun T n hn => ?_, fun w hm => ?_⟩
    · cases hn
      simp [messagesOf]
    · exact Covered.of_none hnone
    · have hm : w ∈ a.conn.shutWr := hm
      rw [hfresh.2] at hm
      cases hm
  | forceClose hs => exact h.of_conn rfl rfl id (fun _ _ => nofun) rfl rfl rfl rfl

theorem step (h : a.Closing) (ho : a.Ordered c) (hf : a.Flows) (hd : ¬ d.overtakes)
    (hs : CellStep d t c a b) : b.Closing := by
  cases hs with
  | create hp hq hx =>
    obtain ⟨cm, cw, cs, rfl⟩ := hx
    refine ⟨nofun, fun hl => ?_, fun c hm => ?_, nofun, nofun⟩
    · exact absurd hl (by simp)
    · have hm : .shutdownInLoop c ∈ a.tasks := hm
      rw [hq] at hm
      cases hm
  | establish hn hst =>
    exact h.of_conn rfl rfl (fun he => absurd he hn) (fun he => absurd he hn) rfl rfl rfl rfl
  | conn he hx => exact h.connStep ho hf hd he hx
  | events => exact h.of_conn rfl rfl id (fun _ => id) rfl rfl rfl rfl
  | @sendQueued m he ht =>
    refine h.of_same rfl rfl id (fun _ => id) id ⟨_, rfl⟩ (fun c hm _ => ?_) fun T n _ hcov =>
      hcov.snoc nofun
    simpa using hm
  | sendTaken he hT hq hx =>
    obtain ⟨h1, h2, h3, h4⟩ := hx.history
    obtain ⟨hst, hest, hwr⟩ := hx.kept_state
    refine h.of_same h3 h4 hest (fun _ hs => hst ▸ hs) hwr (h2 ▸ List.prefix_rfl)
      (fun c hm _ => hq ▸ List.mem_cons_of_mem _ hm) fun T n _ hcov => ?_
    rw [hq] at hcov
    rw [h1]
    exact covered_taken hcov
  | sendFailed he hT hq hs hst =>
    refine h.of_same rfl rfl (fun he => ?_) (fun _ _ => nofun) id List.prefix_rfl
      (fun c hm _ => hq ▸ List.mem_cons_of_mem _ hm) fun T n _ hcov => ?_
    · exact List.mem_append_left _ (List.mem_append_left _ he)
    · rw [hq] at hcov
      exact covered_taken hcov
  | shutQueued hz =>
    refine h.of_same rfl rfl id (fun _ => id) id List.prefix_rfl (fun c _ hn => absurd hn hz)
      fun T n hn hcov => hcov.snoc fun _ _ => ?_
    rw [← List.length_append, ho.order T]
    exact h.made T n hn
  | @shutTaken ks x' he hq hz hx =>
    have hstate := h.left (.inl hz)
    have hle : a.conn.CloserEntered := fun T n hn => by
      have hcov := h.covered T n hn
      rw [hq] at hcov
      exact hcov.1
    -- the functor is gone from the queue, whether it shuts the socket down or not
    have hdrop : ∀ {e : Cell}, e.Closing → e.tasks = .shutdownInLoop c :: ks →
        Cell.Closing { e with tasks := ks } := fun {e} he hq =>
      he.of_same rfl rfl id (fun _ => id) id List.prefix_rfl
        (fun c hm _ => hq ▸ List.mem_cons_of_mem _ hm) fun T n _ hcov => by
          rw [hq] at hcov
          exact hcov.2
    rcases hx with rfl | ⟨hw, rfl⟩
    · exact hdrop h hq
    · exact hdrop (e := { a with conn := a.conn.shut }) (h.shutWrite ho hf hw hstate hle) hq
  | close he =>
    refine h.of_conn rfl rfl (fun he => ?_) (fun _ _ => nofun) rfl rfl rfl rfl
    exact List.mem_append_left _ (List.mem_append_left _ he)
  | closeCb | unlink | destroyed =>
    exact h.of_conn rfl rfl (fun he => List.mem_append_left _ he) (fun _ => id) rfl rfl rfl rfl

end Cell.Closing

/-- The runs that may do all but this. -/
def Discipline.inTurn : Discipline := { Discipline.any with overtakes := False }

theorem ShutsInTurn.allows {a : Act} (h : ShutsInTurn s a) : Discipline.inTurn.Allows cfg s a := by
  cases a with
  | thread t inp =>
    intro f r hs
    simp only [ShutsInTurn, hs] at h
    cases f with
    | writeHandlerRest c => exact fun hst hw => .inl (h hst hw)
    | user | loopTasks | closeHandler | readHandler | closeIdle | writeEventRest =>
      simp [Discipline.AllowsFrame, Discipline.inTurn, Discipline.any]
    | _ => trivial
  | destroy c => exact ⟨.inr trivial, .inr trivial⟩
  | openFd | closeFd => trivial

theorem closing_reach (h : Runs.Reach (step cfg) ShutsInTurn (Sys.init cfg) s) (c : ConnId) :
    (s.cell c).Closing := by
  have hinit : Cell.Closing ⟨{}, Event.noneEventFlag, .newChannel, []⟩ :=
    ⟨nofun, fun hl => absurd hl (by simp), nofun, nofun, nofun⟩
  refine (Cell.reach (d := .inTurn)
    (I := fun a => (a.Flows ∧ a.Ordered c) ∧ a.Closing) ⟨⟨?_, ⟨fun _ => rfl, rfl⟩⟩, hinit⟩ ?_
    (fun _ _ _ _ _ hP _ => hP.allows) h).2
  · exact fun _ => ⟨Buffer.wf_new _, fun _ => ⟨rfl, fun _ => rfl⟩⟩
  · rintro t a b ⟨⟨hf, ho⟩, hc⟩ hs
    exact ⟨⟨hf.step hs, ho.step hs⟩, hc.step ho hf id hs⟩

/-- **Graceful shutdown.** In a run in which `WriteHandler` does not get ahead of the queue, as long
as `write_buffer_`'s indices have not reached `2 ^ 32`: whenever `ShutdownWrite` was called on a
connection that was not `DISCONNECTED`, the kernel had accepted all messages entered by then, and
the `n` messages that the closer had sent before its `Shutdown` were among them. -/
theorem shutdown_delivers (h : Runs.Reach (step cfg) ShutsInTurn (Sys.init cfg) s) (c : ConnId)
    (hw : (s.conns c).wrapped = false) {n : Nat} (hc : (s.conns c).closer = some (T, n)) :
    ∀ w ∈ (s.conns c).shutWr, w.state ≠ .disconnected →
      w.out = (w.entered.map (·.2)).flatten ∧
        ((s.conns c).sentBy T).take n <+: (w.entered.filter (·.1 = T)).map (·.2) := by
  intro w hm hst
  obtain ⟨hacc, hen⟩ := (closing_reach h c).shut w hm hst hw T n hc
  exact ⟨hacc, hen⟩

/-- A user's thread sends a message and shuts the connection down. -/
def sampleShutdown : List Act :=
  sampleStart ++
  [.thread (.user 7) (.call (.send sampleConn [1, 2])), .thread (.user 7) .none,
    .thread (.user 7) (.call (.shutdown sampleConn)), .thread (.user 7) (.cas false),
    .thread (.user 7) .none] ++
  loopActs [
    .poll [], .none, .write (.accepted 2), .none,
    .poll [], .none, .none]

theorem shutdown_delivers_sample :
    ∃ s, Runs.run (step .sample) (Sys.init .sample) sampleShutdown = some s ∧
      (s.conns sampleConn).shutWr = [⟨.disconnecting, [1, 2], [(.user 7, [1, 2])]⟩] ∧
      ((s.conns sampleConn).sentBy (.user 7)).take 1 <+: [[1, 2]] := by
  have hrun : (Runs.run (step .sample) (Sys.init .sample) sampleShutdown).map
      (fun s => ((s.conns sampleConn).shutWr, (s.conns sampleConn).closer,
        (s.conns sampleConn).wrapped)) =
      some ([⟨.disconnecting, [1, 2], [(.user 7, [1, 2])]⟩], some (.user 7, 1), false) := by
    decide +kernel
  obtain ⟨s, hs, hx, hr⟩ := Runs.Reach.of_map _ hrun
    (P := ShutsInTurn) (by decide +kernel)
  simp only [Prod.mk.injEq] at hx
  obtain ⟨hsw, hc, hw⟩ := hx
  have hmain := shutdown_delivers hr sampleConn hw hc _ (hsw ▸ List.mem_singleton_self _) (by decide)
  exact ⟨s, hs, hsw, hmain.2⟩

/-- A user's thread sends `[1]`, which is buffered. While the write event for it is handled the
thread sends `[2]` and calls `Shutdown`: the functor of `[2]` is queued, the state is
`DISCONNECTING`. -/
def overtakingRun : List Act :=
  sampleStart ++
  [.thread (.user 7) (.call (.send sampleConn [1])), .thread (.user 7) .none] ++
  loopActs [
    .poll [], .none, .write (.accepted 0), .none,
    .poll [(5, pollOut)], .none, .none] ++
  [.thread (.user 7) (.call (.send sampleConn [2])), .thread (.user 7) .none,
    .thread (.user 7) (.call (.shutdown sampleConn)), .thread (.user 7) (.cas false)] ++
  -- the buffer is written and empty, and `WriteHandler` shuts the socket down
  loopActs [.write (.accepted 1), .none]

/-- `WriteHandler` shuts the socket down ahead of a message: both were sent before `Shutdown`, the
kernel has accepted the first. -/
theorem shutdown_overtakes :
    ∃ s, Runs.run (step .sample) (Sys.init .sample) overtakingRun = some s ∧
      (s.conns sampleConn).closer = some (.user 7, 2) ∧
      (s.conns sampleConn).sentBy (.user 7) = [[1], [2]] ∧ (s.conns sampleConn).wrapped = false ∧
      (s.conns sampleConn).shutWr = [⟨.disconnecting, [1], [(.user 7, [1])]⟩] := by
  have hrun : (Runs.run (step .sample) (Sys.init .sample) overtakingRun).map
      (fun s => ((s.conns sampleConn).closer, (s.conns sampleConn).sentBy (.user 7),
        (s.conns sampleConn).wrapped, (s.conns sampleConn).shutWr)) =
      some (some (.user 7, 2), [[1], [2]], false, [⟨.disconnecting, [1], [(.user 7, [1])]⟩]) := by
    decide +kernel
  obtain ⟨s, hs, hx⟩ := Option.map_eq_some_iff.1 hrun
  simp only [Prod.mk.injEq] at hx
  exact ⟨s, hs, hx⟩

end Liang.Net

import NetworkPoller.Net.Proof.Minor
import NetworkPoller.Net.Proof.Output

/-!
# The input stream

`ReadHandler` fills the read buffer of its connection, user code works on it through the `Buffer &` it
is given, and nothing else touches it (`exec_minor`). So the bytes that have come in are at any time
the bytes taken out followed by those in the buffer (`input_stream`), and where user code puts nothing
of its own in, these are the bytes received. With the output stream this gives the echo: an application
that sends what it has taken sends back what was received (`echo`).
-/

namespace Liang.Net

open Base TcpConnection

variable {cfg : Cfg} {s s' : Sys} {t : Tid} {c : ConnId} {inp : Input} {f : Frame} {gs : List Frame}

/-! ## The stream -/

/-- What happens to a read buffer: bytes come in from the socket, user code puts some in or takes some
out. -/
inductive InputEv
  | got (bytes : List UInt8)
  | put (bytes : List UInt8)
  | took (bytes : List UInt8)
  deriving DecidableEq, Repr

/-- The bytes from the socket. -/
def received (L : List InputEv) : List UInt8 := L.flatMap fun
  | .got bytes => bytes
  | .put _ | .took _ => []

/-- Those that user code has put in. -/
def puts (L : List InputEv) : List UInt8 := L.flatMap fun
  | .put bytes => bytes
  | .got _ | .took _ => []

/-- All that has come in, in order. -/
def filled (L : List InputEv) : List UInt8 := L.flatMap fun
  | .got bytes | .put bytes => bytes
  | .took _ => []

def taken (L : List InputEv) : List UInt8 := L.flatMap fun
  | .got _ | .put _ => []
  | .took bytes => bytes

theorem filled_of_no_puts : ∀ {L : List InputEv}, puts L = [] → filled L = received L
  | [], _ => rfl
  | e :: L, h => by
    simp only [puts, filled, received, List.flatMap_cons, List.append_eq_nil_iff] at h ⊢
    have ih : filled L = received L := filled_of_no_puts h.2
    simp only [filled, received] at ih
    cases e with
    | got | took => rw [ih]
    | put bytes => rw [ih, show bytes = [] from h.1]

end Liang.Net

namespace Liang.Base

open Net

/-- What an operation of user code on `b` puts in or takes out; a read takes what it hands to its
caller. -/
def BufOp.input (b : Buffer) : BufOp → List InputEv
  | append data | appendString data | readFromFD (.data data) => [.put data]
  | ensureWritableBytes _ | readFromFD (.error _) => []
  | readAsString len => [.took (b.readAsString len.toNat).1]
  | readAllAsString => [.took b.readAllAsString.1]
  | readBytes len => [.took (b.readBytes len.toNat).1]
  | readAllAsByte => [.took b.readAllAsByte.1]
  | clearReadIndex len => [.took (b.readable.take len.toNat)]
  | retrieveUntil d => if 0 ≤ d ∧ d ≤ b.readable.length then [.took (b.readable.take d.toNat)] else []
  | resetIndex => [.took b.readable]

instance (b : Buffer) : Decidable b.Wf :=
  decidable_of_iff (b.readIndex ≤ b.writeIndex ∧ b.writeIndex ≤ b.buffer.length ∧
    b.writeIndex < u32Size) ⟨fun h => ⟨h.1, h.2.1, h.2.2⟩, fun h => ⟨h.1, h.2, h.3⟩⟩

/-- An operation that is recorded as such. -/
theorem BufOp.input_spec {b b' : Buffer} {op : BufOp} {o : BufOut} (h : b.Wf) (hf : op.Fits b)
    (he : op.exec b = some (b', o)) :
    b'.Wf ∧ b.readable ++ filled (op.input b) = taken (op.input b) ++ b'.readable := by
  obtain ⟨hwf, hq⟩ := op.exec_spec h hf he
  refine ⟨hwf, ?_⟩
  -- what the caller of a read is given
  have hread {len : Nat} : (b.readBytes len).1 = b.readable.take len := (Buffer.readBytes_spec h len).1
  have hall : (b.readBytes b.readableBytes).1 = b.readable := (Buffer.readAll_spec h).1
  cases op with
  | append data | appendString data =>
    rw [← show b.readable ++ data = b'.readable from congrArg Prod.fst hq]
    simp [input, filled, taken]
  | ensureWritableBytes len =>
    rw [← show b.readable = b'.readable from congrArg Prod.fst hq]
    simp [input, filled, taken]
  | readFromFD res =>
    cases res with
    | data data =>
      rw [← show b.readable ++ data = b'.readable from congrArg Prod.fst hq]
      simp [input, filled, taken]
    | error e =>
      rw [← show b.readable = b'.readable from congrArg Prod.fst hq]
      simp [input, filled, taken]
  | readAsString len | readBytes len | clearReadIndex len =>
    rw [← show b.readable.drop len.toNat = b'.readable from congrArg Prod.fst hq]
    simp [input, filled, taken, Buffer.readAsString, hread]
  | readAllAsString | readAllAsByte | resetIndex =>
    rw [← show [] = b'.readable from congrArg Prod.fst hq]
    simp [input, filled, taken, Buffer.readAllAsString, Buffer.readAllAsByte, Buffer.readAsString, hall]
  | retrieveUntil d =>
    rw [← show (if 0 ≤ d ∧ d ≤ b.readable.length then b.readable.drop d.toNat else b.readable) =
      b'.readable from congrArg Prod.fst hq]
    simp only [input]
    split <;> simp [filled, taken]

end Liang.Base

namespace Liang.Net

open Base TcpConnection

variable {cfg : Cfg} {s s' : Sys} {t : Tid} {c : ConnId} {inp : Input} {f : Frame} {gs : List Frame}

/-- What running the frame does to the read buffer `b` of `c`. -/
def Frame.inputAt (c : ConnId) (inp : Input) (b : Buffer) : Frame → List InputEv
  | .readHandler c' =>
    match inp with
    | .read (.data bytes) => if c' = c then [.got bytes] else []
    | _ => []
  | .api (.buffer c' op) => if c' = c ∧ (op.exec b).isSome then op.input b else []
  | .api (.swapBuffer c' rhs) => if c' = c then [.took b.readable, .put rhs.readable] else []
  | _ => []

def inputAt (c : ConnId) (s : Sys) : Act → List InputEv
  | .thread t inp =>
    match s.stack t with
    | f :: _ => f.inputAt c inp (s.conns c).readBuffer
    | [] => []
  | _ => []

/-- The frame does not carry `write_index_` of the read buffer `b` of `c` to `2 ^ 32`, and a buffer it
is swapped for is well formed. -/
def Frame.InputFits (c : ConnId) (inp : Input) (b : Buffer) : Frame → Prop
  | .api (.buffer c' op) => c' = c → op.Fits b
  | .api (.swapBuffer c' rhs) => c' = c → rhs.Wf
  | .readHandler c' =>
    match inp with
    | .read (.data bytes) => c' = c → b.writeIndex + bytes.length < u32Size
    | _ => True
  | _ => True

instance (c : ConnId) (inp : Input) (b : Buffer) (f : Frame) : Decidable (f.InputFits c inp b) := by
  unfold Frame.InputFits
  split
  · infer_instance
  · infer_instance
  · cases inp with
    | read r => cases r <;> infer_instance
    | _ => infer_instance
  · infer_instance

/-- `write_index_` of the read buffer does not reach `2 ^ 32`. -/
def InputFits (c : ConnId) (s : Sys) : Act → Prop
  | .thread t inp =>
    match s.stack t with
    | f :: _ => f.InputFits c inp (s.conns c).readBuffer
    | [] => True
  | _ => True

instance (c : ConnId) (s : Sys) : ∀ a : Act, Decidable (InputFits c s a)
  | .thread t inp =>
    match hs : s.stack t with
    | f :: _ => decidable_of_iff (f.InputFits c inp (s.conns c).readBuffer)
        (by simp only [InputFits, hs])
    | [] => .isTrue (by simp only [InputFits, hs])
  | .destroy _ | .openFd _ | .closeFd _ => .isTrue trivial

/-- With the history `L`, the buffer holds what has come in and was not taken. -/
structure Holds (L : List InputEv) (b : Buffer) : Prop where
  wf : b.Wf
  stream : filled L = taken L ++ b.readable

namespace Holds

variable {L : List InputEv} {b b' : Buffer}

theorem of_eq (h : Holds L b) (hb : b' = b) : Holds (L ++ []) b' := by
  rw [hb, List.append_nil]
  exact h

/-- Bytes come in at the back and go at the front. -/
theorem of_split {es : List InputEv} (h : Holds L b) (hwf : b'.Wf)
    (hq : b.readable ++ filled es = taken es ++ b'.readable) : Holds (L ++ es) b' := by
  refine ⟨hwf, ?_⟩
  have hL : filled (L ++ es) = filled L ++ filled es := List.flatMap_append
  have hT : taken (L ++ es) = taken L ++ taken es := List.flatMap_append
  rw [hL, hT, h.stream, List.append_assoc, hq, List.append_assoc]

theorem got {bytes : List UInt8} (h : Holds L b) (hl : b.writeIndex + bytes.length < u32Size) :
    Holds (L ++ [.got bytes]) (b.readFromFD (.data bytes)).1 := by
  obtain ⟨hwf, hread, -⟩ := Buffer.readFromFD_data h.wf hl
  exact h.of_split hwf (by simp [filled, taken, hread])

theorem swap {rhs : Buffer} (h : Holds L b) (hr : rhs.Wf) :
    Holds (L ++ [.took b.readable, .put rhs.readable]) (b.swap rhs).1 := by
  have hwf : (b.swap rhs).1.Wf := ⟨hr.read_le, hr.write_le, hr.write_lt⟩
  exact h.of_split hwf (by simp [filled, taken, Buffer.swap])

end Holds

/-- What the frame puts in or takes out is what it reports. -/
theorem Holds.fed {L : List InputEv} (h : Holds L (s.conns c).readBuffer)
    (hl : f.InputFits c inp (s.conns c).readBuffer) :
    Holds (L ++ f.inputAt c inp (s.conns c).readBuffer) ((f.fed inp s).conns c).readBuffer := by
  -- another connection's buffer
  have hother {c' : ConnId} {g : Conn → Conn} (hc : c' ≠ c) :
      Holds (L ++ []) ((s.updConn c' g).conns c).readBuffer := by
    rw [Sys.updConn_of_ne _ (Ne.symm hc)]
    exact h.of_eq rfl
  cases f with
  | readHandler c' =>
    cases inp with
    | read rd =>
      by_cases hc : c' = c
      · subst hc
        cases rd with
        | data bytes =>
          simp only [Frame.inputAt, Frame.fed, if_true, Sys.updConn_self]
          exact h.got (hl rfl)
        | error e =>
          simp only [Frame.inputAt, Frame.fed, Sys.updConn_self]
          exact h.of_eq rfl
      · cases rd with
        | data bytes =>
          simp only [Frame.inputAt, Frame.fed, if_neg hc]
          exact hother hc
        | error e =>
          simp only [Frame.inputAt, Frame.fed]
          exact hother hc
    | _ => exact h.of_eq rfl
  | api a =>
    cases a with
    | buffer c' op =>
      simp only [Frame.inputAt, Frame.fed]
      by_cases hc : c' = c
      · subst hc
        cases hop : op.exec (s.conns c').readBuffer with
        | none =>
          simp only [Option.isSome_none, Bool.false_eq_true, and_false, if_false]
          exact h.of_eq rfl
        | some r =>
          obtain ⟨hwf, hq⟩ := op.input_spec h.wf (hl rfl) hop
          simp only [Option.isSome_some, and_self, if_true, Sys.updConn_self]
          exact h.of_split hwf hq
      · rw [if_neg fun h => hc h.1]
        split
        · exact hother hc
        · exact h.of_eq rfl
    | swapBuffer c' rhs =>
      simp only [Frame.inputAt, Frame.fed]
      by_cases hc : c' = c
      · subst hc
        rw [if_pos rfl, Sys.updConn_self]
        exact h.swap (hl rfl)
      · rw [if_neg hc]
        exact hother hc
    | _ => exact h.of_eq rfl
  | _ => exact h.of_eq rfl

theorem Holds.exec {L : List InputEv} (hp : ∀ c, s.nextSerial ≤ c.serial → s.conns c = {})
    (hx : Net.exec cfg t inp s f = .ok s' gs) (h : Holds L (s.conns c).readBuffer)
    (hl : f.InputFits c inp (s.conns c).readBuffer) :
    Holds (L ++ f.inputAt c inp (s.conns c).readBuffer) (s'.conns c).readBuffer := by
  cases hf : f.isLoop with
  | false =>
    rw [(exec_minor hp hf _ _ hx).1.readBuffer c]
    exact h.fed hl
  | true =>
    cases f with
    | loopPoll l =>
      obtain ⟨-, evs, -, -, rfl, -⟩ := loopPoll_ok hx
      exact h.of_eq rfl
    | loopDispatch l =>
      rcases loopDispatch_ok hx with ⟨-, rfl, -⟩ | ⟨i, is, -, rfl, -⟩
      all_goals exact h.of_eq rfl
    | loopTasks l =>
      rcases loopTasks_ok hx with ⟨-, rfl, -⟩ | ⟨k, ks, gs', -, hm, -, -⟩
      · exact h.of_eq rfl
      · exact h.of_eq (hm.readBuffer c)
    | _ => cases hf

variable {L : List InputEv}

theorem holds_reach (h : Runs.Logged (step cfg) (InputFits c) (inputAt c) (Sys.init cfg) L s) :
    s.failed = none → Holds L (s.conns c).readBuffer := by
  refine h.inv (I := fun L s => s.failed = none → Holds L (s.conns c).readBuffer)
    (fun _ => ⟨Buffer.wf_new _, rfl⟩) ?_
  intro L s a s' hr hL hfit hst hf
  have hf₀ := running_of_step hst
  have hp := (Inv.any hr).sound.pristine
  rcases step_cases hst with ⟨t, inp, f, r, gs, s₁, rfl, hs, hx, rfl⟩ |
    ⟨t, inp, f, r, e, -, -, -, rfl⟩ | ⟨c', rfl, -, -, rfl⟩ | ⟨n, rfl, -, rfl⟩ | ⟨n, rfl, -, rfl⟩
  · simp only [InputFits, inputAt, hs] at hfit ⊢
    show Holds _ (s₁.conns c).readBuffer
    exact (hL hf₀).exec hp hx hfit
  · cases hf
  all_goals exact (hL hf₀).of_eq rfl

/-- **The input stream.** Whatever the threads do, and whichever of the buffer's operations user code
calls, the bytes that have come into a connection's read buffer are those user code has taken out of it
followed by those it can still take: none is lost, doubled or reordered, as long as `write_index_` stays
below `2 ^ 32`. Where user code puts nothing of its own in, they are the bytes received. -/
theorem input_stream (h : Runs.Logged (step cfg) (InputFits c) (inputAt c) (Sys.init cfg) L s)
    (hf : s.failed = none) :
    filled L = taken L ++ (s.conns c).readBuffer.readable ∧
      (puts L = [] → received L = taken L ++ (s.conns c).readBuffer.readable) := by
  have hst := (holds_reach h hf).stream
  exact ⟨hst, fun hp => filled_of_no_puts hp ▸ hst⟩

/-- The message callback takes one byte, and later one more with what came in between; it skips a byte
and leaves one. -/
def sampleInput : List Act :=
  sampleStart ++
  loopActs [
    .poll [(5, pollIn)], .none, .none,
    .read (.data [1, 2, 3]), .call (.buffer sampleConn (.readBytes 1)), .none, .ret,
    .read (.data [4]), .call (.buffer sampleConn (.readAsString 1)), .none,
    .call (.buffer sampleConn (.retrieveUntil 1)), .none, .ret, .read (.error eAgain)]

theorem input_stream_sample :
    ∃ s, Runs.run (step .sample) (Sys.init .sample) sampleInput = some s ∧
      (s.conns sampleConn).readBuffer.readable = [4] ∧
      received [.got [1, 2, 3], .took [1], .got [4], .took [2], .took [3]] =
        [1, 2, 3] ++ (s.conns sampleConn).readBuffer.readable := by
  have hrun : (Runs.run (step .sample) (Sys.init .sample) sampleInput).map
      (fun s => ((s.conns sampleConn).readBuffer.readable, s.failed)) = some ([4], none) := by
    decide +kernel
  obtain ⟨s, hs, hx⟩ := Option.map_eq_some_iff.1 hrun
  simp only [Prod.mk.injEq] at hx
  have hL : Runs.log (step .sample) (inputAt sampleConn) (Sys.init .sample) sampleInput =
      [.got [1, 2, 3], .took [1], .got [4], .took [2], .took [3]] := by decide +kernel
  have hlog : Runs.Logged (step .sample) (InputFits sampleConn) (inputAt sampleConn) (Sys.init .sample)
      [.got [1, 2, 3], .took [1], .got [4], .took [2], .took [3]] s :=
    hL ▸ .of_run _ hs (by decide +kernel)
  exact ⟨s, hs, hx.1, (input_stream hlog hx.2).2 rfl⟩

/-! ## Echo -/

/-- Where one thread sends, the messages entered are the first of those it has sent. -/
theorem entered_of_single {P : Sys → Act → Prop} {T : Tid}
    (h : Runs.Reach (step cfg) P (Sys.init cfg) s) (hT : ∀ e ∈ (s.conns c).sent, e.1 = T) :
    (s.conns c).entered.map (·.2) <+: (s.conns c).sent.map (·.2) := by
  have horder := (ordered_reach h c).order
  have hall : ∀ e ∈ (s.conns c).entered, e.1 = T := by
    intro e he
    by_contra hne
    have hmem : e.2 ∈ messagesOf e.1 (s.conns c).sent := by
      rw [← show _ = messagesOf e.1 (s.conns c).sent from horder e.1]
      refine List.mem_append_left _ (List.mem_map_of_mem (List.mem_filter.2 ⟨he, ?_⟩))
      exact decide_eq_true rfl
    obtain ⟨e', he', -⟩ := List.mem_map.1 hmem
    obtain ⟨hs', heq⟩ := List.mem_filter.1 he'
    exact hne ((of_decide_eq_true heq).symm.trans (hT e' hs'))
  have hself {x : List (Tid × Msg)} (hx : ∀ e ∈ x, e.1 = T) : messagesOf T x = x.map (·.2) := by
    rw [messagesOf, List.filter_eq_self.2 fun e he => decide_eq_true (hx e he)]
  exact ⟨_, by rw [← hself hall, ← hself hT]; exact horder T⟩

/-- **Echo.** When one thread sends on a connection, and what it has sent is a first part of what
user code has taken from the read buffer, then the bytes the kernel has accepted on the connection
are a first part of those that have come into the buffer, so of those received where user code puts none
in, however the thread and the loop interleave. -/
theorem echo {T : Tid} (h : Runs.Logged (step cfg) (InputFits c) (inputAt c) (Sys.init cfg) L s)
    (hf : s.failed = none) (hT : ∀ e ∈ (s.conns c).sent, e.1 = T)
    (happ : ((s.conns c).sent.map (·.2)).flatten <+: taken L) (hw : (s.conns c).wrapped = false)
    (hst : (s.conns c).state ≠ .disconnected) :
    (s.conns c).out <+: filled L ∧ (puts L = [] → (s.conns c).out <+: received L) := by
  have hout : (s.conns c).out <+: ((s.conns c).entered.map (·.2)).flatten :=
    ⟨_, ((flows_reach h.reach c hw).2 hst).1⟩
  have hsent : ((s.conns c).entered.map (·.2)).flatten <+: ((s.conns c).sent.map (·.2)).flatten := by
    obtain ⟨ms, hms⟩ := entered_of_single h.reach hT
    rw [← hms, List.flatten_append]
    exact List.prefix_append _ _
  have htaken : taken L <+: filled L := ⟨_, (holds_reach h hf).stream.symm⟩
  have hle := ((hout.trans hsent).trans happ).trans htaken
  exact ⟨hle, fun hp => filled_of_no_puts hp ▸ hle⟩

/-- The callback sends back the two bytes it takes; the kernel accepts one at once. -/
def sampleEcho : List Act :=
  sampleStart ++
  loopActs [
    .poll [(5, pollIn)], .none, .none,
    .read (.data [1, 2, 3]), .call (.buffer sampleConn (.readBytes 2)), .none,
    .call (.send sampleConn [1, 2]), .write (.accepted 1), .ret, .read (.error eAgain)]

theorem echo_sample :
    ∃ s, Runs.run (step .sample) (Sys.init .sample) sampleEcho = some s ∧
      (s.conns sampleConn).out = [1] ∧ (s.conns sampleConn).out <+: [1, 2, 3] := by
  have hrun : (Runs.run (step .sample) (Sys.init .sample) sampleEcho).map
      (fun s => ((s.conns sampleConn).out, (s.conns sampleConn).sent,
        decide ((s.conns sampleConn).wrapped = false ∧ (s.conns sampleConn).state ≠ .disconnected ∧
          s.failed = none))) = some ([1], [(.loop 0, [1, 2])], true) := by decide +kernel
  obtain ⟨s, hs, hx⟩ := Option.map_eq_some_iff.1 hrun
  simp only [Prod.mk.injEq, decide_eq_true_eq] at hx
  obtain ⟨hout, hsent, hw, hst, hf⟩ := hx
  have hL : Runs.log (step .sample) (inputAt sampleConn) (Sys.init .sample) sampleEcho =
      [.got [1, 2, 3], .took [1, 2]] := by decide +kernel
  have hlog : Runs.Logged (step .sample) (InputFits sampleConn) (inputAt sampleConn) (Sys.init .sample)
      [.got [1, 2, 3], .took [1, 2]] s := hL ▸ .of_run _ hs (by decide +kernel)
  have hT : ∀ e ∈ (s.conns sampleConn).sent, e.1 = .loop 0 := by
    rw [hsent]
    simp
  have happ : ((s.conns sampleConn).sent.map (·.2)).flatten <+:
      taken [.got [1, 2, 3], .took [1, 2]] := by
    rw [hsent]
    exact List.prefix_refl _
  exact ⟨s, hs, hout, (echo hlog hf hT happ hw hst).2 rfl⟩

end Liang.Net

import NetworkPoller.Net.Proof.Calls
import NetworkPoller.Net.Proof.Output

/-!
# Writes that fail

`SendInLoop` writes a message to the socket itself when nothing is pending, `WriteHandler` what is
pending. `WriteOutcome` is what a write that fails is to come to, on both paths; `write_errors` says
where it does. `WriteHandler` looks at no error, so on its path a connection that is broken stays
open (`write_error_ignored`).
-/

namespace Liang.Net

open Base TcpConnection

variable {cfg : Cfg} {d : Discipline} {s s' s₀ s₁ s₂ : Sys} {t T : Tid} {c : ConnId} {inp : Input}
  {f : Frame} {r gs : List Frame} {e : Nat} {m : Msg}

/-! ## The write buffer -/

theorem Enter.bounded {w : Bool} {x x' : Conn} (h : Enter w T m x x') (hb : x.writeBuffer.Bounded)
    (hm : m.length < 2 ^ 31) : x'.writeBuffer.Bounded := by
  cases h with
  | kept n =>
    refine hb.append ?_
    rw [List.length_drop, u32Size]
    omega
  | _ => exact hb

/-- The sizes given to `Send` are `int`s: the positions in the buffer are in its vector. -/
def Cell.Sized (a : Cell) : Prop :=
  (∀ e ∈ a.conn.sent, e.2.length < 2 ^ 31) → a.conn.writeBuffer.Bounded

theorem mem_sent_of_queued {a : Cell} (h : a.Ordered c) (hm : m ∈ sendsOf T a.tasks) :
    (T, m) ∈ a.conn.sent := by
  have hm : m ∈ messagesOf T a.conn.sent := h.order T ▸ List.mem_append_right _ hm
  obtain ⟨⟨T', m'⟩, he, rfl⟩ := List.mem_map.1 hm
  obtain ⟨hsent, hT⟩ := List.mem_filter.1 he
  obtain rfl : T' = T := of_decide_eq_true hT
  exact hsent

theorem Cell.Sized.step {a b : Cell} (ho : a.Ordered c) (h : a.Sized) (hs : CellStep d t c a b) :
    b.Sized := by
  cases hs with
  | create hp hq hx =>
    obtain ⟨cm, cw, cs, rfl⟩ := hx
    exact fun _ => .new _
  | conn he hx =>
    cases hx with
    | @send m _ ht hen =>
      intro hsz
      obtain ⟨-, hsent, -, -⟩ := hen.history
      have hsz' : ∀ e ∈ a.conn.sent ++ [(t, m)], e.2.length < 2 ^ 31 := fun e he => hsz e (hsent ▸ he)
      exact hen.bounded (h fun e he => hsz' e (List.mem_append_left _ he))
        (hsz' (t, m) (List.mem_append_right _ List.mem_cons_self))
    | drain n hn => exact fun hsz => (h hsz).clearReadIndex n
    | misc | msg | shut | shutdown | forceClose => exact h
  | sendQueued he ht => exact fun hsz => h fun e he => hsz e (List.mem_append_left _ he)
  | @sendTaken T m ks x' he hT hq hx =>
    intro hsz
    obtain ⟨-, hsent, -, -⟩ := hx.history
    have hsz' : ∀ e ∈ a.conn.sent, e.2.length < 2 ^ 31 := fun e he => hsz e (hsent ▸ he)
    have hm : (T, m) ∈ a.conn.sent := mem_sent_of_queued ho (by rw [hq]; simp [sendsOf])
    exact hx.bounded (h hsz') (hsz' _ hm)
  | shutTaken he hq hz hx =>
    rcases hx with rfl | ⟨-, rfl⟩
    · exact h
    · exact h
  | establish | events | sendFailed | shutQueued | close | closeCb | unlink | destroyed => exact h

theorem sized_reach {P : Sys → Act → Prop} (h : Runs.Reach (step cfg) P (Sys.init cfg) s)
    (c : ConnId) : (s.cell c).Sized :=
  (Cell.reach (d := .any) (I := fun a => a.Ordered c ∧ a.Sized) ⟨⟨fun _ => rfl, rfl⟩, fun _ => .new _⟩
    (fun _ _ _ h hs => ⟨h.1.step hs, h.2.step h.1 hs⟩)
    (fun _ _ _ _ _ _ _ => Discipline.any_allows) h).2

/-! ## The outcome -/

/-- Which function writes. -/
inductive WritePath
  /-- `SendInLoop` with nothing pending, for this message -/
  | direct (m : Msg)
  | writeHandler

/-- The frame runs `SendInLoop` on `c` in the state `s₀`, for a message of `T`; `q` is on the stack when
it returns. -/
inductive SendFrame (c : ConnId) (t : Tid) (s : Sys) : Frame → Tid → Msg → Sys → List Frame → Prop
  | send {m : Msg} (ht : t = .loop c.loop) :
      SendFrame c t s (.api (.send c m)) t m
        (s.updConn c fun x => { x with sent := x.sent ++ [(t, m)] }) []
  | queued {l : LoopId} {T : Tid} {m : Msg} {ks : List Task}
      (hq : s.queue l = .sendInLoop c T m :: ks) :
      SendFrame c t s (.loopTasks l) T m (s.dequeue t l (.sendInLoop c T m) ks)
        [.taskDone (.sendInLoop c T m), .loopPoll l]

/-- The next step of `t` writes to the socket of `c`; `r` is what is on the stack when the function
returns. -/
inductive Writing (c : ConnId) (t : Tid) (s : Sys) : WritePath → List Frame → Prop
  | handler {r : List Frame} (hs : s.stack t = .writeHandler c :: r)
      (hw : (s.chan c).isWriting = true) : Writing c t s .writeHandler r
  | direct {f : Frame} {T : Tid} {m : Msg} {s₀ : Sys} {q r : List Frame} (hs : s.stack t = f :: r)
      (hf : SendFrame c t s f T m s₀ q) (hw : s.SendWrites c) : Writing c t s (.direct m) (q ++ r)

/-- The connection is broken. -/
def Fatal (e : Nat) : Prop := e = ePipe ∨ e = eConnReset

instance (e : Nat) : Decidable (Fatal e) := inferInstanceAs (Decidable (_ ∨ _))

/-- What the write was to write. -/
def WritePath.unsent (x : Conn) : WritePath → List UInt8
  | .direct m => m
  | .writeHandler => x.writeBuffer.readable

/-- `CloseHandler` has been executed, with `close_cb_`. -/
structure WriteClosed (c : ConnId) (s s₁ : Sys) : Prop where
  state : (s₁.conns c).state = .disconnected
  executed : ∃ es, (s₁.conns c).trace = (s.conns c).trace ++ es ∧ .closeHandler ∈ es ∧ .closeCb ∈ es

/-- No byte is lost, and write interest is on. -/
structure WriteKept (c : ConnId) (p : WritePath) (s s₁ : Sys) : Prop where
  out : (s₁.conns c).out = (s.conns c).out
  buffered : (s₁.conns c).writeBuffer.readable = p.unsent (s.conns c)
  writing : (s₁.chan c).isWriting = true

/-- What a write in `s` that fails with `e` has come to in `s₁`. -/
def WriteOutcome (c : ConnId) (e : Nat) (p : WritePath) (s s₁ : Sys) : Prop :=
  if Fatal e then WriteClosed c s s₁ else WriteKept c p s s₁

/-! ## The call returns -/

/-- A call that has returned takes no further step. -/
theorem reach_returned (hs : s.stack t = r)
    (h : Runs.Reach (step cfg) (fun s _ => s.Inside t r.length) s s₁) : s₁ = s := by
  refine h.inv (I := fun s₁ => s₁ = s) rfl fun s₁ a s₂ _ hi hin _ => ?_
  subst hi
  rw [Sys.Inside, hs] at hin
  exact absurd hin (Nat.lt_irrefl _)

/-- An assert that has failed stops everything, so that no function returns. -/
theorem failed_returns {P : Sys → Act → Prop} {e : Assert}
    (h : Runs.Reach (step cfg) P { s with failed := some e } s₁) (hret : s₁.stack t = r) :
    s.stack t = r := by
  have heq : s₁ = { s with failed := some e } := by
    refine h.inv (I := fun s₁ => s₁ = { s with failed := some e }) rfl fun s₁ a s₂ _ hi _ hstep => ?_
    subst hi
    simp [step] at hstep
  rw [heq] at hret
  exact hret

theorem note_trace (es : List ConnEv) : ((s.note c es).conns c).trace = (s.conns c).trace ++ es := by
  rw [Sys.note, Sys.updConn_self]

theorem closeCb_noted (h : exec cfg t inp s (.closeCb c) = .ok s₁ gs) :
    ∃ es, (s₁.conns c).trace = (s.conns c).trace ++ .closeCb :: es := by
  have hcb := note_trace (s := s) (c := c) [.closeCb]
  have htwice : (((s.note c [.closeCb]).note c [.destroyQueued]).conns c).trace =
      (s.conns c).trace ++ [.closeCb, .destroyQueued] := by
    rw [note_trace, hcb, List.append_assoc]
    rfl
  simp only [exec, TcpServer.removeConnection] at h
  split at h
  · split at h
    · obtain ⟨-, h⟩ := Res.assert_ok h
      cases h
      exact ⟨_, htwice⟩
    · cases h
      exact ⟨_, hcb⟩
  · obtain ⟨-, h⟩ := Res.assert_ok h
    obtain ⟨-, h⟩ := Res.assert_ok h
    cases h
    exact ⟨_, htwice⟩

/-- `CloseHandler` has been entered, and its `close_cb_` stands on the stack: the function returns
with both executed. -/
theorem closed_returns {tr es : List ConnEv}
    (h : Runs.Reach (step cfg) (fun _ _ => True) (Sys.init cfg) s) (hs : s.stack t = gs ++ r)
    (hst : (s.conns c).state = .disconnected) (htr : (s.conns c).trace = tr ++ es)
    (hes : .closeHandler ∈ es) (hcb : .closeCb c ∈ gs)
    (hcall : Runs.Reach (step cfg) (fun s _ => s.Inside t r.length) s s₁) (hret : s₁.stack t = r) :
    (s₁.conns c).state = .disconnected ∧
      ∃ es, (s₁.conns c).trace = tr ++ es ∧ .closeHandler ∈ es ∧ .closeCb ∈ es := by
  have later : ∀ {x y : Conn} {es : List ConnEv}, x.Le y → x.trace = tr ++ es →
      ∃ es', y.trace = tr ++ (es ++ es') := fun hle htr => by
    obtain ⟨es', he⟩ := hle.trace
    exact ⟨es', by rw [← he, htr, List.append_assoc]⟩
  obtain ⟨hst, es, htr, hes, hcb⟩ := call_reach
    (I := fun gs s => (s.conns c).state = .disconnected ∧ ∃ es, (s.conns c).trace = tr ++ es ∧
      .closeHandler ∈ es ∧ (.closeCb ∈ es ∨ .closeCb c ∈ gs))
    (fun _ _ hin => hin) h hs ⟨hst, es, htr, hes, .inr hcb⟩
    (fun gs s a s' hr hi _ _ hstep => by
      obtain ⟨hst, es, htr, hes, hcb⟩ := hi
      have hle := step_forward hr hstep c
      obtain ⟨es', htr'⟩ := later hle htr
      exact ⟨hle.disconnected hst, _, htr', List.mem_append_left _ hes,
        hcb.imp_left (List.mem_append_left _)⟩)
    (fun f gs s inp s₁ gs' hr hi _ hx hstep => by
      obtain ⟨hst, es, htr, hes, hcb⟩ := hi
      have hle := step_forward hr hstep c
      refine ⟨hle.disconnected hst, ?_⟩
      by_cases hf : f = .closeCb c
      · subst hf
        obtain ⟨es', htr'⟩ := closeCb_noted hx
        refine ⟨es ++ .closeCb :: es', ?_, List.mem_append_left _ hes, .inl (by simp)⟩
        show (s₁.conns c).trace = _
        rw [htr', htr, List.append_assoc]
      · obtain ⟨es', htr'⟩ := later hle htr
        refine ⟨_, htr', List.mem_append_left _ hes, ?_⟩
        rcases hcb with hcb | hcb
        · exact .inl (List.mem_append_left _ hcb)
        · exact .inr (List.mem_append_right _ ((List.mem_cons.1 hcb).resolve_left (Ne.symm hf))))
    (fun _ _ _ hi => hi) hcall hret
  exact ⟨hst, es, htr, hes, hcb.resolve_right List.not_mem_nil⟩

/-! ## The two paths -/

/-- The connection with the message entered. -/
def Sys.enter (s : Sys) (c : ConnId) (T : Tid) (m : Msg) : Sys :=
  s.updConn c fun x => { x with entered := x.entered ++ [(T, m)] }

theorem enter_conns : (s.enter c T m).conns c =
    { s.conns c with entered := (s.conns c).entered ++ [(T, m)] } := Sys.updConn_self ..

/-- The ways through `SendInLoop`, with the call each ends in. -/
inductive SendWay (cfg : Cfg) (t : Tid) (c : ConnId) (T : Tid) (m : Msg) (s s' : Sys) (gs : List Frame) :
    Input → Prop
  | dropped {inp : Input} (hst : (s.conns c).state = .disconnected) (h : s' = s.enter c T m) :
      SendWay cfg t c T m s s' gs inp
  | accepted {n : Nat} (hw : s.SendWrites c) (hn : n ≤ m.length) {s₁ : Sys}
      (h₁ : s₁ = (s.enter c T m).updConn c fun x => { x with out := x.out ++ m.take n })
      (h : sendRemaining cfg t c (m.drop n)
        (if n = m.length ∧ (s.conns c).writtenCb then s₁.queueInLoop t c.loop (.writtenCb c) else s₁) =
          .ok s' gs) : SendWay cfg t c T m s s' gs (.write (.accepted n))
  | fatal {e : Nat} (hw : s.SendWrites c) (hf : Fatal e)
      (h : closeHandler cfg t c (s.enter c T m) = .ok s' gs) :
      SendWay cfg t c T m s s' gs (.write (.error e))
  | refused {e : Nat} (hw : s.SendWrites c) (hf : ¬ Fatal e)
      (h : sendRemaining cfg t c m (s.enter c T m) = .ok s' gs) :
      SendWay cfg t c T m s s' gs (.write (.error e))
  | behind {inp : Input} (hst : (s.conns c).state ≠ .disconnected) (hw : ¬ s.SendWrites c)
      (h : sendRemaining cfg t c m (s.enter c T m) = .ok s' gs) : SendWay cfg t c T m s s' gs inp

theorem sendInLoop_way (h : sendInLoop cfg t c T m inp s = .ok s' gs) :
    SendWay cfg t c T m s s' gs inp := by
  obtain ⟨-, h⟩ := Res.assert_ok h
  simp only [Sys.updConn_self] at h
  split at h
  · rename_i hst
    cases h
    exact .dropped hst rfl
  · rename_i hst
    split at h
    · rename_i he
      split at h
      · split at h
        · rename_i hn
          exact .accepted ⟨hst, he⟩ hn rfl h
        · cases h
      · rename_i e _
        by_cases hf : Fatal e
        · have hne : e ≠ eWouldBlock ∨ e ≠ eAgain := .inl (by rcases hf with rfl | rfl <;> decide)
          rw [if_pos ⟨hne, hf⟩] at h
          exact .fatal ⟨hst, he⟩ hf h
        · rw [if_neg fun hc => hf hc.2] at h
          exact .refused ⟨hst, he⟩ hf h
      · cases h
    · rename_i he
      exact .behind hst (fun hw => he hw.2) h

/-- `SendInLoop` whose write fails closes the connection or keeps the message. -/
theorem sendInLoop_error (hw : s.SendWrites c)
    (h : sendInLoop cfg t c T m (.write (.error e)) s = .ok s' gs) :
    (Fatal e ∧ closeHandler cfg t c (s.enter c T m) = .ok s' gs) ∨
    (¬ Fatal e ∧ sendRemaining cfg t c m (s.enter c T m) = .ok s' gs) := by
  cases sendInLoop_way h with
  | dropped hst => exact absurd hst hw.1
  | fatal _ hf h => exact .inl ⟨hf, h⟩
  | refused _ hf h => exact .inr ⟨hf, h⟩
  | behind _ hw' => exact absurd hw hw'

theorem closeConn_entered {p : EpollPoller ChanId} (T : Tid) (m : Msg) :
    ((s.enter c T m).closeConn c p).conns c =
      Conn.closed { s.conns c with entered := (s.conns c).entered ++ [(T, m)] } := by
  rw [Sys.closeConn_self, enter_conns]
  rfl

theorem sendRemaining_nil (h : sendRemaining cfg t c [] s = .ok s' gs) : gs = [] ∧ s' = s := by
  cases h
  exact ⟨rfl, rfl⟩

/-- What is left of a message is appended, and write interest is on. -/
theorem sendRemaining_kept (hst : (s.conns c).state ≠ .disconnected) (hm : m ≠ [])
    (h : sendRemaining cfg t c m s = .ok s' gs) :
    gs = [] ∧ (s'.chan c).isWriting = true ∧ s'.conns c = append m (s.conns c) := by
  obtain ⟨rfl, ⟨h0, -⟩ | ⟨s₁, ha, hw, hq⟩⟩ := sendRemaining_ok hst h
  · exact absurd h0 hm
  · have hc : (s₁.updConn c (append m)).conns c = append m (s.conns c) := by
      rw [Sys.updConn_self, ha.conns]
    cases hq <;> exact ⟨rfl, hw, hc⟩

theorem sendInLoop_error_sent (hw : s.SendWrites c)
    (h : sendInLoop cfg t c T m (.write (.error e)) s = .ok s' gs) :
    (s'.conns c).sent = (s.conns c).sent := by
  rcases sendInLoop_error hw h with ⟨-, hx⟩ | ⟨-, hx⟩
  · obtain ⟨-, p, -, rfl, -⟩ := closeHandler_ok hx
    rw [closeConn_entered]
    rfl
  · by_cases h0 : m = []
    · subst h0
      obtain ⟨-, rfl⟩ := sendRemaining_nil hx
      rw [enter_conns]
    · obtain ⟨-, -, hc⟩ := sendRemaining_kept (by rw [enter_conns]; exact hw.1) h0 hx
      rw [hc, enter_conns]
      rfl

theorem WriteOutcome.congr {p : WritePath} (htr : (s₀.conns c).trace = (s.conns c).trace)
    (ho : (s₀.conns c).out = (s.conns c).out) (hp : p.unsent (s₀.conns c) = p.unsent (s.conns c)) :
    WriteOutcome c e p s₀ s₁ ↔ WriteOutcome c e p s s₁ := by
  unfold WriteOutcome
  split
  · refine ⟨fun h => ⟨h.1, ?_⟩, fun h => ⟨h.1, ?_⟩⟩
    · rw [← htr]
      exact h.2
    · rw [htr]
      exact h.2
  · exact ⟨fun h => ⟨h.1.trans ho, h.2.trans hp, h.3⟩,
      fun h => ⟨h.1.trans ho.symm, h.2.trans hp.symm, h.3⟩⟩

/-- `SendInLoop` whose write fails does what it should, but for an empty message. -/
theorem direct_outcome (hw : s.SendWrites c) (hb : (s.conns c).writeBuffer.Bounded)
    (hm : m.length < 2 ^ 31) (hx : sendInLoop cfg t c T m (.write (.error e)) s = .ok s₂ gs)
    (hr : Runs.Reach (step cfg) (fun _ _ => True) (Sys.init cfg) (s₂.push t (gs ++ r)))
    (hcall : Runs.Reach (step cfg) (fun s _ => s.Inside t r.length) (s₂.push t (gs ++ r)) s₁)
    (hret : s₁.stack t = r) : WriteOutcome c e (.direct m) s s₁ ↔ (¬ Fatal e → m ≠ []) := by
  unfold WriteOutcome
  rcases sendInLoop_error hw hx with ⟨hf, hx⟩ | ⟨hf, hx⟩
  · rw [if_pos hf]
    refine ⟨fun _ hn => absurd hf hn, fun _ => ?_⟩
    obtain ⟨-, p, -, rfl, rfl⟩ := closeHandler_ok hx
    have hc := closeConn_entered (s := s) (c := c) (p := p) T m
    have htrace := (congrArg Conn.trace hc).trans (List.append_assoc ..)
    have hclosed := closed_returns hr (Sys.push_self _) (congrArg Conn.state hc) htrace
      List.mem_cons_self (List.mem_append_right _ List.mem_cons_self) hcall hret
    exact ⟨hclosed.1, hclosed.2⟩
  · rw [if_neg hf]
    by_cases h0 : m = []
    · subst h0
      obtain ⟨rfl, rfl⟩ := sendRemaining_nil hx
      obtain rfl := reach_returned (by rw [Sys.push_self]; rfl) hcall
      refine ⟨fun hk => ?_, fun hn => absurd rfl (hn hf)⟩
      have hwr : (s.chan c).isWriting = true := hk.writing
      rw [hw.2.1] at hwr
      cases hwr
    · obtain ⟨rfl, hwr, hc⟩ := sendRemaining_kept (by rw [enter_conns]; exact hw.1) h0 hx
      rw [enter_conns] at hc
      obtain rfl := reach_returned (by rw [Sys.push_self]; rfl) hcall
      refine ⟨fun _ _ => h0, fun _ => ⟨?_, ?_, hwr⟩⟩
      · show (s₂.conns c).out = _
        rw [hc]
        rfl
      · show (s₂.conns c).writeBuffer.readable = m
        rw [hc]
        exact hb.append_empty hw.2.2 (by rw [u32Size]; omega)

namespace SendFrame

variable {q : List Frame}

theorem exec_eq (h : SendFrame c t s f T m s₀ q) (inp : Input) :
    exec cfg t inp s f = (sendInLoop cfg t c T m inp s₀).followedBy q := by
  cases h with
  | send ht =>
    simp only [exec, Api.run, TcpConnection.send, if_pos ht]
    cases sendInLoop cfg t c t m inp _ <;> simp [Res.followedBy]
  | queued hq => simp only [exec, hq, Task.run]

theorem conns (h : SendFrame c t s f T m s₀ q) : ∃ L, s₀.conns c = { s.conns c with sent := L } ∧
    ∀ x ∈ (s.conns c).sent, x ∈ L := by
  cases h with
  | send ht => exact ⟨_, Sys.updConn_self .., fun x hx => List.mem_append_left _ hx⟩
  | queued hq => exact ⟨_, rfl, fun x hx => hx⟩

theorem sendWrites_iff (h : SendFrame c t s f T m s₀ q) : s₀.SendWrites c ↔ s.SendWrites c := by
  cases h with
  | send ht =>
    unfold Sys.SendWrites
    rw [Sys.updConn_self]
    exact Iff.rfl
  | queued hq => exact Iff.rfl

/-- The message was given to `Send`. -/
theorem mem_sent (h : Runs.Reach (step cfg) (fun _ _ => True) (Sys.init cfg) s)
    (hf : SendFrame c t s f T m s₀ q) : (T, m) ∈ (s₀.conns c).sent := by
  cases hf with
  | send ht =>
    rw [Sys.updConn_self]
    exact List.mem_append_right _ List.mem_cons_self
  | @queued l _ _ ks hq =>
    have hl : l = c.loop :=
      ((Inv.any h).sound.tasks l (.sendInLoop c T m) (hq ▸ List.mem_cons_self)).home.1
    refine mem_sent_of_queued (a := s.cell c) (ordered_reach h c) ?_
    simp [Sys.cell, ← hl, hq, Task.outputOf, sendsOf]

end SendFrame

/-- **A write that fails.** In every state of a run and for every error, when the function that writes
returns: the connection is `DISCONNECTED` and `CloseHandler` executed for `EPIPE` and `ECONNRESET`,
and for all other errors what was to be written stands in `write_buffer_` with write interest on,
exactly if the first two are met by `SendInLoop`, and no other by `SendInLoop` with an empty message.
The sizes given to `Send` are `int`s. -/
theorem write_errors {p : WritePath} (h : Runs.Reach (step cfg) (fun _ _ => True) (Sys.init cfg) s)
    (hp : Writing c t s p r) (hstep : step cfg s (.thread t (.write (.error e))) = some s')
    (hsz : ∀ x ∈ (s'.conns c).sent, x.2.length < 2 ^ 31)
    (hcall : Runs.Reach (step cfg) (fun s _ => s.Inside t r.length) s' s₁) (hret : s₁.stack t = r) :
    WriteOutcome c e p s s₁ ↔ (Fatal e → p ≠ .writeHandler) ∧ (¬ Fatal e → p ≠ .direct []) := by
  have hr : Runs.Reach (step cfg) (fun _ _ => True) (Sys.init cfg) s' := .snoc h trivial hstep
  cases hp with
  | handler hs hw =>
    rcases step_at hs hstep with ⟨gs, s₂, hx, rfl⟩ | ⟨e', -, rfl⟩
    · obtain ⟨-, hx⟩ := Res.assert_ok hx
      rw [if_pos hw] at hx
      cases hx
      obtain rfl := reach_returned (by rw [Sys.push_self]; rfl) hcall
      unfold WriteOutcome
      split
      · rename_i hf
        refine ⟨fun hc => ?_, fun hn => absurd rfl (hn.1 hf)⟩
        obtain ⟨es, htr, hes, -⟩ := hc.executed
        rw [List.self_eq_append_right.1 (show (s.conns c).trace = _ from htr)] at hes
        cases hes
      · rename_i hf
        exact ⟨fun _ => ⟨fun hf' => absurd hf' hf, fun _ => nofun⟩, fun _ => ⟨rfl, rfl, hw⟩⟩
    · exact absurd (hs.symm.trans (failed_returns hcall hret)) (by simp)
  | @direct _ T m s₀ q _ hs hf hw =>
    rcases step_at hs hstep with ⟨gs, s₂, hx, rfl⟩ | ⟨e', -, rfl⟩
    · rw [hf.exec_eq] at hx
      obtain ⟨gs', hx', rfl⟩ := Res.followedBy_ok hx
      obtain ⟨L, hc, hL⟩ := hf.conns
      have hw' := hf.sendWrites_iff.2 hw
      have hsent : ∀ x ∈ (s₀.conns c).sent, x.2.length < 2 ^ 31 := fun x hmem =>
        hsz x (show x ∈ (s₂.conns c).sent from sendInLoop_error_sent hw' hx' ▸ hmem)
      have hb : (s₀.conns c).writeBuffer.Bounded := by
        rw [hc]
        exact sized_reach h c fun x hmem => hsent x (by rw [hc]; exact hL x hmem)
      rw [List.append_assoc] at hr hcall
      have hsame : WriteOutcome c e (.direct m) s₀ s₁ ↔ WriteOutcome c e (.direct m) s s₁ :=
        WriteOutcome.congr (by rw [hc]) (by rw [hc]) rfl
      refine hsame.symm.trans
        ((direct_outcome hw' hb (hsent _ (hf.mem_sent h)) hx' hr hcall hret).trans ?_)
      simp
    · have hlen := congrArg List.length (hs.symm.trans (failed_returns hcall hret))
      cases hf <;> simp at hlen

/-- A user's thread sends two bytes, and `SendInLoop` is next. -/
def sampleSending : List Act :=
  sampleStart ++ callActs [.call (.send sampleConn [1, 2]), .none] ++ loopActs [.poll [], .none]

/-- The peer has gone: `SendInLoop` closes the connection. -/
theorem write_errors_sample :
    ∃ s s' s₁, Runs.run (step .sample) (Sys.init .sample) sampleSending = some s ∧
      step .sample s (.thread (.loop 0) (.write (.error ePipe))) = some s' ∧
      Runs.run (step .sample) s' (loopActs [.ret, .none]) = some s₁ ∧
      WriteClosed sampleConn s s₁ := by
  have hrun : ((Runs.run (step .sample) (Sys.init .sample) sampleSending).bind fun s =>
      (step .sample s (.thread (.loop 0) (.write (.error ePipe)))).bind fun s' =>
      (Runs.run (step .sample) s' (loopActs [.ret, .none])).map fun s₁ =>
        ((s.stack (.loop 0), s.queue 0, s₁.stack (.loop 0)),
          (decide (s.SendWrites sampleConn),
            decide (∀ x ∈ (s'.conns sampleConn).sent, x.2.length < 2 ^ 31),
            decide (Runs.Admits (step .sample) (fun s _ => s.Inside (.loop 0) 2) s'
              (loopActs [.ret, .none]))))) =
      some (([.loopTasks 0], [.sendInLoop sampleConn (.user 7) [1, 2]],
        [.taskDone (.sendInLoop sampleConn (.user 7) [1, 2]), .loopPoll 0]), (true, true, true)) := by
    decide +kernel
  obtain ⟨s, hs, hrun⟩ := Option.bind_eq_some_iff.1 hrun
  obtain ⟨s', hs', hrun⟩ := Option.bind_eq_some_iff.1 hrun
  obtain ⟨s₁, hs₁, hx⟩ := Option.map_eq_some_iff.1 hrun
  simp only [Prod.mk.injEq, decide_eq_true_eq] at hx
  obtain ⟨⟨hstack, hq, hret⟩, hw, hsent, hadm⟩ := hx
  have hr : Runs.Reach (step .sample) (fun _ _ => True) (Sys.init .sample) s :=
    .of_run _ hs (Runs.admits_of_forall (fun _ _ => trivial) _ _)
  have hout := (write_errors (e := ePipe) hr (.direct hstack (.queued hq) hw) hs' hsent (.of_run _ hs₁ hadm)
    hret).2 ⟨nofun, fun hn => absurd (.inl rfl) hn⟩
  exact ⟨s, s', s₁, hs, hs', hs₁, hout⟩

/-- The two bytes wait in the buffer, and the socket can be written to. -/
def samplePending : List Act :=
  sampleSending ++ loopActs [.write (.error eAgain), .none, .poll [(5, pollOut)], .none, .none]

/-- The peer has gone: `WriteHandler` returns with the connection open. -/
theorem write_error_ignored :
    ∃ s s', Runs.run (step .sample) (Sys.init .sample) samplePending = some s ∧
      s.stack (.loop 0) = [.writeHandler sampleConn, .loopDispatch 0] ∧
      (s.chan sampleConn).isWriting = true ∧
      step .sample s (.thread (.loop 0) (.write (.error ePipe))) = some s' ∧
      s'.stack (.loop 0) = [.loopDispatch 0] ∧ (s'.conns sampleConn).state = .connected ∧
      .closeHandler ∉ (s'.conns sampleConn).trace := by
  have hrun : ((Runs.run (step .sample) (Sys.init .sample) samplePending).bind fun s =>
      (step .sample s (.thread (.loop 0) (.write (.error ePipe)))).map fun s' =>
        (s.stack (.loop 0), (s.chan sampleConn).isWriting, s'.stack (.loop 0),
          (s'.conns sampleConn).state, (s'.conns sampleConn).trace)) =
      some ([.writeHandler sampleConn, .loopDispatch 0], true, [.loopDispatch 0], .connected,
        [.established, .statusCb]) := by decide +kernel
  obtain ⟨s, hs, hrun⟩ := Option.bind_eq_some_iff.1 hrun
  obtain ⟨s', hs', hx⟩ := Option.map_eq_some_iff.1 hrun
  simp only [Prod.mk.injEq] at hx
  obtain ⟨h1, h2, h3, h4, h5⟩ := hx
  exact ⟨s, s', hs, h1, h2, hs', h3, h4, by rw [h5]; decide⟩

end Liang.Net

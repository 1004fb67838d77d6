import NetworkPoller.Net.Proof.Routine
import NetworkPoller.Net.Proof.WriteErrors

/-!
# The write-complete callback

`SendInLoop` queues `written_cb_` when its write takes the whole message, `WriteHandler` calls it when
it has emptied `write_buffer_`; `scheduled` counts both. `written_exact`: these are the steps that
complete output, each schedules the callback once, and no other step does. That the kernel has then
accepted all that was sent holds until `write_index_` wraps (`written_early`).
-/

namespace Liang.Net

open Base TcpConnection

variable {cfg : Cfg} {s s' s₁ s₂ : Sys} {t T : Tid} {c : ConnId} {inp : Input} {f : Frame}
  {r gs : List Frame} {m : Msg} {a : Act}

/-- How often `written_cb_` of `c` has been queued. -/
def Sys.writtens (c : ConnId) (s : Sys) : Nat :=
  ((s.enqueued c.loop).map (·.2)).count (.writtenCb c)

/-- `WriteHandler` enters `written_cb_`, through `RunInLoop` on the loop's own thread. -/
def writtenCalls (c : ConnId) (s s' : Sys) : Act → Nat
  | .thread t _ =>
    if (s.stack t).head? = some (.writeHandler c) then
      (s'.stack t).count (.user (some c)) - (s.stack t).count (.user (some c))
    else 0
  | _ => 0

/-- How often the step from `s` to `s'` schedules `written_cb_`. -/
def scheduled (c : ConnId) (s : Sys) (a : Act) (s' : Sys) : Nat :=
  s'.writtens c - s.writtens c + writtenCalls c s s' a

/-- The step completes output: the direct write of `SendInLoop` takes the message whole, or
`WriteHandler` empties the buffer. -/
inductive Completes (c : ConnId) (s s' : Sys) : Act → Prop
  | direct {t : Tid} {m : Msg} {r : List Frame} (h : Writing c t s (.direct m) r) :
      Completes c s s' (.thread t (.write (.accepted m.length)))
  | emptied {t : Tid} {inp : Input} {r : List Frame} (hs : s.stack t = .writeHandler c :: r)
      (hb : (s.conns c).writeBuffer.isEmpty = false) (he : (s'.conns c).writeBuffer.isEmpty = true) :
      Completes c s s' (.thread t inp)

/-- The buffer is empty after the step, which has neither closed the connection nor appended. -/
structure Drained (c : ConnId) (s s' : Sys) : Prop where
  empty : (s'.conns c).writeBuffer.readableBytes = 0
  state : (s'.conns c).state = (s.conns c).state
  wrapped : (s'.conns c).wrapped = (s.conns c).wrapped

/-! ## `SendInLoop` -/

theorem writtens_queueInLoop (t : Tid) (k : Task) :
    (s.queueInLoop t c.loop k).writtens c = s.writtens c + if k = .writtenCb c then 1 else 0 := by
  simp only [Sys.writtens, Sys.queueInLoop, Function.update_self, List.map_append, List.count_append]
  by_cases hk : k = .writtenCb c <;> simp [hk]

theorem writtens_updConn (g : Conn → Conn) : (s.updConn c g).writtens c = s.writtens c := rfl

/-- The end of `SendInLoop`: a rest is appended, and `high_water_cb_` queued above the mark. -/
theorem sendRemaining_exact (h : sendRemaining cfg t c m s = .ok s' gs) :
    m = [] ∧ s' = s ∨ m ≠ [] ∧ s'.conns c = append m (s.conns c) ∧
      s'.enqueued c.loop = s.enqueued c.loop ++
        if highWaterMark < (s.conns c).writeBuffer.readableBytes + m.length ∧ (s.conns c).highWaterCb then
          [(t, .highWaterCb c (s.conns c).highWater)]
        else [] := by
  unfold sendRemaining at h
  split at h
  · rename_i hm
    refine .inr ⟨List.length_pos_iff.1 hm, ?_⟩
    dsimp only at h
    split at h <;> rename_i hq <;> split at h
    · cases h
      rw [if_pos hq]
      exact ⟨Sys.updConn_self .., Function.update_self ..⟩
    · obtain ⟨s₁, h1, h⟩ := Res.bind_ok h
      obtain ⟨-, p, -, rfl⟩ := channelOp_ok h1
      cases h
      rw [if_pos hq]
      exact ⟨Sys.updConn_self .., Function.update_self ..⟩
    · cases h
      rw [if_neg hq, List.append_nil]
      exact ⟨Sys.updConn_self .., rfl⟩
    · obtain ⟨s₁, h1, h⟩ := Res.bind_ok h
      obtain ⟨-, p, -, rfl⟩ := channelOp_ok h1
      cases h
      rw [if_neg hq, List.append_nil]
      exact ⟨Sys.updConn_self .., rfl⟩
  · rename_i hm
    cases h
    exact .inl ⟨List.length_eq_zero_iff.1 (Nat.eq_zero_of_not_pos hm), rfl⟩

theorem sendRemaining_writtens (h : sendRemaining cfg t c m s = .ok s' gs) :
    s'.writtens c = s.writtens c := by
  rcases sendRemaining_exact h with ⟨-, rfl⟩ | ⟨-, -, he⟩
  · rfl
  · rw [Sys.writtens, he, List.map_append, List.count_append]
    split <;> simp [Sys.writtens]

/-- `SendInLoop` queues the callback when its write takes the message whole. -/
theorem sendInLoop_writtens (hcb : (s.conns c).writtenCb = true)
    (h : sendInLoop cfg t c T m inp s = .ok s' gs) :
    (s.SendWrites c ∧ inp = .write (.accepted m.length)) ∧ s'.writtens c = s.writtens c + 1 ∧
        Drained c s s' ∨
      ¬ (s.SendWrites c ∧ inp = .write (.accepted m.length)) ∧ s'.writtens c = s.writtens c := by
  cases sendInLoop_way h with
  | dropped hst hd =>
    subst hd
    exact .inr ⟨fun hw => hw.1.1 hst, rfl⟩
  | @accepted n hw hn s₁ h₁ hr =>
    subst h₁
    rw [hcb] at hr
    by_cases hall : n = m.length
    · rw [if_pos ⟨hall, rfl⟩, List.drop_eq_nil_of_le (Nat.le_of_eq hall.symm)] at hr
      obtain ⟨-, rfl⟩ := sendRemaining_nil hr
      refine .inl ⟨⟨hw, by rw [hall]⟩, ?_, ?_⟩
      · rw [writtens_queueInLoop, if_pos rfl]
        rfl
      · refine ⟨?_, ?_, ?_⟩ <;> simp [Sys.queueInLoop, Sys.enter, hw.2.2]
    · rw [if_neg fun hx => hall hx.1] at hr
      refine .inr ⟨fun hx => hall ?_, (sendRemaining_writtens hr).trans (writtens_updConn _)⟩
      cases hx.2
      rfl
  | fatal hw hf hc =>
    obtain ⟨-, p, -, rfl, -⟩ := closeHandler_ok hc
    exact .inr ⟨fun hx => (by cases hx.2), rfl⟩
  | refused hw hf hr =>
    have hn := (sendRemaining_writtens hr).trans (writtens_updConn _)
    exact .inr ⟨fun hx => (by cases hx.2), hn⟩
  | behind hst hw hr =>
    exact .inr ⟨fun hx => hw hx.1, (sendRemaining_writtens hr).trans (writtens_updConn _)⟩

/-- No assert fails on the loop's thread when the write takes the message. -/
theorem sendInLoop_whole (hw : s.SendWrites c) {e : Assert} :
    sendInLoop cfg (.loop c.loop) c T m (.write (.accepted m.length)) s ≠ .fail e := by
  simp only [sendInLoop, Res.assert, if_true, Sys.updConn_self, if_neg hw.1]
  split
  · simp [sendRemaining]
  · rename_i he
    exact absurd hw.2 he

/-! ## `WriteHandler` -/

theorem length_readable_le (b : Buffer) : b.readable.length ≤ b.readableBytes := by
  rw [Buffer.readable, Buffer.peek, List.length_take]
  exact Nat.min_le_left ..

/-- `WriteHandler` calls the callback when it has emptied the buffer. -/
theorem writeHandler_calls (hcb : (s.conns c).writtenCb = true)
    (h : writeHandler cfg t c inp s = .ok s' gs) :
    ((s.conns c).writeBuffer.isEmpty = false ∧ (s'.conns c).writeBuffer.isEmpty = true) ∧
        gs.count (.user (some c)) = 1 ∧ Drained c s s' ∨
      ¬ ((s.conns c).writeBuffer.isEmpty = false ∧ (s'.conns c).writeBuffer.isEmpty = true) ∧
        gs.count (.user (some c)) = 0 := by
  have hsame : ∀ b : Bool, ¬ (b = false ∧ b = true) := fun b h => by rw [h.1] at h; cases h.2
  obtain ⟨-, h⟩ := Res.assert_ok h
  split at h
  · split at h
    · rename_i n
      split at h
      · rename_i hn
        split at h
        · rename_i hpos
          have hne : (s.conns c).writeBuffer.isEmpty = false := by
            refine eq_false_of_ne_true fun he => ?_
            have := length_readable_le (s.conns c).writeBuffer
            have := isEmpty_iff.1 he
            omega
          simp only [Sys.updConn_self] at h
          split at h
          · rename_i hem
            obtain ⟨s₁, h1, h⟩ := Res.bind_ok h
            obtain ⟨-, p, -, rfl⟩ := channelOp_ok h1
            have hc : ∀ g, ((s.updConn c g).setPoller c.loop p).conns c = g (s.conns c) := fun g =>
              Sys.updConn_self ..
            simp only [hc, hcb, if_true] at h
            cases h
            exact .inl ⟨⟨hne, by rwa [hc]⟩, by simp, by rw [hc]; exact isEmpty_iff.1 hem, by rw [hc],
              by rw [hc]⟩
          · rename_i hem
            cases h
            rw [Sys.updConn_self]
            exact .inr ⟨fun hx => hem hx.2, rfl⟩
        · cases h
          exact .inr ⟨hsame _, rfl⟩
      · cases h
    · cases h
      exact .inr ⟨hsame _, rfl⟩
    · cases h
  · cases h
    exact .inr ⟨hsame _, rfl⟩

/-! ## The notice -/

theorem notable_written (h : (f.notable s).tasks (.writtenCb c)) :
    (∃ m, f = .api (.send c m)) ∨
      ∃ l T m ks, f = .loopTasks l ∧ s.queue l = .sendInLoop c T m :: ks := by
  unfold Frame.notable at h
  split at h
  · cases h
  · cases h
    exact .inl ⟨_, rfl⟩
  · exact h.elim
  · exact h.elim
  · split at h
    · rename_i hq
      cases h
      exact .inr ⟨_, _, _, _, rfl, hq⟩
    · exact h.elim
  · exact h.elim

namespace SendFrame

variable {s₀ s₀' : Sys} {T' : Tid} {m' : Msg} {q q' : List Frame}

theorem writtens (h : SendFrame c t s f T m s₀ q) : s₀.writtens c = s.writtens c := by
  cases h <;> rfl

theorem eq_message (h : SendFrame c t s f T m s₀ q) (h' : SendFrame c t s f T' m' s₀' q') : m' = m := by
  cases h with
  | send ht => cases h'; rfl
  | queued hq =>
    cases h' with
    | queued hq' =>
      rw [hq] at hq'
      cases hq'
      rfl

theorem ne_writeHandler (h : SendFrame c t s f T m s₀ q) : f ≠ .writeHandler c := by
  cases h <;> nofun

theorem thread (hI : Inv cfg .any s) (h : SendFrame c t s f T m s₀ q) (hs : s.stack t = f :: r) :
    t = .loop c.loop := by
  cases h with
  | send ht => exact ht
  | queued hq =>
    have hl := (hI.sound.tasks _ (.sendInLoop c T m) (hq ▸ List.mem_cons_self)).home.1
    exact (show t = .loop _ from hI.sound.loop_thread hs).trans (by rw [hl])

/-- The step of a frame that runs `SendInLoop`. -/
theorem completes_iff (h : SendFrame c t s f T m s₀ q) (hs : s.stack t = f :: r) :
    Completes c s s' (.thread t inp) ↔ s.SendWrites c ∧ inp = .write (.accepted m.length) := by
  constructor
  · intro hc
    cases hc with
    | direct hw =>
      cases hw with
      | direct hs' hf hw =>
        rw [hs] at hs'
        cases hs'
        rw [h.eq_message hf]
        exact ⟨hw, rfl⟩
    | emptied hs' =>
      rw [hs] at hs'
      cases hs'
      exact absurd rfl h.ne_writeHandler
  · rintro ⟨hw, rfl⟩
    exact .direct (.direct hs h hw)

end SendFrame

theorem scheduled_eq {n k : Nat} (hk : writtenCalls c s s' a = k)
    (hn : s'.writtens c = s.writtens c + n) : scheduled c s a s' = n + k := by
  rw [scheduled, hn, hk, Nat.add_sub_cancel_left]

/-- The frame whose step completes output. -/
theorem Completes.frame (h : Completes c s s' (.thread t inp)) (hs : s.stack t = f :: r) :
    f = .writeHandler c ∨ ∃ T m s₀ q, SendFrame c t s f T m s₀ q := by
  cases h with
  | direct hw =>
    cases hw with
    | direct hs' hf =>
      rw [hs] at hs'
      cases hs'
      exact .inr ⟨_, _, _, _, hf⟩
  | emptied hs' =>
    rw [hs] at hs'
    cases hs'
    exact .inl rfl

/-- The step schedules `written_cb_` once if it completes output, and leaves the buffer empty then; it
does not schedule it otherwise. -/
def Notifies (c : ConnId) (s : Sys) (a : Act) (s' : Sys) : Prop :=
  Completes c s s' a ∧ scheduled c s a s' = 1 ∧ Drained c s s' ∨
    ¬ Completes c s s' a ∧ scheduled c s a s' = 0

theorem writeHandler_notifies (hI : Inv cfg .any s) (hcb : (s.conns c).writtenCb = true)
    (hs : s.stack t = .writeHandler c :: r) (hx : exec cfg t inp s (.writeHandler c) = .ok s₁ gs) :
    Notifies c s (.thread t inp) (s₁.push t (gs ++ r)) := by
  have hsame : s₁.writtens c = s.writtens c + 0 := (exec_routine hI hs _ _ hx).1.count rfl id _
  have hcalls : writtenCalls c s (s₁.push t (gs ++ r)) (.thread t inp) = gs.count (.user (some c)) := by
    simp [writtenCalls, hs, Sys.push_self, List.count_append]
  rcases writeHandler_calls hcb hx with ⟨⟨hb, he⟩, hn, hd⟩ | ⟨hn, h0⟩
  · exact .inl ⟨.emptied hs hb he, scheduled_eq (hcalls.trans hn) hsame, hd.empty, hd.state, hd.wrapped⟩
  · refine .inr ⟨fun hc => ?_, scheduled_eq (hcalls.trans h0) hsame⟩
    cases hc with
    | direct hw =>
      cases hw with
      | direct hs' hf =>
        rw [hs] at hs'
        cases hs'
        exact hf.ne_writeHandler rfl
    | emptied _ hb he => exact hn ⟨hb, he⟩

theorem SendFrame.notifies {s₀ : Sys} {q : List Frame} (hf : SendFrame c t s f T m s₀ q)
    (hcb : (s.conns c).writtenCb = true) (hs : s.stack t = f :: r)
    (hx : exec cfg t inp s f = .ok s₁ gs) : Notifies c s (.thread t inp) (s₁.push t (gs ++ r)) := by
  have hcalls : writtenCalls c s (s₁.push t (gs ++ r)) (.thread t inp) = 0 := by
    simp [writtenCalls, hs, hf.ne_writeHandler]
  rw [hf.exec_eq] at hx
  obtain ⟨gs', hx', rfl⟩ := Res.followedBy_ok hx
  obtain ⟨L, hc, -⟩ := hf.conns
  have hw := sendInLoop_writtens (by rw [hc]; exact hcb) hx'
  rw [hf.sendWrites_iff, hf.writtens] at hw
  rw [Notifies, hf.completes_iff hs]
  rcases hw with ⟨hw, hn, hd⟩ | ⟨hw, hn⟩
  · refine .inl ⟨hw, scheduled_eq hcalls hn, hd.empty, ?_, ?_⟩
    · exact hd.state.trans (by rw [hc])
    · exact hd.wrapped.trans (by rw [hc])
  · exact .inr ⟨hw, scheduled_eq hcalls hn⟩

/-- Other frames do not queue the callback; a `Send` on another thread queues `SendInLoop`. -/
theorem other_writtens (hI : Inv cfg .any s) (hs : s.stack t = f :: r)
    (hf : ¬ ∃ T m s₀ q, SendFrame c t s f T m s₀ q) (hx : exec cfg t inp s f = .ok s₁ gs) :
    s₁.writtens c = s.writtens c := by
  by_cases hv : (f.notable s).tasks (.writtenCb c)
  · rcases notable_written hv with ⟨m, rfl⟩ | ⟨l, T, m, ks, rfl, hq⟩
    · have ht : t ≠ .loop c.loop := fun ht => hf ⟨_, _, _, _, .send ht⟩
      simp only [exec, Api.run, TcpConnection.send, if_neg ht] at hx
      cases hx
      exact (writtens_queueInLoop t _).trans (by simp; rfl)
    · exact absurd ⟨_, _, _, _, .queued hq⟩ hf
  · exact (exec_routine hI hs _ _ hx).1.count rfl hv _

/-- A step that fails an assert completes nothing. -/
theorem fail_notifies {e : Assert} (hI : Inv cfg .any s) (hs : s.stack t = f :: r)
    (hx : exec cfg t inp s f = .fail e) : Notifies c s (.thread t inp) { s with failed := some e } := by
  refine .inr ⟨fun hc => ?_, scheduled_eq (k := 0) (by simp [writtenCalls]) rfl⟩
  cases hc with
  | @direct _ m _ hw =>
    cases hw with
    | @direct _ T _ s₀ _ _ hs' hf hw =>
      rw [hs] at hs'
      cases hs'
      rw [hf.exec_eq, hf.thread hI hs] at hx
      cases hy : sendInLoop cfg (.loop c.loop) c T m (.write (.accepted m.length)) s₀ with
      | fail e' => exact sendInLoop_whole (hf.sendWrites_iff.2 hw) hy
      | ok _ _ | disabled =>
        rw [hy] at hx
        cases hx
  | emptied _ hb he =>
    rw [hb] at he
    cases he

theorem step_notifies (h : Runs.Reach (step cfg) (fun _ _ => True) (Sys.init cfg) s)
    (hcb : (s.conns c).writtenCb = true) (hstep : step cfg s a = some s') : Notifies c s a s' := by
  have hI := Inv.any h
  rcases step_cases hstep with ⟨t, inp, f, r, gs, s₁, rfl, hs, hx, rfl⟩ |
    ⟨t, inp, f, r, e, rfl, hs, hx, rfl⟩ | ⟨c', rfl, -, -, rfl⟩ | ⟨n, rfl, -, rfl⟩ | ⟨n, rfl, -, rfl⟩
  · by_cases hw : f = .writeHandler c
    · subst hw
      exact writeHandler_notifies hI hcb hs hx
    · by_cases hf : ∃ T m s₀ q, SendFrame c t s f T m s₀ q
      · obtain ⟨T, m, s₀, q, hf⟩ := hf
        exact hf.notifies hcb hs hx
      · have hcalls : writtenCalls c s (s₁.push t (gs ++ r)) (.thread t inp) = 0 := by
          simp [writtenCalls, hs, hw]
        have hn := other_writtens hI hs hf hx
        exact .inr ⟨fun hc => (hc.frame hs).elim hw hf, scheduled_eq hcalls hn⟩
  · exact fail_notifies hI hs hx
  all_goals
    refine .inr ⟨?_, scheduled_eq rfl rfl⟩
    intro hc
    cases hc

/-- **Write-complete notices.** In every run, of a connection with `written_cb_` that is not
`DISCONNECTED`: a step that completes output schedules the callback exactly once, no other step does,
and as long as `write_index_` has not reached `2 ^ 32` the kernel has accepted every message for which
`SendInLoop` was entered when the callback is scheduled. -/
theorem written_exact (h : Runs.Reach (step cfg) (fun _ _ => True) (Sys.init cfg) s)
    (hcb : (s.conns c).writtenCb = true) (hst : (s.conns c).state ≠ .disconnected)
    (hw : (s.conns c).wrapped = false) (hstep : step cfg s a = some s') :
    (Completes c s s' a → scheduled c s a s' = 1 ∧ (s'.conns c).out = (s'.conns c).stream) ∧
      (¬ Completes c s s' a → scheduled c s a s' = 0) := by
  rcases step_notifies h hcb hstep with ⟨hc, hn, hd⟩ | ⟨hc, hn⟩
  · refine ⟨fun _ => ⟨hn, ?_⟩, fun hc' => absurd hc hc'⟩
    obtain ⟨hwf, hflow⟩ := flows_reach (.snoc h trivial hstep) c (hd.wrapped.trans hw)
    have hstream := (hflow (hd.state ▸ hst :)).1
    rwa [(readable_nil_iff hwf).1 hd.empty, List.append_nil] at hstream
  · exact ⟨fun hc' => absurd hc' hc, fun _ => hn⟩

/-- A user's thread sets `written_cb_` and sends a byte, which the kernel does not take. -/
def sampleUnwritten : List Act :=
  sampleStart ++
  callActs [.call (.setCallbacks sampleConn ⟨true, true, none, true⟩), .none,
    .call (.send sampleConn [1]), .none] ++
  loopActs [.poll [], .none, .write (.error eAgain), .none]

/-- The byte is written when the socket can be written to. -/
theorem written_exact_sample :
    ∃ s s', Runs.run (step .sample) (Sys.init .sample)
        (sampleUnwritten ++ loopActs [.poll [(5, pollOut)], .none, .none]) = some s ∧
      step .sample s (.thread (.loop 0) (.write (.accepted 1))) = some s' ∧
      scheduled sampleConn s (.thread (.loop 0) (.write (.accepted 1))) s' = 1 ∧
      (s'.conns sampleConn).out = (s'.conns sampleConn).stream := by
  have hrun : ((Runs.run (step .sample) (Sys.init .sample)
      (sampleUnwritten ++ loopActs [.poll [(5, pollOut)], .none, .none])).bind fun s =>
      (step .sample s (.thread (.loop 0) (.write (.accepted 1)))).map fun s' =>
        ((s.stack (.loop 0), (s.conns sampleConn).writtenCb, (s.conns sampleConn).state),
          ((s.conns sampleConn).wrapped, (s.conns sampleConn).writeBuffer.isEmpty,
            (s'.conns sampleConn).writeBuffer.isEmpty))) =
      some (([.writeHandler sampleConn, .loopDispatch 0], true, .connected), (false, false, true)) := by
    decide +kernel
  obtain ⟨s, hs, hrun⟩ := Option.bind_eq_some_iff.1 hrun
  obtain ⟨s', hs', hx⟩ := Option.map_eq_some_iff.1 hrun
  simp only [Prod.mk.injEq] at hx
  obtain ⟨⟨hstack, hcb, hst⟩, hw, hb, he⟩ := hx
  have hr : Runs.Reach (step .sample) (fun _ _ => True) (Sys.init .sample) s :=
    .of_run _ hs (Runs.admits_of_forall (fun _ _ => trivial) _ _)
  have hmain := (written_exact hr hcb (by rw [hst]; nofun) hw hs').1 (.emptied hstack hb he)
  exact ⟨s, s', hs, hs', hmain⟩

/-! ## A notice too early -/

/-- A message behind others is appended to them. -/
theorem sendInLoop_appends (hw : (s.chan c).isWriting = true) (hst : (s.conns c).state ≠ .disconnected)
    (hh : (s.conns c).highWaterCb = false) (hm : 0 < m.length) :
    sendInLoop cfg (.loop c.loop) c T m inp s = .ok (s.updConn c fun x =>
      append m { x with entered := x.entered ++ [(T, m)] }) [] := by
  have hw' : ∀ g, ((s.updConn c g).chan c).isWriting = true := fun _ => hw
  simp only [sendInLoop, sendRemaining, Res.assert, if_true, Sys.updConn_self, if_neg hst, hw', hh,
    if_pos hm, Bool.true_eq_false, Bool.false_eq_true, false_and, and_false, if_false]
  rw [updConn_updConn]
  exact if_pos hw

theorem step_of_exec (cfg : Cfg) (inp : Input) (hf : s.failed = none) (hs : s.stack t = f :: r)
    (hx : exec cfg t inp s f = .ok s₁ gs) :
    step cfg s (.thread t inp) = some (s₁.push t (gs ++ r)) := by
  simp [step, hf, hs, hx]

theorem push_conns (fs : List Frame) : (s.push t fs).conns = s.conns := rfl

/-- A callback of `c`, which is as in `x`, runs on the loop's thread. -/
structure InCallback (c : ConnId) (x : Conn) (p : EpollPoller ChanId) (r : List Frame) (s : Sys) :
    Prop where
  running : s.failed = none
  stack : s.stack (.loop c.loop) = .user (some c) :: r
  conn : s.conns c = x
  poller : s.pollers c.loop = p

namespace InCallback

variable {x : Conn} {p : EpollPoller ChanId}

/-- A message is sent while the channel asks for write events. -/
theorem send (cfg : Cfg) (h : InCallback c x p r s) (hw : (p.chan (.conn c)).isWriting = true)
    (hst : x.state ≠ .disconnected) (hh : x.highWaterCb = false) (hm : 0 < m.length) :
    ∃ s', Runs.Reach (step cfg) (fun _ _ => True) s s' ∧
      InCallback c (append m { x with
        sent := x.sent ++ [(.loop c.loop, m)]
        entered := x.entered ++ [(.loop c.loop, m)] }) p r s' := by
  obtain ⟨hf, hs, rfl, rfl⟩ := h
  have hcall := step_of_exec cfg (.call (.send c m)) hf hs
    (if_pos (by simp [Api.possible, Api.conn?]))
  refine ⟨_, .snoc (.snoc .init trivial hcall) trivial
    (step_of_exec cfg .none hf (Sys.push_self ..)
      ((if_pos rfl).trans (sendInLoop_appends (by exact hw) ?_ ?_ hm))), hf, Sys.push_self .., ?_, rfl⟩
  · rwa [Sys.updConn_self]
  · rwa [Sys.updConn_self]
  · simp only [push_conns, Sys.updConn_self]

/-- The callback returns to `ReadHandler`, which finds nothing more to read. -/
theorem return_read (cfg : Cfg) (h : InCallback c x p (.readHandler c :: r) s) :
    ∃ s', Runs.Reach (step cfg) (fun _ _ => True) s s' ∧ s'.failed = none ∧
      s'.stack (.loop c.loop) = r ∧ s'.conns c = x ∧ s'.pollers c.loop = p := by
  obtain ⟨hf, hs, rfl, rfl⟩ := h
  have hret := step_of_exec cfg .ret hf hs rfl
  have hread : exec cfg (.loop c.loop) (.read (.error eAgain)) (s.push (.loop c.loop) (.readHandler c :: r))
      (.readHandler c) = .ok ((s.push (.loop c.loop) (.readHandler c :: r)).updConn c id) [] := by
    simp [exec, readHandler, Res.assert, canRead, Buffer.readFromFD]
    rfl
  refine ⟨_, .snoc (.snoc .init trivial hret) trivial (step_of_exec cfg _ hf (Sys.push_self ..) hread), hf,
    Sys.push_self .., ?_, rfl⟩
  simp only [push_conns, Sys.updConn_self, id]

end InCallback

/-- A write that empties the buffer. -/
theorem writeHandler_last {x : Conn} {p p' : EpollPoller ChanId} {n : Nat} (hc : s.conns c = x)
    (hp : s.pollers c.loop = p) (hw : (p.chan (.conn c)).isWriting = true) (hn : 0 < n)
    (hle : n ≤ x.writeBuffer.readable.length) (he : (x.writeBuffer.clearReadIndex n).isEmpty = true)
    (hop : p.disableWriting (ChanId.fd cfg) (.conn c) = .ok p') :
    ∃ s₁ gs, writeHandler cfg (.loop c.loop) c (.write (.accepted n)) s = .ok s₁ gs ∧ s₁.conns c =
      { x with
        out := x.out ++ x.writeBuffer.readable.take n
        writeBuffer := x.writeBuffer.clearReadIndex n } := by
  subst hc hp
  have hop' : ∀ g : Conn → Conn, (s.updConn c g).channelOp (.loop c.loop) c.loop
      (fun p => p.disableWriting (ChanId.fd cfg) (.conn c)) = .ok ((s.updConn c g).setPoller c.loop p') :=
    fun g => by simp [Sys.channelOp, Sys.updConn, hop]
  have hc : ∀ g : Conn → Conn, ((s.updConn c g).setPoller c.loop p').conns c = g (s.conns c) := fun g =>
    Sys.updConn_self ..
  have hw' : (s.chan c).isWriting = true := hw
  simp only [writeHandler, Res.assert, if_true, hw', if_pos hle, if_pos hn, Sys.updConn_self, he, hop',
    Res.bind]
  exact ⟨_, _, rfl, hc _⟩

/-- A message callback runs, and `WriteHandler` is next; a byte is in the buffer. -/
theorem reading_unwritten : ∃ s x p p',
    Runs.Reach (step .sample) (fun _ _ => True) (Sys.init .sample) s ∧
      InCallback sampleConn x p [.readHandler sampleConn, .writeHandler sampleConn, .loopDispatch 0] s ∧
      ((x.writtenCb = true ∧ x.highWaterCb = false ∧ x.state = .connected) ∧
        x.stream = [1] ∧ x.out = [] ∧ x.writeBuffer.At 0 1 1024) ∧
      (p.chan (.conn sampleConn)).isWriting = true ∧
      p.disableWriting (ChanId.fd .sample) (.conn sampleConn) = .ok p' := by
  have hrun : (Runs.run (step .sample) (Sys.init .sample) (sampleUnwritten ++
      loopActs [.poll [(5, pollIn ||| pollOut)], .none, .none, .read (.data [0])])).map (fun s =>
        let x := s.conns sampleConn
        (decide (s.failed = none ∧ s.stack (.loop 0) = [.user (some sampleConn), .readHandler sampleConn,
            .writeHandler sampleConn, .loopDispatch 0]),
          decide (x.writtenCb = true ∧ x.highWaterCb = false ∧ x.state = .connected),
          decide (x.stream = [1] ∧ x.out = []),
          decide (x.writeBuffer.readIndex = 0 ∧ x.writeBuffer.writeIndex = 1 ∧
            x.writeBuffer.buffer.length = 1024),
          (s.chan sampleConn).isWriting,
          ((s.pollers 0).disableWriting (ChanId.fd .sample) (.conn sampleConn)).isOk)) =
      some (true, true, true, true, true, true) := by decide +kernel
  obtain ⟨s, -, hx, hr⟩ := Runs.Reach.of_map _ hrun (Runs.admits_of_forall (fun _ _ => trivial) _ _)
  simp only [Prod.mk.injEq, decide_eq_true_eq] at hx
  obtain ⟨⟨hf, hstack⟩, hcbs, ⟨hstream, hout⟩, ⟨hri, hwi, hlen⟩, hw, hop⟩ := hx
  cases hp : (s.pollers 0).disableWriting (ChanId.fd .sample) (.conn sampleConn) with
  | error e =>
    rw [hp] at hop
    cases hop
  | ok p' =>
    exact ⟨s, _, _, p', hr, ⟨hf, hstack, rfl, rfl⟩, ⟨hcbs, hstream, hout, hri, hwi, hlen⟩, hw, hp⟩

/-- In the callback `2 ^ 32` bytes more are sent: `write_index_` wraps to 1, and `WriteHandler` finds the
buffer empty when it has written one byte. -/
theorem written_early :
    ∃ s s', Runs.Reach (step .sample) (fun _ _ => True) (Sys.init .sample) s ∧
      (s.conns sampleConn).writtenCb = true ∧ (s.conns sampleConn).state = .connected ∧
      step .sample s (.thread (.loop 0) (.write (.accepted 1))) = some s' ∧
      scheduled sampleConn s (.thread (.loop 0) (.write (.accepted 1))) s' = 1 ∧
      (s'.conns sampleConn).out.length = 1 ∧ (s'.conns sampleConn).stream.length = 2 ^ 32 + 1 := by
  obtain ⟨m, hm⟩ : ∃ m : Msg, m.length = 2 ^ 31 - 1 := ⟨List.replicate _ 0, List.length_replicate⟩
  obtain ⟨s₀, x, p, p', hr, h₀, ⟨⟨hcb, hh, hst⟩, hstream, hout, hat⟩, hw, hop⟩ := reading_unwritten
  have hst' : x.state ≠ .disconnected := by rw [hst]; nofun
  have hpos : 0 < m.length := by omega
  obtain ⟨s₁, hr₁, h₁⟩ := h₀.send .sample hw hst' hh hpos
  obtain ⟨s₂, hr₂, h₂⟩ := h₁.send .sample hw hst' hh hpos
  obtain ⟨s₃, hr₃, h₃⟩ := h₂.send .sample (m := [0, 0]) hw hst' hh (by decide)
  obtain ⟨s₄, hr₄, hf, hstack, hc, hp⟩ := h₃.return_read .sample
  have hreach : Runs.Reach (step .sample) (fun _ _ => True) (Sys.init .sample) s₄ :=
    (((hr.join hr₁).join hr₂).join hr₃).join hr₄
  have hat₁ : (x.writeBuffer.append m).At 0 (2 ^ 31) (2 ^ 31) := by
    have := hat.append (d := m) (by rw [hm]; decide) (by rw [hm]; decide)
    rwa [hm] at this
  have hat₂ : ((x.writeBuffer.append m).append m).At 0 (2 ^ 32 - 1) (2 ^ 32 - 1) := by
    have := hat₁.append (d := m) (by rw [hm]; decide) (by rw [hm]; decide)
    rwa [hm] at this
  have hat₃ : (((x.writeBuffer.append m).append m).append [0, 0]).At 0 1 (2 ^ 32 + 1) :=
    hat₂.append (d := [0, 0]) (by decide) (by decide)
  obtain ⟨hlen, hemp⟩ := hat₃.clear_all (by decide) (by decide)
  obtain ⟨s₅, gs, hx, hc'⟩ := writeHandler_last hc hp hw Nat.one_pos (Nat.le_of_eq hlen.symm)
    hemp hop
  have hstep := step_of_exec .sample (.write (.accepted 1)) hf hstack hx
  have hcb' : (s₄.conns sampleConn).writtenCb = true := by
    rw [hc]
    exact hcb
  have hfull : (s₄.conns sampleConn).writeBuffer.isEmpty = false := by
    refine eq_false_of_ne_true fun he => ?_
    have hle := length_readable_le (s₄.conns sampleConn).writeBuffer
    rw [isEmpty_iff.1 he, hc] at hle
    exact absurd (hlen ▸ hle :) (by decide)
  have hempty : (s₅.conns sampleConn).writeBuffer.isEmpty = true := by
    rw [hc']
    exact hemp
  refine ⟨s₄, _, hreach, hcb', by rw [hc]; exact hst, hstep, ?_, ?_, ?_⟩
  · rcases step_notifies hreach hcb' hstep with ⟨-, hn, -⟩ | ⟨hno, -⟩
    · exact hn
    · exact absurd (.emptied hstack hfull hempty) hno
  · rw [push_conns, hc']
    simp only [append, hout, List.nil_append, List.length_take, hlen]
    rfl
  · have hx : x.stream.length = 1 := by rw [hstream]; rfl
    rw [push_conns, hc']
    simp only [Conn.stream, append, List.map_append, List.flatten_append, List.length_append] at hx ⊢
    simp [hm, hx]

end Liang.Net

import NetworkPoller.Net.Proof.Written

/-!
# The high-water callback

`SendInLoop` compares what it leaves unsent with its own `highWaterMark_` and reports `high_water_`, the
mark given to `SetHighWaterCB`. `high_water_exact` says for which marks and messages that comes to the
comparison with the mark that was set; with a mark below `highWaterMark_` a backlog goes unreported
(`high_water_unreported`).
-/

namespace Liang.Net

open Base TcpConnection

variable {cfg : Cfg} {s s' s₀ s₁ : Sys} {t T : Tid} {c : ConnId} {inp : Input} {f : Frame}
  {r gs q : List Frame} {m : Msg}

/-- The mark a queued `high_water_cb_` of `c` is called with. -/
def Task.mark? (c : ConnId) : Task → Option Nat
  | highWaterCb c' n => if c' = c then some n else none
  | _ => none

/-- The marks `high_water_cb_` of `c` has been queued with, in order. -/
def Sys.marks (c : ConnId) (s : Sys) : List Nat := (s.enqueued c.loop).filterMap fun e => e.2.mark? c

/-- How many bytes of the messages for which `SendInLoop` was entered the kernel has not accepted. -/
def Conn.backlog (x : Conn) : Nat := x.stream.length - x.out.length

/-- How many bytes of `m` `SendInLoop` does not write: all of it if it does not try, or fails. -/
def Sys.unwritten (s : Sys) (c : ConnId) (m : Msg) (inp : Input) : Nat :=
  if s.SendWrites c then
    match inp with
    | .write (.accepted n) => m.length - n
    | _ => m.length
  else m.length

/-! ## `SendInLoop` -/

theorem marks_queueInLoop (k : Task) :
    (s.queueInLoop t c.loop k).marks c = s.marks c ++ (k.mark? c).toList := by
  simp only [Sys.marks, Sys.queueInLoop, Function.update_self, List.filterMap_append]
  cases hk : k.mark? c <;> simp [hk]

theorem sendRemaining_marks (hcb : (s.conns c).highWaterCb = true)
    (h : sendRemaining cfg t c m s = .ok s' gs) :
    s'.marks c = s.marks c ++
      if 0 < m.length ∧ highWaterMark < (s.conns c).writeBuffer.readableBytes + m.length then
        [(s.conns c).highWater]
      else [] := by
  rcases sendRemaining_exact h with ⟨rfl, rfl⟩ | ⟨hm, -, he⟩
  · simp
  · have hpos : 0 < m.length := List.length_pos_iff.2 hm
    rw [Sys.marks, he, List.filterMap_append, hcb]
    by_cases hw : highWaterMark < (s.conns c).writeBuffer.readableBytes + m.length
    · simp [Sys.marks, Task.mark?, hw, hpos]
    · simp [Sys.marks, hw]

/-- What `SendInLoop` has done when the connection is not closed. -/
structure Sent (c : ConnId) (m : Msg) (inp : Input) (s s' : Sys) : Prop where
  open_before : (s.conns c).state ≠ .disconnected
  not_wrapped : (s'.conns c).wrapped = false → (s.conns c).wrapped = false
  stream : (s'.conns c).stream = (s.conns c).stream ++ m
  out : (s'.conns c).out.length + s.unwritten c m inp = (s.conns c).out.length + m.length
  marks : s'.marks c = s.marks c ++
    if 0 < s.unwritten c m inp ∧
        highWaterMark < (s.conns c).writeBuffer.readableBytes + s.unwritten c m inp then
      [(s.conns c).highWater]
    else []

/-- `SendInLoop` comes to its end with `n` bytes of the message written. -/
theorem Sent.of_remaining {n : Nat} (hst : (s.conns c).state ≠ .disconnected)
    (hcb : (s.conns c).highWaterCb = true)
    (hc : s₁.conns c = { s.conns c with
      entered := (s.conns c).entered ++ [(T, m)], out := (s.conns c).out ++ m.take n })
    (hmk : s₁.marks c = s.marks c) (hn : n ≤ m.length) (hu : s.unwritten c m inp = (m.drop n).length)
    (h : sendRemaining cfg t c (m.drop n) s₁ = .ok s' gs) : Sent c m inp s s' := by
  have hcb₁ : (s₁.conns c).highWaterCb = true := by rw [hc]; exact hcb
  have hmarks := sendRemaining_marks hcb₁ h
  rw [hmk, hc, ← hu] at hmarks
  have hstream : (s₁.conns c).stream = (s.conns c).stream ++ m := by
    rw [hc]
    simp [Conn.stream]
  have hout : (s₁.conns c).out.length + s.unwritten c m inp = (s.conns c).out.length + m.length := by
    rw [hc, hu, List.length_append, List.length_take, List.length_drop]
    omega
  have hconn : (s'.conns c).stream = (s₁.conns c).stream ∧ (s'.conns c).out = (s₁.conns c).out ∧
      ((s'.conns c).wrapped = false → (s₁.conns c).wrapped = false) := by
    rcases sendRemaining_exact h with ⟨-, rfl⟩ | ⟨-, hx, -⟩
    · exact ⟨rfl, rfl, id⟩
    · rw [hx]
      exact ⟨rfl, rfl, fun hw => (Bool.or_eq_false_iff.1 hw).1⟩
  obtain ⟨h1, h2, h3⟩ := hconn
  refine ⟨hst, fun hw => ?_, h1.trans hstream, by rw [h2, hout], hmarks⟩
  have := h3 hw
  rwa [hc] at this

theorem enter_eq_take : (s.enter c T m).conns c = { s.conns c with
    entered := (s.conns c).entered ++ [(T, m)], out := (s.conns c).out ++ m.take 0 } := by
  rw [enter_conns]
  simp

theorem sendInLoop_sent (hcb : (s.conns c).highWaterCb = true)
    (hst : (s'.conns c).state ≠ .disconnected) (h : sendInLoop cfg t c T m inp s = .ok s' gs) :
    Sent c m inp s s' := by
  cases sendInLoop_way h with
  | dropped hd hx =>
    subst hx
    rw [enter_conns] at hst
    exact absurd hd hst
  | @accepted n hw hn s₁ h₁ hr =>
    have hu : s.unwritten c m (.write (.accepted n)) = (m.drop n).length := by
      rw [List.length_drop]
      exact if_pos hw
    subst h₁
    refine .of_remaining (T := T) hw.1 hcb ?_ ?_ hn hu hr
    · split <;> simp [Sys.queueInLoop, Sys.enter]
    · split
      · rw [marks_queueInLoop]
        exact List.append_nil _
      · rfl
  | fatal hw hf hc =>
    obtain ⟨-, p, -, rfl, -⟩ := closeHandler_ok hc
    rw [closeConn_entered] at hst
    exact absurd rfl hst
  | refused hw hf hr =>
    exact .of_remaining (n := 0) hw.1 hcb enter_eq_take rfl (Nat.zero_le _) (if_pos hw) hr
  | behind hst' hw hr =>
    exact .of_remaining (n := 0) hst' hcb enter_eq_take rfl (Nat.zero_le _) (if_neg hw) hr

/-- The same of the frame that runs it. -/
theorem SendFrame.sent (hf : SendFrame c t s f T m s₀ q) (hcb : (s.conns c).highWaterCb = true)
    (hst : (s₁.conns c).state ≠ .disconnected) (hx : exec cfg t inp s f = .ok s₁ gs) :
    Sent c m inp s s₁ := by
  rw [hf.exec_eq] at hx
  obtain ⟨gs', hx', -⟩ := Res.followedBy_ok hx
  obtain ⟨L, hc, -⟩ := hf.conns
  have hu : s₀.unwritten c m inp = s.unwritten c m inp := by
    simp only [Sys.unwritten, hf.sendWrites_iff]
  have hmk : s₀.marks c = s.marks c := by cases hf <;> rfl
  have h := sendInLoop_sent (by rw [hc]; exact hcb) hst hx'
  exact ⟨by simpa [hc] using h.open_before, by simpa [hc] using h.not_wrapped,
    by simpa [hc, Conn.stream] using h.stream, by simpa [hc, hu] using h.out,
    by simpa [hc, hu, hmk] using h.marks⟩

/-! ## Every run -/

/-- What is not sent stands in the buffer. -/
theorem backlog_eq (h : Runs.Reach (step cfg) (fun _ _ => True) (Sys.init cfg) s)
    (hw : (s.conns c).wrapped = false) (hst : (s.conns c).state ≠ .disconnected) :
    (s.conns c).backlog = (s.conns c).writeBuffer.readableBytes ∧
      (s.conns c).out.length + (s.conns c).backlog = (s.conns c).stream.length := by
  obtain ⟨hwf, hflow⟩ := flows_reach h c hw
  have hlen := congrArg List.length (hflow hst).1
  rw [List.length_append, hwf.length_readable] at hlen
  have hb : (s.cell c).conn = s.conns c := rfl
  rw [hb] at hlen
  rw [Conn.backlog]
  omega

theorem ite_singleton_eq {p q : Prop} [Decidable p] [Decidable q] (n : Nat) :
    (if p then [n] else []) = (if q then [n] else []) ↔ (p ↔ q) := by
  by_cases hp : p <;> by_cases hq : q <;> simp [hp, hq]

/-- **The high-water mark.** In every run, when `SendInLoop` returns on a connection whose callback was
set with the mark `h` and that is still open: what is unsent after it is what was pending and the rest of the
message. It queues the callback once, with `h`, exactly if that exceeds `h`, if and only if `h` and
`highWaterMark_` are on one side of it, or nothing is left of the message and what was pending does not
exceed `h`. -/
theorem high_water_exact {h : Nat} (hr : Runs.Reach (step cfg) (fun _ _ => True) (Sys.init cfg) s)
    (hs : s.stack t = f :: r) (hf : SendFrame c t s f T m s₀ q)
    (hcb : (s.conns c).cbs.highWater = some h) (hstep : step cfg s (.thread t inp) = some s')
    (hok : s'.failed = none) (hst : (s'.conns c).state ≠ .disconnected)
    (hw : (s'.conns c).wrapped = false) :
    (s'.conns c).backlog = (s.conns c).backlog + s.unwritten c m inp ∧
      ((s'.marks c = s.marks c ++ if h < (s'.conns c).backlog then [h] else []) ↔
        if s.unwritten c m inp = 0 then (s.conns c).backlog ≤ h
        else (highWaterMark < (s.conns c).backlog + s.unwritten c m inp ↔
          h < (s.conns c).backlog + s.unwritten c m inp)) := by
  obtain ⟨hset, hmark⟩ : (s.conns c).highWaterCb = true ∧ (s.conns c).highWater = h := by
    simp only [Conn.cbs] at hcb
    split at hcb
    · rename_i hset
      exact ⟨hset, Option.some.inj hcb⟩
    · cases hcb
  rcases step_at hs hstep with ⟨gs, s₁, hx, rfl⟩ | ⟨e, -, rfl⟩
  · have hsent : Sent c m inp s (s₁.push t (gs ++ r)) := by
      have hst₁ : (s₁.conns c).state ≠ .disconnected := hst
      obtain ⟨h1, h2, h3, h4, h5⟩ := hf.sent hset hst₁ hx
      exact ⟨h1, h2, h3, h4, h5⟩
    obtain ⟨hb, hsum⟩ := backlog_eq hr (hsent.not_wrapped hw) hsent.open_before
    obtain ⟨-, hsum'⟩ := backlog_eq (.snoc hr trivial hstep) hw hst
    have hback : ((s₁.push t (gs ++ r)).conns c).backlog = (s.conns c).backlog + s.unwritten c m inp := by
      have hout := hsent.out
      have hlen := congrArg List.length hsent.stream
      rw [List.length_append] at hlen
      omega
    refine ⟨hback, ?_⟩
    rw [hsent.marks, hback, ← hb, hmark, List.append_cancel_left_eq, ite_singleton_eq]
    split
    · rename_i h0
      rw [h0, Nat.add_zero, ← Nat.not_lt]
      exact ⟨fun hx hlt => absurd (hx.2 hlt).1 (Nat.lt_irrefl 0),
        fun hx => ⟨fun hlt => absurd hlt.1 (Nat.lt_irrefl 0), fun hlt => absurd hlt hx⟩⟩
    · rename_i h0
      rw [and_iff_right (Nat.pos_of_ne_zero h0)]
  · cases hok

/-- A user's thread sets the callback with the mark `h` and sends three bytes; `SendInLoop` is next. -/
def sampleMarked (h : Nat) : List Act :=
  sampleStart ++
  callActs [.call (.setCallbacks sampleConn ⟨true, true, some h, true⟩), .none,
    .call (.send sampleConn [1, 2, 3]), .none] ++
  loopActs [.poll [], .none]

/-- Two of the bytes are left, with a mark of two: nothing is queued. -/
theorem high_water_exact_sample :
    ∃ s s', Runs.run (step .sample) (Sys.init .sample) (sampleMarked 2) = some s ∧
      step .sample s (.thread (.loop 0) (.write (.accepted 1))) = some s' ∧
      (s'.conns sampleConn).backlog = 2 ∧ s'.marks sampleConn = s.marks sampleConn := by
  have hrun : ((Runs.run (step .sample) (Sys.init .sample) (sampleMarked 2)).bind fun s =>
      (step .sample s (.thread (.loop 0) (.write (.accepted 1)))).map fun s' =>
        ((s.stack (.loop 0), s.queue 0, (s.conns sampleConn).cbs.highWater),
          (decide (s'.failed = none), (s'.conns sampleConn).state, (s'.conns sampleConn).wrapped),
          ((s.conns sampleConn).backlog, s.unwritten sampleConn [1, 2, 3] (.write (.accepted 1))))) =
      some (([.loopTasks 0], [.sendInLoop sampleConn (.user 7) [1, 2, 3]], some 2),
        (true, .connected, false), (0, 2)) := by
    decide +kernel
  obtain ⟨s, hs, hrun⟩ := Option.bind_eq_some_iff.1 hrun
  obtain ⟨s', hs', hx⟩ := Option.map_eq_some_iff.1 hrun
  simp only [Prod.mk.injEq, decide_eq_true_eq] at hx
  obtain ⟨⟨hstack, hq, hcb⟩, ⟨hok, hst, hw⟩, hb, hu⟩ := hx
  have hr : Runs.Reach (step .sample) (fun _ _ => True) (Sys.init .sample) s :=
    .of_run _ hs (Runs.admits_of_forall (fun _ _ => trivial) _ _)
  obtain ⟨hback, hiff⟩ := high_water_exact hr hstack (.queued hq) hcb hs' hok (by rw [hst]; decide) hw
  rw [hb, hu] at hback hiff
  have hmarks := hiff.2 (by decide)
  rw [hback] at hmarks
  exact ⟨s, s', hs, hs', hback, by simpa using hmarks⟩

/-- Two of the bytes are left, with a mark of one: nothing is queued either. -/
theorem high_water_unreported :
    ∃ s s', Runs.run (step .sample) (Sys.init .sample) (sampleMarked 1) = some s ∧
      (s.conns sampleConn).cbs.highWater = some 1 ∧
      s.stack (.loop 0) = [.loopTasks 0] ∧ s.queue 0 = [.sendInLoop sampleConn (.user 7) [1, 2, 3]] ∧
      step .sample s (.thread (.loop 0) (.write (.accepted 1))) = some s' ∧
      s'.failed = none ∧ (s'.conns sampleConn).state = .connected ∧
      (s'.conns sampleConn).wrapped = false ∧
      (s'.conns sampleConn).backlog = 2 ∧ s.marks sampleConn = [] ∧ s'.marks sampleConn = [] := by
  have hrun : ((Runs.run (step .sample) (Sys.init .sample) (sampleMarked 1)).bind fun s =>
      (step .sample s (.thread (.loop 0) (.write (.accepted 1)))).map fun s' =>
        (((s.conns sampleConn).cbs.highWater, s.stack (.loop 0), s.queue 0),
          (decide (s'.failed = none), (s'.conns sampleConn).state, (s'.conns sampleConn).wrapped),
          ((s'.conns sampleConn).backlog,
            decide (s.marks sampleConn = [] ∧ s'.marks sampleConn = [])))) =
      some ((some 1, [.loopTasks 0], [.sendInLoop sampleConn (.user 7) [1, 2, 3]]),
        (true, .connected, false), (2, true)) := by
    decide +kernel
  obtain ⟨s, hs, hrun⟩ := Option.bind_eq_some_iff.1 hrun
  obtain ⟨s', hs', hx⟩ := Option.map_eq_some_iff.1 hrun
  simp only [Prod.mk.injEq, decide_eq_true_eq] at hx
  obtain ⟨⟨h1, h2, h3⟩, ⟨h4, h5, h6⟩, h7, h8, h9⟩ := hx
  exact ⟨s, s', hs, h1, h2, h3, hs', h4, h5, h6, h7, h8, h9⟩

end Liang.Net

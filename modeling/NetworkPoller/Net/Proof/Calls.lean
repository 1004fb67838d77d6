import NetworkPoller.Net.Proof.Forward

/-!
# Calls from their start to their return

A call of a thread is over when the frames below it are on top again; in between the other threads
make steps of their own. `call_inv` is the rule for what holds throughout a call: the frames of the
call change when its thread makes a step, and no other step touches them.

Main result: `read_complete`, on what a `ReadHandler` leaves in the socket.
-/

namespace Liang.Net

open Base TcpConnection

variable {cfg : Cfg} {d : Discipline} {s s' s₀ s₁ : Sys} {t t' : Tid} {c : ConnId} {l : LoopId}
  {inp : Input} {f : Frame} {r gs : List Frame} {a : Act}

/-! ## What other threads leave alone -/

theorem note_state {c' : ConnId} (es : List ConnEv) :
    ((s.note c' es).conns c).state = (s.conns c).state := by
  by_cases hc : c = c'
  · subst hc
    rw [Sys.note, Sys.updConn_self]
  · rw [Sys.note, Sys.updConn_of_ne _ hc]

theorem StartSource.conns {k : ClientId} (h : StartSource t k s s₀ r) : s₀.conns = s.conns := by
  cases h <;> rfl

/-- An effect of another thread closes no connection of the loop. -/
theorem Effect.stays_open (ht : t ≠ .loop c.loop) (hst : (s.conns c).state ≠ .disconnected)
    (he : Effect cfg d t s s') : (s'.conns c).state ≠ .disconnected := by
  have hupd {s₁ : Sys} {c' : ConnId} {x' : Conn} (hs : s₁.conns = s.conns)
      (hx : c = c' → x'.state ≠ .disconnected) :
      (Function.update s₁.conns c' x' c).state ≠ .disconnected := by
    by_cases hc : c = c'
    · subst hc
      rw [Function.update_self]
      exact hx rfl
    · rw [Function.update_of_ne hc, hs]
      exact hst
  cases he with
  | conn hl hx =>
    refine hupd rfl fun hc => ?_
    subst hc
    cases hx with
    | misc | msg | drain | shut => exact hst
    | send _ hen => exact hen.same.2.2 ▸ hst
    | shutdown | forceClose => nofun
  | sendQueued hl hne =>
    refine hupd rfl fun hc => ?_
    subst hc
    exact hst
  | sendTaken hs hq hen =>
    refine hupd rfl fun hc => ?_
    subst hc
    exact hen.same.2.2 ▸ hst
  | shutTaken hs hq hx =>
    refine hupd rfl fun hc => ?_
    subst hc
    rcases hx with rfl | ⟨-, rfl⟩ <;> exact hst
  -- the functions that store into `state_` run in the loop's own thread
  | @establish _ _ _ c' p hs hq hl ho =>
    have hc : c ≠ c' := fun hc => ht (hc ▸ hl)
    show ((Sys.establish _ c' p).conns c).state ≠ _
    rw [Sys.establish_of_ne hc]
    exact hst
  | @close _ c' p hr hlive hl =>
    have hc : c ≠ c' := fun hc => ht (hc ▸ hl)
    show ((Sys.closeConn _ c' p).conns c).state ≠ _
    rw [Sys.closeConn_of_ne hc]
    exact hst
  | @sendFailed _ _ _ c' _ _ p hs hq hl =>
    have hc : c ≠ c' := fun hc => ht (hc ▸ hl)
    show ((Sys.closeConn _ c' p).conns c).state ≠ _
    rw [Sys.closeConn_of_ne hc, Sys.updConn_of_ne _ hc]
    exact hst
  | @newConnection k _ c' p hs hc' hl ho =>
    have hc : c ≠ c' := fun hc => ht (hc ▸ hl)
    show ((Sys.establish _ c' p).conns c).state ≠ _
    rw [Sys.establish_of_ne hc]
    exact hupd rfl fun hcc => absurd hcc hc
  | handOver | unlinkTaken | destroyed =>
    refine ne_of_eq_of_ne (note_state _) ?_
    exact hst
  | unlink | unlinkClient =>
    refine ne_of_eq_of_ne (note_state _) (ne_of_eq_of_ne (note_state _) ?_)
    exact hst
  | accept => exact hupd rfl fun _ => nofun
  | attempt hs => exact hs.conns ▸ hst
  | attemptFailed hs => exact hs.conns ▸ hst
  | _ => exact hst

theorem exec_effects_any (hI : Inv cfg .any s) (hs : s.stack t = f :: r)
    (h : exec cfg t inp s f = .ok s₁ gs) : Effects cfg .any t s (s₁.push t (gs ++ r)) :=
  exec_effects hI hs (Discipline.any_allows (a := .thread t inp) f r hs) h

/-- What the effects of other threads keep, the steps of other threads and of the environment do. -/
theorem step_other {I : Sys → Prop} (hI : Inv cfg .any s) (hi : I s)
    (he : ∀ t' s s', t' ≠ t → I s → Effect cfg .any t' s s' → I s')
    (ha : ∀ inp, a ≠ .thread t inp) (h : step cfg s a = some s') : I s' := by
  obtain ⟨u, hu⟩ : ∃ u, u ≠ t := by
    by_cases ht : t = .user 0
    · exact ⟨.user 1, by rw [ht]; decide⟩
    · exact ⟨.user 0, Ne.symm ht⟩
  rcases step_cases h with ⟨t', inp, f, r, gs, s₁, rfl, hs, hx, rfl⟩ | ⟨t', inp, f, r, e, -, -, -, rfl⟩ |
    ⟨c', -, hal, href, rfl⟩ | ⟨n, -, hn, rfl⟩ | ⟨n, -, hn, rfl⟩
  · have ht : t' ≠ t := fun ht => ha inp (by rw [ht])
    exact (Inv.effects (fun s s' _ hi hes => he t' s s' ht hi hes) hI hi (exec_effects_any hI hs hx)).2
  · exact he u _ _ hu hi .stop
  · exact he u _ _ hu hi (.destroy hal href (.inr trivial) (.inr trivial))
  · exact he u _ _ hu hi (.openFd hn (.inr rfl))
  · exact he u _ _ hu hi (.closeFd (.inr trivial) (.inr trivial))

/-! ## The rule for calls -/

/-- **What holds throughout a call** holds when it returns. `I L gs s`: the call has reported `L`, its
frames are `gs`. The frames `r` below it are not touched. -/
theorem call_inv {ε : Type} {P Q : Sys → Act → Prop} {report : Sys → Act → List ε}
    {I : List ε → List Frame → Sys → Prop} {L : List ε}
    (hin : ∀ s a, P s a → s.Inside t r.length)
    (hr : Runs.Reach (step cfg) Q (Sys.init cfg) s₀) (hs₀ : s₀.stack t = gs ++ r) (h0 : I [] gs s₀)
    (other : ∀ L gs s a s', Runs.Reach (step cfg) (fun _ _ => True) (Sys.init cfg) s →
      s.stack t = gs ++ r → I L gs s → P s a → (∀ inp, a ≠ .thread t inp) →
      step cfg s a = some s' → I (L ++ report s a) gs s')
    (own : ∀ L f gs s inp s₁ gs', Runs.Reach (step cfg) (fun _ _ => True) (Sys.init cfg) s →
      s.stack t = f :: (gs ++ r) → I L (f :: gs) s → P s (.thread t inp) →
      exec cfg t inp s f = .ok s₁ gs' →
      step cfg s (.thread t inp) = some (s₁.push t (gs' ++ (gs ++ r))) →
      I (L ++ report s (.thread t inp)) (gs' ++ gs) (s₁.push t (gs' ++ (gs ++ r))))
    (stop : ∀ L f gs s inp e, Runs.Reach (step cfg) (fun _ _ => True) (Sys.init cfg) s →
      s.stack t = f :: (gs ++ r) → I L (f :: gs) s → exec cfg t inp s f = .fail e →
      I (L ++ report s (.thread t inp)) (f :: gs) { s with failed := some e })
    (h : Runs.Logged (step cfg) P report s₀ L s) (hret : s.stack t = r) : I L [] s := by
  suffices hsuf : ∃ gs, s.stack t = gs ++ r ∧ I L gs s by
    obtain ⟨gs', hgs, hi⟩ := hsuf
    rw [hret] at hgs
    rwa [List.self_eq_append_left.1 hgs] at hi
  refine h.inv (I := fun L s => ∃ gs, s.stack t = gs ++ r ∧ I L gs s) ⟨gs, hs₀, h0⟩ ?_
  rintro L s a s' hrun ⟨gs, hs, hi⟩ hP hstep
  have hreach := hr.join hrun
  have hI : Inv cfg .any s := Inv.any hreach
  by_cases ha : ∃ inp, a = .thread t inp
  · obtain ⟨inp, rfl⟩ := ha
    obtain ⟨g, gs, rfl⟩ : ∃ g gs', gs = g :: gs' := by
      cases gs with
      | nil => exact absurd (hin s _ hP) (by rw [Sys.Inside, hs]; exact Nat.lt_irrefl _)
      | cons g gs => exact ⟨g, gs, rfl⟩
    rw [List.cons_append] at hs
    rcases step_at hs hstep with ⟨gs', s₁, hx, rfl⟩ | ⟨e, hx, rfl⟩
    · exact ⟨gs' ++ gs, by rw [Sys.push_self, List.append_assoc],
        own L g gs s inp s₁ gs' hreach hs hi hP hx hstep⟩
    · exact ⟨g :: gs, hs, stop L g gs s inp e hreach hs hi hx⟩
  · have ha : ∀ inp, a ≠ .thread t inp := fun inp h => ha ⟨inp, h⟩
    refine ⟨gs, ?_, other L gs s a s' hreach hs hi hP ha hstep⟩
    exact step_other (I := fun s => s.stack t = gs ++ r) hI hs
      (fun t' s s' ht hst he => (he.stack_of_ne ht.symm).trans hst) ha hstep

/-- The rule for a call whose report does not matter. -/
theorem call_reach {P Q : Sys → Act → Prop} {I : List Frame → Sys → Prop}
    (hin : ∀ s a, P s a → s.Inside t r.length)
    (hr : Runs.Reach (step cfg) Q (Sys.init cfg) s₀) (hs₀ : s₀.stack t = gs ++ r) (h0 : I gs s₀)
    (other : ∀ gs s a s', Runs.Reach (step cfg) (fun _ _ => True) (Sys.init cfg) s →
      I gs s → P s a → (∀ inp, a ≠ .thread t inp) → step cfg s a = some s' → I gs s')
    (own : ∀ f gs s inp s₁ gs', Runs.Reach (step cfg) (fun _ _ => True) (Sys.init cfg) s →
      I (f :: gs) s → P s (.thread t inp) → exec cfg t inp s f = .ok s₁ gs' →
      step cfg s (.thread t inp) = some (s₁.push t (gs' ++ (gs ++ r))) →
      I (gs' ++ gs) (s₁.push t (gs' ++ (gs ++ r))))
    (stop : ∀ gs s e, I gs s → I gs { s with failed := some e })
    (h : Runs.Reach (step cfg) P s₀ s) (hret : s.stack t = r) : I [] s := by
  obtain ⟨L, h⟩ : ∃ L : List Unit, Runs.Logged (step cfg) P (fun _ _ => []) s₀ L s :=
    Runs.Logged.of_reach h
  exact call_inv (I := fun _ gs s => I gs s) hin hr hs₀ h0
    (fun _ gs s a s' hr _ hi hP ha hstep => other gs s a s' hr hi hP ha hstep)
    (fun _ f gs s inp s₁ gs' hr _ hi hP hx hstep => own f gs s inp s₁ gs' hr hi hP hx hstep)
    (fun _ _ _ s _ e _ _ hi _ => stop _ s e hi) h hret

/-- The steps of others do not close a connection of the loop `t` runs. -/
theorem step_stays_open (hI : Inv cfg .any s) (hst : (s.conns c).state ≠ .disconnected)
    (ha : ∀ inp, a ≠ .thread (.loop c.loop) inp) (h : step cfg s a = some s') :
    (s'.conns c).state ≠ .disconnected :=
  step_other (I := fun s => (s.conns c).state ≠ .disconnected) hI hst
    (fun _ _ _ ht hst he => he.stays_open ht hst) ha h

/-! ## `ReadHandler` -/

/-- What a round of `ReadHandler` can do with what it reads. -/
theorem readHandler_ok {x : ReadRes} (h : readHandler cfg t c x s = .ok s' gs) :
    (∃ bytes, x = .data bytes ∧ (gs = [.user (some c), .readHandler c] ∨
      (s'.conns c).state = .disconnected ∧ gs.getLast? = some (.closeCb c))) ∨
    (x = .error eAgain ∧ gs = []) ∨
    ∃ e, x = .error e ∧ e ≠ eAgain ∧ gs = [.errorHandler c] ∧
      (s'.conns c).state = (s.conns c).state := by
  have hclose {s₁ : Sys} (h : closeHandler cfg t c s₁ = .ok s' gs) :
      (s'.conns c).state = .disconnected ∧ gs.getLast? = some (.closeCb c) := by
    obtain ⟨-, p, -, rfl, rfl⟩ := closeHandler_ok h
    exact ⟨by rw [Sys.closeConn_self], by simp⟩
  obtain ⟨-, h⟩ := Res.assert_ok h
  split at h
  · dsimp only at h
    split at h
    · rename_i hpos
      obtain ⟨bytes, rfl⟩ := readFromFD_nonneg (Int.le_of_lt hpos)
      refine .inl ⟨bytes, rfl, ?_⟩
      split at h
      · cases h
        exact .inl rfl
      · exact .inr (hclose h)
    · split at h
      · rename_i hz
        obtain ⟨bytes, rfl⟩ := readFromFD_nonneg (Int.le_of_eq hz)
        exact .inl ⟨bytes, rfl, .inr (hclose h)⟩
      · rename_i hneg hz
        obtain ⟨e, rfl⟩ : ∃ e, x = .error e := by
          cases x with
          | error e => exact ⟨e, rfl⟩
          | data bytes =>
            have : ((s.conns c).readBuffer.readFromFD (.data bytes)).2.1 = bytes.length := by
              simp only [Buffer.readFromFD]
              split <;> rfl
            omega
        split at h
        · rename_i he
          cases h
          cases he
          exact .inr (.inl ⟨rfl, rfl⟩)
        · rename_i he
          cases h
          exact .inr (.inr ⟨e, rfl, fun h => he (by rw [h]; rfl), rfl, by rw [Sys.updConn_self]⟩)
  · cases h

/-- The last read failed, not with `EAGAIN`, and found the connection open. -/
def Missed (L : List (ReadRes × ConnState)) : Prop :=
  ∃ e st, L.getLast? = some (.error e, st) ∧ e ≠ eAgain ∧ st ≠ .disconnected

theorem not_missed_data {L : List (ReadRes × ConnState)} {bytes : List UInt8} {st : ConnState} :
    ¬ Missed (L ++ [(.data bytes, st)]) := by
  rintro ⟨e, st', h, -⟩
  rw [List.getLast?_concat] at h
  cases h

/-- How far a `ReadHandler` on `c` is that has made the reads `L`, by its frames: it will go on
reading, it has closed the connection or found it closed, or it has left the loop. -/
inductive Reading (c : ConnId) (L : List (ReadRes × ConnState)) (x : Conn) : List Frame → Prop
  | going (us : List Frame) (h : ¬ Missed L) : Reading c L x (us ++ [.readHandler c])
  | closed {gs : List Frame} (hx : x.state = .disconnected) (h : ¬ Missed L)
      (hg : ∀ f, gs.getLast? = some f → f = .closeCb c ∨ f = .errorHandler c) : Reading c L x gs
  | again {st : ConnState} (h : L.getLast? = some (.error eAgain, st)) : Reading c L x []
  | missed {gs : List Frame} (hx : x.state ≠ .disconnected) (h : Missed L)
      (hg : gs = [.errorHandler c] ∨ gs = []) : Reading c L x gs

/-- Only the bottom frame of the call reads. -/
theorem readsAt_nil (hs : s.stack t = f :: (gs ++ r)) (h : f = .readHandler c → gs ≠ []) :
    readsAt c r.length s (.thread t inp) = [] := by
  unfold readsAt
  split
  · rename_i t' x ha
    cases ha
    refine if_neg ?_
    rintro ⟨-, hhead, hlen⟩
    rw [hs] at hhead hlen
    have hgs : gs = [] := by
      rw [List.length_cons, List.length_append] at hlen
      exact List.eq_nil_of_length_eq_zero (by omega)
    exact h (Option.some.inj hhead) hgs
  · rfl

theorem readsAt_other {n : Nat} (ha : ∀ inp, a ≠ .thread (.loop c.loop) inp) : readsAt c n s a = [] := by
  unfold readsAt
  split
  · rename_i t x
    exact if_neg fun hc => ha (.read x) (by rw [hc.1])
  · rfl

theorem readsAt_self {x : ReadRes} (hs : s.stack (.loop c.loop) = .readHandler c :: r) :
    readsAt c r.length s (.thread (.loop c.loop) (.read x)) = [(x, (s.conns c).state)] := by
  rw [readsAt, if_pos ⟨rfl, by rw [hs]; rfl, by rw [hs]; rfl⟩]

namespace Reading

variable {L : List (ReadRes × ConnState)} {x x' : Conn}

theorem other (h : Reading c L x gs) (hle : x.Le x')
    (ho : x.state ≠ .disconnected → x'.state ≠ .disconnected) : Reading c L x' gs := by
  cases h with
  | going us h => exact .going us h
  | closed hx h hg => exact .closed (hle.disconnected hx) h hg
  | again h => exact .again h
  | missed hx h hg => exact .missed (ho hx) h hg

/-- A round of the loop. -/
theorem round {y : ReadRes} {gs' : List Frame} (hx : readHandler cfg t c y s = .ok s₁ gs') :
    Reading c (L ++ [(y, (s.conns c).state)]) (s₁.conns c) gs' := by
  rcases readHandler_ok hx with ⟨bytes, rfl, rfl | ⟨hst, hlast⟩⟩ | ⟨rfl, rfl⟩ | ⟨e, rfl, he, rfl, hst⟩
  · exact .going [.user (some c)] not_missed_data
  · refine .closed hst not_missed_data fun f hf => .inl ?_
    rw [hlast] at hf
    exact (Option.some.inj hf).symm
  · exact .again List.getLast?_concat
  · by_cases hd : (s.conns c).state = .disconnected
    · refine .closed (hst.trans hd) ?_ fun f hf => .inr (Option.some.inj hf).symm
      rintro ⟨e', st, hl, -, hne⟩
      rw [List.getLast?_concat] at hl
      cases hl
      exact hne hd
    · exact .missed (hst ▸ hd) ⟨e, _, List.getLast?_concat, he, hd⟩ (.inl rfl)

/-- The last frame of a call that closes leaves none. -/
theorem last_leaves_none {gs' : List Frame} (hf : f = .closeCb c ∨ f = .errorHandler c)
    (hx : exec cfg t inp s f = .ok s₁ gs') : gs' = [] := by
  rcases hf with rfl | rfl
  · simp only [exec] at hx
    split at hx
    · unfold TcpServer.removeConnection at hx
      split at hx
      · obtain ⟨-, hx⟩ := Res.assert_ok hx
        cases hx
        rfl
      · cases hx
        rfl
    · obtain ⟨-, hx⟩ := Res.assert_ok hx
      obtain ⟨-, hx⟩ := Res.assert_ok hx
      cases hx
      rfl
  · cases hx
    rfl

theorem own {gs' : List Frame} (hs : s.stack (.loop c.loop) = f :: (gs ++ r))
    (h : Reading c L (s.conns c) (f :: gs)) (hx : exec cfg (.loop c.loop) inp s f = .ok s₁ gs')
    (hle : (s.conns c).Le (s₁.conns c)) :
    Reading c (L ++ readsAt c r.length s (.thread (.loop c.loop) inp)) (s₁.conns c) (gs' ++ gs) := by
  generalize hg : f :: gs = fs at h
  cases h with
  | going us h =>
    cases us with
    | nil =>
      cases hg
      rw [List.append_nil]
      simp only [exec] at hx
      split at hx
      · rw [readsAt_self (r := r) hs]
        exact round hx
      · cases hx
    | cons u us =>
      rw [List.cons_append] at hg
      obtain ⟨rfl, rfl⟩ := List.cons_eq_cons.1 hg
      rw [readsAt_nil hs fun _ => by simp, List.append_nil, ← List.append_assoc]
      exact .going _ h
  | closed hst h hlast =>
    cases hg
    rw [readsAt_nil hs ?_, List.append_nil]
    · refine .closed (hle.disconnected hst) h fun g hg => hlast g ?_
      cases gs with
      | cons g' gs => rwa [List.getLast?_append_cons] at hg
      | nil =>
        rw [last_leaves_none (hlast f rfl) hx] at hg
        cases hg
    · rintro rfl rfl
      rcases hlast _ rfl with h | h <;> cases h
  | again h => cases hg
  | missed hst h hgs =>
    rcases hgs with hgs | hgs
    · rw [hgs] at hg
      cases hg
      cases hx
      rw [readsAt_nil (show s.stack _ = .errorHandler c :: ([] ++ r) from hs) (fun h => by cases h),
        List.append_nil]
      exact .missed hst h (.inr rfl)
    · rw [hgs] at hg
      cases hg

/-- A failed assert ends the run; none fails on an error. -/
theorem stop {e : Assert} (hs : s.stack (.loop c.loop) = f :: (gs ++ r))
    (h : Reading c L (s.conns c) (f :: gs)) (hx : exec cfg (.loop c.loop) inp s f = .fail e) :
    Reading c (L ++ readsAt c r.length s (.thread (.loop c.loop) inp)) (s.conns c) (f :: gs) := by
  by_cases hf : f = .readHandler c ∧ gs = []
  · obtain ⟨rfl, rfl⟩ := hf
    simp only [exec] at hx
    split at hx
    · rename_i y
      rw [readsAt_self (r := r) hs]
      cases y with
      | data bytes => exact .going [] not_missed_data
      | error err =>
        simp [readHandler, Res.assert, canRead, Buffer.readFromFD] at hx
        split at hx <;> cases hx
    · cases hx
  · rw [readsAt_nil hs fun h1 h2 => hf ⟨h1, h2⟩, List.append_nil]
    exact h

end Reading

/-- **When an edge-triggered read is complete.** A call of `ReadHandler` on `c`, from a state `s` of
any run to its return in `s'`, with any user code in its callbacks and any steps of other threads:
the last of its reads `L` has failed with `EAGAIN` or the connection is `DISCONNECTED`, exactly if the
last read did not fail with another error on a connection that was not `DISCONNECTED`; after such an
error, `EINTR` and `ECONNRESET` included, `ErrorHandler` returns with the connection open. -/
theorem read_complete {L : List (ReadRes × ConnState)}
    (h : Runs.Reach (step cfg) (fun _ _ => True) (Sys.init cfg) s)
    (hs : s.stack (.loop c.loop) = .readHandler c :: r)
    (hcall : Runs.Logged (step cfg) (fun s _ => s.Inside (.loop c.loop) r.length)
      (readsAt c r.length) s L s') (hret : s'.stack (.loop c.loop) = r) :
    (∃ st, L.getLast? = some (.error eAgain, st)) ∨ (s'.conns c).state = .disconnected ↔
      ∀ e st, L.getLast? = some (.error e, st) → e = eAgain ∨ st = .disconnected := by
  have hnil : ¬ Missed [] := fun ⟨_, _, hl, _⟩ => by cases hl
  have hs' : s.stack (.loop c.loop) = [.readHandler c] ++ r := hs
  have hR := call_inv (I := fun L gs s => Reading c L (s.conns c) gs) (fun _ _ hin => hin) h hs'
    (.going [] hnil)
    (fun L gs s a s' hr _ hR _ ha hstep => by
      rw [readsAt_other ha, List.append_nil]
      exact hR.other (step_forward hr hstep c) fun ho => step_stays_open (Inv.any hr) ho ha hstep)
    (fun L f gs s inp s₁ gs' hr hs hR _ hx hstep => by
      show Reading c _ (s₁.conns c) _
      exact hR.own hs hx (step_forward hr hstep c))
    (fun L f gs s inp e _ hs hR hx => hR.stop hs hx) hcall hret
  generalize hg : ([] : List Frame) = fs at hR
  cases hR with
  | going us hm => simp at hg
  | closed hx hm _ =>
    refine ⟨fun _ e st hl => ?_, fun _ => .inr hx⟩
    by_contra hc
    exact hm ⟨e, st, hl, fun he => hc (.inl he), fun hst => hc (.inr hst)⟩
  | again hl =>
    refine ⟨fun _ e st hl' => .inl ?_, fun _ => .inl ⟨_, hl⟩⟩
    rw [hl] at hl'
    cases hl'
    rfl
  | missed hx hm _ =>
    obtain ⟨e, st, hl, he, hst⟩ := hm
    refine ⟨fun hor => ?_, fun hall => absurd (hall e st hl) (not_or.2 ⟨he, hst⟩)⟩
    rcases hor with ⟨st', hl'⟩ | hd
    · rw [hl'] at hl
      cases hl
      exact absurd rfl he
    · exact absurd hd hx

/-- The first connection of the sample is reported readable, and its `ReadHandler` is called. -/
def sampleRead : List Act := sampleStart ++ loopActs [.poll [(5, pollIn)], .none, .none]

theorem read_complete_sample :
    ∃ s s', Runs.run (step .sample) (Sys.init .sample) sampleRead = some s ∧
      Runs.run (step .sample) s
        (loopActs [.read (.data [1, 2]), .ret, .read (.error eAgain)]) = some s' ∧
      s'.stack (.loop 0) = [.loopDispatch 0] ∧
      ((∃ st, [(ReadRes.data [1, 2], ConnState.connected), (.error eAgain, .connected)].getLast? =
        some (.error eAgain, st)) ∨ (s'.conns sampleConn).state = .disconnected) := by
  have hrun : ((Runs.run (step .sample) (Sys.init .sample) sampleRead).bind fun s =>
      (Runs.run (step .sample) s
        (loopActs [.read (.data [1, 2]), .ret, .read (.error eAgain)])).map fun s' =>
        (s.stack (.loop 0), s'.stack (.loop 0),
          Runs.log (step .sample) (readsAt sampleConn 1) s
            (loopActs [.read (.data [1, 2]), .ret, .read (.error eAgain)]),
          decide (Runs.Admits (step .sample) (fun s _ => s.Inside (.loop 0) 1) s
            (loopActs [.read (.data [1, 2]), .ret, .read (.error eAgain)])))) =
      some ([.readHandler sampleConn, .loopDispatch 0], [.loopDispatch 0],
        [(.data [1, 2], .connected), (.error eAgain, .connected)], true) := by decide +kernel
  obtain ⟨s, hs, hrun⟩ := Option.bind_eq_some_iff.1 hrun
  obtain ⟨s', hs', hx⟩ := Option.map_eq_some_iff.1 hrun
  simp only [Prod.mk.injEq, decide_eq_true_eq] at hx
  obtain ⟨hstack, hret, hlog, hadm⟩ := hx
  have hcall : Runs.Logged (step .sample) (fun s _ => s.Inside (.loop 0) 1) (readsAt sampleConn 1) s _ s' :=
    .of_run _ hs' hadm
  rw [hlog] at hcall
  have hr : Runs.Reach (step .sample) (fun _ _ => True) (Sys.init .sample) s :=
    .of_run _ hs (Runs.admits_of_forall (fun _ _ => trivial) _ _)
  refine ⟨s, s', hs, hs', hret, (read_complete hr hstack hcall hret).2 fun e st hl => .inl ?_⟩
  cases hl
  rfl

/-- A read is interrupted: `ReadHandler` returns with the connection open, and what is in the socket
is not announced again. -/
theorem read_interrupted :
    ∃ s s', Runs.run (step .sample) (Sys.init .sample) sampleRead = some s ∧
      s.stack (.loop 0) = [.readHandler sampleConn, .loopDispatch 0] ∧
      Runs.run (step .sample) s (loopActs [.read (.error eIntr), .none]) = some s' ∧
      Runs.log (step .sample) (readsAt sampleConn 1) s (loopActs [.read (.error eIntr), .none]) =
        [(.error eIntr, .connected)] ∧
      s'.stack (.loop 0) = [.loopDispatch 0] ∧ (s'.conns sampleConn).state = .connected := by
  have hrun : ((Runs.run (step .sample) (Sys.init .sample) sampleRead).bind fun s =>
      (Runs.run (step .sample) s (loopActs [.read (.error eIntr), .none])).map fun s' =>
        (s.stack (.loop 0), Runs.log (step .sample) (readsAt sampleConn 1) s
          (loopActs [.read (.error eIntr), .none]), s'.stack (.loop 0),
          (s'.conns sampleConn).state)) =
      some ([.readHandler sampleConn, .loopDispatch 0], [(.error eIntr, .connected)],
        [.loopDispatch 0], .connected) := by decide +kernel
  obtain ⟨s, hs, hrun⟩ := Option.bind_eq_some_iff.1 hrun
  obtain ⟨s', hs', hx⟩ := Option.map_eq_some_iff.1 hrun
  simp only [Prod.mk.injEq] at hx
  exact ⟨s, s', hs, hx.1, hs', hx.2⟩

end Liang.Net

import NetworkPoller.Net.Proof.Cell

/-!
# A connection only moves forward

`state_` is exchanged by any thread and stored by the loop's. `Conn.Le` is the order in which the
values of `state_` come, with what is recorded of the connection; every step of a cell goes up in it,
since `ConnectEstablished`, which stores `CONNECTED` whatever it finds, runs on a connection that is
`CONNECTING` still (`Conn.Timely`).

Main result: `state_forward`.
-/

namespace Liang.Net

open Base TcpConnection

variable {cfg : Cfg} {d : Discipline} {s s' s₁ : Sys} {t : Tid} {c : ConnId}

/-- `CONNECTING < CONNECTED < DISCONNECTING < DISCONNECTED`. -/
def ConnState.rank : ConnState → Nat
  | connecting => 0
  | connected => 1
  | disconnecting => 2
  | disconnected => 3

theorem ConnState.rank_le (st : ConnState) : st.rank ≤ ConnState.disconnected.rank := by
  cases st <;> decide

theorem ConnState.eq_disconnected {st : ConnState} (h : ConnState.disconnected.rank ≤ st.rank) :
    st = .disconnected := by
  cases st with
  | disconnected => rfl
  | _ => simp [rank] at h

/-! ## The order -/

/-- `y` is `x` later on. -/
structure Conn.Le (x y : Conn) : Prop where
  state : x.state.rank ≤ y.state.rank
  trace : x.trace <+: y.trace

namespace Conn.Le

variable {x y z : Conn}

theorem refl (x : Conn) : x.Le x := ⟨Nat.le_refl _, List.prefix_refl _⟩

theorem trans (h : x.Le y) (h' : y.Le z) : x.Le z :=
  ⟨Nat.le_trans h.state h'.state, h.trace.trans h'.trace⟩

theorem of_same (hst : y.state = x.state) (ht : y.trace = x.trace) : x.Le y :=
  ⟨Nat.le_of_eq (by rw [hst]), ht ▸ List.prefix_refl _⟩

theorem disconnected (h : x.Le y) (hx : x.state = .disconnected) : y.state = .disconnected :=
  ConnState.eq_disconnected (hx ▸ h.state)

theorem enter {w : Bool} {T : Tid} {m : Msg} (h : Enter w T m x y) : x.Le y :=
  of_same h.same.2.2 h.same.1

theorem closed (x : Conn) : x.Le x.closed :=
  ⟨x.state.rank_le, (List.prefix_append ..).trans (List.prefix_append ..)⟩

theorem noted (e : ConnEv) : x.Le (x.noted e) := ⟨Nat.le_refl _, List.prefix_append ..⟩

theorem connStep {w : Bool} (h : ConnStep d t c w x y) : x.Le y := by
  cases h with
  | misc | drain | shut => exact of_same rfl rfl
  | msg => exact ⟨Nat.le_refl _, List.prefix_append ..⟩
  | send ht he =>
    have hsent (L) : x.Le { x with sent := L } := of_same rfl rfl
    exact (hsent _).trans (enter he)
  | shutdown hst => exact ⟨by simp [hst, ConnState.rank], List.prefix_refl _⟩
  | forceClose hst => exact ⟨by simp [hst, ConnState.rank], List.prefix_refl _⟩

end Conn.Le

/-- The state is `CONNECTING` until `ConnectEstablished`. -/
def Conn.Timely (x : Conn) : Prop := x.state = .connecting ↔ ¬ x.Est

theorem Conn.Timely.of_est {x y : Conn} (hx : x.Timely) (he : x.Est) (h : x.Le y) : y.Timely := by
  refine ⟨fun hst => absurd (hx.1 ?_) (not_not.2 he), fun hn => absurd (h.trace.subset he) hn⟩
  have hrank : x.state.rank ≤ ConnState.connecting.rank := hst ▸ h.state
  cases hs : x.state with
  | connecting => rfl
  | _ => simp [hs, ConnState.rank] at hrank

/-- A step of a cell moves the connection forward. -/
theorem CellStep.forward {a b : Cell} (ha : a.conn.Timely) (h : CellStep d t c a b) :
    a.conn.Le b.conn ∧ b.conn.Timely := by
  cases h with
  | create hp hq hx =>
    obtain ⟨cm, cw, cs, rfl⟩ := hx
    exact ⟨by rw [hp]; exact .of_same rfl rfl, ⟨fun _ => by simp [Conn.Est], fun _ => rfl⟩⟩
  | establish hn hd hst =>
    refine ⟨⟨by simp [ha.2 hn, ConnState.rank], (List.prefix_append ..).trans (List.prefix_append ..)⟩,
      ⟨fun hc => (by cases hc), fun hc => absurd ?_ hc⟩⟩
    simp [Conn.established, Conn.Est]
  | conn he h => exact ⟨.connStep h, ha.of_est he (.connStep h)⟩
  | events => exact ⟨.refl _, ha⟩
  | sendQueued he ht =>
    have hle (L) : a.conn.Le { a.conn with sent := L } := .of_same rfl rfl
    exact ⟨hle _, ha.of_est he (hle _)⟩
  | sendTaken he hT hq hx => exact ⟨.enter hx, ha.of_est he (.enter hx)⟩
  | sendFailed he hT hq hs hst =>
    have hle (L) : a.conn.Le { a.conn with entered := L } := .of_same rfl rfl
    exact ⟨(hle _).trans (.closed _), ha.of_est he ((hle _).trans (.closed _))⟩
  | shutQueued => exact ⟨.refl _, ha⟩
  | shutTaken he hq hz hx =>
    rcases hx with rfl | ⟨-, rfl⟩
    · exact ⟨.refl _, ha⟩
    · exact ⟨.of_same rfl rfl, ha.of_est he (.of_same rfl rfl)⟩
  | close he hc hst => exact ⟨.closed _, ha.of_est he (.closed _)⟩
  | closeCb | unlink | destroyed =>
    refine ⟨.noted _, ?_⟩
    simpa [Conn.Timely, Conn.noted, Conn.Est] using ha

theorem timely_reach {P : Sys → Act → Prop} (h : Runs.Reach (step cfg) P (Sys.init cfg) s)
    (c : ConnId) : (s.conns c).Timely :=
  Cell.reach (d := .any) (I := fun a => a.conn.Timely) ⟨fun _ => by simp [Conn.Est], fun _ => rfl⟩
    (fun _ _ _ ha hs => (hs.forward ha).2) (fun _ _ _ _ _ _ _ => Discipline.any_allows) h

/-! ## Runs -/

/-- A step moves every connection forward. -/
theorem step_forward {P : Sys → Act → Prop} {a : Act}
    (h : Runs.Reach (step cfg) P (Sys.init cfg) s) (hs : step cfg s a = some s') (c : ConnId) :
    (s.conns c).Le (s'.conns c) := by
  obtain ⟨t, hes, -⟩ := step_effects (Inv.any h) Discipline.any_allows hs
  have hI := Inv.effects (I := fun s₁ => (s.conns c).Le (s₁.conns c) ∧ (s₁.conns c).Timely)
    (fun s₁ s₂ hI hi he => Cell.effect (I := fun a => (s.conns c).Le a.conn ∧ a.conn.Timely)
      (fun a b ha hab => ⟨ha.1.trans (hab.forward ha.2).1, (hab.forward ha.2).2⟩) hI hi he)
    (Inv.any h) ⟨.refl _, timely_reach h c⟩ hes
  exact hI.2.1

/-- A run moves every connection forward. -/
theorem reach_forward {P Q : Sys → Act → Prop} (h : Runs.Reach (step cfg) P (Sys.init cfg) s)
    (h' : Runs.Reach (step cfg) Q s s') (c : ConnId) : (s.conns c).Le (s'.conns c) := by
  refine h'.inv (I := fun s' => (s.conns c).Le (s'.conns c)) (.refl _) ?_
  exact fun s₁ a s₂ hr hi _ hs => hi.trans (step_forward (h.join hr) hs c)

/-- **The state of a connection only moves forward.** In every run, from any state `s` of it to any
later one `s'`, the value of `state_` does not decrease; so `DISCONNECTED` is final. When
`ConnectDestoryed` is the next functor of a loop, or waits in its queue, the connection is not
`CONNECTED`. -/
theorem state_forward (h : Runs.Reach (step cfg) (fun _ _ => True) (Sys.init cfg) s)
    (h' : Runs.Reach (step cfg) (fun _ _ => True) s s') (c : ConnId) :
    (s.conns c).state.rank ≤ (s'.conns c).state.rank ∧
      ((s.conns c).state = .disconnected → (s'.conns c).state = .disconnected) ∧
      ∀ l, .connectDestoryed c ∈ s.queue l → (s.conns c).state ≠ .connected := by
  have hle := reach_forward h h' c
  refine ⟨hle.state, hle.disconnected, fun l hm hst => ?_⟩
  have hI : Inv cfg .any s := Inv.any h
  have hcl := hI.closed_of_task (.inr rfl) hm
  have hdisc : (s.ledger cfg c).disc = true := (hI.life c).disc.2 (List.count_pos_iff.2 hcl)
  rw [of_decide_eq_true hdisc] at hst
  cases hst

theorem state_forward_sample :
    ∃ s s', Runs.run (step .sample) (Sys.init .sample) sampleStart = some s ∧
      Runs.run (step .sample) s [.thread (.user 7) (.call (.shutdown sampleConn)),
        .thread (.user 7) (.cas false)] = some s' ∧
      (s.conns sampleConn).state = .connected ∧ (s'.conns sampleConn).state = .disconnecting ∧
      (s.conns sampleConn).state.rank ≤ (s'.conns sampleConn).state.rank := by
  have hrun : ((Runs.run (step .sample) (Sys.init .sample) sampleStart).bind fun s =>
      (Runs.run (step .sample) s [.thread (.user 7) (.call (.shutdown sampleConn)),
        .thread (.user 7) (.cas false)]).map fun s' =>
        ((s.conns sampleConn).state, (s'.conns sampleConn).state)) =
      some (.connected, .disconnecting) := by decide +kernel
  obtain ⟨s, hs, hrun⟩ := Option.bind_eq_some_iff.1 hrun
  obtain ⟨s', hs', hx⟩ := Option.map_eq_some_iff.1 hrun
  simp only [Prod.mk.injEq] at hx
  have hadm : ∀ as s, Runs.Admits (step .sample) (fun _ _ => True) s as :=
    Runs.admits_of_forall fun _ _ => trivial
  exact ⟨s, s', hs, hs', hx.1, hx.2,
    (state_forward (.of_run _ hs (hadm _ _)) (.of_run _ hs' (hadm _ _)) sampleConn).1⟩

end Liang.Net

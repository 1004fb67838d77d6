import NetworkPoller.Net.Proof.Steps
import Mathlib.Data.List.Nodup
import Mathlib.Data.List.Perm.Subperm

/-!
# The attempts of a connector

`Pursuit` is what stands for a connector's attempt to connect: the frames of its functions, its
functors, its channel on the active list and in the poller. In each phase there is exactly one of
them (`Pursuit.Holds`), so that the phases follow one another: whoever runs next finds the phase it
expects, and once there is a connection, or the attempt was given up, nothing more comes.
`PursuitStep` is what can happen, `Effect.pursuit` says that an effect does one of these.
-/

namespace Liang.Net

open Base TcpConnection EpollPoller

/-- What a frame stands for: `Start` is to go on, an event is to be handled, an outcome is to be
looked at. -/
inductive Token
  | run
  | event
  | rest (fd : Fd)
  deriving DecidableEq

/-- What the frame stands for with the connector `k`. -/
def Frame.token (k : ClientId) : Frame → Option Token
  | connectorRun k' => if k' = k then some .run else none
  | handleEvent (.connector k' _ _) => if k' = k then some .event else none
  | writeEventHandler k' => if k' = k then some .event else none
  | writeEventRest k' fd => if k' = k then some (.rest fd) else none
  | _ => none

def tokens (k : ClientId) (fs : List Frame) : List Token := fs.filterMap (·.token k)

def Task.isConnector (k : ClientId) : Task → Bool
  | connectorStart k' | connectorReset k' => decide (k' = k)
  | _ => false

def ChanId.isConnector (k : ClientId) : ChanId → Bool
  | connector k' _ _ => decide (k' = k)
  | _ => false

@[ext] structure Pursuit where
  phase : Phase
  state : ConnectorState
  channel : Option (Nat × Fd)
  frames : Tid → List Token
  /-- the functors queued -/
  tasks : List Task
  /-- how often its channel is on the active list -/
  active : Nat
  /-- the channels that are not `NEW_CHANNEL` -/
  chans : Nat → Fd → Prop

namespace Pursuit

/-- The stacks have the tokens `L` on that of `t`, and no others. -/
def only (t : Tid) (L : List Token) : Tid → List Token := Function.update (fun _ => []) t L

/-- No channel is registered. -/
def Unregistered (b : Pursuit) : Prop := ∀ n fd, ¬ b.chans n fd

/-- The functors `ks` are queued; the channel is dropped, or the functor that drops it comes first. -/
def Left (k : ClientId) (b : Pursuit) (ks : List Task) : Prop :=
  b.tasks = ks ∧ b.channel = none ∨ b.tasks = .connectorReset k :: ks ∧ b.channel ≠ none

/-- What there is in a phase. -/
def Holds (k : ClientId) (home : Tid) (b : Pursuit) : Phase → Prop
  | .idle => b.frames = (fun _ => []) ∧ b.active = 0 ∧ b.Unregistered ∧ b.tasks = [] ∧
      b.channel = none
  | .called t => b.frames = only t [.run] ∧ b.active = 0 ∧ b.Unregistered ∧ b.tasks = [] ∧
      b.channel = none
  | .queued => b.frames = (fun _ => []) ∧ b.active = 0 ∧ b.Unregistered ∧
      b.Left k [.connectorStart k]
  | .polling n fd =>
      (b.frames = (fun _ => []) ∧ b.active ≤ 1 ∨ b.frames = only home [.event] ∧ b.active = 0) ∧
      (∀ n' fd', b.chans n' fd' ↔ n' = n ∧ fd' = fd) ∧ b.tasks = [] ∧ b.channel = some (n, fd)
  | .judging fd => b.frames = only home [.rest fd] ∧ b.active = 0 ∧ b.Unregistered ∧
      b.tasks = [.connectorReset k] ∧ ∃ n, b.channel = some (n, fd)
  | .ended => b.frames = (fun _ => []) ∧ b.active = 0 ∧ b.Unregistered ∧ b.Left k []

structure Ok (k : ClientId) (home : Tid) (b : Pursuit) : Prop where
  holds : b.Holds k home b.phase
  idle : b.state = .disconnected → b.phase = .idle

/-- `StartInLoop` is taken up. -/
inductive Source (k : ClientId) (b : Pursuit) : Pursuit → Prop
  | frame {t r} (h : b.frames t = .run :: r) :
      Source k b { b with frames := Function.update b.frames t r }
  | task {ks} (h : b.tasks = .connectorStart k :: ks) : Source k b { b with tasks := ks }

end Pursuit

/-- What can happen to the attempts of connector `k`, whose loop's thread is `home`. -/
inductive PursuitStep (k : ClientId) (home : Tid) (b : Pursuit) : Pursuit → Prop
  | same : PursuitStep k home b b
  | polled {m} (hf : b.frames home = []) (ha : b.active = 0) (hm : m ≤ 1)
      (hc : 0 < m → ∃ n fd, b.chans n fd) : PursuitStep k home b { b with active := m }
  | dispatched {m} (h : b.active = m + 1) :
      PursuitStep k home b { b with
        active := m, frames := Function.update b.frames home (.event :: b.frames home) }
  | dropped {r} (h : b.frames home = .event :: r) :
      PursuitStep k home b { b with frames := Function.update b.frames home r }
  | connect {t} (h : b.state = .disconnected) :
      PursuitStep k home b { b with
        state := .connecting, phase := .called t
        frames := Function.update b.frames t (.run :: b.frames t) }
  | queued {t r} (h : b.frames t = .run :: r) :
      PursuitStep k home b { b with
        phase := .queued, frames := Function.update b.frames t r
        tasks := b.tasks ++ [.connectorStart k] }
  | attempt {b₀ n fd} (h : b.Source k b₀) :
      PursuitStep k home b { b₀ with
        phase := .polling n fd, channel := some (n, fd)
        chans := fun n' fd' => b₀.chans n' fd' ∨ n' = n ∧ fd' = fd }
  | failed {b₀} (h : b.Source k b₀) : PursuitStep k home b { b₀ with phase := .ended }
  | removed {r n fd} (h : b.frames home = .event :: r) (hc : b.channel = some (n, fd)) :
      PursuitStep k home b { b with
        phase := .judging fd, frames := Function.update b.frames home (.rest fd :: r)
        tasks := b.tasks ++ [.connectorReset k]
        chans := fun n' fd' => b.chans n' fd' ∧ ¬ (n' = n ∧ fd' = fd) }
  | retry {r fd} (h : b.frames home = .rest fd :: r) :
      PursuitStep k home b { b with
        phase := .queued, frames := Function.update b.frames home r
        tasks := b.tasks ++ [.connectorStart k] }
  | made {r fd} (h : b.frames home = .rest fd :: r) :
      PursuitStep k home b { b with phase := .ended, frames := Function.update b.frames home r }
  | reset {ks} (hf : b.frames home = []) (h : b.tasks = .connectorReset k :: ks) :
      PursuitStep k home b { b with tasks := ks, channel := none }

/-! ## One thing in each phase -/

namespace Pursuit

variable {k : ClientId} {home t t' : Tid} {b b' b₀ : Pursuit} {L r : List Token} {x : Token}
  {n : Nat} {fd : Fd} {ks : List Task}

theorem only_cons (h : only t' L t = x :: r) : t = t' ∧ L = x :: r := by
  unfold only at h
  by_cases ht : t = t'
  · subst ht
    rw [Function.update_self] at h
    exact ⟨rfl, h⟩
  · rw [Function.update_of_ne ht] at h
    cases h

@[simp] theorem only_self : only t L t = L := Function.update_self ..

@[simp] theorem update_only {L' : List Token} : Function.update (only t L) t L' = only t L' :=
  Function.update_idem ..

@[simp] theorem only_nil : only t [] = fun _ => [] := Function.update_eq_self ..

/-- Whose turn it is, from a frame. -/
theorem Ok.phase_of_frame (h : b.Ok k home) (ht : b.frames t = x :: r) :
    r = [] ∧ b.frames = only t [x] ∧ b.active = 0 ∧
      match x with
      | .run => b.phase = .called t
      | .event => t = home ∧ ∃ n fd, b.phase = .polling n fd
      | .rest fd => t = home ∧ b.phase = .judging fd := by
  have hh := h.holds
  cases hp : b.phase with
  | idle | queued | ended =>
    rw [hp] at hh
    rw [hh.1] at ht
    cases ht
  | called t' =>
    rw [hp] at hh
    obtain ⟨hf, ha, -⟩ := hh
    rw [hf] at ht
    obtain ⟨rfl, hL⟩ := only_cons ht
    cases hL
    exact ⟨rfl, hf, ha, rfl⟩
  | polling n fd =>
    rw [hp] at hh
    rcases hh.1 with ⟨hf, -⟩ | ⟨hf, ha⟩
    · rw [hf] at ht
      cases ht
    · rw [hf] at ht
      obtain ⟨rfl, hL⟩ := only_cons ht
      cases hL
      exact ⟨rfl, hf, ha, rfl, n, fd, rfl⟩
  | judging fd =>
    rw [hp] at hh
    obtain ⟨hf, ha, -⟩ := hh
    rw [hf] at ht
    obtain ⟨rfl, hL⟩ := only_cons ht
    cases hL
    exact ⟨rfl, hf, ha, rfl, rfl⟩

/-- From a queued `StartInLoop` at the front. -/
theorem Ok.phase_of_start (h : b.Ok k home) (ht : b.tasks = .connectorStart k :: ks) :
    b.phase = .queued ∧ ks = [] ∧ b.channel = none := by
  have hh := h.holds
  cases hp : b.phase with
  | idle | called | judging =>
    rw [hp] at hh
    have hq := hh.2.2.2.1
    rw [ht] at hq
    cases hq
  | polling =>
    rw [hp] at hh
    have hq := hh.2.2.1
    rw [ht] at hq
    cases hq
  | queued =>
    rw [hp] at hh
    rcases hh.2.2.2 with ⟨hq, hc⟩ | ⟨hq, -⟩
    · rw [ht] at hq
      cases hq
      exact ⟨rfl, rfl, hc⟩
    · rw [ht] at hq
      cases hq
  | ended =>
    rw [hp] at hh
    rcases hh.2.2.2 with ⟨hq, -⟩ | ⟨hq, -⟩ <;> rw [ht] at hq <;> cases hq

/-- From a queued `ResetChannelPtr` at the front, when the loop runs no handler. -/
theorem Ok.phase_of_reset (h : b.Ok k home) (hf : b.frames home = [])
    (ht : b.tasks = .connectorReset k :: ks) :
    b.channel ≠ none ∧ b.Unregistered ∧ b.active = 0 ∧ b.frames = (fun _ => []) ∧
      (b.phase = .queued ∧ ks = [.connectorStart k] ∨ b.phase = .ended ∧ ks = []) := by
  have hh := h.holds
  cases hp : b.phase with
  | idle | called =>
    rw [hp] at hh
    have hq := hh.2.2.2.1
    rw [ht] at hq
    cases hq
  | polling =>
    rw [hp] at hh
    have hq := hh.2.2.1
    rw [ht] at hq
    cases hq
  | judging =>
    rw [hp] at hh
    rw [hh.1, only_self] at hf
    cases hf
  | queued | ended =>
    rw [hp] at hh
    obtain ⟨hfr, ha, hu, ⟨hq, -⟩ | ⟨hq, hc⟩⟩ := hh
    · rw [ht] at hq
      cases hq
    · rw [ht] at hq
      cases hq
      exact ⟨hc, hu, ha, hfr, by simp⟩

/-- From the active list. -/
theorem Ok.phase_of_active (h : b.Ok k home) (ha : 0 < b.active) :
    b.active = 1 ∧ b.frames = (fun _ => []) ∧ ∃ n fd, b.phase = .polling n fd := by
  have hh := h.holds
  cases hp : b.phase with
  | polling n fd =>
    rw [hp] at hh
    rcases hh.1 with ⟨hf, h1⟩ | ⟨-, h0⟩
    · exact ⟨by omega, hf, n, fd, rfl⟩
    · omega
  | idle | called | queued | judging | ended =>
    rw [hp] at hh
    have := hh.2.1
    omega

/-- From a channel. -/
theorem Ok.phase_of_chan (h : b.Ok k home) (hc : b.chans n fd) : b.phase = .polling n fd := by
  have hh := h.holds
  cases hp : b.phase with
  | polling n' fd' =>
    rw [hp] at hh
    obtain ⟨rfl, rfl⟩ := (hh.2.1 n fd).1 hc
    rfl
  | idle | called | queued | judging | ended =>
    rw [hp] at hh
    exact absurd hc (hh.2.2.1 n fd)

theorem Ok.not_idle (h : b.Ok k home) (hp : b.phase ≠ .idle) : b.state ≠ .disconnected :=
  fun hd => hp (h.idle hd)

/-- When `StartInLoop` is taken up, there is nothing else. -/
theorem Ok.source (h : b.Ok k home) (hs : b.Source k b₀) :
    b₀.frames = (fun _ => []) ∧ b₀.active = 0 ∧ b₀.Unregistered ∧ b₀.tasks = [] ∧
      b₀.channel = none ∧ b₀.state ≠ .disconnected := by
  have hh := h.holds
  cases hs with
  | @frame t r hf =>
    obtain ⟨rfl, hf', ha, hp⟩ := h.phase_of_frame hf
    rw [hp] at hh
    obtain ⟨-, -, hu, hq, hc⟩ := hh
    refine ⟨?_, ha, hu, hq, hc, h.not_idle (by rw [hp]; nofun)⟩
    simp [hf']
  | task ht =>
    obtain ⟨hp, rfl, hc⟩ := h.phase_of_start ht
    rw [hp] at hh
    exact ⟨hh.1, hh.2.1, hh.2.2.1, rfl, hc, h.not_idle (by rw [hp]; nofun)⟩

end Pursuit

open Pursuit in
/-- **Whatever happens, there is one thing in each phase.** -/
theorem PursuitStep.ok {k : ClientId} {home : Tid} {b b' : Pursuit} (h : b.Ok k home)
    (hs : PursuitStep k home b b') : b'.Ok k home := by
  have hh := h.holds
  cases hs with
  | same => exact h
  | @polled m hf ha hm hc =>
    rcases Nat.eq_zero_or_pos m with rfl | hpos
    · rw [show { b with active := 0 } = b by rw [← ha]]
      exact h
    · obtain ⟨n, fd, hch⟩ := hc hpos
      have hp := h.phase_of_chan hch
      refine ⟨?_, h.idle⟩
      show Holds k home _ b.phase
      rw [hp] at hh ⊢
      obtain ⟨hf' | hf', hrest⟩ := hh
      · exact ⟨.inl ⟨hf'.1, hm⟩, hrest⟩
      · rw [hf'.1, only_self] at hf
        cases hf
  | @dispatched m ha =>
    obtain ⟨h1, hf, n, fd, hp⟩ := h.phase_of_active (by omega)
    refine ⟨?_, h.idle⟩
    show Holds k home _ b.phase
    rw [hp] at hh ⊢
    refine ⟨.inr ⟨?_, show m = 0 by omega⟩, hh.2⟩
    show Function.update b.frames home (.event :: b.frames home) = _
    rw [hf]
    rfl
  | dropped hf =>
    obtain ⟨rfl, hf', ha, -, n, fd, hp⟩ := h.phase_of_frame hf
    refine ⟨?_, h.idle⟩
    show Holds k home _ b.phase
    rw [hp] at hh ⊢
    refine ⟨.inl ⟨?_, show b.active ≤ 1 by omega⟩, hh.2⟩
    simp [hf']
  | @connect t hd =>
    have hp := h.idle hd
    rw [hp] at hh
    obtain ⟨hf, ha, hrest⟩ := hh
    refine ⟨⟨?_, ha, hrest⟩, nofun⟩
    show Function.update b.frames t (.run :: b.frames t) = _
    rw [hf]
    rfl
  | queued hf =>
    obtain ⟨h1, h2, h3, h4, h5, h6⟩ := h.source (.frame hf)
    exact ⟨⟨h1, h2, h3, .inl ⟨congrArg (· ++ [_]) h4, h5⟩⟩, fun hd => absurd hd h6⟩
  | attempt hs =>
    obtain ⟨h1, h2, h3, h4, h5, h6⟩ := h.source hs
    refine ⟨⟨.inl ⟨h1, Nat.le_trans (Nat.le_of_eq h2) (Nat.zero_le _)⟩, fun n' fd' => ?_, h4, rfl⟩,
      fun hd => absurd hd h6⟩
    exact or_iff_right (h3 n' fd')
  | failed hs =>
    obtain ⟨h1, h2, h3, h4, h5, h6⟩ := h.source hs
    exact ⟨⟨h1, h2, h3, .inl ⟨h4, h5⟩⟩, fun hd => absurd hd h6⟩
  | @removed r n fd hf hc =>
    obtain ⟨rfl, hf', ha, -, n', fd', hp⟩ := h.phase_of_frame hf
    have hidle := h.not_idle (by rw [hp]; nofun)
    rw [hp] at hh
    obtain ⟨-, hch, hq, hchan⟩ := hh
    rw [hc] at hchan
    cases hchan
    refine ⟨⟨?_, ha, fun m g hm => hm.2 ((hch m g).1 hm.1), by simp [hq], n, hc⟩,
      fun hd => absurd hd hidle⟩
    simp [hf']
  | retry hf =>
    obtain ⟨rfl, hf', ha, -, hp⟩ := h.phase_of_frame hf
    have hidle := h.not_idle (by rw [hp]; nofun)
    rw [hp] at hh
    obtain ⟨-, -, hu, hq, n, hc⟩ := hh
    refine ⟨⟨?_, ha, hu, .inr ⟨by simp [hq], by simp [hc]⟩⟩, fun hd => absurd hd hidle⟩
    simp [hf']
  | made hf =>
    obtain ⟨rfl, hf', ha, -, hp⟩ := h.phase_of_frame hf
    have hidle := h.not_idle (by rw [hp]; nofun)
    rw [hp] at hh
    obtain ⟨-, -, hu, hq, n, hc⟩ := hh
    refine ⟨⟨?_, ha, hu, .inr ⟨hq, by simp [hc]⟩⟩, fun hd => absurd hd hidle⟩
    simp [hf']
  | @reset ks hf ht =>
    obtain ⟨-, hu, ha, hfr, hp⟩ := h.phase_of_reset hf ht
    refine ⟨?_, h.idle⟩
    show Holds k home _ b.phase
    rcases hp with ⟨hp, rfl⟩ | ⟨hp, rfl⟩ <;> rw [hp] <;> exact ⟨hfr, ha, hu, .inl ⟨rfl, rfl⟩⟩

/-! ## The pursuit of a client -/

variable {cfg : Cfg} {d : Discipline} {s s' : Sys} {t : Tid} {k k' : ClientId} {l : LoopId}
  {f : Frame} {r fs gs : List Frame}

def Sys.pursuit (cfg : Cfg) (s : Sys) (k : ClientId) : Pursuit where
  phase := (s.clients k).phase
  state := (s.clients k).state
  channel := (s.clients k).channel
  frames := fun t => tokens k (s.stack t)
  tasks := (s.queue (cfg.clientLoop k)).filter (·.isConnector k)
  active := (s.active (cfg.clientLoop k)).countP (·.isConnector k)
  chans := fun n fd => ((s.pollers (cfg.clientLoop k)).chan (.connector k n fd)).status ≠ .newChannel

theorem Frame.token_of_light (h : f.light = true) : f.token k = none := by
  cases f with
  | handleEvent i =>
    cases i with
    | connector => cases h
    | acceptor | conn => rfl
  | connectorRun | writeEventHandler | writeEventRest => cases h
  | _ => rfl

theorem tokens_cons (h : f.token k = none) : tokens k (f :: fs) = tokens k fs :=
  List.filterMap_cons_none h

theorem tokens_append : tokens k (gs ++ fs) = tokens k gs ++ tokens k fs := List.filterMap_append ..

theorem tokens_of_light (h : ∀ g ∈ gs, g.light = true) : tokens k gs = [] :=
  List.filterMap_eq_nil_iff.2 fun g hg => Frame.token_of_light (h g hg)

theorem tokens_status {c : ConnId} : tokens k (statusFrames c s ++ fs) = tokens k fs := by
  rw [tokens_append, tokens_of_light fun g hg => by rw [mem_statusFrames hg]; rfl, List.nil_append]

/-- A frame without a token is done. -/
theorem tokens_pop (hs : s.stack t = f :: r) (hf : f.token k = none) :
    tokens k r = tokens k (s.stack t) := by rw [hs, tokens_cons hf]

/-- The stack while a functor runs. -/
theorem tokens_task {k₀ : Task} (hs : s.stack t = .loopTasks l :: r) :
    tokens k (.taskDone k₀ :: .loopPoll l :: r) = tokens k (s.stack t) := by
  rw [tokens_cons rfl, tokens_cons rfl, tokens_pop hs rfl]

theorem Rest.tokens (h : Rest d s t r) : tokens k r = tokens k (s.stack t) := by
  cases h with
  | frame hs hf => exact tokens_pop hs (Frame.token_of_light hf)
  | task hs _ => exact tokens_task hs

/-- The tokens of the stacks after a push. -/
theorem tokens_update (q : Tid → List Frame) :
    (fun t' => tokens k (Function.update q t fs t')) =
      Function.update (fun t' => tokens k (q t')) t (tokens k fs) := by
  funext t'
  by_cases ht : t' = t
  · subst ht
    simp
  · simp [ht]

/-- The stack of `t` is another with the same tokens. -/
theorem tokens_push {q : Tid → List Frame} (h : tokens k fs = tokens k (q t)) :
    (fun t' => tokens k (Function.update q t fs t')) = fun t' => tokens k (q t') := by
  rw [tokens_update, h]
  exact Function.update_eq_self ..

theorem tasks_appended {q : LoopId → List Task} {k₀ : Task} (h : k₀.isConnector k = false) (l' : LoopId) :
    (Function.update q l (q l ++ [k₀]) l').filter (·.isConnector k) =
      (q l').filter (·.isConnector k) := by
  by_cases hl : l' = l
  · subst hl
    simp [h]
  · rw [Function.update_of_ne hl]

theorem tasks_taken {q : LoopId → List Task} {k₀ : Task} {ks : List Task} (hq : q l = k₀ :: ks)
    (h : k₀.isConnector k = false) (l' : LoopId) :
    (Function.update q l ks l').filter (·.isConnector k) = (q l').filter (·.isConnector k) := by
  by_cases hl : l' = l
  · subst hl
    simp [hq, h]
  · rw [Function.update_of_ne hl]

theorem tokens_cons_some {x : Token} (h : f.token k = some x) :
    tokens k (f :: fs) = x :: tokens k fs := List.filterMap_cons_some h

theorem Task.isConnector_of_light {k₀ : Task} (h : k₀.light = true) : k₀.isConnector k = false := by
  cases k₀ with
  | connectorStart | connectorReset => cases h
  | _ => rfl

/-- The channels of connectors are those of before. -/
theorem chans_setPoller {i : ChanId} {p : EpollPoller ChanId} (hi : i.isConnector k = false)
    (hp : ∀ j, j ≠ i → p.chan j = (s.pollers l).chan j) (n : Nat) (fd : Fd) (l' : LoopId) :
    (((s.setPoller l p).pollers l').chan (.connector k n fd)).status =
      ((s.pollers l').chan (.connector k n fd)).status := by
  by_cases hl : l' = l
  · subst hl
    rw [Sys.setPoller_self, hp]
    rintro rfl
    simp [ChanId.isConnector] at hi
  · rw [Sys.setPoller_of_ne _ hl]

/-- A step, with what `s'` has after it. -/
theorem PursuitStep.to {home : Tid} {b : Pursuit} (h : PursuitStep k home (s.pursuit cfg k) b)
    {x : Client} (hcl : s'.clients k = x) (hp : x.phase = b.phase) (hst : x.state = b.state)
    (hc : x.channel = b.channel)
    (hf : (fun t => tokens k (s'.stack t)) = b.frames)
    (hq : (s'.queue (cfg.clientLoop k)).filter (·.isConnector k) = b.tasks)
    (ha : (s'.active (cfg.clientLoop k)).countP (·.isConnector k) = b.active)
    (hx : ∀ n fd, ((s'.pollers (cfg.clientLoop k)).chan (.connector k n fd)).status ≠ .newChannel ↔
      b.chans n fd) :
    PursuitStep k home (s.pursuit cfg k) (s'.pursuit cfg k) := by
  subst hcl
  have heq : s'.pursuit cfg k = b :=
    Pursuit.ext hp hst hc hf hq ha (funext fun n => funext fun fd => propext (hx n fd))
  rw [heq]
  exact h

/-- Nothing that belongs to the connector has changed. -/
theorem PursuitStep.of_same {home : Tid} (hcl : s'.clients k = s.clients k)
    (hf : (fun t => tokens k (s'.stack t)) = fun t => tokens k (s.stack t))
    (hq : (s'.queue (cfg.clientLoop k)).filter (·.isConnector k) =
      (s.queue (cfg.clientLoop k)).filter (·.isConnector k))
    (ha : (s'.active (cfg.clientLoop k)).countP (·.isConnector k) =
      (s.active (cfg.clientLoop k)).countP (·.isConnector k))
    (hx : ∀ n fd, ((s'.pollers (cfg.clientLoop k)).chan (.connector k n fd)).status =
      ((s.pollers (cfg.clientLoop k)).chan (.connector k n fd)).status) :
    PursuitStep k home (s.pursuit cfg k) (s'.pursuit cfg k) :=
  PursuitStep.same.to hcl rfl rfl rfl hf hq ha fun n fd => by rw [hx]; rfl

/-! ## Effects -/

/-- The channels reported are there once each, under the descriptors reported. -/
theorem activeChannels_fds {p : EpollPoller ChanId} (hb : p.Book (ChanId.fd cfg)) :
    ∀ evs : List (Fd × Mask),
      ((activeChannels p evs).map (ChanId.fd cfg)).Sublist (evs.map (·.1))
  | [] => .slnil
  | (n, ev) :: evs => by
    have ih := activeChannels_fds hb evs
    unfold activeChannels at ih ⊢
    cases hi : p.interest n with
    | none =>
      rw [List.filterMap_cons_none (by simp [hi])]
      exact ih.cons n
    | some e =>
      obtain ⟨i, m⟩ := e
      rw [List.filterMap_cons_some (b := i) (by simp [hi]), List.map_cons, List.map_cons,
        (hb.polled n i m hi).1]
      exact ih.cons_cons n

theorem activeChannels_nodup {p : EpollPoller ChanId} (hb : p.Book (ChanId.fd cfg))
    {evs : List (Fd × Mask)} (h : canPoll p evs = true) : (activeChannels p evs).Nodup := by
  have hn : (evs.map (·.1)).Nodup := of_decide_eq_true (Bool.and_eq_true_iff.1 h).1
  exact List.Nodup.of_map _ (hn.sublist (activeChannels_fds hb evs))

/-- `Poll` reports the channel of a connector once at most. -/
theorem count_polled {home : Tid} (hb : (s.pollers (cfg.clientLoop k)).Book (ChanId.fd cfg))
    (hO : (s.pursuit cfg k).Ok k home) {evs : List (Fd × Mask)}
    (h : canPoll (s.pollers (cfg.clientLoop k)) evs = true) :
    (activeChannels (s.pollers (cfg.clientLoop k)) evs).countP (·.isConnector k) ≤ 1 ∧
      (0 < (activeChannels (s.pollers (cfg.clientLoop k)) evs).countP (·.isConnector k) →
        ∃ n fd, (s.pursuit cfg k).chans n fd) := by
  have hmem : ∀ i ∈ activeChannels (s.pollers (cfg.clientLoop k)) evs, i.isConnector k = true →
      ∃ n fd, i = .connector k n fd ∧ (s.pursuit cfg k).chans n fd := by
    intro i hi hk
    cases i with
    | acceptor | conn => cases hk
    | connector k' n fd =>
      obtain rfl : k' = k := of_decide_eq_true hk
      obtain ⟨n', m, hint⟩ := Sound.mem_activeChannels hi
      refine ⟨n, fd, rfl, ?_⟩
      show _ ≠ _
      rw [(hb.polled n' _ m hint).2]
      nofun
  rw [List.countP_eq_length_filter]
  have hnd := (activeChannels_nodup hb h).filter (·.isConnector k)
  cases hL : (activeChannels (s.pollers (cfg.clientLoop k)) evs).filter (·.isConnector k) with
  | nil => exact ⟨Nat.zero_le _, fun h0 => absurd h0 (Nat.lt_irrefl 0)⟩
  | cons i is =>
    have hin : ∀ j ∈ i :: is, ∃ n fd, j = .connector k n fd ∧ (s.pursuit cfg k).chans n fd := by
      intro j hj
      rw [← hL] at hj
      exact hmem j (List.mem_filter.1 hj).1 (List.mem_filter.1 hj).2
    obtain ⟨n, fd, rfl, hch⟩ := hin i List.mem_cons_self
    refine ⟨?_, fun _ => ⟨n, fd, hch⟩⟩
    -- one channel is registered at a time
    have hsub : ∀ j ∈ ChanId.connector k n fd :: is, j ∈ [ChanId.connector k n fd] := by
      intro j hj
      obtain ⟨n', fd', rfl, hch'⟩ := hin j hj
      have hph := hO.phase_of_chan hch
      rw [hO.phase_of_chan hch'] at hph
      cases hph
      exact List.mem_singleton_self _
    rw [hL] at hnd
    exact (List.Nodup.subperm hnd hsub).length_le

/-- The stacks, when `StartInLoop` of another connector is taken up. -/
theorem StartSource.tokens_ne {s₀ : Sys} (h : StartSource t k' s s₀ r) (hk : k ≠ k') :
    tokens k r = tokens k (s.stack t) := by
  cases h with
  | frame hs => exact tokens_pop hs (by simp [Frame.token, Ne.symm hk])
  | task hs hq => exact tokens_task hs

theorem StartSource.tasks_ne {s₀ : Sys} (h : StartSource t k' s s₀ r) (hk : k ≠ k') (l : LoopId) :
    (s₀.queue l).filter (·.isConnector k) = (s.queue l).filter (·.isConnector k) := by
  cases h with
  | frame hs => rfl
  | task hs hq => exact tasks_taken hq (by simp [Task.isConnector, Ne.symm hk]) l

/-- A queued `StartInLoop` at the front is on the client's loop, and first of the connector's functors. -/
theorem Sound.startTask_front (hS : Sound cfg d s) {ks : List Task}
    (hq : s.queue l = .connectorStart k :: ks) :
    l = cfg.clientLoop k ∧
      (s.pursuit cfg k).tasks = .connectorStart k :: ks.filter (·.isConnector k) := by
  obtain rfl : l = cfg.clientLoop k :=
    (hS.tasks l (.connectorStart k) (hq ▸ List.mem_cons_self)).home
  refine ⟨rfl, ?_⟩
  show (s.queue _).filter _ = _
  rw [hq, List.filter_cons_of_pos (by simp [Task.isConnector])]

/-- `StartInLoop` is taken up by the connector, with what is left then. -/
theorem StartSource.source {s₀ : Sys} (hS : Sound cfg d s) (h : StartSource t k s s₀ r) :
    ∃ b₀, (s.pursuit cfg k).Source k b₀ ∧ b₀.state = (s.clients k).state ∧
      b₀.channel = (s.clients k).channel ∧
      (fun t' => tokens k (Function.update s₀.stack t r t')) = b₀.frames ∧
      (s₀.queue (cfg.clientLoop k)).filter (·.isConnector k) = b₀.tasks ∧
      b₀.active = (s.pursuit cfg k).active ∧ b₀.chans = (s.pursuit cfg k).chans := by
  cases h with
  | frame hs =>
    have htok : tokens k (s.stack t) = .run :: tokens k r := by
      rw [hs, tokens_cons_some (x := .run) (by simp [Frame.token])]
    exact ⟨_, .frame htok, rfl, rfl, tokens_update _, rfl, rfl, rfl⟩
  | @task l ks r hs hq =>
    obtain ⟨rfl, htask⟩ := hS.startTask_front hq
    refine ⟨_, .task htask, rfl, rfl, tokens_push (q := s.stack) (tokens_task hs), ?_, rfl, rfl⟩
    rw [Sys.dequeue_self]

theorem StartSource.same {s₀ : Sys} (h : StartSource t k s s₀ r) :
    s₀.clients = s.clients ∧ s₀.active = s.active ∧ s₀.pollers = s.pollers ∧ s₀.stack = s.stack := by
  cases h <;> exact ⟨rfl, rfl, rfl, rfl⟩

/-- Of the functors of a client's loop, one is appended. -/
theorem tasks_appended_self (q : LoopId → List Task) {k₀ : Task} (h : k₀.isConnector k = true) :
    (Function.update q l (q l ++ [k₀]) l).filter (·.isConnector k) =
      (q l).filter (·.isConnector k) ++ [k₀] := by
  rw [Function.update_self, List.filter_append, List.filter_cons_of_pos h, List.filter_nil]

/-- The channel of connector `k` on the active list, moved to the stack. -/
theorem pursuit_dispatch (hS : Sound cfg d s) {i : ChanId} {is : List ChanId}
    (hs : s.stack t = .loopDispatch l :: r) (hact : s.active l = i :: is) :
    PursuitStep k (.loop (cfg.clientLoop k)) (s.pursuit cfg k)
      (((s.dispatch l (some i) is).push t (.handleEvent i :: .loopDispatch l :: r)).pursuit cfg k) := by
  obtain rfl : t = .loop l := hS.loop_thread hs
  have hi := (hS.active l i (hact ▸ List.mem_cons_self)).home
  have ha : l = cfg.clientLoop k → (s.active (cfg.clientLoop k)).countP (·.isConnector k) =
      is.countP (·.isConnector k) + if i.isConnector k = true then 1 else 0 := by
    rintro rfl
    rw [hact, List.countP_cons]
  by_cases hk : i.isConnector k = true
  · cases i with
    | acceptor | conn => cases hk
    | connector k' n fd =>
      obtain rfl : k' = k := of_decide_eq_true hk
      obtain rfl : cfg.clientLoop k' = l := hi
      refine (PursuitStep.dispatched (m := is.countP (·.isConnector k')) ?_).to rfl rfl rfl rfl ?_ rfl
        ?_ fun _ _ => .rfl
      · exact (ha rfl).trans (by rw [if_pos hk])
      · refine (tokens_update s.stack).trans ?_
        rw [tokens_cons_some (x := .event) (by simp [Frame.token]), tokens_cons rfl, tokens_pop hs rfl]
        rfl
      · show (Function.update s.active _ _ _).countP _ = _
        rw [Function.update_self]
  · have htok : (Frame.handleEvent i).token k = none := by
      cases i with
      | acceptor | conn => rfl
      | connector k' n fd =>
        have hne : k' ≠ k := fun h => hk (decide_eq_true h)
        simp [Frame.token, hne]
    refine .of_same rfl (tokens_push (q := s.stack) ?_) rfl ?_ fun _ _ => rfl
    · rw [tokens_cons htok, tokens_cons rfl, tokens_pop hs rfl]
    · show (Function.update s.active _ _ _).countP _ = _
      by_cases hl : l = cfg.clientLoop k
      · rw [ha hl, ← hl, Function.update_self, if_neg hk, Nat.add_zero]
      · rw [Function.update_of_ne (Ne.symm hl)]

theorem pursuit_poll (hI : Inv cfg d s) (hO : (s.pursuit cfg k).Ok k (.loop (cfg.clientLoop k)))
    {evs : List (Fd × Mask)} (hs : s.stack t = .loopPoll l :: r)
    (hp : canPoll (s.pollers l) evs = true) :
    PursuitStep k (.loop (cfg.clientLoop k)) (s.pursuit cfg k)
      (((s.poll l evs).push t (.loopDispatch l :: r)).pursuit cfg k) := by
  obtain ⟨rfl, rfl, hact⟩ := hI.shape.of_poll hI.sound hs
  obtain ⟨-, hst⟩ := setRecieved_spec (hI.sound.books l) evs
  have hf : (fun t => tokens k (((s.poll l evs).push (.loop l) [.loopDispatch l]).stack t)) =
      fun t => tokens k (s.stack t) :=
    tokens_push (q := s.stack) (by rw [tokens_cons rfl, tokens_pop hs rfl])
  have hx : ∀ n fd, (((s.setPoller l (setRecieved (s.pollers l) evs)).pollers
      (cfg.clientLoop k)).chan (.connector k n fd)).status =
        ((s.pollers (cfg.clientLoop k)).chan (.connector k n fd)).status := fun n fd => by
    by_cases hl : cfg.clientLoop k = l
    · rw [hl, Sys.setPoller_self]
      exact (hst _).1
    · rw [Sys.setPoller_of_ne _ hl]
  by_cases hl : cfg.clientLoop k = l
  · subst hl
    obtain ⟨hle, hpos⟩ := count_polled (hI.sound.books _) hO hp
    refine (PursuitStep.polled ?_ ?_ hle hpos).to rfl rfl rfl rfl hf rfl ?_ fun n fd => ?_
    · show tokens k (s.stack _) = []
      rw [← tokens_pop hs rfl]
      rfl
    · show (s.active _).countP _ = 0
      rw [hact]
      rfl
    · show (Function.update s.active _ _ _).countP _ = _
      rw [Function.update_self]
    · exact not_congr (by rw [← hx n fd]; rfl)
  · refine .of_same rfl hf rfl ?_ hx
    show (Function.update s.active _ _ _).countP _ = _
    rw [Function.update_of_ne hl]

theorem pursuit_attempt (hS : Sound cfg d s) {s₀ : Sys} {n : Nat} {fd : Fd} {p : EpollPoller ChanId}
    (hs : StartSource t k' s s₀ r)
    (ho : (s.pollers (cfg.clientLoop k')).enableWriting (ChanId.fd cfg) (.connector k' n fd) = .ok p) :
    PursuitStep k (.loop (cfg.clientLoop k)) (s.pursuit cfg k) (Sys.pursuit cfg
      ((((s₀.openFd fd (.connector k')).updClient k' fun x =>
          { x with attempts := n + 1, channel := some (n, fd), phase := .polling n fd }).setPoller
        (cfg.clientLoop k') p).push t r) k) := by
  obtain ⟨hcl, hact, hpol, hstk⟩ := hs.same
  obtain ⟨-, hnew, hne⟩ := setEvents_chan ho
  by_cases hk : k = k'
  · subst hk
    obtain ⟨b₀, hb, h1, h2, h3, h4, h5, h6⟩ := hs.source hS
    refine (@PursuitStep.attempt k _ _ b₀ n fd hb).to (Function.update_self ..) rfl
      ((congrArg _ (congrFun hcl k)).trans h1.symm) rfl h3 h4 ?_ fun n' fd' => ?_
    · exact (congrArg (List.countP _) (congrFun hact _)).trans h5.symm
    · show ((Sys.pollers (Sys.setPoller _ _ p) _).chan _).status ≠ _ ↔ b₀.chans n' fd' ∨ _
      rw [Sys.setPoller_self, h6]
      by_cases hnf : n' = n ∧ fd' = fd
      · obtain ⟨rfl, rfl⟩ := hnf
        exact iff_of_true hnew (.inr ⟨rfl, rfl⟩)
      · rw [hne _ (by simpa using hnf), or_iff_left hnf]
        rfl
  · refine .of_same ((Function.update_of_ne hk ..).trans (congrFun hcl k)) ?_ (hs.tasks_ne hk _) ?_
      fun n' fd' => ?_
    · refine (tokens_push (q := s₀.stack) ?_).trans (by rw [hstk])
      rw [hs.tokens_ne hk, hstk]
    · exact congrArg (List.countP _) (congrFun hact _)
    · refine Eq.trans ?_ (chans_setPoller (s := s) (i := .connector k' n fd)
        (by simp [ChanId.isConnector, Ne.symm hk]) hne n' fd' (cfg.clientLoop k))
      show ((Function.update s₀.pollers _ _ _).chan _).status = _
      rw [hpol]
      rfl

theorem pursuit_attemptFailed (hS : Sound cfg d s) {s₀ : Sys} (hs : StartSource t k' s s₀ r) :
    PursuitStep k (.loop (cfg.clientLoop k)) (s.pursuit cfg k) (Sys.pursuit cfg
      ((s₀.updClient k' fun x => { x with phase := .ended }).push t r) k) := by
  obtain ⟨hcl, hact, hpol, hstk⟩ := hs.same
  have hx : ∀ n fd, ((s₀.pollers (cfg.clientLoop k)).chan (.connector k n fd)).status =
      ((s.pollers (cfg.clientLoop k)).chan (.connector k n fd)).status := fun n fd => by rw [hpol]
  have ha : (s₀.active (cfg.clientLoop k)).countP (·.isConnector k) =
      (s.active (cfg.clientLoop k)).countP (·.isConnector k) := by rw [hact]
  by_cases hk : k = k'
  · subst hk
    obtain ⟨b₀, hb, h1, h2, h3, h4, h5, h6⟩ := hs.source hS
    refine (PursuitStep.failed hb).to (Function.update_self ..) rfl
      ((congrArg _ (congrFun hcl k)).trans h1.symm) ((congrArg _ (congrFun hcl k)).trans h2.symm)
      h3 h4 (ha.trans h5.symm) fun n fd => ?_
    show _ ↔ b₀.chans n fd
    rw [h6]
    exact not_congr (by rw [← hx]; rfl)
  · refine .of_same ((Function.update_of_ne hk ..).trans (congrFun hcl k)) ?_ (hs.tasks_ne hk _) ha hx
    refine (tokens_push (q := s₀.stack) ?_).trans (by rw [hstk])
    rw [hs.tokens_ne hk, hstk]

theorem Effect.pursuit (hI : Inv cfg d s) (hO : (s.pursuit cfg k).Ok k (.loop (cfg.clientLoop k)))
    (he : Effect cfg d t s s') :
    PursuitStep k (.loop (cfg.clientLoop k)) (s.pursuit cfg k) (s'.pursuit cfg k) := by
  have hS := hI.sound
  cases he with
  | poll hs hp => exact pursuit_poll hI hO hs hp
  | dispatch hs hact => exact pursuit_dispatch hS hs hact
  | @dispatched l r hs hact =>
    refine .of_same rfl (tokens_push (q := s.stack) ?_) rfl ?_ fun _ _ => rfl
    · rw [tokens_cons rfl, tokens_pop hs rfl]
    · show (Function.update s.active _ _ _).countP _ = _
      by_cases hl : cfg.clientLoop k = l
      · rw [hl, Function.update_self, hact]
      · rw [Function.update_of_ne hl]
  | idle hs hq =>
    refine .of_same rfl (tokens_push (q := s.stack) ?_) rfl rfl fun _ _ => rfl
    rw [tokens_cons rfl, tokens_pop hs rfl]
  | dequeue hs hq hk =>
    exact .of_same rfl rfl (tasks_taken hq (Task.isConnector_of_light hk) _) rfl fun _ _ => rfl
  | finish hr hg =>
    refine .of_same rfl (tokens_push (q := s.stack) ?_) rfl rfl fun _ _ => rfl
    rw [tokens_append, tokens_of_light fun g hg' => (hg g hg').1, hr.tokens]
    rfl
  | enqueue hk hf =>
    refine .of_same rfl rfl (tasks_appended (q := s.queue) ?_ _) rfl fun _ _ => rfl
    rcases hk with hk | ⟨c, rfl⟩
    · exact Task.isConnector_of_light hk
    · rfl
  | conn | openFd | closeFd | destroy | hold | start | initPool | stop =>
    exact .of_same rfl rfl rfl rfl fun _ _ => rfl
  | @events i g p ht ho hi =>
    have hk : i.isConnector k = false := by
      cases i with
      | acceptor | conn => rfl
      | connector => exact hi.elim
    exact .of_same rfl rfl rfl rfl fun n fd => chans_setPoller hk (setEvents_chan ho).2.2 n fd _
  | sendQueued hl ht =>
    exact .of_same rfl rfl (tasks_appended (q := s.queue) rfl _) rfl fun _ _ => rfl
  | sendTaken hs hq hx => exact .of_same rfl rfl (tasks_taken hq rfl _) rfl fun _ _ => rfl
  | shutTaken hs hq hx => exact .of_same rfl rfl (tasks_taken hq rfl _) rfl fun _ _ => rfl
  | @establish l r ks c p hs hq ht ho =>
    exact .of_same rfl (tokens_push (q := s.stack) (tokens_status.trans (tokens_task hs)))
      (tasks_taken hq rfl _) rfl
      fun n fd => chans_setPoller (i := .conn c) rfl (setEvents_chan ho).2.2 n fd _
  | @close r c p hr hl ht hc ho =>
    refine .of_same rfl (tokens_push (q := s.stack) ?_) rfl rfl
      fun n fd => chans_setPoller (i := .conn c) rfl (setEvents_chan ho).2.2 n fd _
    rw [tokens_status, tokens_cons rfl, hr.tokens]
  | @sendFailed l r ks c T m p hs hq ht hst ho =>
    refine .of_same rfl (tokens_push (q := s.stack) ?_) (tasks_taken hq rfl _) rfl
      fun n fd => chans_setPoller (i := .conn c) rfl (setEvents_chan ho).2.2 n fd _
    rw [tokens_status, tokens_cons rfl, tokens_task hs]
  | handOver hs ho =>
    exact .of_same rfl (tokens_push (q := s.stack) (tokens_pop hs rfl))
      (tasks_appended (q := s.queue) rfl _) rfl fun _ _ => rfl
  | unlink hs ho ht =>
    exact .of_same rfl (tokens_push (q := s.stack) (tokens_pop hs rfl))
      (tasks_appended (q := s.queue) rfl _) rfl fun _ _ => rfl
  | @unlinkTaken l r ks c hs hq ht =>
    exact .of_same rfl (tokens_push (q := s.stack) (tokens_task hs))
      ((tasks_appended (q := Function.update s.queue l ks) rfl _).trans (tasks_taken hq rfl _)) rfl
        fun _ _ => rfl
  | @unlinkClient r c k' hs ho ht =>
    have hf : (fun t' => tokens k (Function.update s.stack t r t')) = fun t => tokens k (s.stack t) :=
      tokens_push (tokens_pop hs rfl)
    have hq : (Function.update s.queue c.loop (s.queue c.loop ++ [.connectDestoryed c])
        (cfg.clientLoop k)).filter (·.isConnector k) =
        (s.queue (cfg.clientLoop k)).filter (·.isConnector k) := tasks_appended rfl _
    by_cases hk : k = k'
    · subst hk
      exact PursuitStep.same.to (Function.update_self ..) rfl rfl rfl hf hq rfl fun _ _ => .rfl
    · exact .of_same (Function.update_of_ne hk ..) hf hq rfl fun _ _ => rfl
  | @destroyed l r ks c p hs hq ht ho =>
    exact .of_same rfl (tokens_push (q := s.stack) (tokens_task hs)) (tasks_taken hq rfl _) rfl
      fun n fd => chans_setPoller (i := .conn c) rfl (removeEventChannel_chan ho).2.2 n fd _
  | accept hc hf ht =>
    exact .of_same rfl rfl (tasks_appended (q := s.queue) rfl _) rfl fun _ _ => rfl
  | @connect k' r hr hst =>
    by_cases hk : k = k'
    · subst hk
      refine (PursuitStep.connect (t := t) hst).to (Function.update_self ..) rfl rfl rfl ?_ rfl rfl
        fun _ _ => .rfl
      refine (tokens_update s.stack).trans ?_
      rw [tokens_cons_some (x := .run) (by simp [Frame.token]), hr.tokens]
      rfl
    · refine .of_same (Function.update_of_ne hk ..) (tokens_push (q := s.stack) ?_) rfl rfl
        fun _ _ => rfl
      rw [tokens_cons (by simp [Frame.token, Ne.symm hk]), hr.tokens]
  | @connectQueued k' r hs =>
    by_cases hk : k = k'
    · subst hk
      have htok : tokens k (s.stack t) = .run :: tokens k r := by
        rw [hs, tokens_cons_some (x := .run) (by simp [Frame.token])]
      exact (PursuitStep.queued htok).to (Function.update_self ..) rfl rfl rfl (tokens_update s.stack)
        (tasks_appended_self s.queue (by simp [Task.isConnector])) rfl fun _ _ => .rfl
    · exact .of_same (Function.update_of_ne hk ..)
        (tokens_push (q := s.stack) (tokens_pop hs (by simp [Frame.token, Ne.symm hk])))
        (tasks_appended (q := s.queue) (by simp [Task.isConnector, Ne.symm hk]) _) rfl fun _ _ => rfl
  | attempt hs ht hf hn ho => exact pursuit_attempt hS hs ho
  | attemptFailed hs => exact pursuit_attemptFailed hS hs
  | @handled k' n fd r gs hs hg =>
    obtain rfl : t = .loop (cfg.clientLoop k') := hS.loop_thread hs
    by_cases hk : k = k'
    · subst hk
      have htok : tokens k (s.stack (.loop (cfg.clientLoop k))) = .event :: tokens k r := by
        rw [hs, tokens_cons_some (x := .event) (by simp [Frame.token])]
      rcases hg with rfl | rfl
      · exact (PursuitStep.dropped htok).to rfl rfl rfl rfl (tokens_update s.stack) rfl rfl
          fun _ _ => .rfl
      · refine .of_same rfl (tokens_push (q := s.stack) ?_) rfl rfl fun _ _ => rfl
        rw [htok]
        exact tokens_cons_some (by simp [Frame.token])
    · refine .of_same rfl (tokens_push (q := s.stack) ?_) rfl rfl fun _ _ => rfl
      rw [← tokens_pop hs (by simp [Frame.token, Ne.symm hk])]
      rcases hg with rfl | rfl
      · rfl
      · exact tokens_cons (by simp [Frame.token, Ne.symm hk])
  | @removeChannel k' r n fd p p' hs ht hk' ho hp =>
    obtain ⟨-, hnew, hne⟩ := removeEventChannel_chan hp
    have hne' : ∀ j, j ≠ .connector k' n fd → p'.chan j = (s.pollers (cfg.clientLoop k')).chan j :=
      fun j hj => (hne j hj).trans ((setEvents_chan ho).2.2 j hj)
    by_cases hk : k = k'
    · subst hk
      obtain rfl := ht
      have htok : tokens k (s.stack (.loop (cfg.clientLoop k))) = .event :: tokens k r := by
        rw [hs, tokens_cons_some (x := .event) (by simp [Frame.token])]
      refine (PursuitStep.removed htok hk').to (Function.update_self ..) rfl rfl rfl ?_
        (tasks_appended_self s.queue (by simp [Task.isConnector])) rfl fun n' fd' => ?_
      · refine (tokens_update s.stack).trans ?_
        rw [tokens_cons_some (x := .rest fd) (by simp [Frame.token])]
        rfl
      · show ((Sys.pollers (s.setPoller _ p') _).chan _).status ≠ _ ↔ _ ∧ _
        rw [Sys.setPoller_self]
        by_cases hnf : n' = n ∧ fd' = fd
        · obtain ⟨rfl, rfl⟩ := hnf
          rw [hnew]
          exact iff_of_false (fun h => h rfl) fun h => h.2 ⟨rfl, rfl⟩
        · rw [hne' _ (by simpa using hnf), and_iff_left hnf]
          rfl
    · refine .of_same (Function.update_of_ne hk ..) (tokens_push (q := s.stack) ?_)
        (tasks_appended (q := s.queue) (by simp [Task.isConnector, Ne.symm hk]) _) rfl
        fun n' fd' => chans_setPoller (i := .connector k' n fd)
          (by simp [ChanId.isConnector, Ne.symm hk]) hne' n' fd' _
      rw [tokens_cons (by simp [Frame.token, Ne.symm hk]),
        tokens_pop hs (by simp [Frame.token, Ne.symm hk])]
  | @retry k' fd r hs hf =>
    obtain rfl : t = .loop (cfg.clientLoop k') := hS.loop_thread hs
    by_cases hk : k = k'
    · subst hk
      have htok : tokens k (s.stack (.loop (cfg.clientLoop k))) = .rest fd :: tokens k r := by
        rw [hs, tokens_cons_some (x := .rest fd) (by simp [Frame.token])]
      exact (PursuitStep.retry htok).to (Function.update_self ..) rfl rfl rfl (tokens_update s.stack)
        (tasks_appended_self s.queue (by simp [Task.isConnector])) rfl fun _ _ => .rfl
    · exact .of_same (Function.update_of_ne hk ..)
        (tokens_push (q := s.stack) (tokens_pop hs (by simp [Frame.token, Ne.symm hk])))
        (tasks_appended (q := s.queue) (by simp [Task.isConnector, Ne.symm hk]) _) rfl fun _ _ => rfl
  | @newConnection k' r c p hs hc ht ho =>
    have hch : ∀ n fd, _ := fun n fd => chans_setPoller (k := k) (s := s) (i := .conn c) rfl
      (setEvents_chan ho).2.2 n fd (cfg.clientLoop k)
    have hcb : tokens k ((if cfg.clientStatusCb k' then [.user (some c)] else []) ++ r) =
        tokens k r := by
      rw [tokens_append]
      split <;> rfl
    obtain rfl : t = .loop (cfg.clientLoop k') := hS.loop_thread hs
    by_cases hk : k = k'
    · subst hk
      have htok : tokens k (s.stack (.loop (cfg.clientLoop k))) = .rest c.fd :: tokens k r := by
        rw [hs, tokens_cons_some (x := .rest c.fd) (by simp [Frame.token])]
      refine (PursuitStep.made htok).to (Function.update_self ..) rfl rfl rfl ?_ rfl rfl
        fun n fd => not_congr (by rw [← hch n fd]; rfl)
      exact (tokens_update s.stack).trans (congrArg (Function.update _ _) hcb)
    · refine .of_same (Function.update_of_ne hk ..) (tokens_push (q := s.stack) ?_) rfl rfl hch
      rw [hcb, tokens_pop hs (by simp [Frame.token, Ne.symm hk])]
  | @reset l r ks k' hs hq =>
    by_cases hk : k = k'
    · subst hk
      obtain rfl : l = cfg.clientLoop k :=
        (hS.tasks l (.connectorReset k) (hq ▸ List.mem_cons_self)).home
      obtain ⟨rfl, rfl, -⟩ := hI.shape.of_tasks hS hs
      have htask : (s.pursuit cfg k).tasks = .connectorReset k :: ks.filter (·.isConnector k) := by
        show (s.queue _).filter _ = _
        rw [hq, List.filter_cons_of_pos (by simp [Task.isConnector])]
      refine (PursuitStep.reset ?_ htask).to (Function.update_self ..) rfl rfl rfl
        (tokens_push (q := s.stack) (tokens_task hs)) ?_ rfl fun _ _ => .rfl
      · show tokens k (s.stack _) = []
        rw [← tokens_pop hs rfl]
        rfl
      · show (Function.update s.queue _ ks _).filter _ = _
        rw [Function.update_self]
    · exact .of_same (Function.update_of_ne hk ..) (tokens_push (q := s.stack) (tokens_task hs))
        (tasks_taken hq (by simp [Task.isConnector, Ne.symm hk]) _) rfl fun _ _ => rfl

end Liang.Net

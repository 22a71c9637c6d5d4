import Nvshare.Client.Gate
import Nvshare.Scheduler.Table

/-!
# The composed system

The scheduler and the processes at the other end of its connections. Each connection is two FIFO
channels: the frames the scheduler wrote to the record at address `h` are `inbox h` of its log,
of which the peer has read the first `consumed`; the frames the peer wrote and the scheduler has
not read are `up h`.

## Representation

* Addresses are handed out in order, so the `n`-th accepted connection has address `n`; which
  program connected is a parameter `kind : Nat → Kind` of the whole system. `nvsharectl` writes
  one command and closes; a client writes `REGISTER` and runs `client.c`.
* A scheduler move is `step` on the scheduler's part. A read of a whole frame takes the frame at
  the head of the peer's channel; a failed read (end of file, a partial frame, an error) is
  possible at any time and only evicts.
* A peer the scheduler has evicted keeps running until it reads the end of file and exits; the
  properties below are about live clients, in the table and not exited, so it is left to run.
-/

namespace Nvshare

/-- A command of `nvsharectl`, one per connection. -/
inductive Command
  /-- `change_status`: `--anti-thrash on` is `true`. -/
  | changeStatus (status : Bool)
  /-- `change_tq`. -/
  | changeTq (newtq : Nat)
  deriving DecidableEq, Repr

/-- The frame `nvsharectl` writes for a command. -/
def Command.msg : Command → Message
  | .changeStatus status => ⟨if status then .schedOn else .schedOff, 0xBEEF, []⟩
  | .changeTq newtq => ⟨.setTq, 0xBEEF, (toString newtq).toList⟩

/-- The program at the other end of an accepted connection. -/
inductive Kind
  /-- A CUDA application with the client library; `nvmlOk` is what `bootstrap_cuda` found. -/
  | client (nvmlOk : Bool)
  /-- One `nvsharectl` connection. -/
  | cli (cmd : Command)
  deriving DecidableEq, Repr

/-- The process at the other end of a connection, as far as the model follows it. -/
inductive Peer
  /-- No connection was accepted at this address, or `epoll_ctl` refused it. -/
  | none
  /-- `nvsharectl`: it reads nothing. -/
  | cli
  | client (p : Proc)

/-- The peer of a connection when it is accepted, and the frames it has written by then. -/
def Kind.start : Kind → Peer × List Message
  | .client nvmlOk => (.client (Proc.init nvmlOk), [registerMsg])
  | .cli cmd => (.cli, [cmd.msg])

/-- The scheduler, its peers, and the frames each peer wrote that the scheduler has not read. -/
structure Sys where
  sched : Sched
  peers : Nat → Peer
  up : Nat → List Message

/-- Nothing connected yet. -/
def Sys.init : Sys := ⟨Sched.init, fun _ ↦ .none, fun _ ↦ []⟩

/-- The frames the scheduler wrote to connection `h`, oldest first. -/
def Sys.down (S : Sys) (h : Nat) : List Message := inbox h S.sched.sent

/-- A move of the composed system. -/
inductive SysLabel
  /-- A move of the scheduler. -/
  | sched (l : Label)
  /-- `client_fn` of connection `h` reads its next frame and handles it. -/
  | receive (h : Nat)
  /-- Application thread `t` of connection `h` runs `continue_with_lock`'s loop once: on entering
  a gated hook, or when its `pthread_cond_wait` returns. -/
  | gate (h t : Nat)
  /-- Application thread `t` of connection `h` issues the real driver call. -/
  | call (h t : Nat)
  /-- `pthread_cond_timedwait` returns in `release_early_fn` of connection `h`. -/
  | releaseEarly (h : Nat) (timedOut : Bool) (probe : Probe)
  /-- The client process of connection `h` exits. -/
  | crash (h : Nat)

/-- Connection `h`'s peer becomes `p` after writing `out`. -/
def Sys.setProc (S : Sys) (h : Nat) (p : Proc) (out : List Message) : Sys :=
  { S with peers := Function.update S.peers h (.client p),
           up := Function.update S.up h (S.up h ++ out) }

/-- The client at connection `h` if it is in its receive loop. -/
def Sys.running (S : Sys) (h : Nat) : Option Proc :=
  match S.peers h with
  | .client p => if p.phase = .running then some p else none
  | _ => none

theorem Sys.running_eq_some {S : Sys} {h : Nat} {p : Proc} :
    S.running h = some p ↔ S.peers h = .client p ∧ p.phase = .running := by
  unfold Sys.running
  split
  · constructor
    · intro h'; split at h' <;> simp_all
    · rintro ⟨h₁, h₂⟩; simp_all
  · simp_all

section Step

variable (kind : Nat → Kind)

/-- A move of the scheduler in the composed system. -/
def Sys.schedStep (l : Label) (S : Sys) : Option Sys :=
  match step l S.sched with
  | none => none
  | some s' =>
    match l.read S.sched with
    | some (h, m) =>
      if (S.up h).head? = some m then
        some ⟨s', S.peers, Function.update S.up h (S.up h).tail⟩
      else none
    | none =>
      if l.accepts S.sched then
        let h := S.sched.nextHandle
        some ⟨s', Function.update S.peers h (kind h).start.1,
          Function.update S.up h (kind h).start.2⟩
      else some { S with sched := s' }

/-- One move, or `none` if it is not possible. -/
def Sys.step : SysLabel → Sys → Option Sys
  | .sched l, S => S.schedStep kind l
  | .receive h, S =>
    match S.peers h with
    | .client p =>
      match p.phase, (S.down h)[p.consumed]? with
      | .registering, some m =>
        some (S.setProc h ({ p with consumed := p.consumed + 1 }.initialStatus m) [])
      | .running, some m =>
        let r := { p with consumed := p.consumed + 1 }.handleMsg m
        some (S.setProc h r.1 r.2)
      | _, _ => none
    | _ => none
  | .gate h t, S =>
    match S.running h with
    | some p =>
      if p.app t = .ready then none
      else
        let r := p.continueWithLock t
        some (S.setProc h r.1 r.2)
    | none => none
  | .call h t, S =>
    match S.running h with
    | some p => if p.app t = .ready then some (S.setProc h (p.realCall t) []) else none
    | none => none
  | .releaseEarly h timedOut probe, S =>
    match S.running h with
    | some p =>
      let r := p.releaseEarlyFn timedOut probe
      some (S.setProc h r.1 r.2)
    | none => none
  | .crash h, S =>
    match S.peers h with
    | .client p => some (S.setProc h { p with phase := .exited } [])
    | _ => none

/-- The states the composed system can reach. -/
inductive SysReachable : Sys → Prop
  | init : SysReachable Sys.init
  | step {S S' : Sys} (L : SysLabel) : SysReachable S → Sys.step kind L S = some S' →
      SysReachable S'

/-- Run a list of moves. -/
def Sys.exec : List SysLabel → Sys → Option Sys
  | [], S => some S
  | L :: Ls, S => (Sys.step kind L S).bind (Sys.exec Ls)

variable {kind}

theorem SysReachable.exec {S S' : Sys} {Ls : List SysLabel} (h : SysReachable kind S)
    (he : Sys.exec kind Ls S = some S') : SysReachable kind S' := by
  induction Ls generalizing S with
  | nil => cases he; exact h
  | cons L Ls ih =>
    simp only [Sys.exec, Option.bind_eq_some] at he
    obtain ⟨S₁, h₁, h₂⟩ := he
    exact ih (h.step L h₁) h₂

/-- A run from the initial state that ends in a state satisfying `P` exhibits a reachable one. -/
theorem exists_sysReachable_of_exec (kind : Nat → Kind) (P : Sys → Bool) (Ls : List SysLabel)
    (h : (Sys.exec kind Ls Sys.init).any P = true) : ∃ S, SysReachable kind S ∧ P S = true := by
  cases he : Sys.exec kind Ls Sys.init with
  | none => simp [he] at h
  | some S => exact ⟨S, SysReachable.init.exec he, by simpa [he] using h⟩

/-- A property that holds initially and survives every move holds in every reachable state. -/
theorem SysReachable.invariant {P : Sys → Prop} (h0 : P Sys.init)
    (hs : ∀ L S S', P S → Sys.step kind L S = some S' → P S') {S : Sys}
    (h : SysReachable kind S) : P S := by
  induction h with
  | init => exact h0
  | step L _ hst ih => exact hs L _ _ ih hst

/-- What a scheduler move does to the channels: a read takes the head of the peer's frames, an
accepted connection gets its peer, and nothing else changes. -/
theorem schedStep_cases {l : Label} {S S' : Sys} (h : S.schedStep kind l = some S') :
    step l S.sched = some S'.sched ∧
    ((∃ hd m, l.read S.sched = some (hd, m) ∧ S.up hd = m :: S'.up hd ∧ S'.peers = S.peers ∧
        ∀ h', h' ≠ hd → S'.up h' = S.up h') ∨
     (l.read S.sched = none ∧ l.accepts S.sched = true ∧
        S'.peers = Function.update S.peers S.sched.nextHandle (kind S.sched.nextHandle).start.1 ∧
        S'.up = Function.update S.up S.sched.nextHandle (kind S.sched.nextHandle).start.2) ∨
     (l.read S.sched = none ∧ l.accepts S.sched = false ∧ S'.peers = S.peers ∧ S'.up = S.up)) := by
  unfold Sys.schedStep at h
  split at h
  · cases h
  · rename_i s' hs
    split at h
    · rename_i hd m hr
      split at h
      · cases h
        refine ⟨hs, .inl ⟨hd, m, hr, ?_, rfl, fun h' hne ↦ by simp [hne]⟩⟩
        rcases hu : S.up hd with _ | ⟨m', t⟩ <;> simp_all
      · cases h
    · rename_i hr
      split at h <;> cases h
      · exact ⟨hs, .inr (.inl ⟨hr, ‹_›, rfl, rfl⟩)⟩
      · exact ⟨hs, .inr (.inr ⟨hr, by simpa using ‹¬l.accepts S.sched = true›, rfl, rfl⟩)⟩

/-- The peer of an accepted connection is a fresh client, or `nvsharectl`. -/
theorem Kind.start_client {k : Kind} {p : Proc} (h : k.start.1 = .client p) :
    ∃ b, p = Proc.init b := by
  cases k <;> simp only [Kind.start, Peer.client.injEq, reduceCtorEq] at h
  exact ⟨_, h.symm⟩

/-- A scheduler move seen from one address: a connection it accepts there gets its new peer;
elsewhere the peer stays, and its channel loses the frame the move reads from it, if any. -/
theorem schedStep_at {l : Label} {S S' : Sys} (h : S.schedStep kind l = some S') (hd : Nat) :
    (¬ (hd = S.sched.nextHandle ∧ l.accepts S.sched = true) ∧ S'.peers hd = S.peers hd ∧
      ((∃ m, l.read S.sched = some (hd, m) ∧ S.up hd = m :: S'.up hd) ∨
       ((∀ m, l.read S.sched ≠ some (hd, m)) ∧ S'.up hd = S.up hd))) ∨
    (hd = S.sched.nextHandle ∧ l.accepts S.sched = true ∧
      S'.peers hd = (kind hd).start.1 ∧ S'.up hd = (kind hd).start.2) := by
  rcases (schedStep_cases h).2 with ⟨h', m, hr, hu, hp, hu'⟩ | ⟨hr, hacc, hp, hu⟩ |
      ⟨hr, hacc, hp, hu⟩
  · refine .inl ⟨by simp [Label.accepts_eq_false_of_read hr], by rw [hp], ?_⟩
    by_cases hh : hd = h'
    · subst hh; exact .inl ⟨m, hr, hu⟩
    · exact .inr ⟨fun m' he ↦ hh (by rw [hr] at he; cases he; rfl), hu' hd hh⟩
  · by_cases hh : hd = S.sched.nextHandle
    · subst hh
      exact .inr ⟨rfl, hacc, by rw [hp, Function.update_same], by rw [hu, Function.update_same]⟩
    · exact .inl ⟨fun h ↦ hh h.1, by rw [hp, Function.update_noteq hh],
        .inr ⟨by simp [hr], by rw [hu, Function.update_noteq hh]⟩⟩
  · exact .inl ⟨by simp [hacc], by rw [hp], .inr ⟨by simp [hr], by rw [hu]⟩⟩

/-- The frame a scheduler move reads is the head of the peer's channel. -/
theorem schedStep_read {l : Label} {S S' : Sys} (h : S.schedStep kind l = some S') {hd : Nat}
    {m : Message} (hread : l.read S.sched = some (hd, m)) : S.up hd = m :: S'.up hd := by
  rcases (schedStep_cases h).2 with ⟨h', m', hr, hu, -⟩ | ⟨hr, -⟩ | ⟨hr, -⟩ <;> rw [hread] at hr
  · obtain ⟨rfl, rfl⟩ := Prod.mk.inj (Option.some.inj hr); exact hu
  all_goals cases hr

/-- The peers after a scheduler move: the old ones, and at an accepted address a fresh client. -/
theorem schedStep_peers {l : Label} {S S' : Sys} (h : S.schedStep kind l = some S') {hd : Nat}
    {p : Proc} (hp : S'.peers hd = .client p) :
    S.peers hd = .client p ∨ ∃ b, p = Proc.init b := by
  rcases schedStep_at h hd with ⟨-, hpe, -⟩ | ⟨-, -, hpe, -⟩
  · exact .inl (hpe ▸ hp)
  · exact .inr (Kind.start_client (hpe ▸ hp))

/-- What a move of a client process does: `client_fn` handles the next frame (the initial status,
or one in its loop), an application thread runs the gate or its real call, the early releaser
wakes, or the process exits. Only that process's state and channel change. -/
theorem Sys.step_cases {L : SysLabel} {S S' : Sys} (h : Sys.step kind L S = some S') :
    (∃ l, L = .sched l ∧ S.schedStep kind l = some S') ∨
    ∃ hd p, S.peers hd = .client p ∧
      ((∃ m, p.phase = .registering ∧ (S.down hd)[p.consumed]? = some m ∧
          S' = S.setProc hd ({ p with consumed := p.consumed + 1 }.initialStatus m) []) ∨
       (∃ m, p.phase = .running ∧ (S.down hd)[p.consumed]? = some m ∧
          S' = S.setProc hd ({ p with consumed := p.consumed + 1 }.handleMsg m).1
            ({ p with consumed := p.consumed + 1 }.handleMsg m).2) ∨
       (∃ t, p.phase = .running ∧ p.app t ≠ .ready ∧
          S' = S.setProc hd (p.continueWithLock t).1 (p.continueWithLock t).2) ∨
       (∃ t, p.phase = .running ∧ p.app t = .ready ∧ S' = S.setProc hd (p.realCall t) []) ∨
       (∃ timedOut probe, p.phase = .running ∧
          S' = S.setProc hd (p.releaseEarlyFn timedOut probe).1
            (p.releaseEarlyFn timedOut probe).2) ∨
       S' = S.setProc hd { p with phase := .exited } []) := by
  cases L with
  | sched l => exact .inl ⟨l, rfl, h⟩
  | receive hd =>
    simp only [Sys.step] at h
    split at h
    · rename_i p hp
      split at h <;> cases h
      · exact .inr ⟨hd, p, hp, .inl ⟨_, ‹_›, ‹_›, rfl⟩⟩
      · exact .inr ⟨hd, p, hp, .inr (.inl ⟨_, ‹_›, ‹_›, rfl⟩)⟩
    · cases h
  | crash hd =>
    simp only [Sys.step] at h
    split at h <;> cases h
    exact .inr ⟨hd, _, ‹_›, .inr (.inr (.inr (.inr (.inr rfl))))⟩
  | gate hd t =>
    simp only [Sys.step] at h
    split at h
    · obtain ⟨hpe, hph⟩ := Sys.running_eq_some.mp ‹_›
      split at h
      · cases h
      · cases h; exact .inr ⟨hd, _, hpe, .inr (.inr (.inl ⟨t, hph, ‹_›, rfl⟩))⟩
    · cases h
  | call hd t =>
    simp only [Sys.step] at h
    split at h
    · obtain ⟨hpe, hph⟩ := Sys.running_eq_some.mp ‹_›
      split at h
      · cases h; exact .inr ⟨hd, _, hpe, .inr (.inr (.inr (.inl ⟨t, hph, ‹_›, rfl⟩)))⟩
      · cases h
    · cases h
  | releaseEarly hd timedOut probe =>
    simp only [Sys.step] at h
    split at h
    · obtain ⟨hpe, hph⟩ := Sys.running_eq_some.mp ‹_›
      cases h
      exact .inr ⟨hd, _, hpe, .inr (.inr (.inr (.inr (.inl ⟨timedOut, probe, hph, rfl⟩))))⟩
    · cases h

/-- Every move of the system moves the scheduler or leaves it alone. -/
theorem Sys.step_sched {L : SysLabel} {S S' : Sys} (h : Sys.step kind L S = some S') :
    S'.sched = S.sched ∨ ∃ l, Nvshare.step l S.sched = some S'.sched := by
  cases L with
  | sched l => exact .inr ⟨l, (schedStep_cases h).1⟩
  | _ =>
    left
    simp only [Sys.step] at h
    repeat' split at h
    all_goals cases h
    all_goals rfl

/-- **The scheduler of the composed system** runs as the scheduler alone can. -/
theorem SysReachable.sched {S : Sys} (h : SysReachable kind S) : Reachable S.sched := by
  induction h with
  | init => exact Reachable.init
  | step L _ hst ih =>
    rcases Sys.step_sched hst with he | ⟨l, hl⟩
    · exact he ▸ ih
    · exact ih.step l hl

end Step

/-! ## Work after the handover

`continue_with_lock` checks `own_lock` and releases the mutex before the thread calls the real
driver function. `client_fn` may handle DROP_LOCK in between: it clears `own_lock`, waits for the
work already submitted (`cuda_sync_context`) and writes LOCK_RELEASED, and the thread then
submits its work with the lock given back. -/

/-- Client `0` takes the lock and application thread `0` passes the gate; the quantum runs out,
the timer writes DROP_LOCK, and `client_fn` handles it before thread `0` makes its call. -/
def handoverRun : List SysLabel :=
  [.sched .timerStart,
   .sched (.poll [.listener]), .sched .lock, .sched (.handle (.accepted 10)), .sched .unlock,
   .sched (.poll [.client 0 true false]), .sched .lock, .sched (.handle (.read registerMsg 1)),
   .sched .unlock,
   .receive 0, .gate 0 0,
   .sched (.poll [.client 0 true false]), .sched .lock,
   .sched (.handle (.read ⟨.reqLock, 1, []⟩ 2)), .sched .unlock,
   .receive 0, .gate 0 0,
   .sched (.timerWake false fun _ ↦ true), .sched (.tick 30000000000),
   .sched (.timerWake true fun _ ↦ true),
   .receive 0]

/-- **A gated call after the handover.** In a reachable state a client has written LOCK_RELEASED
and handled no LOCK_OK or SCHED_OFF since, and one of its application threads can still issue a
real driver call. -/
theorem call_after_release :
    ¬ ∀ (kind : Nat → Kind) (S : Sys), SysReachable kind S → ∀ h t S',
      Sys.step kind (.call h t) S = some S' → ∀ p, S.peers h = .client p → p.released = false := by
  intro hall
  obtain ⟨S, hS, hP⟩ := exists_sysReachable_of_exec (fun _ ↦ .client true)
    (fun S ↦ match S.peers 0 with
      | .client p => p.released && p.phase == .running && p.app 0 == .ready
      | _ => false) handoverRun (by decide)
  split at hP
  · rename_i p hp
    simp only [Bool.and_eq_true, beq_iff_eq] at hP
    have hstep : Sys.step (fun _ ↦ .client true) (.call 0 0) S =
        some (S.setProc 0 (p.realCall 0) []) := by
      simp [Sys.step, Sys.running, hp, hP.1.2, hP.2]
    simpa [hP.1.1] using hall _ S hS 0 0 _ hstep p hp
  · cases hP

end Nvshare

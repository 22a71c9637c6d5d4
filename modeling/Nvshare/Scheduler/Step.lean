import Nvshare.Scheduler.Handlers

/-!
# The scheduler as a transition system

The main loop and the timer thread interleave at `global_mutex` granularity. The main loop's
iteration is split where the mutex changes hands: `epoll_wait` returns (mutex free), the mutex is
taken, each event is handled, the mutex is released. The timer's moves are atomic: it holds the
mutex from the return of `pthread_cond_timedwait` until it waits again, so it moves only while
the main loop does not hold the mutex. The clock advances at any time.

Every environment decision sits in the label: the events `epoll_wait` returns, what each read
and accept yields, the id `register_client` draws, which writes fail (and return `-1`; see
`Nvshare.Scheduler.Handlers` for the writes that end the daemon), whether a wait times out
(only once its deadline has passed) and how far the clock moves. `step` is a function of the
label, so the model runs; the transition relation is "some label leads from `s` to `s'`".
-/

namespace Nvshare

/-- A move of the scheduler and the environment. -/
inductive Label
  /-- `epoll_wait` returns. -/
  | poll (evs : List Event)
  /-- The main loop takes `global_mutex`. -/
  | lock
  /-- The main loop handles its next event. -/
  | handle (ch : Choice)
  /-- The main loop releases `global_mutex` after its last event. -/
  | unlock
  /-- `timer_thr_fn` takes the mutex for the first time. -/
  | timerStart
  /-- `pthread_cond_timedwait` returns in `timer_thr_fn`. -/
  | timerWake (timedOut : Bool) (ok : Nat → Bool)
  /-- The clock advances by `dt` nanoseconds. -/
  | tick (dt : Nat)

/-- The fd an event is reported for, as far as `epoll_wait`'s uniqueness goes. -/
def Event.key : Event → Option Nat
  | .listener => none
  | .client h _ _ => some h

/-- What `epoll_wait` can return: one to `EPOLL_MAX_EVENTS` events, at most one per descriptor,
each for the listener or a descriptor in the interest set, with `EPOLLIN` (the one event asked
for) or `EPOLLERR`/`EPOLLHUP` (always reported). -/
def Sched.canPoll (evs : List Event) (s : Sched) : Bool :=
  evs != [] && decide (evs.length ≤ 32) && decide (evs.map Event.key).Nodup &&
    evs.all fun e ↦ match e with
      | .listener => true
      | .client h epollin errHup => (epollin || errHup) && s.epoll.any (·.2 == h)

/-- The environment's decisions are ones the system calls can make: the regeneration loop only
stops on an id that is not the sentinel and not in use, and `accept` returns a free fd. -/
def Sched.canChoose (ch : Choice) (s : Sched) : Bool :=
  ch.newId != unregisteredId && s.clients.all (·.id != ch.newId) &&
    match ch.accept with
    | some (fd, _) => s.clients.all (·.fd != fd)
    | none => true

/-- A read of `m` with every write succeeding; `newId` serves a `REGISTER`. -/
def Choice.read (m : Message) (newId : UInt64) : Choice := ⟨some m, none, newId, fun _ ↦ true⟩

/-- An accepted connection on `fd`. -/
def Choice.accepted (fd : Nat) : Choice := ⟨none, some (fd, true), 0, fun _ ↦ true⟩

/-- The frame a scheduler move reads from a client connection. -/
def Label.read : Label → Sched → Option (Nat × Message)
  | .handle ch, s =>
    match s.main with
    | .handling (.client h true _ :: _) => ch.recv.map fun m ↦ (h, m)
    | _ => none
  | _, _ => none

/-- Whether a scheduler move accepts a connection that `epoll_ctl` takes. -/
def Label.accepts : Label → Sched → Bool
  | .handle ch, s =>
    match s.main, ch.accept with
    | .handling (.listener :: _), some (_, true) => true
    | _, _ => false
  | _, _ => false

/-- A move that reads a frame accepts no connection. -/
theorem Label.accepts_eq_false_of_read {l : Label} {s : Sched} {x : Nat × Message}
    (h : l.read s = some x) : l.accepts s = false := by
  cases l with
  | handle ch =>
    simp only [Label.read, Label.accepts] at h ⊢
    split at h
    · next hmain => rw [hmain]
    · cases h
  | _ => simp [Label.read] at h

/-- One move, or `none` if the label is not possible in `s`. -/
def step : Label → Sched → Option Sched
  | .poll evs, s => if s.main = .idle && s.canPoll evs then some { s with main := .polled evs } else none
  | .lock, s =>
    match s.main with
    | .polled evs => some { s with main := .handling evs }
    | _ => none
  | .handle ch, s =>
    match s.main with
    | .handling (e :: rest) =>
      if s.canChoose ch then (handleEvent ch e s).map fun s' ↦ { s' with main := .handling rest }
      else none
    | _ => none
  | .unlock, s => if s.main = .handling [] then some { s with main := .idle } else none
  | .timerStart, s =>
    if s.timer.pc = .start && !s.main.holdsMutex then some (timerRestart (setDropLockSent false s))
    else none
  | .timerWake timedOut ok, s =>
    if s.timer.pc = .waiting && !s.main.holdsMutex && (!timedOut || decide (s.timer.deadline ≤ s.now))
    then timerWake ok timedOut s else none
  | .tick dt, s => some { s with now := s.now + dt }

/-- What one move can do: move the main loop, handle one event, start or wake the timer, or
advance the clock. -/
theorem step_cases {l : Label} {s s' : Sched} (h : step l s = some s') :
    (∃ m, s' = { s with main := m }) ∨
    (∃ ch e rest s₁, l = .handle ch ∧ s.main = .handling (e :: rest) ∧ s.canChoose ch = true ∧
      handleEvent ch e s = some s₁ ∧ s' = { s₁ with main := .handling rest }) ∨
    s' = timerRestart (setDropLockSent false s) ∨
    (∃ ok timedOut, timerWake ok timedOut s = some s') ∨
    ∃ dt : Nat, s' = { s with now := s.now + dt } := by
  cases l with
  | handle ch =>
    simp only [step] at h
    split at h
    · split at h
      · obtain ⟨s₁, he, rfl⟩ := Option.map_eq_some'.mp h
        exact .inr (.inl ⟨ch, _, _, s₁, rfl, ‹_›, ‹_›, he, rfl⟩)
      · cases h
    · cases h
  | timerStart =>
    simp only [step] at h
    split at h <;> cases h
    exact .inr (.inr (.inl rfl))
  | timerWake timedOut ok =>
    simp only [step] at h
    split at h
    · exact .inr (.inr (.inr (.inl ⟨ok, timedOut, h⟩)))
    · cases h
  | tick dt =>
    simp only [step, Option.some.injEq] at h
    exact .inr (.inr (.inr (.inr ⟨dt, h.symm⟩)))
  | _ =>
    simp only [step] at h
    repeat' split at h
    all_goals cases h
    all_goals exact .inl ⟨_, rfl⟩

/-- The states the scheduler can reach. -/
inductive Reachable : Sched → Prop
  | init : Reachable Sched.init
  | step {s s' : Sched} (l : Label) : Reachable s → step l s = some s' → Reachable s'

/-- Run a list of moves. -/
def exec : List Label → Sched → Option Sched
  | [], s => some s
  | l :: ls, s => (step l s).bind (exec ls)

theorem exec_append (l₁ l₂ : List Label) (s : Sched) :
    exec (l₁ ++ l₂) s = (exec l₁ s).bind (exec l₂) := by
  induction l₁ generalizing s with
  | nil => rfl
  | cons l ls ih => rw [List.cons_append, exec, exec, Option.bind_assoc]; exact congrArg _ (funext ih)

theorem Reachable.exec {s s' : Sched} {ls : List Label} (h : Reachable s)
    (he : Nvshare.exec ls s = some s') : Reachable s' := by
  induction ls generalizing s with
  | nil => cases he; exact h
  | cons l ls ih =>
    simp only [Nvshare.exec, Option.bind_eq_some] at he
    obtain ⟨s₁, h₁, h₂⟩ := he
    exact ih (h.step l h₁) h₂

/-- A run from the initial state that ends in a state satisfying `P` exhibits a reachable one. -/
theorem exists_reachable_of_exec (P : Sched → Bool) (ls : List Label)
    (h : (Nvshare.exec ls Sched.init).any P = true) : ∃ s, Reachable s ∧ P s = true := by
  cases he : Nvshare.exec ls Sched.init with
  | none => simp [he] at h
  | some s => exact ⟨s, Reachable.init.exec he, by simpa [he] using h⟩

/-- A property that holds initially and survives every move holds in every reachable state. -/
theorem Reachable.invariant {P : Sched → Prop} (h0 : P Sched.init)
    (hs : ∀ l s s', P s → Nvshare.step l s = some s' → P s') {s : Sched} (h : Reachable s) : P s := by
  induction h with
  | init => exact h0
  | step l _ hst ih => exact hs l _ _ ih hst

/-! ## Events for evicted records

The events of one `epoll_wait` carry record addresses, and nothing between `epoll_wait` and the
handling of an event checks that the record is still in the table. The timer may evict the
holder before the main loop takes the mutex, and within the batch a failed write in
`bcast_status`, `try_schedule` or `register_client` evicts a client whose own event may come
later. `handleEvent` stops on such an event (`none`): the code reads the freed record. -/

/-- Client `0` registers and takes the lock; its quantum runs out while it writes to the
scheduler, `epoll_wait` reports that, and before the main loop takes the mutex the timer's
DROP_LOCK write to `0` fails and the timer evicts it. -/
def timerEvictRun : List Label :=
  [.timerStart,
   .poll [.listener], .lock, .handle (.accepted 10), .unlock,
   .poll [.client 0 true false], .lock, .handle (.read ⟨.register, 0, []⟩ 1), .unlock,
   .poll [.client 0 true false], .lock, .handle (.read ⟨.reqLock, 1, []⟩ 2), .unlock,
   .timerWake false fun _ ↦ true, .tick 30000000000,
   .poll [.client 0 true false], .timerWake true fun _ ↦ false, .lock]

/-- **An event for an evicted record.** A reachable state has the main loop, mutex held, about to
handle a read event for a record that is no longer in the table. -/
theorem evicted_event_handled :
    ¬ ∀ s, Reachable s → ∀ h epollin errHup rest,
      s.main = .handling (.client h epollin errHup :: rest) → ∃ c ∈ s.clients, c.handle = h := by
  intro hall
  obtain ⟨s, hs, hP⟩ := exists_reachable_of_exec
    (fun s ↦ s.main == .handling [.client 0 true false] && s.clients.all (·.handle != 0))
    timerEvictRun (by decide)
  simp only [Bool.and_eq_true, beq_iff_eq, List.all_eq_true, bne_iff_ne, ne_eq] at hP
  obtain ⟨c, hc, h0⟩ := hall s hs _ _ _ _ hP.1
  exact hP.2 c hc h0

end Nvshare

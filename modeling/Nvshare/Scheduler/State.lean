import Nvshare.Wire

/-!
# The scheduler's state

The scheduler daemon (`scheduler.c`) keeps its state in globals guarded by `global_mutex`: the
client table, the FCFS request queue, `lock_held`, `scheduler_on`, the quantum `tq`, the 32-bit
`scheduling_round` and the flag `must_reset_timer`. Two threads share it: the main loop, which
handles the events returned by one `epoll_wait` as one critical section, and `timer_thr_fn`,
which holds the mutex except inside `pthread_cond_timedwait`.

## Representation

* A client record is identified by its address, modelled as a `handle` that is never reused;
  the `fd` is a field, and the code compares records by `fd` exactly where the source does.
* A request keeps the record it points to and a sequence number `seq` naming the allocation.
  `seq` is never read by the model's control flow; it makes "the order `insert_req` appended
  entries in" a statement about values.
* `LL_FOREACH_SAFE` with `LL_DELETE` is `llDeleteIf`: a walk over the saved successors of the
  original list that unlinks matching nodes from the live one.
* The model keeps a log `sent` of every frame written in full, with the address of its recipient.
  In the scheduler alone it is history; in the composed system each client reads its own frames
  from it.
* `ghost` holds history that only specifications read.
-/

namespace Nvshare

/-! ## `utlist` deletion loops -/

/-- `LL_FOREACH_SAFE (head, el, tmp) if (p el) LL_DELETE (head, el)`: the walk follows the
saved successors of the original list while each deletion unlinks one node from the live list. -/
def llDeleteIf {α : Type} [DecidableEq α] (p : α → Bool) : List α → List α → List α
  | head, [] => head
  | head, el :: tmp => llDeleteIf p (if p el then head.erase el else head) tmp

theorem llDeleteIf_append {α : Type} [DecidableEq α] (p : α → Bool) (tmp pre : List α)
    (hpre : ∀ x ∈ pre, p x = false) :
    llDeleteIf p (pre ++ tmp) tmp = pre ++ tmp.filter (fun x ↦ !p x) := by
  induction tmp generalizing pre with
  | nil => simp [llDeleteIf]
  | cons el tmp ih =>
    by_cases hel : p el = true
    · have hnot : el ∉ pre := fun h ↦ by simp [hpre el h] at hel
      simp [llDeleteIf, hel, List.erase_append_right _ hnot, ih pre hpre]
    · rw [Bool.not_eq_true] at hel
      have h := ih (pre ++ [el]) (by simpa [or_imp, forall_and, hel] using hpre)
      simp only [List.append_assoc, List.singleton_append] at h
      simp [llDeleteIf, hel, h]

/-- Deleting while iterating removes exactly the matching nodes and keeps the others in order,
whatever their positions and multiplicities. -/
@[simp] theorem llDeleteIf_self {α : Type} [DecidableEq α] (p : α → Bool) (l : List α) :
    llDeleteIf p l l = l.filter (fun x ↦ !p x) :=
  llDeleteIf_append p l [] (by simp)

/-! ## Records -/

/-- `struct nvshare_client`; `handle` stands for the record's address. -/
structure Client where
  handle : Nat
  fd : Nat
  id : UInt64
  deriving DecidableEq, Repr

/-- `has_registered`. -/
def Client.hasRegistered (c : Client) : Bool := c.id != unregisteredId

/-- `struct nvshare_request`, with the allocation's sequence number. -/
structure Request where
  client : Client
  seq : Nat
  deriving DecidableEq, Repr

/-- One entry of the array filled by `epoll_wait`. -/
inductive Event
  /-- The listening socket is readable. -/
  | listener
  /-- A client socket, with the `EPOLLIN` and `EPOLLERR | EPOLLHUP` bits. -/
  | client (handle : Nat) (epollin errHup : Bool)
  deriving DecidableEq, Repr

/-- Where the main loop is. -/
inductive MainPc
  /-- Blocked in `epoll_wait`; `global_mutex` is free. -/
  | idle
  /-- `epoll_wait` has returned these events; the mutex is not yet taken. -/
  | polled (evs : List Event)
  /-- Holding `global_mutex`, with these events still to handle. -/
  | handling (evs : List Event)
  deriving DecidableEq, Repr

/-- Whether the main loop holds `global_mutex`. -/
def MainPc.holdsMutex : MainPc → Bool
  | .handling _ => true
  | _ => false

/-- `timer_thr_fn`: not yet started, or parked in `pthread_cond_timedwait`. -/
inductive TimerPc
  | start
  | waiting
  deriving DecidableEq, Repr

/-- The locals of `timer_thr_fn`. -/
structure Timer where
  pc : TimerPc
  roundAtStart : Nat
  /-- `timer_end_ts`, in nanoseconds. -/
  deadline : Int
  dropLockSent : Bool
  /-- Ghost: the number of LOCK_OKs sent when `round_at_start` was captured. -/
  grantsAtStart : Nat
  deriving DecidableEq, Repr

/-- History read only by specifications. -/
structure Ghost where
  /-- Every request `insert_req` appended, in order; the `seq` of each is its index. -/
  appended : List Request
  /-- Every request `remove_req` or the `SCHED_OFF` loop unlinked, in the order they did. -/
  removed : List Request
  /-- The number of LOCK_OKs sent: the unbounded twin of `scheduling_round`. -/
  grants : Nat
  /-- When the current tenure's LOCK_OK was sent. -/
  tenureStart : Int
  /-- Whether `SET_TQ` changed `tq` since that LOCK_OK. -/
  tqSet : Bool
  /-- Whether a LOCK_OK was ever sent while `lock_held` was 1. -/
  grantedWhileHeld : Bool
  deriving DecidableEq, Repr

/-- The scheduler's globals, both threads' control state and the clock. -/
structure Sched where
  clients : List Client
  requests : List Request
  lockHeld : Bool
  mustResetTimer : Bool
  schedulerOn : Bool
  tq : Int
  /-- `unsigned int scheduling_round`, kept below `2 ^ 32`. -/
  schedulingRound : Nat
  /-- The client part of the epoll interest set: each fd with the record address it carries. -/
  epoll : List (Nat × Nat)
  main : MainPc
  timer : Timer
  /-- `CLOCK_REALTIME`, in nanoseconds. -/
  now : Int
  /-- The address the next `malloc` of a client record returns. -/
  nextHandle : Nat
  /-- Every frame written in full, with the address of the record it was sent to. -/
  sent : List (Nat × Message)
  ghost : Ghost
  deriving Repr

/-- The state when `main` enters its loop: scheduling on, `tq = NVSHARE_DEFAULT_TQ`, the timer
thread created but not yet running. -/
def Sched.init : Sched where
  clients := []
  requests := []
  lockHeld := false
  mustResetTimer := false
  schedulerOn := true
  tq := 30
  schedulingRound := 0
  epoll := []
  main := .idle
  timer := ⟨.start, 0, 0, false, 0⟩
  now := 0
  nextHandle := 0
  sent := []
  ghost := ⟨[], [], 0, 0, false, false⟩

/-! ## Queue and table operations -/

/-- `remove_req`: clear `lock_held` if the head belongs to `c`, then delete every request whose
client has `c`'s fd. -/
def removeReq (c : Client) (s : Sched) : Sched :=
  { s with
    lockHeld := match s.requests with
      | r :: _ => if r.client.fd = c.fd then false else s.lockHeld
      | [] => s.lockHeld
    requests := llDeleteIf (fun r ↦ r.client.fd == c.fd) s.requests s.requests
    ghost := { s.ghost with
      removed := s.ghost.removed ++ s.requests.filter fun r ↦ r.client.fd == c.fd } }

/-- `delete_client`: `remove_req`, then unlink every record with `c`'s fd and drop the fd from the
interest set. -/
def deleteClient (c : Client) (s : Sched) : Sched :=
  let s := removeReq c s
  { s with
    clients := llDeleteIf (fun d ↦ d.fd == c.fd) s.clients s.clients
    epoll := s.epoll.filter fun e ↦ e.1 != c.fd }

/-- `insert_req`: append a request for `c` unless one with its fd is queued. -/
def insertReq (c : Client) (s : Sched) : Sched :=
  if s.requests.any (fun r ↦ r.client.fd == c.fd) then s
  else
    let r : Request := ⟨c, s.ghost.appended.length⟩
    { s with
      requests := s.requests ++ [r]
      ghost := { s.ghost with appended := s.ghost.appended ++ [r] } }

section Lemmas

variable (c : Client) (s : Sched)

@[simp] theorem removeReq_requests :
    (removeReq c s).requests = s.requests.filter fun r ↦ !(r.client.fd == c.fd) := by
  simp [removeReq]

theorem removeReq_lockHeld : (removeReq c s).lockHeld =
    match s.requests with
    | r :: _ => if r.client.fd = c.fd then false else s.lockHeld
    | [] => s.lockHeld := rfl

@[simp] theorem deleteClient_requests :
    (deleteClient c s).requests = s.requests.filter fun r ↦ !(r.client.fd == c.fd) := by
  simp [deleteClient]

@[simp] theorem deleteClient_clients :
    (deleteClient c s).clients = s.clients.filter fun d ↦ !(d.fd == c.fd) := by
  simp [deleteClient, removeReq]

theorem deleteClient_lockHeld : (deleteClient c s).lockHeld = (removeReq c s).lockHeld := rfl

@[simp] theorem deleteClient_sent : (deleteClient c s).sent = s.sent := rfl
@[simp] theorem deleteClient_schedulerOn : (deleteClient c s).schedulerOn = s.schedulerOn := rfl
@[simp] theorem deleteClient_nextHandle : (deleteClient c s).nextHandle = s.nextHandle := rfl
@[simp] theorem removeReq_clients : (removeReq c s).clients = s.clients := rfl
@[simp] theorem removeReq_sent : (removeReq c s).sent = s.sent := rfl
@[simp] theorem removeReq_schedulerOn : (removeReq c s).schedulerOn = s.schedulerOn := rfl

end Lemmas

end Nvshare

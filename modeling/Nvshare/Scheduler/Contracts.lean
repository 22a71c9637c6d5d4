import Nvshare.Scheduler.Handlers

/-!
# Contracts of the queue helpers and of `try_schedule`

`insert_req`, `remove_req` and `delete_client` edit the utlist queues in place, deleting while
they iterate, and `try_schedule` goes back to `try_again` after every LOCK_OK it fails to write.
This file states each of them as an operation on whole lists, for every queue, every client
table and every pattern of failed writes, not only for the states the scheduler reaches.

## `try_schedule`

A failed LOCK_OK evicts the head with `delete_client`, which takes every request with the head's
fd along, and the loop tries the new head. `evictedHeads` names the clients this evicts, read off
the queue alone: walking the queue, entries of clients already evicted are skipped, and the first
remaining entry is the head. The loop then does exactly what the walk says, in `length + 1`
rounds at most, which is the fuel `trySchedule` gives it.
-/

namespace Nvshare

/-! ## The queue helpers -/

/-- **The queue helpers as list operations.** `insert_req` appends an entry for `c` exactly when
no queued client has `c`'s fd. `remove_req` deletes exactly the entries with `c`'s fd, keeping the
others in order, and clears `lock_held` exactly when the head had `c`'s fd. `delete_client` does
what `remove_req` does and deletes exactly the records with `c`'s fd from the table; besides the
globals, the only other state it changes is the epoll interest set, which loses `c`'s fd
(`epoll_ctl (EPOLL_CTL_DEL)`). The ghost removal log records the entries `remove_req` deletes. -/
theorem queue_helpers (c : Client) (s : Sched) :
    (insertReq c s).requests =
      (if ∃ r ∈ s.requests, r.client.fd = c.fd then s.requests
       else s.requests ++ [⟨c, s.ghost.appended.length⟩]) ∧
    removeReq c s = { s with
      requests := s.requests.filter fun r ↦ r.client.fd != c.fd
      lockHeld := if (s.requests.head?.map fun r ↦ r.client.fd) = some c.fd then false
        else s.lockHeld
      ghost := { s.ghost with
        removed := s.ghost.removed ++ s.requests.filter fun r ↦ r.client.fd == c.fd } } ∧
    deleteClient c s = { removeReq c s with
      clients := s.clients.filter fun d ↦ d.fd != c.fd
      epoll := s.epoll.filter fun e ↦ e.1 != c.fd } := by
  refine ⟨?_, ?_, ?_⟩
  · unfold insertReq
    by_cases h : ∃ r ∈ s.requests, r.client.fd = c.fd <;> simp [h]
  · cases hr : s.requests with
    | nil => simp [removeReq, hr]
    | cons r rs => simp [removeReq, hr]; rfl
  · simp only [deleteClient, llDeleteIf_self]; rfl

/-! ## `try_schedule` -/

section Grant

variable (c : Client) (s : Sched)

@[simp] theorem grant_clients : (grant c s).clients = s.clients := rfl
@[simp] theorem grant_requests : (grant c s).requests = s.requests := rfl
@[simp] theorem grant_sent : (grant c s).sent = s.sent ++ [(c.handle, outMsg .lockOk)] := rfl
@[simp] theorem grant_lockHeld : (grant c s).lockHeld = true := rfl
@[simp] theorem grant_mustResetTimer : (grant c s).mustResetTimer = true := rfl
@[simp] theorem grant_schedulingRound :
    (grant c s).schedulingRound = (s.schedulingRound + 1) % 2 ^ 32 := rfl

end Grant

/-- The clients `try_schedule` evicts from a queue once the clients with an fd in `gone` are
evicted: their entries went with them, the first remaining entry is the head, and the walk stops
at the first head whose LOCK_OK goes out. -/
def evictedFrom (ok : Nat → Bool) (gone : List Nat) : List Request → List Client
  | [] => []
  | r :: rs =>
    if r.client.fd ∈ gone then evictedFrom ok gone rs
    else if ok r.client.handle then []
    else r.client :: evictedFrom ok (r.client.fd :: gone) rs

/-- The successive heads of a queue whose LOCK_OK fails. -/
def evictedHeads (ok : Nat → Bool) (requests : List Request) : List Client :=
  evictedFrom ok [] requests

/-- The second entry of client `0` went with the first; client `2` gets the lock. -/
example : evictedHeads (fun h ↦ h == 2) [⟨⟨0, 1, 0⟩, 0⟩, ⟨⟨0, 1, 0⟩, 1⟩, ⟨⟨1, 2, 0⟩, 2⟩,
    ⟨⟨2, 3, 0⟩, 3⟩, ⟨⟨3, 4, 0⟩, 4⟩] = [⟨0, 1, 0⟩, ⟨1, 2, 0⟩] := by decide

theorem evictedFrom_length_le (ok : Nat → Bool) (gone : List Nat) (l : List Request) :
    (evictedFrom ok gone l).length ≤ l.length := by
  induction l generalizing gone with
  | nil => exact le_rfl
  | cons r rs ih =>
    unfold evictedFrom
    split
    · exact (ih gone).trans (Nat.le_succ _)
    · split
      · exact Nat.zero_le _
      · exact Nat.succ_le_succ (ih _)

/-- Deleting the entries with fd `a`, then those with an fd in `L`, deletes those with an fd in
`a :: L`. -/
theorem filter_fd_not_mem_cons {α : Type} (f : α → Nat) (a : Nat) (L : List Nat) (l : List α) :
    (l.filter fun x ↦ !(f x == a)).filter (fun x ↦ f x ∉ L) = l.filter fun x ↦ f x ∉ a :: L := by
  rw [List.filter_filter]
  exact List.filter_congr fun x _ ↦ by by_cases h : f x = a <;> simp [h]

/-- Evicting the head frees the lock. -/
theorem deleteClient_head_lockHeld {s : Sched} {r : Request} {rs : List Request}
    (hs : s.requests = r :: rs) : (deleteClient r.client s).lockHeld = false := by
  simp [deleteClient_lockHeld, removeReq_lockHeld, hs]

/-- The loop on a queue that is `l` without the clients in `gone`: with one round more than it
evicts, it deletes exactly the evicted clients' records and entries and then either finds the
queue empty or writes LOCK_OK to the new head; more fuel changes nothing. -/
theorem tryScheduleLoop_evicts (ok : Nat → Bool) (l : List Request) :
    ∀ (gone : List Nat) (s : Sched), s.requests = l.filter (fun r ↦ r.client.fd ∉ gone) →
    s.lockHeld = false → ∀ n, (evictedFrom ok gone l).length < n →
    let ev := evictedFrom ok gone l
    let s' := tryScheduleLoop ok n s
    s' = tryScheduleLoop ok (ev.length + 1) s ∧
    s'.clients = s.clients.filter (fun d ↦ d.fd ∉ ev.map Client.fd) ∧
    s'.requests = s.requests.filter (fun r ↦ r.client.fd ∉ ev.map Client.fd) ∧
    ((s'.requests = [] ∧ s'.lockHeld = false ∧ s'.sent = s.sent) ∨
     (∃ r rest, s'.requests = r :: rest ∧ ok r.client.handle = true ∧
       s'.sent = s.sent ++ [(r.client.handle, outMsg .lockOk)] ∧ s'.lockHeld = true ∧
       s'.schedulingRound = (s.schedulingRound + 1) % 2 ^ 32 ∧ s'.mustResetTimer = true)) := by
  induction l with
  | nil =>
    intro gone s hs hl n hn
    obtain ⟨m, rfl⟩ : ∃ m, n = m + 1 := ⟨n - 1, by simp [evictedFrom] at hn; omega⟩
    simp only [List.filter_nil] at hs
    simp [evictedFrom, tryScheduleLoop, hs, hl]
  | cons r rs ih =>
    intro gone s hs hl n hn
    by_cases hg : r.client.fd ∈ gone
    · -- `r` belongs to a client evicted before: its entry is gone already
      have hev : evictedFrom ok gone (r :: rs) = evictedFrom ok gone rs := by simp [evictedFrom, hg]
      rw [hev] at hn ⊢
      exact ih gone s (by simpa [hg] using hs) hl n hn
    have hs' : s.requests = r :: rs.filter (fun q ↦ q.client.fd ∉ gone) := by simpa [hg] using hs
    obtain ⟨m, rfl⟩ : ∃ m, n = m + 1 := ⟨n - 1, by omega⟩
    by_cases hok : ok r.client.handle
    · -- LOCK_OK to the head goes out
      have hev : evictedFrom ok gone (r :: rs) = [] := by simp [evictedFrom, hg, hok]
      have hloop : ∀ k, tryScheduleLoop ok (k + 1) s = grant r.client s := fun k ↦ by
        simp [tryScheduleLoop, hs', hok]
      dsimp only
      rw [hev, hloop, hloop]
      exact ⟨rfl, by simp, by simp, .inr ⟨r, _, by rw [grant_requests, hs'], hok, rfl, rfl, rfl, rfl⟩⟩
    · -- the head is evicted and the loop goes again
      have hev : evictedFrom ok gone (r :: rs) =
          r.client :: evictedFrom ok (r.client.fd :: gone) rs := by
        simp [evictedFrom, hg, hok]
      rw [hev] at hn ⊢
      dsimp only
      have hs₁ : (deleteClient r.client s).requests =
          rs.filter (fun q ↦ q.client.fd ∉ r.client.fd :: gone) := by
        rw [deleteClient_requests, hs', List.filter_cons_of_neg (by simp), List.filter_filter]
        exact List.filter_congr fun q _ ↦ by by_cases h : q.client.fd = r.client.fd <;> simp [h]
      obtain ⟨h1, h2, h3, h4⟩ := ih _ _ hs₁ (deleteClient_head_lockHeld hs') m (by simpa using hn)
      simp only [tryScheduleLoop, hs', hok, Bool.false_eq_true, if_false, List.length_cons]
      refine ⟨h1, ?_, ?_, h4⟩
      · rw [h2, deleteClient_clients, filter_fd_not_mem_cons, List.map_cons]
      · rw [h3, deleteClient_requests, filter_fd_not_mem_cons, List.map_cons, hs']

/-- **The `try_schedule` contract.** Entered with `lock_held = 0`, for every queue, client table
and pattern of failed writes, the loop returns after one round more than the number of clients it
evicts, which is at most the length of the queue. It evicts exactly the successive heads whose
LOCK_OK fails: their records and entries are deleted and the other entries keep their order.
Then either the queue is empty and the lock free, or LOCK_OK went out to the new head, the lock
is held, `scheduling_round` went up by one (as an `unsigned int`) and the timer is told to reset.
-/
theorem try_schedule_contract (ok : Nat → Bool) (s : Sched) (hl : s.lockHeld = false) :
    let ev := evictedHeads ok s.requests
    let s' := trySchedule ok s
    ev.length ≤ s.requests.length ∧
    (∀ n, ev.length < n → tryScheduleLoop ok n s = s') ∧
    s'.clients = s.clients.filter (fun d ↦ d.fd ∉ ev.map Client.fd) ∧
    s'.requests = s.requests.filter (fun r ↦ r.client.fd ∉ ev.map Client.fd) ∧
    ((s'.requests = [] ∧ s'.lockHeld = false ∧ s'.sent = s.sent) ∨
     (∃ r rest, s'.requests = r :: rest ∧ ok r.client.handle = true ∧
       s'.sent = s.sent ++ [(r.client.handle, outMsg .lockOk)] ∧ s'.lockHeld = true ∧
       s'.schedulingRound = (s.schedulingRound + 1) % 2 ^ 32 ∧ s'.mustResetTimer = true)) := by
  have hle := evictedFrom_length_le ok [] s.requests
  have key := tryScheduleLoop_evicts ok s.requests [] s (by simp) hl
  obtain ⟨hfuel, hpost⟩ := key (s.requests.length + 1) (by omega)
  exact ⟨hle, fun n hn ↦ (key n hn).1.trans hfuel.symm, hpost⟩

/-- Two clients wait; the write to the first fails. -/
def twoWaiting : Sched :=
  { Sched.init with
    clients := [⟨0, 10, 1⟩, ⟨1, 11, 2⟩]
    requests := [⟨⟨0, 10, 1⟩, 0⟩, ⟨⟨1, 11, 2⟩, 1⟩] }

/-- With the write to client `0` failing, `try_schedule` evicts it and grants client `1`. -/
theorem try_schedule_contract_second_head :
    (trySchedule (· != 0) twoWaiting).clients = [⟨1, 11, 2⟩] ∧
    (trySchedule (· != 0) twoWaiting).requests = [⟨⟨1, 11, 2⟩, 1⟩] :=
  let h := try_schedule_contract (· != 0) twoWaiting rfl
  ⟨h.2.2.1.trans (by decide), h.2.2.2.1.trans (by decide)⟩

end Nvshare

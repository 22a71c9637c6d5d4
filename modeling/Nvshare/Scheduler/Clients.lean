import Nvshare.Scheduler.Queue
import Nvshare.Scheduler.Table

/-!
# The client table

Three facts about the client records that `TableInv` leaves out:

* the client part of the epoll interest set is exactly the table: `main` adds a record to both
  or to neither, and `delete_client` removes an fd from both;
* registered records have distinct ids: `register_client`'s regeneration loop only stops on an
  id that no record of the table carries and that is not `NVSHARE_UNREGISTERED_ID`;
* no fd is queued twice: `insert_req` appends only when no queued request has the client's fd,
  and every other change to the queue deletes entries.

Together with `TableInv` they are the client-table invariant of the scheduler, and every move
keeps them. Only the registration step needs `TableInv`: the record it renames is the only one
at its address.
-/

namespace Nvshare

@[simp] theorem deleteClient_epoll (c : Client) (s : Sched) :
    (deleteClient c s).epoll = s.epoll.filter fun e ↦ e.1 != c.fd := rfl

/-- The invariant of the client records beyond `TableInv`. -/
structure ClientsInv (s : Sched) : Prop where
  /-- The interest set holds each record's fd, with the record's address as its data. -/
  epoll_eq : s.epoll = s.clients.map fun c ↦ (c.fd, c.handle)
  /-- A registered record is the only record with its id. -/
  ids_unique : ∀ c ∈ s.clients, ∀ d ∈ s.clients, c.hasRegistered = true → c.id = d.id → c = d
  queue_nodup : (s.requests.map fun r ↦ r.client.fd).Nodup

namespace ClientsInv

variable {s : Sched}

theorem init : ClientsInv Sched.init := ⟨rfl, nofun, List.nodup_nil⟩

/-- A move that leaves the table, the queue and the interest set alone keeps the invariant. -/
theorem of_eq {s' : Sched} (h : ClientsInv s) (hc : s'.clients = s.clients)
    (hr : s'.requests = s.requests) (he : s'.epoll = s.epoll) : ClientsInv s' :=
  ⟨by rw [he, hc]; exact h.epoll_eq, by rw [hc]; exact h.ids_unique, by rw [hr]; exact h.queue_nodup⟩

theorem deleteClient (h : ClientsInv s) (c : Client) : ClientsInv (deleteClient c s) where
  epoll_eq := by rw [deleteClient_epoll, h.epoll_eq, List.filter_map, deleteClient_clients]; rfl
  ids_unique c' hc' d' hd' := by
    simp only [deleteClient_clients, List.mem_filter] at hc' hd'
    exact h.ids_unique c' hc'.1 d' hd'.1
  queue_nodup := by simpa using h.queue_nodup.sublist ((List.filter_sublist _).map _)

theorem removeReq (h : ClientsInv s) (c : Client) : ClientsInv (removeReq c s) :=
  ⟨h.epoll_eq, h.ids_unique, by simpa using h.queue_nodup.sublist ((List.filter_sublist _).map _)⟩

theorem insertReq (h : ClientsInv s) (c : Client) : ClientsInv (insertReq c s) := by
  unfold Nvshare.insertReq
  split
  · exact h
  · next hany =>
    refine ⟨h.epoll_eq, h.ids_unique, ?_⟩
    simp only [List.any_eq_true, beq_iff_eq, not_exists, not_and] at hany
    simpa [List.nodup_append] using And.intro h.queue_nodup hany

theorem tryScheduleLoop (ok : Nat → Bool) :
    ∀ (fuel : Nat) {s : Sched}, ClientsInv s → ClientsInv (tryScheduleLoop ok fuel s)
  | 0, _, h => h
  | fuel + 1, s, h => by
    unfold Nvshare.tryScheduleLoop
    split
    · exact h
    · split
      · exact h.of_eq rfl rfl rfl
      · exact tryScheduleLoop ok fuel (h.deleteClient _)

theorem trySchedule (h : ClientsInv s) (ok : Nat → Bool) : ClientsInv (trySchedule ok s) :=
  tryScheduleLoop ok _ h

/-- `register_client` renames the one record at `c`'s address, with an id that no record has. -/
theorem setClientId (h : ClientsInv s) (hT : TableInv s) {newId : UInt64} {c : Client}
    (hc : c ∈ s.clients) (hfresh : ∀ d ∈ s.clients, d.id ≠ newId) :
    ClientsInv (setClientId newId c s) where
  epoll_eq := by
    simp only [Nvshare.setClientId, List.map_map]
    rw [h.epoll_eq]
    refine List.map_congr_left fun d hd ↦ ?_
    by_cases hh : d.handle = c.handle
    · simp [hh, hT.eq_of_handle hd hc hh]
    · simp [hh]
  ids_unique c' hc' d' hd' hreg hid := by
    obtain ⟨c₀, hc₀, rfl⟩ := List.mem_map.mp hc'
    obtain ⟨d₀, hd₀, rfl⟩ := List.mem_map.mp hd'
    by_cases h₁ : c₀.handle = c.handle <;> by_cases h₂ : d₀.handle = c.handle <;>
      simp only [h₁, h₂, if_true, if_false] at hreg hid ⊢
    · exact absurd hid.symm (hfresh d₀ hd₀)
    · exact absurd hid (hfresh c₀ hc₀)
    · exact h.ids_unique c₀ hc₀ d₀ hd₀ hreg hid
  queue_nodup := h.queue_nodup

theorem registerOrDelete (h : ClientsInv s) (hT : TableInv s) (ok : Nat → Bool) {newId : UInt64}
    {c : Client} (hc : c ∈ s.clients) (hfresh : ∀ d ∈ s.clients, d.id ≠ newId) :
    ClientsInv (registerOrDelete ok newId c s) := by
  rcases registerOrDelete_cases ok newId c s with ⟨-, he⟩ | ⟨-, -, he⟩ | ⟨-, -, he⟩ <;> rw [he]
  · exact h.deleteClient c
  · exact (h.setClientId hT hc hfresh).of_eq rfl rfl rfl
  · exact (h.setClientId hT hc hfresh).deleteClient c

theorem bcastStatus (h : ClientsInv s) (ok : Nat → Bool) : ClientsInv (bcastStatus ok s) := by
  unfold Nvshare.bcastStatus
  generalize s.clients = l
  induction l generalizing s with
  | nil => exact h
  | cons c l ih =>
    refine ih ?_
    rcases bcastOne_cases ok s c with ⟨-, he⟩ | ⟨-, -, he⟩ | ⟨-, -, he⟩ <;> rw [he]
    exacts [h, h.of_eq rfl rfl rfl, h.deleteClient c]

theorem evict (h : ClientsInv s) (ok : Nat → Bool) (c : Client) : ClientsInv (evict ok c s) := by
  unfold Nvshare.evict; dsimp only; split
  exacts [(h.deleteClient c).trySchedule ok, h.deleteClient c]

theorem processMsg (h : ClientsInv s) (hT : TableInv s) (ok : Nat → Bool) {newId : UInt64}
    {c : Client} (hc : c ∈ s.clients) (hfresh : ∀ d ∈ s.clients, d.id ≠ newId) (m : Message) :
    ClientsInv (processMsg ok newId c m s) :=
  processMsg_of ok h (h.registerOrDelete hT ok hc hfresh)
    (fun _ _ ↦ ClientsInv.bcastStatus (s := { s with schedulerOn := true }) (h.of_eq rfl rfl rfl) ok)
    (fun _ _ ↦
      have h' := ClientsInv.bcastStatus (s := { s with schedulerOn := false })
        (h.of_eq rfl rfl rfl) ok
      ⟨h'.epoll_eq, h'.ids_unique, by simp⟩)
    (fun _ ↦ h.of_eq rfl rfl rfl)
    (fun _ _ _ ↦ h.insertReq c) (fun _ _ _ _ ↦ (h.insertReq c).trySchedule ok)
    (fun _ _ _ ↦ h.removeReq c) (fun _ _ _ _ ↦ (h.removeReq c).trySchedule ok)
    (fun _ ↦ h.deleteClient c)

theorem acceptClient (h : ClientsInv s) (fd : Nat) (added : Bool) :
    ClientsInv (acceptClient fd added s) := by
  unfold Nvshare.acceptClient
  split
  · refine ⟨by simp [h.epoll_eq], fun c' hc' d' hd' hreg hid ↦ ?_, h.queue_nodup⟩
    simp only [List.mem_append, List.mem_singleton] at hc' hd'
    rcases hc' with hc' | rfl
    · rcases hd' with hd' | rfl
      · exact h.ids_unique c' hc' d' hd' hreg hid
      · simp [Client.hasRegistered, hid] at hreg
    · simp [Client.hasRegistered] at hreg
  · exact h.of_eq rfl rfl rfl

theorem handleEvent (h : ClientsInv s) (hT : TableInv s) {ch : Choice} {e : Event} {s' : Sched}
    (hch : s.canChoose ch = true) (he : handleEvent ch e s = some s') : ClientsInv s' := by
  have hfresh : ∀ d ∈ s.clients, d.id ≠ ch.newId := by
    simp only [Sched.canChoose, Bool.and_eq_true, List.all_eq_true, bne_iff_ne] at hch
    exact hch.1.2
  obtain rfl | ⟨fd, added, -, -, rfl⟩ | ⟨c, hc, rfl | ⟨-, m, -, -, rfl⟩⟩ := handleEvent_cases he
  · exact h
  · exact h.acceptClient fd added
  · exact h.evict _ _
  · exact h.processMsg hT _ hc hfresh _

theorem timerWake (h : ClientsInv s) {ok : Nat → Bool} {timedOut : Bool} {s' : Sched}
    (hw : timerWake ok timedOut s = some s') : ClientsInv s' := by
  rcases timerWake_cases hw with rfl | rfl | rfl | ⟨r, rest, -, -, -, -, -, rfl | rfl⟩
  · exact h
  all_goals first
    | exact h.of_eq rfl rfl rfl
    | exact ((h.deleteClient r.client).trySchedule ok).of_eq rfl rfl rfl

theorem step (h : ClientsInv s) (hT : TableInv s) {l : Label} {s' : Sched}
    (hs : step l s = some s') : ClientsInv s' := by
  obtain ⟨_, rfl⟩ | ⟨_, _, _, _, -, -, hch, he, rfl⟩ | rfl | ⟨_, _, hw⟩ | ⟨_, rfl⟩ :=
    step_cases hs
  · exact h.of_eq rfl rfl rfl
  · exact (h.handleEvent hT hch he).of_eq rfl rfl rfl
  · exact h.of_eq rfl rfl rfl
  · exact h.timerWake hw
  · exact h.of_eq rfl rfl rfl

end ClientsInv

theorem Reachable.clientsInv {s : Sched} (h : Reachable s) : ClientsInv s := by
  induction h with
  | init => exact .init
  | step l hr hs ih => exact ih.step hr.tableInv hs

/-- **The client-table invariant.** In every reachable state of the scheduler the records have
distinct fds, which are exactly the client fds of the epoll interest set; registered records
have distinct ids, none of them `NVSHARE_UNREGISTERED_ID`; every queued request points at a
registered record of the table; and no fd, so no client, is queued twice. -/
theorem client_table_invariant {s : Sched} (h : Reachable s) :
    (s.clients.map Client.fd).Nodup ∧ s.epoll.map Prod.fst = s.clients.map Client.fd ∧
    ((s.clients.filter Client.hasRegistered).map Client.id).Nodup ∧
    (∀ c ∈ s.clients, c.hasRegistered = true → c.id ≠ unregisteredId) ∧
    (∀ r ∈ s.requests, r.client ∈ s.clients ∧ r.client.hasRegistered = true) ∧
    (s.requests.map fun r ↦ r.client.fd).Nodup := by
  have hT := h.tableInv
  have hC := h.clientsInv
  refine ⟨hT.fds_nodup, by rw [hC.epoll_eq, List.map_map]; rfl, ?_, fun c _ hc ↦ by
    simpa [Client.hasRegistered] using hc, hT.queued, hC.queue_nodup⟩
  refine ((hT.fds_nodup.of_map _).filter _).map_on fun c hc d hd hid ↦ ?_
  exact hC.ids_unique c (List.mem_filter.mp hc).1 d (List.mem_filter.mp hd).1
    (List.mem_filter.mp hc).2 hid

/-- In `queuedState` two clients are registered and the second waits behind the first. -/
theorem client_table_invariant_queued :
    ((queuedState.clients.filter Client.hasRegistered).map Client.id).Nodup ∧
    (queuedState.requests.map fun r ↦ r.client.fd).Nodup ∧
    queuedState.epoll.map Prod.fst = [10, 11] :=
  let h := client_table_invariant (@Reachable.exec _ _ queuedRun .init rfl)
  ⟨h.2.2.1, h.2.2.2.2.2, h.2.1.trans (by decide)⟩

end Nvshare

import Nvshare.System.Step
import Nvshare.Scheduler.Status

/-!
# On/off agreement

The scheduler keeps every registered record told of the current status (`StatusInv`), and a
client's `scheduler_on` is the status of the last SCHED_ON or SCHED_OFF frame it handled
(`ReadInv`). Channels are FIFO, so a client that has read everything written to it agrees with
the scheduler.

`ReadInv` is about the client alone: `client_fn` reads its frames in order, sets
`scheduler_on` from each status frame, and nothing else in `client.c` writes `scheduler_on`.
-/

namespace Nvshare

/-- Frames read from a log that has only grown since are read from the front of the log. -/
theorem take_of_grown {l₁ l₂ : List Message} (hp : l₁.IsPrefix l₂) {n : Nat}
    (hn : n ≤ l₁.length) : l₂.take n = l₁.take n := by
  obtain ⟨t, rfl⟩ := hp
  exact List.take_append_of_le_length hn

theorem inbox_grows {l₁ l₂ : List (Nat × Message)} (hp : l₁.IsPrefix l₂) (h : Nat) :
    (inbox h l₁).IsPrefix (inbox h l₂) := by
  obtain ⟨t, rfl⟩ := hp
  simp

@[simp] theorem setProc_peers_self (S : Sys) (h : Nat) (p : Proc) (out : List Message) :
    (S.setProc h p out).peers h = .client p := by
  simp [Sys.setProc]

theorem setProc_peers_ne (S : Sys) {h h' : Nat} (hne : h' ≠ h) (p : Proc) (out : List Message) :
    (S.setProc h p out).peers h' = S.peers h' := by
  simp [Sys.setProc, hne]

@[simp] theorem setProc_down (S : Sys) (h : Nat) (p : Proc) (out : List Message) :
    (S.setProc h p out).down = S.down := rfl

@[simp] theorem setProc_up_self (S : Sys) (h : Nat) (p : Proc) (out : List Message) :
    (S.setProc h p out).up h = S.up h ++ out := by
  simp [Sys.setProc]

theorem setProc_up_ne (S : Sys) {h h' : Nat} (hne : h' ≠ h) (p : Proc) (out : List Message) :
    (S.setProc h p out).up h' = S.up h' := by
  simp [Sys.setProc, hne]

/-- What `client_fn` has read from its connection. -/
structure ReadInv (S : Sys) : Prop where
  consumed_le : ∀ h p, S.peers h = .client p → p.consumed ≤ (S.down h).length
  registering : ∀ h p, S.peers h = .client p → p.phase = .registering → p.consumed = 0
  told : ∀ h p, S.peers h = .client p → p.phase = .running →
    lastStatus ((S.down h).take p.consumed) = some p.schedulerOn

namespace ReadInv

variable {kind : Nat → Kind} {S : Sys}

theorem init : ReadInv Sys.init :=
  ⟨fun _ _ hp ↦ (by cases hp), fun _ _ hp ↦ (by cases hp), fun _ _ hp ↦ (by cases hp)⟩

/-- Replacing one client's state by one that satisfies the invariant on its own channel. -/
theorem setProc (hS : ReadInv S) {hd : Nat} {p' : Proc} (out : List Message)
    (h₁ : p'.consumed ≤ (S.down hd).length) (h₂ : p'.phase = .registering → p'.consumed = 0)
    (h₃ : p'.phase = .running →
      lastStatus ((S.down hd).take p'.consumed) = some p'.schedulerOn) :
    ReadInv (S.setProc hd p' out) := by
  refine ⟨fun h p hp ↦ ?_, fun h p hp ↦ ?_, fun h p hp ↦ ?_⟩ <;>
  · by_cases hh : h = hd
    · subst hh; simp only [setProc_peers_self, Peer.client.injEq] at hp; subst hp
      first | exact h₁ | exact h₂ | exact h₃
    · rw [setProc_peers_ne S hh] at hp
      first | exact hS.consumed_le h p hp | exact hS.registering h p hp | exact hS.told h p hp

/-- A move that keeps a client's phase, reading position and status keeps the invariant. -/
theorem setProc_same (hS : ReadInv S) {hd : Nat} {p p' : Proc} (hp : S.peers hd = .client p)
    (out : List Message) (hph : p'.phase = p.phase) (hc : p'.consumed = p.consumed)
    (hon : p'.schedulerOn = p.schedulerOn) : ReadInv (S.setProc hd p' out) :=
  hS.setProc out (hc ▸ hS.consumed_le hd p hp) (hph ▸ hc ▸ hS.registering hd p hp)
    (hph ▸ hc ▸ hon ▸ hS.told hd p hp)

theorem schedStep (hS : ReadInv S) {l : Label} {S' : Sys} (h : S.schedStep kind l = some S') :
    ReadInv S' := by
  have hdown : ∀ hd, (S.down hd).IsPrefix (S'.down hd) :=
    inbox_grows (step_sent_grows (schedStep_cases h).1)
  refine ⟨fun hd p hp ↦ ?_, fun hd p hp hph ↦ ?_, fun hd p hp hph ↦ ?_⟩ <;>
    rcases schedStep_peers h hp with hp | ⟨b, rfl⟩
  · exact (hS.consumed_le hd p hp).trans (hdown hd).length_le
  · exact Nat.zero_le _
  · exact hS.registering hd p hp hph
  · rfl
  · rw [take_of_grown (hdown hd) (hS.consumed_le hd p hp)]
    exact hS.told hd p hp hph
  · cases hph

theorem step (hS : ReadInv S) {L : SysLabel} {S' : Sys} (h : Sys.step kind L S = some S') :
    ReadInv S' := by
  rcases Sys.step_cases h with ⟨l, -, hl⟩ | ⟨hd, p, hp, hcase⟩
  · exact hS.schedStep hl
  have hle := hS.consumed_le hd p hp
  rcases hcase with ⟨m, hph, hm, rfl⟩ | ⟨m, hph, hm, rfl⟩ | ⟨t, -, -, rfl⟩ | ⟨t, -, -, rfl⟩ |
      ⟨timedOut, probe, -, rfl⟩ | rfl
  · have h0 := hS.registering hd p hp hph
    have hlt : p.consumed < (S.down hd).length := (List.getElem?_eq_some_iff.mp hm).1
    refine hS.setProc _ (by simpa using hlt) ?_ fun hrun ↦ ?_
    · rcases initialStatus_cases { p with consumed := p.consumed + 1 } m with he | ⟨he, -⟩ <;>
        simp [he]
    · rcases initialStatus_cases { p with consumed := p.consumed + 1 } m with he | ⟨-, hst⟩
      · rw [he] at hrun; cases hrun
      · have hnil : (S.down hd).take p.consumed = [] := by rw [h0]; rfl
        rw [initialStatus_consumed, List.take_succ, hm, hnil]
        simpa using hst
  · have hlt : p.consumed < (S.down hd).length := (List.getElem?_eq_some_iff.mp hm).1
    refine hS.setProc _ (by simpa using hlt) (by simp [hph]) fun _ ↦ ?_
    simp only [handleMsg_consumed, handleMsg_schedulerOn, List.take_succ, hm, Option.toList_some,
      lastStatus_append, lastStatus_singleton, hS.told hd p hp hph]
    cases m.type.status <;> rfl
  · exact hS.setProc_same hp _ (by simp) (by simp) (by simp)
  · exact hS.setProc_same hp _ rfl rfl rfl
  · exact hS.setProc_same hp _ (by simp) (by simp) (by simp)
  · refine hS.setProc _ hle (fun h ↦ by cases h) fun h ↦ by cases h

end ReadInv

theorem SysReachable.readInv {kind : Nat → Kind} {S : Sys} (h : SysReachable kind S) :
    ReadInv S :=
  h.invariant ReadInv.init fun _ _ _ hi hs ↦ hi.step hs

/-- **On/off agreement.** Take a registered record of the table whose peer is a live client. The
last SCHED_ON or SCHED_OFF frame written to it, the answer to its `REGISTER` included, carries the
scheduler's `scheduler_on`; the client's `scheduler_on` is the status of the last such frame it
has handled; and once it has read every frame written to it, the two agree. -/
theorem status_agreement {kind : Nat → Kind} {S : Sys} (hS : SysReachable kind S) {c : Client}
    (hc : c ∈ S.sched.clients) (hreg : c.hasRegistered = true) {p : Proc}
    (hp : S.peers c.handle = .client p) (hlive : p.phase ≠ .exited) :
    lastStatus (S.down c.handle) = some S.sched.schedulerOn ∧
    (∀ b, lastStatus ((S.down c.handle).take p.consumed) = some b → p.schedulerOn = b) ∧
    (p.consumed = (S.down c.handle).length → p.schedulerOn = S.sched.schedulerOn) := by
  have hsched := hS.sched.statusInv c hc hreg
  have hr := hS.readInv
  have hclient : ∀ b, lastStatus ((S.down c.handle).take p.consumed) = some b →
      p.schedulerOn = b := by
    intro b hb
    cases hph : p.phase
    · simp [hr.registering _ _ hp hph] at hb
    · rw [hr.told _ _ hp hph] at hb; exact Option.some.inj hb
    · exact absurd hph hlive
  refine ⟨hsched, hclient, fun hdr ↦ hclient _ ?_⟩
  rw [hdr, List.take_length]
  exact hsched

/-- A client connects, registers and reads the answer. -/
def agreementRun : List SysLabel :=
  [.sched (.poll [.listener]), .sched .lock, .sched (.handle (.accepted 10)), .sched .unlock,
   .sched (.poll [.client 0 true false]), .sched .lock, .sched (.handle (.read registerMsg 1)),
   .sched .unlock, .receive 0]

/-- The state at the end of `agreementRun`. -/
def agreementState : Sys := (Sys.exec (fun _ ↦ .client true) agreementRun Sys.init).getD Sys.init

/-- The client of `agreementState`. -/
def agreementProc : Proc :=
  match agreementState.peers 0 with
  | .client p => p
  | _ => Proc.init true

/-- After reading the answer to its `REGISTER` the client agrees with the scheduler. -/
theorem status_agreement_registered :
    agreementProc.schedulerOn = agreementState.sched.schedulerOn :=
  (status_agreement
    (@SysReachable.exec (fun _ ↦ .client true) _ agreementState agreementRun .init rfl)
    (c := ⟨0, 10, 1⟩) (by decide) (by decide) rfl (by decide)).2.2 (by decide)

end Nvshare

import Nvshare.System.Status
import Nvshare.Scheduler.Record

/-!
# Client ids

`register_client` draws a fresh id and answers the `REGISTER` with it, as sixteen hex digits in
the data of a SCHED_ON or SCHED_OFF frame; `client_fn` reads it back with `sscanf` and from then
on puts it in every frame it writes. Three facts carry this over the composed system:

* the first frame of every channel is such an answer (`AnswerInv`, on the scheduler's side);
* `scanHex` reads `hex16 id` back as `id` (`scanHex_hex16`), so a client that reads its first
  frame goes on into its loop, with the id of its record;
* before that a client has written only `REGISTER`, and afterwards only frames with its id.

On the way, every client of the composed system runs as the client model alone can
(`sysReachable_proc_reachable`), so what `Nvshare.Client.Gate` proves holds of it.
-/

namespace Nvshare

/-! ## Client moves are moves of the client model -/

variable {kind : Nat → Kind}

/-- A client move of the composed system is a move of the client model, on the next frame the
scheduler wrote to it. -/
theorem Sys.step_proc {L : SysLabel} {S S' : Sys} (h : Sys.step kind L S = some S') :
    (∃ l, L = .sched l ∧ S.schedStep kind l = some S') ∨
    ∃ hd p q out l, S.peers hd = .client p ∧ p.step l = some (q, out) ∧
      S' = S.setProc hd q out ∧ ∀ m, l = .receive m → (S.down hd)[p.consumed]? = some m := by
  rcases Sys.step_cases h with hs | ⟨hd, p, hp, hcase⟩
  · exact .inl hs
  refine .inr ?_
  rcases hcase with ⟨m, hph, hm, rfl⟩ | ⟨m, hph, hm, rfl⟩ | ⟨t, hph, ht, rfl⟩ |
      ⟨t, hph, ht, rfl⟩ | ⟨tOut, pr, hph, rfl⟩ | rfl
  iterate 2
    exact ⟨hd, p, _, _, .receive m, hp, by simp [Proc.step, hph], rfl,
      fun _ he ↦ by cases he; exact hm⟩
  · exact ⟨hd, p, _, _, .gate t, hp, by simp [Proc.step, hph, ht], rfl, nofun⟩
  · exact ⟨hd, p, _, _, .call t, hp, by simp [Proc.step, hph, ht], rfl, nofun⟩
  · exact ⟨hd, p, _, _, .releaseEarly tOut pr, hp, by simp [Proc.step, hph], rfl, nofun⟩
  · exact ⟨hd, p, _, _, .exit, hp, rfl, rfl, nofun⟩

/-- Every frame a client writes carries its id; before the initial status it writes nothing, and
only the initial status changes the id. -/
theorem Proc.step_clientId {p q : Proc} {l : ProcLabel} {out : List Message}
    (h : p.step l = some (q, out)) :
    (∀ m ∈ out, m.id = p.clientId) ∧ (p.phase = .registering → out = []) ∧
      (p.phase ≠ .registering → q.clientId = p.clientId) := by
  rcases Proc.step_cases h with ⟨m, -, hph, rfl, rfl⟩ | ⟨m, -, hph, rfl, rfl⟩ |
      ⟨t, -, hph, -, rfl, rfl⟩ | ⟨t, -, hph, rfl, rfl⟩ | ⟨tOut, pr, -, hph, rfl, rfl⟩ |
      ⟨-, rfl, rfl⟩
  · exact ⟨nofun, fun _ ↦ rfl, fun h ↦ absurd hph h⟩
  · refine ⟨fun m' hm ↦ ?_, by simp [hph], by simp⟩
    rw [handleMsg_frames] at hm
    split at hm <;> simp_all
  · refine ⟨fun m' hm ↦ ?_, by simp [hph], by simp⟩
    rw [continueWithLock_frames] at hm
    split at hm <;> simp_all
  · exact ⟨nofun, fun _ ↦ rfl, fun _ ↦ rfl⟩
  · refine ⟨fun m' hm ↦ ?_, by simp [hph], by simp⟩
    rcases releaseEarlyFn_cases p tOut pr with he | he | he | ⟨-, -, he⟩ <;> rw [he] at hm <;>
      simp_all
  · exact ⟨nofun, fun _ ↦ rfl, fun _ ↦ rfl⟩

/-- Phases only move forward: out of `registering`, and into `exited`. -/
theorem Proc.step_phase {p q : Proc} {l : ProcLabel} {out : List Message}
    (h : p.step l = some (q, out)) :
    q.phase = p.phase ∨ q.phase = .exited ∨ p.phase = .registering := by
  rcases Proc.step_cases h with ⟨m, -, hph, -⟩ | ⟨m, -, -, rfl, -⟩ | ⟨t, -, -, -, rfl, -⟩ |
      ⟨t, -, -, rfl, -⟩ | ⟨tOut, pr, -, -, rfl, -⟩ | ⟨-, rfl, -⟩
  · exact .inr (.inr hph)
  all_goals simp

/-- A connection accepted for a client starts with a fresh process that has written `REGISTER`. -/
theorem Kind.start_fresh {k : Kind} {p : Proc} (h : k.start.1 = .client p) :
    ∃ b, p = Proc.init b ∧ k.start.2 = [registerMsg] := by
  cases k with
  | client b => exact ⟨b, (Peer.client.inj h).symm, rfl⟩
  | cli cmd => cases h

/-- The frame a client reads for its initial status is the first one written to it, the answer
to its `REGISTER`. -/
theorem SysReachable.first_frame {S : Sys} (hS : SysReachable kind S) {h : Nat} {p : Proc}
    (hp : S.peers h = .client p) (hph : p.phase = .registering) {m : Message}
    (hm : (S.down h)[p.consumed]? = some m) :
    ∃ b id, m = ⟨statusType b, 7331, hex16 id⟩ ∧ ∃ rest, S.down h = m :: rest := by
  rw [hS.readInv.registering h p hp hph] at hm
  rcases hS.sched.answerInv.first h with he | ⟨id, b, rest, he⟩ <;>
    simp only [Sys.down, he, List.getElem?_nil, List.getElem?_cons_zero, Option.some.injEq,
      reduceCtorEq] at hm ⊢
  subst hm
  exact ⟨b, id, rfl, rest, rfl⟩

/-- What the clients of the composed system have written, and what they have read first. -/
structure IdInv (S : Sys) : Prop where
  /-- A client that has not read its initial status has written only `REGISTER`. -/
  registering : ∀ h p, S.peers h = .client p → p.phase = .registering →
    ∀ m ∈ S.up h, m = registerMsg
  /-- Every other frame on its way from a client carries the client's id. -/
  carries : ∀ h p, S.peers h = .client p → ∀ m ∈ S.up h, m = registerMsg ∨ m.id = p.clientId
  /-- A client in its loop has read the answer to its `REGISTER`, which carried its id. -/
  answered : ∀ h p, S.peers h = .client p → p.phase = .running →
    ∃ b rest, S.down h = ⟨statusType b, 7331, hex16 p.clientId⟩ :: rest

namespace IdInv

variable {S : Sys}

theorem init : IdInv Sys.init :=
  ⟨fun _ _ hp ↦ (by cases hp), fun _ _ hp ↦ (by cases hp), fun _ _ hp ↦ (by cases hp)⟩

/-- Replacing one client's state by one that satisfies the invariant on its own channels. -/
theorem setProc (hI : IdInv S) {hd : Nat} {q : Proc} (out : List Message)
    (h₁ : q.phase = .registering → ∀ m ∈ S.up hd ++ out, m = registerMsg)
    (h₂ : ∀ m ∈ S.up hd ++ out, m = registerMsg ∨ m.id = q.clientId)
    (h₃ : q.phase = .running →
      ∃ b rest, S.down hd = ⟨statusType b, 7331, hex16 q.clientId⟩ :: rest) :
    IdInv (S.setProc hd q out) := by
  refine ⟨fun h p hp ↦ ?_, fun h p hp ↦ ?_, fun h p hp ↦ ?_⟩ <;>
  · by_cases hh : h = hd
    · subst hh
      simp only [setProc_peers_self, Peer.client.injEq] at hp
      subst hp
      simpa only [setProc_up_self, setProc_down]
    · rw [setProc_peers_ne S hh] at hp
      simp only [setProc_up_ne S hh, setProc_down]
      first | exact hI.registering h p hp | exact hI.carries h p hp | exact hI.answered h p hp

theorem schedStep (hI : IdInv S) {l : Label} {S' : Sys} (h : S.schedStep kind l = some S') :
    IdInv S' := by
  have hdown : ∀ hd, (S.down hd).IsPrefix (S'.down hd) :=
    inbox_grows (step_sent_grows (schedStep_cases h).1)
  have hat : ∀ hd, (S'.peers hd = S.peers hd ∧ ∀ m ∈ S'.up hd, m ∈ S.up hd) ∨
      (S'.peers hd = (kind hd).start.1 ∧ S'.up hd = (kind hd).start.2) := fun hd ↦ by
    rcases schedStep_at h hd with ⟨-, hpe, ⟨m, -, hu⟩ | ⟨-, hu⟩⟩ | ⟨-, -, hpe, hu⟩
    · exact .inl ⟨hpe, fun m' hm' ↦ by simp [hu, hm']⟩
    · exact .inl ⟨hpe, fun m' hm' ↦ hu ▸ hm'⟩
    · exact .inr ⟨hpe, hu⟩
  refine ⟨fun hd p hp hph m hm ↦ ?_, fun hd p hp m hm ↦ ?_, fun hd p hp hph ↦ ?_⟩ <;>
    rcases hat hd with ⟨hpe, hsub⟩ | ⟨hpe, hup⟩
  · exact hI.registering hd p (hpe ▸ hp) hph m (hsub m hm)
  · obtain ⟨-, -, hu⟩ := Kind.start_fresh (hpe ▸ hp)
    simpa [hup, hu] using hm
  · exact hI.carries hd p (hpe ▸ hp) m (hsub m hm)
  · obtain ⟨-, -, hu⟩ := Kind.start_fresh (hpe ▸ hp)
    exact .inl (by simpa [hup, hu] using hm)
  · obtain ⟨b, rest, he⟩ := hI.answered hd p (hpe ▸ hp) hph
    obtain ⟨t, ht⟩ := hdown hd
    exact ⟨b, rest ++ t, by rw [← ht, he, List.cons_append]⟩
  · obtain ⟨b, rfl, -⟩ := Kind.start_fresh (hpe ▸ hp)
    cases hph

theorem step (hI : IdInv S) (hS : SysReachable kind S) {L : SysLabel} {S' : Sys}
    (h : Sys.step kind L S = some S') : IdInv S' := by
  rcases Sys.step_proc h with ⟨l, -, hl⟩ | ⟨hd, p, q, out, l, hp, hs, rfl, hread⟩
  · exact hI.schedStep hl
  obtain ⟨hid, hreg, hsame⟩ := Proc.step_clientId hs
  by_cases hph : p.phase = .registering
  · rw [hreg hph]
    have hup : ∀ m ∈ S.up hd ++ [], m = registerMsg := by simpa using hI.registering hd p hp hph
    refine hI.setProc [] (fun _ ↦ hup) (fun m hm ↦ .inl (hup m hm)) fun hrun ↦ ?_
    rcases Proc.step_cases hs with ⟨m, rfl, -, rfl, -⟩ | ⟨m, -, h', -⟩ | ⟨t, -, h', -⟩ |
        ⟨t, -, h', -⟩ | ⟨tOut, pr, -, h', -⟩ | ⟨-, rfl, -⟩
    · obtain ⟨b, id, rfl, rest, hdown⟩ := hS.first_frame hp hph (hread _ rfl)
      exact ⟨b, rest, by rw [initialStatus_answer, hdown]⟩
    all_goals first | cases hph.symm.trans h' | cases hrun
  · have hq := hsame hph
    refine hI.setProc out (fun hreg' ↦ ?_) (fun m hm ↦ ?_) fun hrun ↦ ?_
    · rcases Proc.step_phase hs with he | he | he
      exacts [absurd (he ▸ hreg') hph, absurd (hreg'.symm.trans he) nofun, absurd he hph]
    · rw [hq]
      rcases List.mem_append.mp hm with hm | hm
      exacts [hI.carries hd p hp m hm, .inr (hid m hm)]
    · rw [hq]
      refine hI.answered hd p hp ?_
      rcases Proc.step_phase hs with he | he | he
      exacts [he ▸ hrun, absurd (hrun.symm.trans he) nofun, absurd he hph]

end IdInv

theorem SysReachable.idInv {S : Sys} (h : SysReachable kind S) : IdInv S := by
  induction h with
  | init => exact IdInv.init
  | step L hr hst ih => exact ih.step hr hst

/-! ## The round trip -/

/-- A client in its loop has the id of its record, if the scheduler still has one. -/
theorem SysReachable.record_id {S : Sys} (hS : SysReachable kind S) {h : Nat} {p : Proc}
    (hp : S.peers h = .client p) (hrun : p.phase = .running) {c : Client}
    (hc : c ∈ S.sched.clients) (hch : c.handle = h) : c.id = p.clientId := by
  have hA := hS.sched.answerInv
  obtain ⟨b, rest, hd⟩ := hS.idInv.answered h p hp hrun
  have hreg : c.hasRegistered = true := by
    cases hr : c.hasRegistered
    · have h0 := hA.unregistered c hc hr
      rw [hch] at h0
      simp [Sys.down, h0] at hd
    · rfl
  obtain ⟨b', rest', hc'⟩ := hA.answered c hc hreg
  rw [hch] at hc'
  change S.down h = _ at hc'
  rw [hd, List.cons.injEq, Message.mk.injEq] at hc'
  exact hex16_inj hc'.1.2.2.symm

/-- **Client-id round trip.** `register_client` writes an id as sixteen lowercase hex digits
whose value is the id, and `sscanf` reads them back as the id. In the composed system, a client
reading its initial status goes on into its loop with the id that frame carries; the first frame
a client in its loop was sent is the answer with its id, which is also the id of its record; and
every REQ_LOCK and LOCK_RELEASED on its way from a client carries its id. -/
theorem client_id_round_trip :
    (∀ id : UInt64, (hex16 id).length = 16 ∧ (∀ c ∈ hex16 id, c ∈ lowerHexDigits) ∧
      digitsValue 16 (hex16 id) = id.toNat ∧ scanHex (hex16 id) = some id) ∧
    ∀ (kind : Nat → Kind) (S : Sys), SysReachable kind S → ∀ h p, S.peers h = .client p →
      (p.phase = .registering → ∀ m, (S.down h)[p.consumed]? = some m →
        ({ p with consumed := p.consumed + 1 }.initialStatus m).phase = .running ∧
        ∃ b, m = ⟨statusType b, 7331,
          hex16 ({ p with consumed := p.consumed + 1 }.initialStatus m).clientId⟩) ∧
      (p.phase = .running →
        (∃ b rest, S.down h = ⟨statusType b, 7331, hex16 p.clientId⟩ :: rest) ∧
        ∀ c ∈ S.sched.clients, c.handle = h → c.id = p.clientId) ∧
      ∀ m ∈ S.up h, (m.type = .reqLock ∨ m.type = .lockReleased) → m.id = p.clientId := by
  refine ⟨fun id ↦ ⟨length_hex16 id, fun _ ↦ mem_hex16, digitsValue_hex16 id, scanHex_hex16 id⟩,
    fun kind S hS h p hp ↦ ⟨fun hph m hm ↦ ?_, fun hrun ↦ ⟨hS.idInv.answered h p hp hrun,
      fun c hc hch ↦ hS.record_id hp hrun hc hch⟩, fun m hm ht ↦ ?_⟩⟩
  · obtain ⟨b, id, rfl, -⟩ := hS.first_frame hp hph hm
    rw [initialStatus_answer]
    exact ⟨rfl, b, rfl⟩
  · rcases hS.idInv.carries h p hp m hm with rfl | he
    · simp [registerMsg] at ht
    · exact he

/-- After a client has registered and read the answer, the first frame written to it carries
its id. -/
theorem client_id_round_trip_agreement :
    ∃ b rest, agreementState.down 0 = ⟨statusType b, 7331, hex16 agreementProc.clientId⟩ :: rest :=
  ((client_id_round_trip.2 _ _ (@SysReachable.exec (fun _ ↦ .client true) _ agreementState
    agreementRun .init rfl) 0 agreementProc rfl).2.1 (by decide)).1

end Nvshare

import ParcaAgent.Debuginfo.Quiescence

/-!
# What a nil from `Upload` rests on

`Upload(dbg)` returns what its goroutine sends on `errCh`: the error of an
`Acquire` given up on, or the result `uploadSingleflight.Do` handed it, the result
of the call it ran or joined. That call is one of `dbg.BuildID`: `Do` found or put
it under that key, and a group never changes a call's key. So **a nil from
`Upload(dbg)` rests on an execution of `upload` on `dbg.BuildID` that succeeded**
(`ParcaAgent.Debuginfo.upload_nil_justified`), for the reasons
`ParcaAgent.Debuginfo.ExecSucceeded` lists, which are those a nil from
`EnsureUploaded` rests on when it uploads.

Which move logs a nil is said once, in `ParcaAgent.Debuginfo.Move.received_ok`:
the move of a thread in, or waiting for, the call the nil comes from.
-/

namespace ParcaAgent

namespace Debuginfo

/-! ### The log of a step -/

/-- `Extract`'s return logs no result of `Upload`. -/
@[simp] theorem State.received_extractReturn (s : State) (t : Nat) (who : Caller)
    (r : Outcome ObjectFile) {t' : Nat} {dbg : ObjectFile} {c : Option Nat} {r' : Outcome Unit} :
    Event.received t' dbg c r' ∈ (s.extractReturn t who r).log ↔
      Event.received t' dbg c r' ∈ s.log := by
  cases who <;> cases r <;> simp [State.extractReturn]

/-- What `EnsureUploaded` returns is no result of `Upload`. -/
@[simp] theorem Caller.received_not_mem_returned (who : Caller) (t : Nat) (r : Outcome Unit)
    {t' : Nat} {dbg : ObjectFile} {c : Option Nat} {r' : Outcome Unit} :
    Event.received t' dbg c r' ∉ who.returned t r := by
  cases who <;> simp [Caller.returned]

/-- **Which move logs a nil from `Upload`**: the move of a thread in, or waiting for,
the call of the upload group the nil comes from, on the same object file. -/
theorem Move.received_ok {cfg : Config} {s s' : State} {t : Nat} {pc : Pc}
    (hm : Move cfg s t pc s') {t' : Nat} {dbg : ObjectFile} {c : Option Nat}
    (he : Event.received t' dbg c (.ok ()) ∈ s'.log) :
    Event.received t' dbg c (.ok ()) ∈ s.log ∨ ∃ c', c = some c' ∧ pc.uploadCall = some (dbg, c') := by
  cases hm with
  | joinedUploaded | recheckHit | recheckNo | alreadyExists | marked =>
    simp only [State.uploadComplete, State.uploadReturn, State.goto, State.emit,
      State.putShouldInitiate, List.append_assoc, List.singleton_append, ↓reduceIte,
      List.mem_append, List.mem_cons, reduceCtorEq, Event.received.injEq, and_true,
      Caller.received_not_mem_returned, or_false, false_or] at he
    rcases he with he | ⟨-, rfl, rfl⟩
    · exact .inl he
    · exact .inr ⟨_, rfl, rfl⟩
  | _ => exact .inl (by simpa using he)

variable (cfg : Config)

/-! ### Every nil comes from a call of its build ID -/

/-- Every nil received by `Upload(dbg)` came from a call of the upload group of
`dbg.BuildID`. -/
def Receipts (s : State) : Prop :=
  ∀ (t : Nat) (dbg : ObjectFile) (c : Option Nat), Event.received t dbg c (.ok ()) ∈ s.log →
    ∃ c', c = some c' ∧ (s.uploadGroup.calls[c']?).map (·.key) = some dbg.buildID

theorem receipts_init (files : List ObjectFile) : Receipts (init files) :=
  fun _ _ _ h => (List.not_mem_nil _ h).elim

theorem Receipts.step {s s' : State} {a : Action} (hi : Receipts s) (hf : FlightInv s)
    (h : step cfg s a = some s') : Receipts s' := by
  have hext := (step_moves cfg h).1.extends hf.wf
  intro t dbg c hm
  have old : Event.received t dbg c (.ok ()) ∈ s.log →
      ∃ c', c = some c' ∧ (s'.uploadGroup.calls[c']?).map (·.key) = some dbg.buildID :=
    fun hm => let ⟨c', hc, hk⟩ := hi t dbg c hm; ⟨c', hc, hext c' _ hk⟩
  cases a with
  | thread t₀ a =>
    obtain ⟨pc, hpc, h⟩ := Option.bind_eq_some.mp h
    rcases (threadStep_move cfg h).received_ok hm with hm | ⟨c', rfl, hcall⟩
    · exact old hm
    · exact ⟨c', rfl, hext c' _ (hf.keys pc (List.getElem?_mem hpc) dbg c' hcall)⟩
  | spawn i =>
    obtain ⟨file, -, rfl⟩ := Option.map_eq_some'.mp h
    exact old hm
  | evict b =>
    cases h
    exact old (by simpa [State.emit] using hm)
  | evictHash k =>
    cases h
    exact old hm

theorem Reachable.receipts {files : List ObjectFile} {s : State} (hs : Reachable cfg files s) :
    Receipts s := by
  induction hs with
  | init => exact receipts_init files
  | step hs' h ih => exact ih.step cfg (hs'.flightInv cfg) h

/-- **What a nil from `Upload` rests on.** In every reachable state, an
`Upload(dbg)` that returned nil received it from a call `c` of the upload group
whose execution of `upload` succeeded on `dbg.BuildID`: its re-check found the
build ID cached or was answered false, `InitiateUpload` failed with
`AlreadyExists`, or the body was sent and `MarkUploadFinished` accepted the upload
ID of that execution's own `InitiateUpload`. An `Upload` that took no token never
returns nil. -/
theorem upload_nil_justified (files : List ObjectFile) (s : State) (hs : Reachable cfg files s)
    (t : Nat) (dbg : ObjectFile) (c : Option Nat) (h : Event.received t dbg c (.ok ()) ∈ s.log) :
    ∃ c', c = some c' ∧ ExecSucceeded s.log c' dbg.buildID := by
  obtain ⟨c', rfl, hk⟩ := hs.receipts cfg t dbg c h
  obtain ⟨call, hc, hr⟩ :=
    Option.bind_eq_some.mp ((hs.agreeInv cfg).delivered c' _ (mem_deliveries h))
  have hkey : call.key = dbg.buildID := by simpa [hc] using hk
  exact ⟨c', rfl, hkey ▸ (hs.outcomeInv cfg).results c' call hc hr⟩

theorem upload_nil_justified_uploadAnsweredNo :
    ∃ s, Reachable sampleConfig [probeFile] s ∧
      Event.received 0 probeFile (some 0) (.ok ()) ∈ s.log ∧
      ∃ c', some 0 = some c' ∧ ExecSucceeded s.log c' probeFile.buildID := by
  obtain ⟨s, hs, h⟩ := reach_of_run sampleConfig [probeFile] uploadAnsweredNo
    (p := fun s => decide (Event.received 0 probeFile (some 0) (.ok ()) ∈ s.log)) (by decide)
  have he := of_decide_eq_true h
  exact ⟨s, hs, he, upload_nil_justified sampleConfig [probeFile] s hs 0 probeFile (some 0) he⟩

end Debuginfo

end ParcaAgent

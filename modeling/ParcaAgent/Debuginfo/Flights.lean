import ParcaAgent.Debuginfo.Tokens

/-!
# The single-flight groups

`uploadSingleflight.Do(buildID, …)` hands every caller the result of the call of
`upload` in flight under that build ID, and `extractSingleflight` does the same for
`extract`. What the upload group keeps over every run
(`ParcaAgent.Debuginfo.FlightInv`): a call stored under a key is a call of that
key, and the call a thread runs or waits for is one of the build ID of its debug
file. So the result an `Upload(dbg)` receives is that of an upload of
`dbg.BuildID`.

What the groups do not keep is two executions of one build ID apart
(`ParcaAgent.Debuginfo.singleflight_forget_overlaps`). A call that fails is removed
from the map when it completes; its callers then `Forget` the build ID, which
removes whatever call is stored under it by then. If a new caller has installed a
call in between, that call is removed while it runs, and the next caller installs
a third one beside it.
-/

namespace ParcaAgent

namespace Debuginfo

/-! ### The keys of a group -/

section Keys

variable {α : Type}

/-- Setting a position to a value with the same image keeps every image. -/
theorem map_getElem?_set {β : Type} (f : α → β) {l : List α} {i : Nat} {a b : α}
    (hi : l[i]? = some b) (hf : f a = f b) (j : Nat) :
    ((l.set i a)[j]?).map f = (l[j]?).map f := by
  rw [List.getElem?_set]
  split
  · subst_vars
    simp [(List.getElem?_eq_some_iff.mp hi).1, hi, hf]
  · rfl

/-- Every call stored under a key is a call of that key. -/
def Group.Wf (g : Group α) : Prop :=
  ∀ (k : String) (c : Nat), g.stored k = some c → (g.calls[c]?).map (·.key) = some k

/-- The calls of `g` keep their keys in `g'`. -/
def Group.Extends (g g' : Group α) : Prop :=
  ∀ (c : Nat) (k : String), (g.calls[c]?).map (·.key) = some k → (g'.calls[c]?).map (·.key) = some k

theorem Group.Extends.refl (g : Group α) : g.Extends g := fun _ _ h => h

theorem Group.extends_complete (g : Group α) (c : Nat) (r : Outcome α) :
    g.Extends (g.complete c r) := by
  intro c' k h
  unfold Group.complete
  split
  · exact h
  · next call hc => exact (map_getElem?_set _ (a := { call with result := some r }) hc rfl c').trans h

/-- The call `Do` joined or installed. -/
def Entry.call : Entry → Nat
  | .join c | .install c => c

/-- `Do` keeps the calls' keys and the group's, and the call it joins or installs
is one of its key. -/
theorem Group.Wf.enter {g : Group α} (hg : g.Wf) (k : String) :
    g.Extends (g.enter k).2 ∧ (g.enter k).2.Wf ∧
      (((g.enter k).2.calls[(g.enter k).1.call]?).map (·.key)) = some k := by
  unfold Group.enter
  split
  · next c call hs hc =>
    have hc : g.calls[c]? = some call := by simpa [hs] using hc
    have hset := map_getElem?_set (fun x : Call α => x.key) hc (a := { call with dups := call.dups + 1 }) rfl
    exact ⟨fun c' k' h => (hset c').trans h, fun k' c' h => (hset c').trans (hg k' c' h),
      (hset c).trans (hg k c hs)⟩
  · have happ : ∀ (c' : Nat) (k' : String), (g.calls[c']?).map (·.key) = some k' →
        ((g.calls ++ [(⟨k, 0, none⟩ : Call α)])[c']?).map (·.key) = some k' := fun c' k' h => by
      obtain ⟨call, hc, -⟩ := Option.map_eq_some'.mp h
      rwa [List.getElem?_append_left (List.getElem?_eq_some_iff.mp hc).1]
    refine ⟨happ, fun k' c' h => ?_, by simp [Entry.call]⟩
    simp only [Function.update_apply] at h
    split at h
    · cases h
      simp_all
    · exact happ c' k' (hg k' c' h)

theorem Group.Wf.complete {g : Group α} (hg : g.Wf) (c : Nat) (r : Outcome α) :
    (g.complete c r).Wf := by
  intro k c' h
  unfold Group.complete at h ⊢
  rcases hc : g.calls[c]? with _ | call
  · simp only [hc] at h
    exact hg k c' h
  · simp only [hc] at h ⊢
    refine (map_getElem?_set _ (a := { call with result := some r }) hc rfl c').trans (hg k c' ?_)
    split at h
    · rw [Function.update_apply] at h
      split at h
      · cases h
      · exact h
    · exact h

theorem Group.Wf.forget {g : Group α} (hg : g.Wf) (k : String) : (g.forget k).Wf := by
  intro k' c h
  simp only [Group.forget, Function.update_apply] at h
  split at h
  · cases h
  · exact hg k' c h

end Keys

/-! ### The calls threads are in -/

/-- The call of the upload group each thread runs or waits for is one of the build
ID of its debug file. -/
def CallKeys (ts : List Pc) (g : Group Unit) : Prop :=
  ∀ pc ∈ ts, ∀ dbg c, pc.uploadCall = some (dbg, c) → (g.calls[c]?).map (·.key) = some dbg.buildID

theorem CallKeys.set {ts : List Pc} {g g' : Group Unit} (h : CallKeys ts g) (hg : g.Extends g')
    (t : Nat) {pc' : Pc}
    (hpc : ∀ dbg c, pc'.uploadCall = some (dbg, c) → (g'.calls[c]?).map (·.key) = some dbg.buildID) :
    CallKeys (ts.set t pc') g' := by
  intro pc hmem dbg c hc
  rcases List.mem_or_eq_of_mem_set hmem with hmem | rfl
  · exact hg c _ (h pc hmem dbg c hc)
  · exact hpc dbg c hc

theorem CallKeys.append {ts : List Pc} {g : Group Unit} (h : CallKeys ts g) {pc : Pc}
    (hpc : pc.uploadCall = none) : CallKeys (ts ++ [pc]) g := by
  intro pc' hmem dbg c hc
  rcases List.mem_append.mp hmem with hmem | hmem
  · exact h pc' hmem dbg c hc
  · rw [List.mem_singleton.mp hmem, hpc] at hc
    cases hc

/-- `Extract` returns to a point that is in no call of the upload group. -/
theorem State.extractReturn_threads (s : State) (t : Nat) (who : Caller) (r : Outcome ObjectFile) :
    ∃ pc', (s.extractReturn t who r).threads = s.threads.set t pc' ∧ pc'.uploadCall = none := by
  rcases s.extractReturn_cases t who r with ⟨-, h⟩ | ⟨src, dbg, -, h⟩ | ⟨src, e, -, h⟩
  all_goals exact ⟨_, h, rfl⟩

/-- **The keys of the upload group.** -/
structure FlightInv (s : State) : Prop where
  wf : s.uploadGroup.Wf
  keys : CallKeys s.threads s.uploadGroup

theorem flightInv_init (files : List ObjectFile) : FlightInv (init files) :=
  ⟨fun _ _ h => (Option.noConfusion h : False).elim, fun _ h => (List.not_mem_nil _ h).elim⟩

theorem FlightInv.extractReturn {s : State} (hi : FlightInv s) (t : Nat) (who : Caller)
    (r : Outcome ObjectFile) : FlightInv (s.extractReturn t who r) := by
  obtain ⟨pc', hth, hpc'⟩ := s.extractReturn_threads t who r
  refine ⟨by simpa using hi.wf, ?_⟩
  rw [hth, State.extractReturn_uploadGroup]
  exact hi.keys.set (.refl _) t (by simp [hpc'])

/-- The extract group is not read. -/
theorem FlightInv.withExtractGroup {s : State} (hi : FlightInv s) (g : Group ObjectFile) :
    FlightInv { s with extractGroup := g } :=
  ⟨hi.wf, hi.keys⟩

/-- A thread's step, described by the group it leaves and the call the thread is in
after it. -/
theorem FlightInv.move {s X : State} (hi : FlightInv s) {t : Nat} {pc' : Pc}
    (hwf : X.uploadGroup.Wf) (hext : s.uploadGroup.Extends X.uploadGroup)
    (hth : X.threads = s.threads.set t pc')
    (hpc' : ∀ dbg c, pc'.uploadCall = some (dbg, c) →
      (X.uploadGroup.calls[c]?).map (·.key) = some dbg.buildID) : FlightInv X :=
  ⟨hwf, by rw [hth]; exact hi.keys.set hext t hpc'⟩

variable (cfg : Config)

theorem FlightInv.thread {s s' : State} {t : Nat} {pc : Pc} (hi : FlightInv s)
    (hpc : s.threads[t]? = some pc) (hm : Move cfg s t pc s') : FlightInv s' := by
  have hold := hi.keys pc (List.getElem?_mem hpc)
  cases hm with
  | @uploadJoin who dbg c g he | @uploadInstall who dbg c g he =>
    obtain ⟨hext, hw, hkey⟩ := hi.wf.enter dbg.buildID
    rw [he] at hext hw hkey
    exact hi.move hw hext rfl fun d c' e => by
      simp only [Pc.uploadCall, Pc.execution, Option.some.injEq, Prod.mk.injEq] at e
      obtain ⟨rfl, rfl⟩ := e
      exact hkey
  | recheckMiss | recheckGo | hashHit | hashMiss | hashed | initiated | transferred =>
    exact hi.move hi.wf (.refl _) rfl hold
  | elfFailed | elfKept | joinedExtracted => exact hi.extractReturn t _ _
  | extracted | extractFailed | extractForgot =>
    exact (hi.withExtractGroup _).extractReturn t _ _
  | recheckHit | recheckNo | alreadyExists | marked | hashReaderFailed | hashFailed | initiateFailed
    | transferReaderFailed | transferRefused | transferFailed | markFailed =>
    exact hi.move (hi.wf.complete _ _) (Group.extends_complete _ _ _) rfl
      fun _ _ e => Option.noConfusion e
  | uploadForgot => exact hi.move (hi.wf.forget _) (.refl _) rfl fun _ _ e => Option.noConfusion e
  | _ => exact hi.move hi.wf (.refl _) rfl fun _ _ e => Option.noConfusion e

theorem FlightInv.step {s s' : State} {a : Action} (hi : FlightInv s)
    (h : step cfg s a = some s') : FlightInv s' := by
  cases a with
  | thread t a =>
    obtain ⟨pc, hpc, h⟩ := Option.bind_eq_some.mp h
    exact hi.thread cfg hpc (threadStep_move cfg h)
  | spawn i =>
    obtain ⟨file, -, rfl⟩ := Option.map_eq_some'.mp h
    exact ⟨hi.wf, hi.keys.append (by cases i <;> rfl)⟩
  | evict b => cases h; exact ⟨hi.wf, hi.keys⟩
  | evictHash k => cases h; exact ⟨hi.wf, hi.keys⟩

theorem Reachable.flightInv {files : List ObjectFile} {s : State} (hs : Reachable cfg files s) :
    FlightInv s := by
  induction hs with
  | init => exact flightInv_init files
  | step _ h ih => exact ih.step cfg h

/-! ### Two flights of one build ID -/

/-- The executions of `extract` in progress for build ID `b`. -/
def State.extracting (s : State) (b : String) : Nat :=
  s.threads.countP fun pc => (pc.extraction.map (·.1.buildID)) == some b

/-- The executions of `upload` in progress for build ID `b`. -/
def State.uploading (s : State) (b : String) : Nat :=
  s.threads.countP fun pc => (pc.execution.map (·.1.buildID)) == some b

/-- Two callers of `Extract` share a call whose extraction fails. A third caller
installs a new call, the second caller's `Forget` removes it, and a fourth caller
installs one more. -/
def forgetDuringExtraction : List Action :=
  [.spawn (.extract 0), .thread 0 (.elf (.ok ())), .spawn (.extract 0), .thread 1 (.elf (.ok ())),
    .thread 0 (.extracted (.error "boom")), .thread 1 .none, .spawn (.extract 0),
    .thread 2 (.elf (.ok ())), .thread 1 .none, .spawn (.extract 0), .thread 3 (.elf (.ok ()))]

/-- An upload fails at `InitiateUpload`. Before its goroutine `Forget`s, a second
`Upload` installs a new call; the `Forget` removes it, and a third `Upload`
installs one more. -/
def forgetDuringUpload : List Action :=
  [.spawn (.upload 0), .thread 0 (.acquire (.ok ())), .thread 0 .none, .thread 0 .none,
    .thread 0 (.rpc (.ok true)), .thread 0 .none, .thread 0 (.hashed (.ok ()) (.ok ())),
    .thread 0 (.initiate (.error "unavailable")), .spawn (.upload 0), .thread 1 (.acquire (.ok ())),
    .thread 1 .none, .thread 0 .none, .spawn (.upload 0), .thread 2 (.acquire (.ok ())),
    .thread 2 .none]

/-- **Two flights of one build ID.** The `Forget` after a failed call removes the
call stored under the build ID by then, even one installed after the failure, and
the next caller installs another: two executions of `extract`, and two of
`upload`, then run at once for one build ID. -/
theorem singleflight_forget_overlaps :
    (∃ s, Reachable sampleConfig [probeFile] s ∧ 2 ≤ s.extracting probeFile.buildID) ∧
      ∃ s, Reachable sampleConfig [probeFile] s ∧ 2 ≤ s.uploading probeFile.buildID := by
  refine ⟨?_, ?_⟩
  · obtain ⟨s, hs, h⟩ := reach_of_run sampleConfig [probeFile] forgetDuringExtraction
      (p := fun s => decide (2 ≤ s.extracting probeFile.buildID))
      (by decide)
    exact ⟨s, hs, of_decide_eq_true h⟩
  · obtain ⟨s, hs, h⟩ := reach_of_run sampleConfig [probeFile] forgetDuringUpload
      (p := fun s => decide (2 ≤ s.uploading probeFile.buildID))
      (by decide)
    exact ⟨s, hs, of_decide_eq_true h⟩

end Debuginfo

end ParcaAgent

import ParcaAgent.Debuginfo.HashCache

/-!
# Nobody waits on a call that nobody runs

A caller of `uploadSingleflight.Do` or `extractSingleflight.Do` that finds a call in
flight under its key joins it and waits for its result (`uploadWait`,
`extractWait`). The wait ends only when the thread that installed the call has
run it to the end and recorded its result. So a joined call must always have
either its result or a thread running it.

It does (`ParcaAgent.Debuginfo.Reachable.upload_answered_or_run`,
`ParcaAgent.Debuginfo.Reachable.extract_answered_or_run`): over every run, every
call of either group that has no result is run by a thread
(`ParcaAgent.Debuginfo.Pending`), because the only way out of an execution of
`upload` or `extract` is through the group's `doCall`, which records the result.
`Forget` takes a call out of the group's map but not out of its list of calls,
and leaves the waiters' call untouched. The manager's progress rests on this
(`ParcaAgent.Debuginfo.manager_deadlock_free`).
-/

namespace ParcaAgent

namespace Debuginfo

/-! ### The calls a thread runs -/

/-- The call of the upload group a thread runs. -/
def Pc.runningUpload (pc : Pc) : Option Nat := pc.execution.map Prod.snd

/-- The call of the extract group a thread runs. -/
def Pc.runningExtract (pc : Pc) : Option Nat := pc.extraction.map Prod.snd

/-- Every call of a group that has no result yet is run by a thread: one whose
point `runs` maps to that call. -/
def Pending {α : Type} (runs : Pc → Option Nat) (ts : List Pc) (calls : List (Call α)) : Prop :=
  ∀ (c : Nat) (call : Call α), calls[c]? = some call → call.result = none →
    ∃ (t : Nat) (pc : Pc), ts[t]? = some pc ∧ runs pc = some c

section Pending

variable {α : Type} {runs : Pc → Option Nat} {ts : List Pc} {calls calls' : List (Call α)}
  {t : Nat} {pc pc' : Pc}

/-- **A thread's move.** Thread `t` moves from `pc` to `pc'` while the calls become
`calls'`: each call of `calls'` with no result is one `t` runs after the move, or
one that had no result before and that `t` did not run. -/
theorem Pending.move (h : Pending runs ts calls) (hpc : ts[t]? = some pc)
    (hc : ∀ (c : Nat) (call' : Call α), calls'[c]? = some call' → call'.result = none →
      runs pc' = some c ∨ runs pc ≠ some c ∧ ∃ call, calls[c]? = some call ∧ call.result = none) :
    Pending runs (ts.set t pc') calls' := by
  unfold Pending at h ⊢
  intro c call' hc' hr
  rcases hc c call' hc' hr with h' | ⟨hne, call, hcall, hr₀⟩
  · exact ⟨t, pc', List.getElem?_set_self (List.getElem?_eq_some_iff.mp hpc).1, h'⟩
  · obtain ⟨t₀, pc₀, ht₀, hrun⟩ := h c call hcall hr₀
    have htt : t ≠ t₀ := by
      rintro rfl
      rw [hpc, Option.some.injEq] at ht₀
      exact hne (ht₀ ▸ hrun)
    exact ⟨t₀, pc₀, by rw [List.getElem?_set_ne htt]; exact ht₀, hrun⟩

/-- The thread stays on the call it runs, or ran none, and no result changes. -/
theorem Pending.stay (h : Pending runs ts calls) (hpc : ts[t]? = some pc)
    (hs : runs pc' = runs pc ∨ runs pc = none)
    (hres : ∀ c : Nat, (calls'[c]?).map (·.result) = (calls[c]?).map (·.result)) :
    Pending runs (ts.set t pc') calls' := by
  refine h.move hpc fun c call' hc' hr => ?_
  obtain ⟨call, hcall, he⟩ : ∃ call, calls[c]? = some call ∧ call.result = none := by
    have := hres c
    rw [hc'] at this
    obtain ⟨call, hcall, he⟩ := Option.map_eq_some'.mp this.symm
    exact ⟨call, hcall, he.trans hr⟩
  by_cases hrun : runs pc = some c
  · rcases hs with hs | hs
    · exact .inl (hs.trans hrun)
    · rw [hs] at hrun; cases hrun
  · exact .inr ⟨hrun, call, hcall, he⟩

/-- The thread leaves call `c`, which completes; on any other call it stays. -/
theorem Pending.complete {g : Group α} (h : Pending runs ts g.calls) (hpc : ts[t]? = some pc)
    {c : Nat} (hs : runs pc' = runs pc ∨ runs pc = none ∨ runs pc = some c) (r : Outcome α) :
    Pending runs (ts.set t pc') (g.complete c r).calls := by
  refine h.move hpc fun c' call' hc' hr => ?_
  unfold Group.complete at hc'
  split at hc'
  · by_cases hrun : runs pc = some c'
    · rcases hs with hs | hs | hs
      · exact .inl (hs.trans hrun)
      · rw [hs] at hrun; cases hrun
      · rw [hs, Option.some.injEq] at hrun
        subst hrun
        next hnone => rw [hnone] at hc'; cases hc'
    · exact .inr ⟨hrun, call', hc', hr⟩
  · next call hcall =>
    rw [List.getElem?_set] at hc'
    split at hc'
    · split at hc' <;> cases hc'
      cases hr
    · by_cases hrun : runs pc = some c'
      · rcases hs with hs | hs | hs
        · exact .inl (hs.trans hrun)
        · rw [hs] at hrun; cases hrun
        · rw [hs, Option.some.injEq] at hrun
          exact absurd hrun ‹_›
      · exact .inr ⟨hrun, call', hc', hr⟩

/-- A thread that ran no call installs the next one and runs it. -/
theorem Pending.install (h : Pending runs ts calls) (hpc : ts[t]? = some pc)
    (hidle : runs pc = none) (h' : runs pc' = some calls.length) {call₀ : Call α}
    (hcalls : calls' = calls ++ [call₀]) : Pending runs (ts.set t pc') calls' := by
  refine h.move hpc fun c call' hc' hr => ?_
  rw [hcalls, List.getElem?_append] at hc'
  split at hc'
  · exact .inr ⟨by rw [hidle]; exact Option.noConfusion, call', hc', hr⟩
  · next hc =>
    obtain rfl : c = calls.length := by
      have := (List.getElem?_eq_some_iff.mp hc').1
      simp at this
      omega
    exact .inl h'

/-- A new thread. -/
theorem Pending.append (h : Pending runs ts calls) (pc : Pc) : Pending runs (ts ++ [pc]) calls := by
  intro c call hc hr
  obtain ⟨t, pc₀, ht, hrun⟩ := h c call hc hr
  exact ⟨t, pc₀, by rw [List.getElem?_append_left (List.getElem?_eq_some_iff.mp ht).1]; exact ht,
    hrun⟩

end Pending

/-! ### The groups' operations -/

section Groups

variable {α : Type} {g g' : Group α} {k : String} {c : Nat}

/-- `Do` joining a call keeps every result. -/
theorem Group.results_enter_join (h : g.enter k = (.join c, g')) (c' : Nat) :
    (g'.calls[c']?).map (·.result) = (g.calls[c']?).map (·.result) := by
  unfold Group.enter at h
  split at h
  · next c₀ call hs hc =>
    have hc : g.calls[c₀]? = some call := by simpa [hs] using hc
    cases h
    exact map_getElem?_set (fun x : Call α => x.result) (a := { call with dups := call.dups + 1 }) hc
      rfl c'
  · cases h

/-- `Do` installing a call appends it, with no result, as the last call. -/
theorem Group.calls_enter_install (h : g.enter k = (.install c, g')) :
    c = g.calls.length ∧ g'.calls = g.calls ++ [⟨k, 0, none⟩] := by
  unfold Group.enter at h
  split at h
  · cases h
  · cases h
    exact ⟨rfl, rfl⟩

/-- `Do` keeps all the calls of the group. -/
theorem Group.length_le_enter {e : Entry} (h : g.enter k = (e, g')) :
    g.calls.length ≤ g'.calls.length := by
  unfold Group.enter at h
  split at h <;> cases h <;> simp

/-- After `Do`, the group is well formed, has the call it joined or installed, and
keeps all its calls. -/
theorem Group.Wf.entered (hg : g.Wf) {e : Entry} (h : g.enter k = (e, g')) :
    g'.Wf ∧ e.call < g'.calls.length ∧ g.calls.length ≤ g'.calls.length := by
  obtain ⟨-, hwf, hk⟩ := hg.enter k
  rw [h] at hwf hk
  obtain ⟨call, hc, -⟩ := Option.map_eq_some'.mp hk
  exact ⟨hwf, (List.getElem?_eq_some_iff.mp hc).1, Group.length_le_enter h⟩

@[simp] theorem Group.length_complete (g : Group α) (c : Nat) (r : Outcome α) :
    (g.complete c r).calls.length = g.calls.length := by
  unfold Group.complete
  split <;> simp

/-- A call of a group whose threads satisfy `Pending` has its result, or a thread
that runs it. -/
theorem Pending.answered_or_run {runs : Pc → Option Nat} {ts : List Pc}
    (h : Pending runs ts g.calls) (hc : c < g.calls.length) :
    (g.result c).isSome ∨ ∃ (t : Nat) (pc : Pc), ts[t]? = some pc ∧ runs pc = some c := by
  obtain ⟨call, hcall⟩ : ∃ call, g.calls[c]? = some call := ⟨_, List.getElem?_eq_getElem hc⟩
  cases hr : call.result with
  | some r => exact .inl (by simp [Group.result, hcall, hr])
  | none => exact .inr (h c call hcall hr)

end Groups

/-! ### The invariant -/

/-- **Every call in flight has a runner**, over what it reads: the threads, the
calls of the upload group and the extract group. Joined extractions are calls of
their group. -/
structure Waits (ts : List Pc) (ucalls : List (Call Unit)) (eg : Group ObjectFile) : Prop where
  uploads : Pending Pc.runningUpload ts ucalls
  extracts : Pending Pc.runningExtract ts eg.calls
  wf : eg.Wf
  waits : ∀ (t : Nat) (who : Caller) (src : ObjectFile) (c : Nat),
    ts[t]? = some (.extractWait who src c) → c < eg.calls.length

/-- The invariant of a state. -/
def WaitInv (s : State) : Prop := Waits s.threads s.uploadGroup.calls s.extractGroup

/-- `Extract` returns to a point that runs and waits for nothing: from `X`, the
invariant holds if it holds once thread `t` is at any such point. -/
theorem WaitInv.extractReturn_of {X : State} {t : Nat} {who : Caller} {r : Outcome ObjectFile}
    (hX : ∀ pc' : Pc, pc'.runningUpload = none → pc'.runningExtract = none →
      (∀ (who : Caller) (src : ObjectFile) (c : Nat), pc' ≠ .extractWait who src c) →
      Waits (X.threads.set t pc') X.uploadGroup.calls X.extractGroup) :
    WaitInv (X.extractReturn t who r) := by
  rcases who with _ | src <;> rcases r with dbg | e
  all_goals exact hX _ rfl rfl fun _ _ _ h => Pc.noConfusion h

section Operations

variable {s : State} (hi : WaitInv s) {t : Nat}
include hi

/-- The extractions joined by the other threads are still calls of the group after
thread `t` moves. -/
theorem WaitInv.waits_set {pc' : Pc} {eg : Group ObjectFile}
    (hlen : s.extractGroup.calls.length ≤ eg.calls.length)
    (hw : ∀ (who : Caller) (src : ObjectFile) (c : Nat), pc' = .extractWait who src c →
      c < eg.calls.length) :
    ∀ (t' : Nat) (who : Caller) (src : ObjectFile) (c : Nat),
      (s.threads.set t pc')[t']? = some (.extractWait who src c) →
      c < eg.calls.length := by
  intro t' who src c ht'
  rcases getElem?_set_cases ht' with ⟨-, he⟩ | ⟨-, ht'⟩
  · exact hw who src c he.symm
  · exact Nat.lt_of_lt_of_le (hi.waits t' who src c ht') hlen

variable {pc : Pc} (hpc : s.threads[t]? = some pc)
include hpc

/-- Thread `t` moves to `pc'` and the extract group becomes `eg`; the upload group
stays. -/
theorem WaitInv.extractMove {pc' : Pc} {eg : Group ObjectFile}
    (hu : pc'.runningUpload = pc.runningUpload ∨ pc.runningUpload = none)
    (he : Pending Pc.runningExtract (s.threads.set t pc') eg.calls) (hwf : eg.Wf)
    (hlen : s.extractGroup.calls.length ≤ eg.calls.length)
    (hw : ∀ (who : Caller) (src : ObjectFile) (c : Nat), pc' = .extractWait who src c →
      c < eg.calls.length) :
    Waits (s.threads.set t pc') s.uploadGroup.calls eg :=
  ⟨hi.uploads.stay hpc hu fun _ => rfl, he, hwf, hi.waits_set hlen hw⟩

/-- Thread `t` moves to `pc'`, which joins no extraction, and the calls of the
upload group become `ucalls`; the extract group stays. -/
theorem WaitInv.uploadMove {pc' : Pc} {ucalls : List (Call Unit)}
    (hu : Pending Pc.runningUpload (s.threads.set t pc') ucalls)
    (he : pc'.runningExtract = pc.runningExtract ∨ pc.runningExtract = none)
    (hw : ∀ (who : Caller) (src : ObjectFile) (c : Nat), pc' ≠ .extractWait who src c) :
    Waits (s.threads.set t pc') ucalls s.extractGroup :=
  ⟨hu, hi.extracts.stay hpc he fun _ => rfl, hi.wf,
    hi.waits_set le_rfl fun who src c h => absurd h (hw who src c)⟩

/-- A move that leaves both groups alone. -/
theorem WaitInv.goto {pc' : Pc} (hu : pc'.runningUpload = pc.runningUpload ∨ pc.runningUpload = none)
    (he : pc'.runningExtract = pc.runningExtract ∨ pc.runningExtract = none)
    (hw : ∀ (who : Caller) (src : ObjectFile) (c : Nat), pc' = .extractWait who src c →
      c < s.extractGroup.calls.length) :
    Waits (s.threads.set t pc') s.uploadGroup.calls s.extractGroup :=
  hi.extractMove hpc hu (hi.extracts.stay hpc he fun _ => rfl) hi.wf le_rfl hw

/-- `Extract` returns, from a point that runs nothing. -/
theorem WaitInv.extractReturn (hu : pc.runningUpload = none) (he : pc.runningExtract = none)
    {who : Caller} {r : Outcome ObjectFile} : WaitInv (s.extractReturn t who r) :=
  WaitInv.extractReturn_of fun _ _ _ hw =>
    hi.goto hpc (.inr hu) (.inr he) fun _ _ _ h => absurd h (hw _ _ _)

/-- The extraction of call `c` completes with `r`, and its thread leaves it for a
point that joins no extraction. -/
theorem WaitInv.extractComplete {c : Nat} (hu : pc.runningUpload = none)
    (he : pc.runningExtract = some c) (r : Outcome ObjectFile) {pc' : Pc}
    (hw : ∀ (who : Caller) (src : ObjectFile) (c : Nat), pc' ≠ .extractWait who src c) :
    Waits (s.threads.set t pc') s.uploadGroup.calls (s.extractGroup.complete c r) :=
  hi.extractMove hpc (.inr hu) (hi.extracts.complete hpc (.inr (.inr he)) r) (hi.wf.complete c r)
    (Group.length_complete _ c r).ge fun who src c h => absurd h (hw who src c)

/-- `Upload`'s goroutine sends its result, from a point that runs nothing. -/
theorem WaitInv.uploadReturn (hu : pc.runningUpload = none) (he : pc.runningExtract = none)
    {who : Caller} {dbg : ObjectFile} {c : Option Nat} {r : Outcome Unit} {holds : Bool} :
    WaitInv (s.uploadReturn t who dbg c r holds) :=
  hi.goto hpc (.inr hu) (.inr he) fun _ _ _ h => by cases holds <;> cases h

/-- The execution of call `c` of the upload group completes with `r`, from a state
`X` with the threads and groups of `s`. -/
theorem WaitInv.uploadComplete {X : State} {who : Caller} {dbg : ObjectFile} {c : Nat}
    {r : Outcome Unit} (hu : pc.runningUpload = some c) (he : pc.runningExtract = none)
    (hX : X.threads = s.threads ∧ X.uploadGroup = s.uploadGroup ∧ X.extractGroup = s.extractGroup) :
    WaitInv (X.uploadComplete t who dbg c r) := by
  obtain ⟨hth, hug, heg⟩ := hX
  have key : ∀ pc' : Pc, (∀ (who : Caller) (src : ObjectFile) (c : Nat), pc' ≠ .extractWait who src c) →
      Waits (X.threads.set t pc') (X.uploadGroup.complete c r).calls X.extractGroup := by
    intro pc' hw
    rw [hth, hug, heg]
    exact hi.uploadMove hpc (hi.uploads.complete hpc (.inr (.inr hu)) r) (.inr he) hw
  rcases r with ⟨⟩ | e <;> exact key _ fun _ _ _ h => Pc.noConfusion h

end Operations

/-! ### Runs -/

variable (cfg : Config)

theorem WaitInv.thread {s s' : State} {t : Nat} {pc : Pc} (hi : WaitInv s)
    (hpc : s.threads[t]? = some pc) (hm : Move cfg s t pc s') : WaitInv s' := by
  cases hm with
  | elfFailed | elfKept | joinedExtracted => exact hi.extractReturn hpc rfl rfl
  | elfJoin _ he =>
    obtain ⟨hwf, hc, hlen⟩ := hi.wf.entered he
    exact hi.extractMove hpc (.inr rfl) (hi.extracts.stay hpc (.inr rfl) (Group.results_enter_join he))
      hwf hlen fun _ _ _ h => by cases h; exact hc
  | elfInstall _ he =>
    obtain ⟨hwf, -, hlen⟩ := hi.wf.entered he
    obtain ⟨rfl, hcalls⟩ := Group.calls_enter_install he
    exact hi.extractMove hpc (.inr rfl) (hi.extracts.install hpc rfl rfl hcalls) hwf hlen
      fun _ _ _ h => Pc.noConfusion h
  | extracted | extractFailed =>
    exact WaitInv.extractReturn_of fun _ _ _ hw => hi.extractComplete hpc rfl rfl _ hw
  | extractFailedShared => exact hi.extractComplete hpc rfl rfl _ fun _ _ _ h => Pc.noConfusion h
  | extractForgot =>
    exact WaitInv.extractReturn_of fun _ _ _ hw =>
      hi.extractMove hpc (.inr rfl) (hi.extracts.stay hpc (.inr rfl) fun _ => rfl)
        (hi.wf.forget _) le_rfl fun _ _ _ h => absurd h (hw _ _ _)
  | acquireFailed | joinedUploaded => exact hi.uploadReturn hpc rfl rfl
  | uploadJoin he =>
    exact hi.uploadMove hpc (hi.uploads.stay hpc (.inr rfl) (Group.results_enter_join he))
      (.inr rfl) fun _ _ _ h => Pc.noConfusion h
  | uploadInstall he =>
    obtain ⟨rfl, hcalls⟩ := Group.calls_enter_install he
    exact hi.uploadMove hpc (hi.uploads.install hpc rfl rfl hcalls) (.inr rfl)
      fun _ _ _ h => Pc.noConfusion h
  | recheckHit | recheckNo | hashReaderFailed | hashFailed | alreadyExists | initiateFailed
    | transferReaderFailed | transferRefused | transferFailed | marked | markFailed =>
    exact hi.uploadComplete hpc rfl rfl ⟨rfl, rfl, rfl⟩
  | recheckMiss | recheckGo | hashHit | hashMiss | hashed | initiated | transferred =>
    exact hi.goto hpc (.inl rfl) (.inr rfl) fun _ _ _ h => Pc.noConfusion h
  | uploadForgot => exact hi.goto hpc (.inr rfl) (.inr rfl) fun _ _ _ h => by cases h
  | _ => exact hi.goto hpc (.inr rfl) (.inr rfl) fun _ _ _ h => Pc.noConfusion h

theorem WaitInv.step {s s' : State} {a : Action} (hi : WaitInv s) (h : step cfg s a = some s') :
    WaitInv s' := by
  cases a with
  | thread t a =>
    obtain ⟨pc, hpc, h⟩ := Option.bind_eq_some.mp h
    exact hi.thread cfg hpc (threadStep_move cfg h)
  | spawn i =>
    obtain ⟨file, -, rfl⟩ := Option.map_eq_some'.mp h
    refine ⟨hi.uploads.append _, hi.extracts.append _, hi.wf, fun t who src c ht => ?_⟩
    rw [List.getElem?_append] at ht
    split at ht
    · exact hi.waits t who src c ht
    · have := List.mem_singleton.mp (List.getElem?_mem ht)
      cases i <;> cases this
  | evict b => cases h; exact hi
  | evictHash k => cases h; exact hi

theorem waitInv_init (files : List ObjectFile) : WaitInv (init files) :=
  ⟨fun _ _ h => by simp [init, Group.empty] at h, fun _ _ h => by simp [init, Group.empty] at h,
    fun _ _ h => Option.noConfusion h, fun _ _ _ _ h => by simp [init] at h⟩

theorem Reachable.waitInv {files : List ObjectFile} {s : State} (hs : Reachable cfg files s) :
    WaitInv s := by
  induction hs with
  | init => exact waitInv_init files
  | step _ h ih => exact ih.step cfg h

/-- A thread waiting on a call of the upload group waits on a call that has its
result, or that a thread runs. -/
theorem Reachable.upload_answered_or_run {files : List ObjectFile} {s : State}
    (hs : Reachable cfg files s) {t : Nat} {who : Caller} {dbg : ObjectFile} {c : Nat}
    (ht : s.threads[t]? = some (.uploadWait who dbg c)) :
    (s.uploadGroup.result c).isSome ∨
      ∃ (t' : Nat) (pc' : Pc), s.threads[t']? = some pc' ∧ pc'.runningUpload = some c := by
  refine (hs.waitInv cfg).uploads.answered_or_run ?_
  obtain ⟨call, hc, -⟩ := Option.map_eq_some'.mp
    ((hs.flightInv cfg).keys _ (List.getElem?_mem ht) dbg c rfl)
  exact (List.getElem?_eq_some_iff.mp hc).1

/-- A thread waiting on a call of the extract group waits on a call that has its
result, or that a thread runs. -/
theorem Reachable.extract_answered_or_run {files : List ObjectFile} {s : State}
    (hs : Reachable cfg files s) {t : Nat} {who : Caller} {src : ObjectFile} {c : Nat}
    (ht : s.threads[t]? = some (.extractWait who src c)) :
    (s.extractGroup.result c).isSome ∨
      ∃ (t' : Nat) (pc' : Pc), s.threads[t']? = some pc' ∧ pc'.runningExtract = some c :=
  have hi := hs.waitInv cfg
  hi.extracts.answered_or_run (hi.waits t who src c ht)

end Debuginfo

end ParcaAgent

import ParcaAgent.Debuginfo.Waiters

/-!
# The manager never deadlocks

**With `uploadMaxParallel > 0`, whenever a thread has not returned, some thread can
take a step on an answer that is not a cancelled `Acquire`**
(`ParcaAgent.Debuginfo.manager_deadlock_free`), in every reachable state, whatever
the interleaving.

## Where a thread can block

Every point but three waits for a request to the server, the file system or a
cache, which the environment answers, with an error if nothing else
(`ParcaAgent.Debuginfo.threadStep_enabled`). The three are the manager's own
synchronisation (`ParcaAgent.Debuginfo.Pc.waitsOnManager`):

* **`uploadTaskTokens.Acquire`** blocks while every token is taken. Then some
  goroutine holds one (`ParcaAgent.Debuginfo.TokenInv`), and a goroutine holding a
  token is between `Acquire` and `Release`, where it waits on the semaphore no
  more.
* **The wait for a joined upload or extraction** blocks until the call has its
  result. A call without one is run by a thread (`ParcaAgent.Debuginfo.WaitInv`),
  and a thread that runs a call waits on nothing of the manager.

So at most two hops away from a thread that has not returned there is one that can
step, and a context that is done is never needed to get out.

## Every call returns

The manager's code has no loop: every move of a thread takes it to a point closer
to the end of its call (`ParcaAgent.Debuginfo.Move.next`, measured by
`ParcaAgent.Debuginfo.Pc.rank`). With the above, from every reachable state some
run of the threads, with no cancelled `Acquire`, brings every call to its return
(`ParcaAgent.Debuginfo.manager_completes`).

## What the points read

`EnsureUploaded` reads its object file from the callers' list at its first two
points. A thread there was started on a file of the list, and the list never
changes (`ParcaAgent.Debuginfo.SourcesInv`).
-/

namespace ParcaAgent

namespace Debuginfo

/-! ### The files of the callers' list -/

/-- The place in the callers' list of the object file a point of `EnsureUploaded`
reads. -/
def Pc.source : Pc → Option Nat
  | .ensureGate src | .ensureAsk src | .ensureFind src => some src
  | _ => none

/-- Every thread in `EnsureUploaded` reads a file of the callers' list. -/
def SourcesInv (s : State) : Prop :=
  ∀ (t src : Nat) (pc : Pc), s.threads[t]? = some pc → pc.source = some src →
    src < s.sources.length

/-! ### How far a thread is from returning -/

/-- **How many steps a thread at a point takes, at most, before its call returns**:
the length of the longest path from the point to `done` through the code. -/
def Pc.rank : Pc → Nat
  | .ensureGate _ => 17
  | .ensureAsk _ => 16
  | .ensureFind _ => 15
  | .extractElf .. => 14
  | .extractRun .. | .extractWait .. => 13
  | .extractForget .. => 12
  | .uploadAcquire .. => 11
  | .uploadDo .. => 10
  | .uploadRecheck .. => 9
  | .uploadAsk .. => 8
  | .uploadHash .. => 7
  | .uploadHashCompute .. => 6
  | .uploadInitiate .. => 5
  | .uploadTransfer .. => 4
  | .uploadMark .. | .uploadWait .. => 3
  | .uploadForget .. => 2
  | .uploadRelease => 1
  | .done => 0

section Frame

variable {cfg} {s s' : State} {t : Nat} {pc : Pc}

/-- `Extract` returns to a point that reads no file of the list, at most at
`uploadAcquire`. -/
theorem State.extractReturn_next (X : State) (t : Nat) (who : Caller) (r : Outcome ObjectFile) :
    ∃ pc' : Pc, (X.extractReturn t who r).threads = X.threads.set t pc' ∧ pc'.source = none ∧
      pc'.rank ≤ 11 := by
  rcases who with _ | src <;> rcases r with dbg | e
  all_goals exact ⟨_, rfl, rfl, Nat.le_of_ble_eq_true rfl⟩

/-- **Every move takes its thread closer to its return**, to a point that reads no
file of the list or the one `pc` reads. -/
theorem Move.next (hm : Move cfg s t pc s') :
    ∃ pc' : Pc, s'.threads = s.threads.set t pc' ∧
      (pc'.source = none ∨ pc'.source = pc.source) ∧ pc'.rank < pc.rank := by
  cases hm with
  | elfFailed | elfKept | extracted | extractFailed | joinedExtracted | extractForgot =>
    obtain ⟨pc', hth, hs, hr⟩ := State.extractReturn_next _ t _ _
    exact ⟨pc', hth, .inl hs, Nat.lt_of_le_of_lt hr (Nat.le_of_ble_eq_true rfl)⟩
  | gateMiss | gateGo => exact ⟨_, rfl, .inr rfl, Nat.le_of_ble_eq_true rfl⟩
  | _ => exact ⟨_, rfl, .inl rfl, Nat.le_of_ble_eq_true rfl⟩

end Frame

variable (cfg : Config)

theorem SourcesInv.step {s s' : State} {a : Action} (hi : SourcesInv s)
    (h : step cfg s a = some s') : SourcesInv s' := by
  cases a with
  | thread t a =>
    obtain ⟨pc, hpc, h⟩ := Option.bind_eq_some.mp h
    have hm := threadStep_move cfg h
    obtain ⟨pc', hth, hpc', -⟩ := hm.next
    intro t' src pc₁ ht' hs'
    rw [hth] at ht'
    rw [hm.frame.1]
    rcases getElem?_set_cases ht' with ⟨-, rfl⟩ | ⟨-, ht'⟩
    · rcases hpc' with h0 | h0
      · rw [h0] at hs'
        cases hs'
      · exact hi t src pc hpc (h0 ▸ hs')
    · exact hi t' src pc₁ ht' hs'
  | spawn i =>
    obtain ⟨file, hf, rfl⟩ := Option.map_eq_some'.mp h
    intro t' src pc₁ ht' hs'
    rw [List.getElem?_append] at ht'
    split at ht'
    · exact hi t' src pc₁ ht' hs'
    · obtain rfl := List.mem_singleton.mp (List.getElem?_mem ht')
      cases i with
      | ensureUploaded f =>
        cases hs'
        exact (List.getElem?_eq_some_iff.mp hf).1
      | extract f => cases hs'
      | upload f => cases hs'
  | evict b => cases h; exact hi
  | evictHash k => cases h; exact hi

theorem sourcesInv_init (files : List ObjectFile) : SourcesInv (init files) :=
  fun _ _ _ h => by simp [init] at h

theorem Reachable.sourcesInv {files : List ObjectFile} {s : State} (hs : Reachable cfg files s) :
    SourcesInv s := by
  induction hs with
  | init => exact sourcesInv_init files
  | step _ h ih => exact ih.step cfg h

/-! ### The points that can step -/

/-- The points where a thread waits on the manager itself: the semaphore, and a call
of either group it joined. -/
def Pc.waitsOnManager : Pc → Bool
  | .uploadAcquire .. | .uploadWait .. | .extractWait .. => true
  | _ => false

/-- **A thread that waits on nothing of the manager can step**, on an answer that is
not a cancelled `Acquire`: every request it makes has an answer. -/
theorem threadStep_enabled (s : State) (t : Nat) {pc : Pc} (hd : pc ≠ .done)
    (hw : pc.waitsOnManager = false)
    (hsrc : ∀ src, pc.source = some src → src < s.sources.length) :
    ∃ a, (∀ e, a ≠ .acquire (.error e)) ∧ (threadStep cfg s t pc a).isSome := by
  have hfile : ∀ src, pc.source = some src → ∃ file, s.sources[src]? = some file :=
    fun src h => ⟨_, List.getElem?_eq_getElem (hsrc src h)⟩
  cases pc with
  | ensureGate src =>
    obtain ⟨file, hf⟩ := hfile src rfl
    refine ⟨.none, fun _ => nofun, ?_⟩
    simp only [threadStep, hf]
    split <;> rfl
  | ensureAsk src =>
    obtain ⟨file, hf⟩ := hfile src rfl
    exact ⟨.rpc (.error ""), fun _ => nofun, by simp only [threadStep, hf]; rfl⟩
  | ensureFind src =>
    obtain ⟨file, -⟩ := hfile src rfl
    cases hdf : s.debugFile src with
    | some dbg => exact ⟨.none, fun _ => nofun, by simp only [threadStep, hdf]; rfl⟩
    | none => exact ⟨.find (some (.ok file)), fun _ => nofun, by simp only [threadStep, hdf]; rfl⟩
  | extractElf who src => exact ⟨.elf (.error ""), fun _ => nofun, rfl⟩
  | extractRun who src c =>
    refine ⟨.extracted (.error ""), fun _ => nofun, ?_⟩
    simp only [threadStep]
    split <;> rfl
  | extractForget who src e => exact ⟨.none, fun _ => nofun, rfl⟩
  | uploadDo who dbg =>
    refine ⟨.none, fun _ => nofun, ?_⟩
    simp only [threadStep]
    rcases s.uploadGroup.enter dbg.buildID with ⟨_ | _, _⟩ <;> rfl
  | uploadRecheck who dbg c =>
    refine ⟨.none, fun _ => nofun, ?_⟩
    simp only [threadStep]
    split <;> rfl
  | uploadAsk who dbg c => exact ⟨.rpc (.error ""), fun _ => nofun, rfl⟩
  | uploadHash who dbg c =>
    refine ⟨.none, fun _ => nofun, ?_⟩
    simp only [threadStep]
    rcases s.hashCache (hashCacheKey dbg) with _ | _ <;> rfl
  | uploadHashCompute who dbg c => exact ⟨.hashed (.error "") (.error ""), fun _ => nofun, rfl⟩
  | uploadInitiate who dbg c h => exact ⟨.initiate (.error ""), fun _ => nofun, rfl⟩
  | uploadTransfer who dbg c u st => exact ⟨.transfer (.error "") (.error ""), fun _ => nofun, rfl⟩
  | uploadMark who dbg c u => exact ⟨.mark (.error ""), fun _ => nofun, rfl⟩
  | uploadForget who dbg c e => exact ⟨.none, fun _ => nofun, rfl⟩
  | uploadRelease => exact ⟨.none, fun _ => nofun, rfl⟩
  | uploadAcquire who dbg => cases hw
  | uploadWait who dbg c => cases hw
  | extractWait who src c => cases hw
  | done => exact absurd rfl hd

/-- A thread that runs a call of either group waits on nothing of the manager. -/
theorem Pc.free_of_running {pc : Pc} {c : Nat}
    (h : pc.runningUpload = some c ∨ pc.runningExtract = some c) :
    pc ≠ .done ∧ pc.waitsOnManager = false := by
  cases pc <;> simp_all [Pc.runningUpload, Pc.runningExtract, Pc.execution, Pc.extraction,
    Pc.waitsOnManager]

/-- A goroutine holding a token is not at `Acquire`, and waits on no extraction. -/
theorem Pc.free_of_holdsToken {pc : Pc} (h : pc.holdsToken = true) :
    pc ≠ .done ∧ (pc.waitsOnManager = false ∨ ∃ who dbg c, pc = .uploadWait who dbg c) := by
  cases pc <;> simp_all [Pc.holdsToken, Pc.waitsOnManager]

/-! ### Runs -/

/-- Some thread can step on an answer that is not a cancelled `Acquire`. -/
def CanProgress (s : State) : Prop :=
  ∃ (t : Nat) (a : Answer), (∀ e, a ≠ .acquire (.error e)) ∧ (step cfg s (.thread t a)).isSome

theorem canProgress_of_enabled {s : State} {t : Nat} {pc : Pc} (ht : s.threads[t]? = some pc)
    {a : Answer} (ha : ∀ e, a ≠ .acquire (.error e)) (h : (threadStep cfg s t pc a).isSome) :
    CanProgress cfg s :=
  ⟨t, a, ha, by simpa [step, ht] using h⟩

section Runs

variable {files : List ObjectFile} {s : State} (hs : Reachable cfg files s)
include hs

/-- A thread that waits on nothing of the manager can step. -/
theorem Reachable.canProgress_free {t : Nat} {pc : Pc} (ht : s.threads[t]? = some pc)
    (hd : pc ≠ .done) (hw : pc.waitsOnManager = false) : CanProgress cfg s :=
  have ⟨_, ha, h⟩ := threadStep_enabled cfg s t hd hw fun src => hs.sourcesInv cfg t src pc ht
  canProgress_of_enabled cfg ht ha h

/-- A thread that waits on a call of either group can step, or the thread running
the call can. -/
theorem Reachable.canProgress_running {t : Nat} {pc : Pc} (ht : s.threads[t]? = some pc)
    {c : Nat} (h : pc.runningUpload = some c ∨ pc.runningExtract = some c) : CanProgress cfg s :=
  have ⟨hd, hw⟩ := Pc.free_of_running h
  hs.canProgress_free cfg ht hd hw

theorem Reachable.canProgress_uploadWait {t : Nat} {who : Caller} {dbg : ObjectFile} {c : Nat}
    (ht : s.threads[t]? = some (.uploadWait who dbg c)) : CanProgress cfg s := by
  rcases hs.upload_answered_or_run cfg ht with hr | ⟨t', pc', ht', hrun⟩
  · obtain ⟨r, hr⟩ := Option.isSome_iff_exists.mp hr
    refine canProgress_of_enabled cfg ht (a := .none) (fun _ => nofun) ?_
    simp only [threadStep, hr]
    rcases r with ⟨⟩ | e <;> rfl
  · exact hs.canProgress_running cfg ht' (.inl hrun)

theorem Reachable.canProgress_extractWait {t : Nat} {who : Caller} {src : ObjectFile} {c : Nat}
    (ht : s.threads[t]? = some (.extractWait who src c)) : CanProgress cfg s := by
  rcases hs.extract_answered_or_run cfg ht with hr | ⟨t', pc', ht', hrun⟩
  · obtain ⟨r, hr⟩ := Option.isSome_iff_exists.mp hr
    refine canProgress_of_enabled cfg ht (a := .none) (fun _ => nofun) ?_
    simp only [threadStep, hr]
    rcases r with _ | e <;> rfl
  · exact hs.canProgress_running cfg ht' (.inr hrun)

/-- With every token taken and at least one token, some goroutine holds one, and it
or the thread running the upload it waits on can step. -/
theorem Reachable.canProgress_of_tokens (hpos : 0 < cfg.uploadMaxParallel)
    (hfull : ¬ (s.tokens : Int) + 1 ≤ cfg.uploadMaxParallel) : CanProgress cfg s := by
  have hi := hs.tokenInv cfg
  have hheld : 0 < s.holders := by
    have := hi.le_size
    rw [← hi.tokens_eq]
    omega
  obtain ⟨pc, hmem, hpc⟩ := List.countP_pos_iff.mp hheld
  obtain ⟨t, ht⟩ := List.mem_iff_getElem?.mp hmem
  obtain ⟨hd, hw | ⟨who, dbg, c, rfl⟩⟩ := Pc.free_of_holdsToken hpc
  · exact hs.canProgress_free cfg ht hd hw
  · exact hs.canProgress_uploadWait cfg ht

/-- A thread that has not returned can step, or one two hops away can. -/
theorem Reachable.canProgress (hpos : 0 < cfg.uploadMaxParallel) {t : Nat} {pc : Pc}
    (ht : s.threads[t]? = some pc) (hd : pc ≠ .done) : CanProgress cfg s := by
  cases hw : pc.waitsOnManager
  · exact hs.canProgress_free cfg ht hd hw
  · cases pc with
    | uploadAcquire who dbg =>
      by_cases hfree : (s.tokens : Int) + 1 ≤ cfg.uploadMaxParallel
      · refine canProgress_of_enabled cfg ht (a := .acquire (.ok ())) (fun _ => nofun) ?_
        simp [threadStep, hfree]
      · exact hs.canProgress_of_tokens cfg hpos hfree
    | uploadWait who dbg c => exact hs.canProgress_uploadWait cfg ht
    | extractWait who src c => exact hs.canProgress_extractWait cfg ht
    | _ => cases hw

end Runs

/-- **The manager never deadlocks.** In every reachable state of a manager with
`uploadMaxParallel > 0`, if some thread has not returned, some thread can take a
step on an answer that is not a cancelled `Acquire`: no thread is blocked for ever
by the semaphore or by a call it joined. -/
theorem manager_deadlock_free (hpos : 0 < cfg.uploadMaxParallel) (files : List ObjectFile)
    (s : State) (hs : Reachable cfg files s) (t : Nat) (pc : Pc) (ht : s.threads[t]? = some pc)
    (hd : pc ≠ .done) :
    ∃ (t' : Nat) (a : Answer), (∀ e, a ≠ .acquire (.error e)) ∧ (step cfg s (.thread t' a)).isSome :=
  hs.canProgress cfg hpos ht hd

/-- An `Upload` of `probeFile` that has not taken a token yet. -/
def spawnUpload : List Action := [.spawn (.upload 0)]

theorem manager_deadlock_free_spawnUpload :
    0 < sampleConfig.uploadMaxParallel ∧
      ∃ s, Reachable sampleConfig [probeFile] s ∧ s.threads[0]? = some (.uploadAcquire .top probeFile) ∧
        ∃ (t' : Nat) (a : Answer), (∀ e, a ≠ .acquire (.error e)) ∧ (step sampleConfig s (.thread t' a)).isSome := by
  obtain ⟨s, hs, h⟩ := reach_of_run sampleConfig [probeFile] spawnUpload
    (p := fun s => decide (s.threads[0]? = some (Pc.uploadAcquire .top probeFile))) (by decide)
  have ht := of_decide_eq_true h
  exact ⟨by decide, s, hs, ht,
    manager_deadlock_free sampleConfig (by decide) [probeFile] s hs 0 _ ht nofun⟩

/-! ### Every call returns -/

/-- The sum of the ranks of a list of points. -/
def ranks : List Pc → Nat
  | [] => 0
  | pc :: ts => pc.rank + ranks ts

/-- The steps the threads take, at most, before every call has returned. -/
def State.rank (s : State) : Nat := ranks s.threads

/-- Moving one thread changes the sum of the ranks by the two points' ranks. -/
theorem ranks_set {ts : List Pc} {t : Nat} {pc : Pc} (h : ts[t]? = some pc) (pc' : Pc) :
    ranks (ts.set t pc') + pc.rank = ranks ts + pc'.rank := by
  induction ts generalizing t with
  | nil => simp at h
  | cons q ts ih =>
    cases t with
    | zero =>
      obtain rfl : q = pc := by simpa using h
      simp only [List.set_cons_zero, ranks]
      omega
    | succ t =>
      have := ih (by simpa using h)
      simp only [List.set_cons_succ, ranks]
      omega

section Rank

variable {s s' : State}

/-- A step of a thread brings its call closer to its return. -/
theorem State.rank_thread {t : Nat} {a : Answer} (h : step cfg s (.thread t a) = some s') :
    s'.rank < s.rank := by
  obtain ⟨pc, hpc, h⟩ := Option.bind_eq_some.mp h
  obtain ⟨pc', hth, -, hlt⟩ := (threadStep_move cfg h).next
  have := ranks_set hpc pc'
  unfold State.rank
  rw [hth]
  omega

end Rank

section Completion

variable {files : List ObjectFile}

/-- From a reachable state, every call has returned, or some thread steps, on an
answer that is not a cancelled `Acquire`. -/
theorem done_or_step (hpos : 0 < cfg.uploadMaxParallel) {s : State}
    (hs : Reachable cfg files s) :
    (∀ pc ∈ s.threads, pc = .done) ∨ ∃ (t : Nat) (a : Answer) (s' : State),
      (∀ e, a ≠ .acquire (.error e)) ∧ step cfg s (.thread t a) = some s' := by
  by_cases hall : ∀ pc ∈ s.threads, pc = .done
  · exact .inl hall
  · push_neg at hall
    obtain ⟨pc, hmem, hd⟩ := hall
    obtain ⟨t, ht⟩ := List.mem_iff_getElem?.mp hmem
    obtain ⟨t', a, ha, hstep⟩ := hs.canProgress cfg hpos ht hd
    exact .inr ⟨t', a, Option.isSome_iff_exists.mp hstep |>.choose, ha,
      Option.isSome_iff_exists.mp hstep |>.choose_spec⟩

/-- Every call can be brought to its return, by induction on the steps left. -/
theorem Reachable.completes (hpos : 0 < cfg.uploadMaxParallel) {s : State}
    (hs : Reachable cfg files s) :
    ∃ (as : List Action) (s' : State), run cfg s as = some s' ∧ as.length ≤ s.rank ∧
      (∀ b ∈ as, ∃ (t : Nat) (a : Answer), b = .thread t a ∧ (∀ e, a ≠ .acquire (.error e))) ∧
      ∀ pc ∈ s'.threads, pc = .done := by
  rcases done_or_step cfg hpos hs with hall | ⟨t, a, s₁, ha, h⟩
  · exact ⟨[], s, rfl, Nat.zero_le _, fun _ h => (List.not_mem_nil _ h).elim, hall⟩
  · have hlt := State.rank_thread cfg h
    obtain ⟨as, s', hrun, hlen, has, hdone⟩ := Reachable.completes hpos (hs.step h)
    refine ⟨.thread t a :: as, s', by simp [run, h, hrun], by simp; omega, ?_, hdone⟩
    rintro b (_ | ⟨_, hb⟩)
    · exact ⟨t, a, rfl, ha⟩
    · exact has b hb
termination_by s.rank

end Completion

/-- **Every call into the manager can return.** From every reachable state of a
manager with `uploadMaxParallel > 0`, some run of at most `s.rank` steps of the
threads, none on a cancelled `Acquire`, ends with every call returned: with the
deadlock freedom above and the bound on the steps, no call is ever stuck short of
its return. -/
theorem manager_completes (hpos : 0 < cfg.uploadMaxParallel) (files : List ObjectFile) (s : State)
    (hs : Reachable cfg files s) :
    ∃ (as : List Action) (s' : State), run cfg s as = some s' ∧ as.length ≤ s.rank ∧
      (∀ b ∈ as, ∃ (t : Nat) (a : Answer), b = .thread t a ∧ (∀ e, a ≠ .acquire (.error e))) ∧
      ∀ pc ∈ s'.threads, pc = .done :=
  hs.completes cfg hpos

theorem manager_completes_spawnUpload :
    0 < sampleConfig.uploadMaxParallel ∧
      ∃ s, Reachable sampleConfig [probeFile] s ∧ s.threads[0]? = some (.uploadAcquire .top probeFile) ∧
        ∃ (as : List Action) (s' : State), run sampleConfig s as = some s' ∧ as.length ≤ s.rank ∧
          (∀ b ∈ as, ∃ (t : Nat) (a : Answer), b = .thread t a ∧ (∀ e, a ≠ .acquire (.error e))) ∧
          ∀ pc ∈ s'.threads, pc = .done := by
  obtain ⟨s, hs, h⟩ := reach_of_run sampleConfig [probeFile] spawnUpload
    (p := fun s => decide (s.threads[0]? = some (Pc.uploadAcquire .top probeFile))) (by decide)
  exact ⟨by decide, s, hs, of_decide_eq_true h,
    manager_completes sampleConfig (by decide) [probeFile] s hs⟩

end Debuginfo

end ParcaAgent

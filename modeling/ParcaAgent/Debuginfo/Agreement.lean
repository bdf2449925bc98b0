import ParcaAgent.Debuginfo.Progress

/-!
# Every caller of a call gets the call's result

`uploadSingleflight.Do` gives every caller of one call the result its function
returned: the goroutine that ran it, and every goroutine that joined it. In the
manager, that result is what `Upload` returns to each of them (`Event.received`).
`ParcaAgent.Debuginfo.Agree` carries this over every run: every result a caller
received from call `c` of the upload group is the result call `c` recorded. A
`Forget` between the end of the call and a joined caller's return changes
nothing: it takes the call out of the group's map, not its result. What a nil from
`Upload` rests on (`ParcaAgent.Debuginfo.upload_nil_justified`) is read off it.

## Why

Besides the log, the invariant carries three facts about the threads:

* **A call is run by one thread**, the one that installed it: a new call is the
  last of the group, and no thread runs a call the group does not have yet.
* **A call being run has no result yet.** Its result is written once, by that one
  thread, as it leaves the call; no other result ever changes.
* **A goroutine about to `Forget` holds its call's error**: the one it read from
  the group, or the one its own execution returned.
-/

namespace ParcaAgent

namespace Debuginfo

/-! ### What the callers received -/

/-- The call of the upload group and the result a caller of `Upload` received, if
the event records one. -/
def Event.delivery : Event → Option (Nat × Outcome Unit)
  | .received _ _ (some c) r => some (c, r)
  | _ => none

/-- The results the callers of `Upload` received from calls of the upload group, in
the order of the log. -/
def deliveries (log : List Event) : List (Nat × Outcome Unit) := log.filterMap Event.delivery

@[simp] theorem deliveries_nil : deliveries [] = [] := rfl

@[simp] theorem deliveries_cons (e : Event) (log : List Event) :
    deliveries (e :: log) = e.delivery.toList ++ deliveries log := by
  cases h : e.delivery <;> simp [deliveries, List.filterMap_cons, h]

@[simp] theorem deliveries_append (log log' : List Event) :
    deliveries (log ++ log') = deliveries log ++ deliveries log' :=
  List.filterMap_append ..

/-- What `EnsureUploaded` returns is no delivery. -/
@[simp] theorem deliveries_returned (who : Caller) (t : Nat) (r : Outcome Unit) :
    deliveries (who.returned t r) = [] := by
  cases who <;> rfl

theorem mem_deliveries {log : List Event} {t : Nat} {dbg : ObjectFile} {c : Nat}
    {r : Outcome Unit} (h : .received t dbg (some c) r ∈ log) : (c, r) ∈ deliveries log :=
  List.mem_filterMap.mpr ⟨_, h, rfl⟩

/-! ### The results of a group -/

section Results

variable {α : Type} {g g' : Group α} {k : String} {c : Nat}

theorem Group.result_complete_of_ne {c' : Nat} (h : c' ≠ c) (r : Outcome α) :
    (g.complete c r).result c' = g.result c' := by
  unfold Group.complete
  split
  · rfl
  · simp [Group.result, List.getElem?_set_ne (Ne.symm h)]

/-- `Do` joining a call changes no result. -/
theorem Group.result_enter_join (h : g.enter k = (.join c, g')) (c' : Nat) :
    g'.result c' = g.result c' := by
  have := Group.results_enter_join h c'
  unfold Group.result
  cases h₁ : g'.calls[c']? <;> cases h₂ : g.calls[c']? <;> simp_all

/-- `Do` installing a call changes no result: the new call has none. -/
theorem Group.result_enter_install (h : g.enter k = (.install c, g')) (c' : Nat) :
    g'.result c' = g.result c' := by
  obtain ⟨-, hcalls⟩ := Group.calls_enter_install h
  simp only [Group.result, hcalls, List.getElem?_append]
  split
  · rfl
  · next hge =>
    rw [List.getElem?_eq_none (Nat.le_of_not_lt hge)]
    rcases c' - g.calls.length with _ | _ <;> rfl

/-- A call of the group that has no result. -/
theorem Group.exists_call_of_result {c : Nat} (hnone : g.result c = none) (hlt : c < g.calls.length) :
    ∃ call, g.calls[c]? = some call ∧ call.result = none := by
  refine ⟨_, List.getElem?_eq_getElem hlt, ?_⟩
  simpa [Group.result, List.getElem?_eq_getElem hlt] using hnone

end Results

/-! ### The invariant -/

/-- **The callers of a call get its result**, over what it reads: every result the
log delivers from a call is the one the call recorded, a call being run has none
yet and is run by one thread, and a goroutine about to `Forget` holds its call's
error. -/
structure Agree (log : List Event) (ts : List Pc) (g : Group Unit) : Prop where
  delivered : ∀ (c : Nat) (r : Outcome Unit), (c, r) ∈ deliveries log → g.result c = some r
  running : ∀ (t c : Nat) (pc : Pc), ts[t]? = some pc → pc.runningUpload = some c →
    g.result c = none ∧ c < g.calls.length
  single : ∀ (t t' c : Nat) (pc pc' : Pc), ts[t]? = some pc → ts[t']? = some pc' →
    pc.runningUpload = some c → pc'.runningUpload = some c → t' = t
  forgetting : ∀ (t : Nat) (who : Caller) (dbg : ObjectFile) (c : Nat) (e : String),
    ts[t]? = some (.uploadForget who dbg c e) → g.result c = some (.error e)

/-- The invariant of a state. -/
def AgreeInv (s : State) : Prop := Agree s.log s.threads s.uploadGroup

section Move

variable {log log' : List Event} {ts : List Pc} {g g' : Group Unit} {t : Nat} {pc pc' : Pc}

/-- **A thread's move.** Thread `t` moves from `pc` to `pc'`, which runs the call `pc`
ran or a call the group did not have; the group keeps every result but that of the
call `t` ran, and all its calls; the log delivers `ds` more. -/
theorem Agree.move (h : Agree log ts g) (hpc : ts[t]? = some pc)
    (hres : ∀ c, g'.result c = g.result c ∨ pc.runningUpload = some c)
    (hlen : g.calls.length ≤ g'.calls.length) {ds : List (Nat × Outcome Unit)}
    (hlog : deliveries log' = deliveries log ++ ds)
    (hds : ∀ (c : Nat) (r : Outcome Unit), (c, r) ∈ ds → g'.result c = some r)
    (hrun : ∀ c, pc'.runningUpload = some c → g'.result c = none ∧ c < g'.calls.length)
    (hnew : ∀ c, pc'.runningUpload = some c → pc.runningUpload = some c ∨ g.calls.length ≤ c)
    (hfor : ∀ (who : Caller) (dbg : ObjectFile) (c : Nat) (e : String),
      pc' = .uploadForget who dbg c e → g'.result c = some (.error e)) :
    Agree log' (ts.set t pc') g' := by
  have kept : ∀ {c : Nat} {r : Outcome Unit}, g.result c = some r → g'.result c = some r :=
    fun {c r} hold => (hres c).elim (·.trans hold) fun hr => by
      rw [(h.running t c pc hpc hr).1] at hold
      cases hold
  /- an old thread runs no call that `pc'` runs -/
  have alone : ∀ t₁ c pc₁, t₁ ≠ t → ts[t₁]? = some pc₁ → pc₁.runningUpload = some c →
      pc'.runningUpload ≠ some c := fun t₁ c pc₁ hne ht₁ h₁ h' =>
    (hnew c h').elim (fun h₀ => hne (h.single t t₁ c pc pc₁ hpc ht₁ h₀ h₁))
      fun hge => absurd (h.running t₁ c pc₁ ht₁ h₁).2 (Nat.not_lt.mpr hge)
  refine ⟨fun c r hcr => ?_, fun t' c pc₁ ht' hrun₁ => ?_, fun t₁ t₂ c q₁ q₂ h₁ h₂ hr₁ hr₂ => ?_,
    fun t' who dbg c e ht' => ?_⟩
  · rw [hlog, List.mem_append] at hcr
    exact hcr.elim (fun hcr => kept (h.delivered c r hcr)) (hds c r)
  · rcases getElem?_set_cases ht' with ⟨-, rfl⟩ | ⟨hne, ht'⟩
    · exact hrun c hrun₁
    · obtain ⟨hnone, hlt⟩ := h.running t' c pc₁ ht' hrun₁
      refine ⟨(hres c).elim (·.trans hnone) fun hr => ?_, Nat.lt_of_lt_of_le hlt hlen⟩
      exact absurd (h.single t t' c pc pc₁ hpc ht' hr hrun₁) hne
  · rcases getElem?_set_cases h₁ with ⟨rfl, rfl⟩ | ⟨hne₁, k₁⟩ <;>
      rcases getElem?_set_cases h₂ with ⟨rfl, rfl⟩ | ⟨hne₂, k₂⟩
    · rfl
    · exact absurd hr₁ (alone t₂ c q₂ hne₂ k₂ hr₂)
    · exact absurd hr₂ (alone t₁ c q₁ hne₁ k₁ hr₁)
    · exact h.single t₁ t₂ c q₁ q₂ k₁ k₂ hr₁ hr₂
  · rcases getElem?_set_cases ht' with ⟨-, rfl⟩ | ⟨-, ht'⟩
    · exact hfor who dbg c e rfl
    · exact kept (h.forgetting t' who dbg c e ht')

/-- A new thread, which runs nothing and forgets nothing. -/
theorem Agree.append (h : Agree log ts g) (hrun : pc.runningUpload = none)
    (hfor : ∀ (who : Caller) (dbg : ObjectFile) (c : Nat) (e : String), pc ≠ .uploadForget who dbg c e) :
    Agree log (ts ++ [pc]) g := by
  have old : ∀ {t : Nat} {q : Pc}, (ts ++ [pc])[t]? = some q → q.runningUpload ≠ none →
      ts[t]? = some q := fun {t q} ht hq => by
    rw [List.getElem?_append] at ht
    split at ht
    · exact ht
    · obtain rfl := List.mem_singleton.mp (List.getElem?_mem ht)
      exact absurd hrun hq
  refine ⟨h.delivered, fun t c q ht h₁ => h.running t c q (old ht (by rw [h₁]; nofun)) h₁,
    fun t t' c q q' ht ht' h₁ h₂ =>
      h.single t t' c q q' (old ht (by rw [h₁]; nofun)) (old ht' (by rw [h₂]; nofun)) h₁ h₂,
    fun t who dbg c e ht => ?_⟩
  rw [List.getElem?_append] at ht
  split at ht
  · exact h.forgetting t who dbg c e ht
  · exact absurd (List.mem_singleton.mp (List.getElem?_mem ht)) (hfor who dbg c e).symm

end Move

/-! ### The state's operations -/

section Operations

variable {s : State} (hi : AgreeInv s) {t : Nat} {pc : Pc} (hpc : s.threads[t]? = some pc)
include hi hpc

/-- A move that changes no result, keeps the calls and delivers nothing. -/
theorem AgreeInv.quiet {X : State} {pc' : Pc} (hth : X.threads = s.threads.set t pc')
    (hres : ∀ c, X.uploadGroup.result c = s.uploadGroup.result c)
    (hlen : s.uploadGroup.calls.length ≤ X.uploadGroup.calls.length)
    (hlog : deliveries X.log = deliveries s.log)
    (hrun : pc'.runningUpload = pc.runningUpload ∨ pc'.runningUpload = none)
    (hfor : ∀ (who : Caller) (dbg : ObjectFile) (c : Nat) (e : String),
      pc' = .uploadForget who dbg c e → X.uploadGroup.result c = some (.error e)) :
    AgreeInv X := by
  /- `pc'` runs no call `pc` did not run -/
  have hsub : ∀ c, pc'.runningUpload = some c → pc.runningUpload = some c := fun c hc =>
    hrun.elim (· ▸ hc) fun hr => by rw [hr] at hc; cases hc
  unfold AgreeInv
  rw [hth]
  refine hi.move hpc (fun c => .inl (hres c)) hlen (hlog.trans (List.append_nil _).symm)
    (fun _ _ h => (List.not_mem_nil _ h).elim) (fun c hc => ?_) (fun c hc => .inl (hsub c hc)) hfor
  obtain ⟨hnone, hlt⟩ := hi.running t c pc hpc (hsub c hc)
  exact ⟨(hres c).trans hnone, Nat.lt_of_lt_of_le hlt hlen⟩

/-- A move within the threads and the log of `s`, from a state `X` with its calls. -/
theorem AgreeInv.goto {X : State} {pc' : Pc}
    (hX : deliveries X.log = deliveries s.log ∧ X.threads = s.threads ∧ X.uploadGroup = s.uploadGroup)
    (hrun : pc'.runningUpload = pc.runningUpload ∨ pc'.runningUpload = none)
    (hfor : ∀ (who : Caller) (dbg : ObjectFile) (c : Nat) (e : String),
      pc' = .uploadForget who dbg c e → s.uploadGroup.result c = some (.error e)) :
    AgreeInv (X.goto t pc') :=
  hi.quiet hpc (by rw [State.goto, hX.2.1]) (fun _ => by rw [State.goto, hX.2.2])
    (by rw [State.goto, hX.2.2]) hX.1 hrun fun who dbg c e h => by rw [State.goto, hX.2.2]; exact hfor who dbg c e h

/-- `Extract` returns, from a state `X` with the threads, calls and deliveries of
`s`. -/
theorem AgreeInv.extractReturn {X : State} {who : Caller} {r : Outcome ObjectFile}
    (hX : deliveries X.log = deliveries s.log ∧ X.threads = s.threads ∧ X.uploadGroup = s.uploadGroup) :
    AgreeInv (X.extractReturn t who r) := by
  have hg : (X.extractReturn t who r).uploadGroup = s.uploadGroup := by
    rw [State.extractReturn_uploadGroup, hX.2.2]
  rcases X.extractReturn_cases t who r with ⟨hl, ht⟩ | ⟨src, dbg, hl, ht⟩ | ⟨src, e, hl, ht⟩
  all_goals
    exact hi.quiet hpc (ht.trans (congrArg (List.set · t _) hX.2.1)) (fun _ => by rw [hg])
      (by rw [hg]) (by simp [hl, hX.1, Event.delivery]) (.inr rfl)
      fun _ _ _ _ h => Pc.noConfusion h

/-- `Upload`'s goroutine returns `r`, the result call `c` recorded, from a state `X`
with the threads and calls of `s`. -/
theorem AgreeInv.uploadReturn {X : State} {who : Caller} {dbg : ObjectFile} {c : Option Nat}
    {r : Outcome Unit} {holds : Bool}
    (hX : deliveries X.log = deliveries s.log ∧ X.threads = s.threads ∧
      X.uploadGroup.calls = s.uploadGroup.calls)
    (hr : ∀ c', c = some c' → s.uploadGroup.result c' = some r) :
    AgreeInv (X.uploadReturn t who dbg c r holds) := by
  obtain ⟨hlog, hth, hcalls⟩ := hX
  have hres : ∀ c', X.uploadGroup.result c' = s.uploadGroup.result c' := fun c' => by
    simp only [Group.result, hcalls]
  have hds : deliveries (X.log ++ (.received t dbg c r :: who.returned t r)) =
      deliveries s.log ++ (c.map fun c' => (c', r)).toList := by
    cases c <;> simp [hlog, Event.delivery]
  unfold AgreeInv State.uploadReturn State.goto State.emit
  dsimp only
  rw [hth]
  refine hi.move hpc (fun c' => .inl (hres c')) (by rw [hcalls]) hds (fun c' r' h => ?_)
    (fun c' h => by cases holds <;> cases h) (fun c' h => by cases holds <;> cases h)
    (fun _ _ _ _ h => by cases holds <;> cases h)
  cases c with
  | none => cases h
  | some c =>
    simp only [Option.map_some', Option.toList_some, List.mem_singleton, Prod.mk.injEq] at h
    obtain ⟨rfl, rfl⟩ := h
    rw [hres]
    exact hr _ rfl

/-- The execution of call `c` completes with `r`, from a state `X` with the
threads and calls of `s` and no more deliveries. -/
theorem AgreeInv.uploadComplete {X : State} {who : Caller} {dbg : ObjectFile} {c : Nat}
    {r : Outcome Unit} (hu : pc.runningUpload = some c)
    (hX : deliveries X.log = deliveries s.log ∧ X.threads = s.threads ∧ X.uploadGroup = s.uploadGroup) :
    AgreeInv (X.uploadComplete t who dbg c r) := by
  obtain ⟨hlog, hth, hg⟩ := hX
  obtain ⟨call, hcall, -⟩ := Group.exists_call_of_result (hi.running t c pc hpc hu).1
    (hi.running t c pc hpc hu).2
  have key : ∀ (L : List Event) (pc' : Pc) (ds : List (Nat × Outcome Unit)),
      deliveries L = deliveries X.log ++ ds → (∀ c' r', (c', r') ∈ ds → c' = c ∧ r' = r) →
      pc'.runningUpload = none →
      (∀ (who : Caller) (dbg : ObjectFile) (c' : Nat) (e : String),
        pc' = .uploadForget who dbg c' e → c' = c ∧ r = .error e) →
      Agree L (X.threads.set t pc') (X.uploadGroup.complete c r) := by
    intro L pc' ds hL hds hrun hfor
    rw [hth, hg]
    have hdone := Group.result_complete hcall r
    refine hi.move hpc (fun c' => ?_) (Group.length_complete _ c r).ge (hL.trans (by rw [hlog]))
      (fun c' r' h => ?_) (fun c' h => by rw [hrun] at h; cases h)
      (fun c' h => by rw [hrun] at h; cases h) (fun who dbg c' e h => ?_)
    · by_cases e : c' = c
      · exact .inr (e ▸ hu)
      · exact .inl (Group.result_complete_of_ne e r)
    · obtain ⟨rfl, rfl⟩ := hds c' r' h
      exact hdone
    · obtain ⟨rfl, rfl⟩ := hfor who dbg c' e h
      exact hdone
  rcases r with ⟨⟩ | e
  · exact key _ _ [(c, .ok ())] (by simp [Event.delivery]) (by simp) rfl fun _ _ _ _ h => Pc.noConfusion h
  · exact key _ _ [] (by simp) (by simp) rfl fun _ _ _ _ h => by cases h; exact ⟨rfl, rfl⟩

end Operations

/-! ### Runs -/

variable (cfg : Config)

theorem AgreeInv.thread {s s' : State} {t : Nat} {pc : Pc} (hi : AgreeInv s)
    (hpc : s.threads[t]? = some pc) (hm : Move cfg s t pc s') : AgreeInv s' := by
  cases hm with
  | elfFailed | elfKept | extracted | extractFailed | joinedExtracted | extractForgot =>
    exact hi.extractReturn hpc ⟨rfl, rfl, rfl⟩
  | acquireFailed => exact hi.uploadReturn hpc ⟨rfl, rfl, rfl⟩ fun _ h => Option.noConfusion h
  | uploadJoin he =>
    exact hi.quiet hpc rfl (Group.result_enter_join he) (Group.length_le_enter he) rfl
      (.inr rfl) fun _ _ _ _ h => Pc.noConfusion h
  | uploadInstall he =>
    obtain ⟨rfl, hcalls⟩ := Group.calls_enter_install he
    refine hi.move hpc (fun c => .inl (Group.result_enter_install he c)) (Group.length_le_enter he)
      (List.append_nil _).symm (fun _ _ h => (List.not_mem_nil _ h).elim) (fun c hc => ?_)
      (fun c hc => .inr (Option.some.inj hc).le) fun _ _ _ _ h => Pc.noConfusion h
    obtain rfl := Option.some.inj hc
    refine ⟨(Group.result_enter_install he _).trans ?_, ?_⟩
    · simp [Group.result]
    · simp [hcalls]
  | recheckHit | recheckNo | hashReaderFailed | hashFailed | alreadyExists | initiateFailed
    | transferReaderFailed | transferRefused | transferFailed | marked | markFailed =>
    exact hi.uploadComplete hpc rfl ⟨by simp [Event.delivery], rfl, rfl⟩
  | recheckMiss | recheckGo | hashHit | hashMiss | hashed | initiated | transferred =>
    exact hi.goto hpc ⟨by simp [Event.delivery], rfl, rfl⟩ (.inl rfl) fun _ _ _ _ h => Pc.noConfusion h
  | joinedUploaded hr => exact hi.uploadReturn hpc ⟨rfl, rfl, rfl⟩ fun _ h => by cases h; exact hr
  | joinedUploadFailed hr =>
    exact hi.goto hpc ⟨rfl, rfl, rfl⟩ (.inr rfl) fun _ _ _ _ h => by cases h; exact hr
  | uploadForgot =>
    exact hi.uploadReturn hpc ⟨rfl, rfl, rfl⟩ fun _ h => by
      cases h
      exact hi.forgetting t _ _ _ _ hpc
  | _ =>
    exact hi.goto hpc ⟨by simp [Event.delivery], rfl, rfl⟩ (.inr rfl) fun _ _ _ _ h => Pc.noConfusion h

theorem AgreeInv.step {s s' : State} {a : Action} (hi : AgreeInv s)
    (h : step cfg s a = some s') : AgreeInv s' := by
  cases a with
  | thread t a =>
    obtain ⟨pc, hpc, h⟩ := Option.bind_eq_some.mp h
    exact hi.thread cfg hpc (threadStep_move cfg h)
  | spawn i =>
    obtain ⟨file, -, rfl⟩ := Option.map_eq_some'.mp h
    exact Agree.append hi (by cases i <;> rfl) fun _ _ _ _ h => by cases i <;> cases h
  | evict b =>
    cases h
    exact { hi with delivered := fun c r h => hi.delivered c r (by simpa [Event.delivery] using h) }
  | evictHash k => cases h; exact hi

theorem agreeInv_init (files : List ObjectFile) : AgreeInv (init files) :=
  ⟨fun _ _ h => (List.not_mem_nil _ h).elim, fun _ _ _ h => by simp [init] at h,
    fun _ _ _ _ _ h => by simp [init] at h, fun _ _ _ _ _ h => by simp [init] at h⟩

theorem Reachable.agreeInv {files : List ObjectFile} {s : State} (hs : Reachable cfg files s) :
    AgreeInv s := by
  induction hs with
  | init => exact agreeInv_init files
  | step _ h ih => exact ih.step cfg h

/-- An `Upload` of `probeFile` that finds the server answering that no upload is
needed, and returns. -/
def uploadAnsweredNo : List Action :=
  [.spawn (.upload 0), .thread 0 (.acquire (.ok ())), .thread 0 .none, .thread 0 .none,
    .thread 0 (.rpc (.ok false))]

end Debuginfo

end ParcaAgent

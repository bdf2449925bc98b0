import ParcaAgent.Debuginfo.Manager

/-!
# The upload tokens

`Upload`'s goroutine takes a token of `uploadTaskTokens` before
`uploadSingleflight.Do` and gives it back in a deferred `Release`, after it has
sent its result. The token count of the semaphore is the number of goroutines
between the two, and every goroutine's `Release`s and the token it still holds add
up to its successful `Acquire`s (`ParcaAgent.Debuginfo.TokenInv`).

`semaphore.NewWeighted(int64(uploadMaxParallel))` lets an `Acquire` through only
while fewer than `uploadMaxParallel` tokens are taken. So at most
`max 0 uploadMaxParallel` goroutines hold one: with `uploadMaxParallel ≤ 0`, none
ever does, and every `Upload` waits until its context is done.
-/

namespace ParcaAgent

namespace Debuginfo

/-! ### Goroutines holding a token -/

/-- The points where `Upload`'s goroutine holds a token: from a successful
`Acquire` to its deferred `Release`. -/
def Pc.holdsToken : Pc → Bool
  | .uploadDo .. | .uploadRecheck .. | .uploadAsk .. | .uploadHash .. | .uploadHashCompute ..
  | .uploadInitiate .. | .uploadTransfer .. | .uploadMark .. | .uploadWait .. | .uploadForget ..
  | .uploadRelease => true
  | _ => false

/-- Whether a thread is in an execution of `upload`. -/
def Pc.runsUpload (pc : Pc) : Bool := pc.execution.isSome

/-- An execution of `upload` runs in a goroutine holding a token. -/
theorem Pc.holdsToken_of_runsUpload {pc : Pc} (h : pc.runsUpload = true) : pc.holdsToken = true := by
  cases pc <;> first | rfl | cases h

/-- Whether thread `t` holds a token. -/
def holding (ts : List Pc) (t : Nat) : Bool := ((ts[t]?).map Pc.holdsToken).getD false

/-- The goroutines holding a token. -/
def State.holders (s : State) : Nat := s.threads.countP Pc.holdsToken

/-- The executions of `upload` in progress, over all build IDs. -/
def State.uploadsRunning (s : State) : Nat := s.threads.countP Pc.runsUpload

/-- Moving one element of a list changes a count by the two elements' shares. -/
theorem countP_set_add {α : Type} (p : α → Bool) {l : List α} {t : Nat} {a : α}
    (h : l[t]? = some a) (b : α) :
    (l.set t b).countP p + (if p a then 1 else 0) = l.countP p + (if p b then 1 else 0) := by
  obtain ⟨ht, rfl⟩ := List.getElem?_eq_some_iff.mp h
  have := List.boole_getElem_le_countP p l t ht
  rw [List.countP_set p l t b ht]
  omega

theorem countP_set_eq {α : Type} (p : α → Bool) {l : List α} {t : Nat} {a : α} (h : l[t]? = some a)
    (b : α) : (l.set t b).countP p = l.countP p + (if p b then 1 else 0) - (if p a then 1 else 0) := by
  have := countP_set_add p h b
  omega

theorem holding_set {ts : List Pc} {t : Nat} {pc : Pc} (h : ts[t]? = some pc) (b : Pc) (t' : Nat) :
    holding (ts.set t b) t' = if t = t' then b.holdsToken else holding ts t' := by
  have ht : t < ts.length := (List.getElem?_eq_some_iff.mp h).1
  by_cases e : t = t'
  · subst e
    simp [holding, ht]
  · simp [holding, List.getElem?_set, e]

theorem holding_eq {ts : List Pc} {t : Nat} {pc : Pc} (h : ts[t]? = some pc) :
    holding ts t = pc.holdsToken := by
  simp [holding, h]

/-- A point of the threads after thread `t` moved to `pc'`: that of `t`, or an old
one. -/
theorem getElem?_set_cases {ts : List Pc} {t j : Nat} {pc pc' : Pc} (h : (ts.set t pc')[j]? = some pc) :
    j = t ∧ pc = pc' ∨ j ≠ t ∧ ts[j]? = some pc := by
  rw [List.getElem?_set] at h
  split at h
  · split at h <;> cases h
    exact .inl ⟨(‹t = j›).symm, rfl⟩
  · exact .inr ⟨Ne.symm ‹_›, h⟩

/-- Whether an event is an operation on the semaphore. -/
def Event.isToken : Event → Bool
  | .acquired _ | .released _ => true
  | _ => false

theorem count_eq_zero_of_not_token {es : List Event} (h : es.any Event.isToken = false) (t : Nat) :
    es.count (.acquired t) = 0 ∧ es.count (.released t) = 0 := by
  simp only [List.any_eq_false] at h
  exact ⟨List.count_eq_zero.mpr fun he => h _ he rfl, List.count_eq_zero.mpr fun he => h _ he rfl⟩

theorem Caller.isToken_returned (who : Caller) (t : Nat) (r : Outcome Unit) :
    (who.returned t r).any Event.isToken = false := by
  cases who <;> rfl

/-! ### The accounting -/

variable (cfg : Config)

/-- **The token accounting**: the semaphore's count is the number of goroutines
holding a token, which stays within the semaphore's size, and for every goroutine
its `Release`s and the token it holds add up to its successful `Acquire`s. -/
structure TokenInv (s : State) : Prop where
  tokens_eq : s.tokens = s.holders
  le_size : (s.tokens : Int) ≤ max 0 cfg.uploadMaxParallel
  per_thread : ∀ t, s.log.count (.acquired t) = s.log.count (.released t) + (if holding s.threads t then 1 else 0)

theorem tokenInv_init (files : List ObjectFile) : TokenInv cfg (init files) :=
  ⟨rfl, by simp [init], fun t => by simp [init, holding]⟩

section Moves

variable {cfg} {s s' : State} (hi : TokenInv cfg s) {t : Nat} {pc pc' : Pc}
  (hpc : s.threads[t]? = some pc) (hth : s'.threads = s.threads.set t pc')
include hi hpc hth

/-- A step that neither takes nor gives back a token. -/
theorem TokenInv.stay {es : List Event} (hlog : s'.log = s.log ++ es)
    (hes : es.any Event.isToken = false) (hhold : pc'.holdsToken = pc.holdsToken)
    (htok : s'.tokens = s.tokens) : TokenInv cfg s' := by
  have hh : s'.holders = s.holders := by
    rw [State.holders, State.holders, hth, countP_set_eq _ hpc, hhold]
    omega
  refine ⟨by rw [hh, htok, hi.tokens_eq], by rw [htok]; exact hi.le_size, fun t' => ?_⟩
  obtain ⟨ha, hr⟩ := count_eq_zero_of_not_token hes t'
  rw [hlog, List.count_append, List.count_append, ha, hr, hth, holding_set hpc, hi.per_thread t']
  rcases eq_or_ne t t' with rfl | e
  · rw [if_pos rfl, hhold, holding_eq hpc]
    omega
  · rw [if_neg e]
    omega

/-- `Acquire` succeeds: the goroutine takes a token. -/
theorem TokenInv.acquire (hlog : s'.log = s.log ++ [.acquired t]) (hp : pc.holdsToken = false)
    (hp' : pc'.holdsToken = true) (htok : s'.tokens = s.tokens + 1)
    (hle : (s.tokens : Int) + 1 ≤ cfg.uploadMaxParallel) : TokenInv cfg s' := by
  have hh : s'.holders = s.holders + 1 := by
    rw [State.holders, State.holders, hth, countP_set_eq _ hpc, hp, hp']
    rfl
  refine ⟨by rw [hh, htok, hi.tokens_eq], ?_, fun t' => ?_⟩
  · rw [htok]
    omega
  · rw [hlog, List.count_append, List.count_append, hth, holding_set hpc, hi.per_thread t']
    rcases eq_or_ne t t' with rfl | e
    · simp [holding_eq hpc, hp, hp']
    · simp [e, e.symm]

/-- The deferred `Release`: the goroutine gives its token back. -/
theorem TokenInv.release (hlog : s'.log = s.log ++ [.released t]) (hp : pc.holdsToken = true)
    (hp' : pc'.holdsToken = false) (htok : s'.tokens = s.tokens - 1) : TokenInv cfg s' := by
  have hpos : 0 < s.holders := List.countP_pos_iff.mpr ⟨pc, List.getElem?_mem hpc, hp⟩
  have hh : s'.holders = s.holders - 1 := by
    rw [State.holders, State.holders, hth, countP_set_eq _ hpc, hp, hp']
    rfl
  refine ⟨by rw [hh, htok, hi.tokens_eq], ?_, fun t' => ?_⟩
  · have := hi.le_size
    rw [htok]
    omega
  · have := hi.per_thread t'
    rw [hlog, List.count_append, List.count_append, hth, holding_set hpc]
    rcases eq_or_ne t t' with rfl | e
    · simp only [holding_eq hpc, hp] at this
      simp [hp', this]
    · simpa [e, e.symm] using this

end Moves

/-- `Extract` returns in a thread that holds no token. -/
theorem TokenInv.extractReturn {s X : State} (hi : TokenInv cfg s) {t : Nat} {pc : Pc}
    (hpc : s.threads[t]? = some pc) (hp : pc.holdsToken = false) (hth : X.threads = s.threads)
    (hlog : X.log = s.log) (htok : X.tokens = s.tokens) (who : Caller) (r : Outcome ObjectFile) :
    TokenInv cfg (X.extractReturn t who r) := by
  have htok' : (X.extractReturn t who r).tokens = s.tokens := by
    rw [State.extractReturn_tokens, htok]
  rcases X.extractReturn_cases t who r with ⟨hl, ht⟩ | ⟨src, dbg, hl, ht⟩ | ⟨src, e, hl, ht⟩
  all_goals rw [hth] at ht; rw [hlog] at hl
  · exact hi.stay hpc ht (hl.trans (List.append_nil _).symm) rfl hp.symm htok'
  · exact hi.stay hpc ht (hl.trans (List.append_nil _).symm) rfl hp.symm htok'
  · exact hi.stay hpc ht hl rfl hp.symm htok'

theorem TokenInv.thread {s s' : State} {t : Nat} {pc : Pc} (hi : TokenInv cfg s)
    (hpc : s.threads[t]? = some pc) (hm : Move cfg s t pc s') : TokenInv cfg s' := by
  cases hm with
  | acquired hle => exact hi.acquire hpc rfl rfl rfl rfl rfl hle
  | released => exact hi.release hpc rfl rfl rfl rfl rfl
  | elfFailed | elfKept | extracted | extractFailed | joinedExtracted | extractForgot =>
    refine hi.extractReturn cfg hpc rfl ?_ ?_ ?_ _ _ <;> rfl
  | gateHit | gateNo => exact hi.stay hpc rfl (List.append_assoc _ _ _) rfl rfl rfl
  | gateGo | recheckGo | initiated | initiateFailed | transferred | transferFailed | markFailed =>
    exact hi.stay hpc rfl rfl rfl rfl rfl
  | @acquireFailed who | @joinedUploaded who | @uploadForgot who =>
    exact hi.stay hpc rfl rfl (Caller.isToken_returned who t _) rfl rfl
  | @recheckHit who | @recheckNo who | @alreadyExists who | @marked who =>
    exact hi.stay hpc rfl (List.append_assoc _ _ _) (Caller.isToken_returned who t _) rfl rfl
  | _ => exact hi.stay hpc rfl (List.append_nil _).symm rfl rfl rfl

theorem holding_append_start (ts : List Pc) (pc : Pc) (hpc : pc.holdsToken = false) (t : Nat) :
    holding (ts ++ [pc]) t = holding ts t := by
  rcases lt_or_le t ts.length with h | h
  · simp [holding, List.getElem?_append_left h]
  · rcases h.lt_or_eq with h | rfl
    · simp [holding, List.getElem?_eq_none_iff.mpr h.le, List.getElem?_append_right h.le,
        List.getElem?_eq_none_iff.mpr (by simp; omega : [pc].length ≤ t - ts.length)]
    · simp [holding, hpc]

theorem TokenInv.step {s s' : State} {a : Action} (hi : TokenInv cfg s)
    (h : step cfg s a = some s') : TokenInv cfg s' := by
  cases a with
  | thread t a =>
    obtain ⟨pc, hpc, h⟩ := Option.bind_eq_some.mp h
    exact hi.thread cfg hpc (threadStep_move cfg h)
  | spawn i =>
    obtain ⟨file, -, rfl⟩ := Option.map_eq_some'.mp h
    have : (i.start file).holdsToken = false := by cases i <;> rfl
    exact ⟨by simp [State.holders, hi.tokens_eq, this], hi.le_size, fun t => by
      simpa [holding_append_start _ _ this] using hi.per_thread t⟩
  | evict b => cases h; exact ⟨hi.tokens_eq, hi.le_size, fun t => by simpa using hi.per_thread t⟩
  | evictHash k => cases h; exact ⟨hi.tokens_eq, hi.le_size, hi.per_thread⟩

theorem Reachable.tokenInv {files : List ObjectFile} {s : State} (hs : Reachable cfg files s) :
    TokenInv cfg s := by
  induction hs with
  | init => exact tokenInv_init cfg files
  | step _ h ih => exact ih.step cfg h

/-- **The upload tokens.** In every reachable state, the executions of `upload` in
progress run in goroutines holding a token; at most `max 0 uploadMaxParallel`
goroutines hold one; the semaphore's count is their number; and every goroutine's
`Release`s plus the token it still holds equal its successful `Acquire`s. So a
failed `Acquire` is given back nothing, and once every goroutine has finished, all
tokens are free. -/
theorem upload_tokens_bounded (files : List ObjectFile) (s : State) (hs : Reachable cfg files s) :
    s.uploadsRunning ≤ s.holders ∧ (s.holders : Int) ≤ max 0 cfg.uploadMaxParallel ∧
      s.tokens = s.holders ∧
      ∀ t, s.log.count (.acquired t) =
        s.log.count (.released t) + (if holding s.threads t then 1 else 0) := by
  have hi := hs.tokenInv cfg
  refine ⟨List.countP_mono_left fun pc _ => Pc.holdsToken_of_runsUpload, ?_, hi.tokens_eq,
    hi.per_thread⟩
  rw [← hi.tokens_eq]
  exact hi.le_size

/-- Four upload tokens, both caches on, stripping on; a file's hash is its bytes. -/
def sampleConfig : Config := ⟨4, false, true, id⟩

/-- An executable with a `.text` section. -/
def probeFile : ObjectFile := ⟨"b", "/bin/a", ⟨0, 0⟩, 10, "elf", true⟩

/-- An `Upload` whose context is done before it gets a token; then an `Upload` that
takes one, is answered false at its re-check, and gives the token back. -/
def cancelThenRelease : List Action :=
  [.spawn (.upload 0), .thread 0 (.acquire (.error "context canceled")), .spawn (.upload 0),
    .thread 1 (.acquire (.ok ())), .thread 1 .none, .thread 1 .none, .thread 1 (.rpc (.ok false)),
    .thread 1 .none]

theorem upload_tokens_bounded_cancelThenRelease :
    ∃ s, Reachable sampleConfig [probeFile] s ∧
      Event.received 0 probeFile none
        (.error "failed to acquire upload task token: context canceled") ∈ s.log ∧
      Event.released 1 ∈ s.log ∧
      (s.uploadsRunning ≤ s.holders ∧ (s.holders : Int) ≤ max 0 sampleConfig.uploadMaxParallel ∧
        s.tokens = s.holders ∧
        ∀ t, s.log.count (.acquired t) =
          s.log.count (.released t) + (if holding s.threads t then 1 else 0)) := by
  obtain ⟨s, hs, h⟩ := reach_of_run sampleConfig [probeFile] cancelThenRelease
    (p := fun s => decide (Event.received 0 probeFile none
      (.error "failed to acquire upload task token: context canceled") ∈ s.log) &&
        decide (Event.released 1 ∈ s.log)) (by decide)
  simp only [Bool.and_eq_true, decide_eq_true_eq] at h
  exact ⟨s, hs, h.1, h.2, upload_tokens_bounded sampleConfig [probeFile] s hs⟩

/-- A manager built with `uploadMaxParallel = -1`. -/
def negativeParallelism : Config := ⟨-1, false, true, id⟩

/-- With `uploadMaxParallel = -1` the goroutines holding a token, none, are already
more than `uploadMaxParallel`, and an `Upload` cannot take a token. -/
theorem negative_parallelism_exceeds_bound :
    ∃ s, Reachable negativeParallelism [probeFile] s ∧
      ¬ ((s.holders : Int) ≤ negativeParallelism.uploadMaxParallel) ∧
      (run negativeParallelism s [.spawn (.upload 0), .thread 0 (.acquire (.ok ()))]).isNone :=
  ⟨_, .init, by decide, by decide⟩

end Debuginfo

end ParcaAgent

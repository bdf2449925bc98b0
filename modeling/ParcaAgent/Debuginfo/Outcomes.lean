import ParcaAgent.Debuginfo.Flights

/-!
# What a successful `EnsureUploaded` rests on

`EnsureUploaded(src)` returns nil in two ways. Its own `shouldInitiate` lets it go
at once, because `src.BuildID` is in `shouldInitiateCache` or the server answers
`ShouldInitiateUpload` with false; an error of that call fails open. Or `Upload`
of the debug file `dbg` returns nil, which is the result of the upload execution
`Do` handed it, its own or the one it joined. That execution returns nil when its
re-check finds `dbg.BuildID` cached or answered false, when `InitiateUpload` fails
with `AlreadyExists`, or when the body is sent and `MarkUploadFinished` accepts the
upload ID that execution's own `InitiateUpload` returned. Every other path returns
an error.

`ParcaAgent.Debuginfo.OutcomeInv` carries this over every run: each cached build ID
has a reply that put it there, each successful call of the upload group has the
requests that make it a success, and each nil returned by `EnsureUploaded` has one
of the reasons above, all in the log.

The cache entry that a reply puts stays until it is evicted, and while it stays,
an `EnsureUploaded` on a file of that build ID returns nil in one step that asks
nobody (`ParcaAgent.Debuginfo.ensureUploaded_noop_while_cached`). A full upload
puts nothing in the cache, so after one the next `EnsureUploaded` asks the server
again (`ParcaAgent.Debuginfo.second_ensureUploaded_asks_after_upload`).
-/

namespace ParcaAgent

namespace Debuginfo

/-! ### The evidence in the log -/

/-- The replies that put `b` in `shouldInitiateCache`: `ShouldInitiateUpload(b)`
answered false, or `InitiateUpload` for a file of build ID `b` failed with
`AlreadyExists`. -/
def Cached (log : List Event) (b : String) : Prop :=
  (∃ w, .asked w b (.ok false) ∈ log) ∨
    ∃ c dbg h, dbg.buildID = b ∧ .initiated c dbg h .alreadyExists ∈ log

/-- The `shouldInitiate` of thread `t`'s `EnsureUploaded` let it return at once:
`b` was cached, or the server answered false. -/
def GateSucceeded (log : List Event) (t : Nat) (b : String) : Prop :=
  .cacheHit (.gate t) b ∈ log ∨ .asked (.gate t) b (.ok false) ∈ log

/-- The upload execution of call `c` succeeded on build ID `b`: its re-check found
`b` cached or answered false, `InitiateUpload` failed with `AlreadyExists`, or it
sent the body and `MarkUploadFinished` accepted the upload ID its own
`InitiateUpload` returned. -/
def ExecSucceeded (log : List Event) (c : Nat) (b : String) : Prop :=
  .cacheHit (.exec c) b ∈ log ∨ .asked (.exec c) b (.ok false) ∈ log ∨
    (∃ dbg h, dbg.buildID = b ∧ .initiated c dbg h .alreadyExists ∈ log) ∨
    ∃ dbg h u st, dbg.buildID = b ∧
      List.Sublist
        [.initiated c dbg h (.ok u st), .transferred c dbg u (.ok ()), .marked c b u (.ok ())] log

/-- Why thread `t`'s `EnsureUploaded`, on a file of build ID `b`, may return nil:
its own check, or the upload execution whose result its `Upload(dbg)` received. -/
def EnsureSucceeded (log : List Event) (t : Nat) (b : String) : Prop :=
  GateSucceeded log t b ∨
    ∃ dbg c, .received t dbg (some c) (.ok ()) ∈ log ∧ ExecSucceeded log c dbg.buildID

/-- What an execution has been told by the time it reaches a point: the upload ID
it sends the body under, and then that the body was sent. -/
def PcOk (log : List Event) : Pc → Prop
  | .uploadTransfer _ dbg c u st => ∃ h, .initiated c dbg h (.ok u st) ∈ log
  | .uploadMark _ dbg c u =>
    ∃ h st, List.Sublist [.initiated c dbg h (.ok u st), .transferred c dbg u (.ok ())] log
  | _ => True

section Mono

variable {l l' : List Event}

theorem Cached.mono (hl : List.Sublist l l') {b : String} : Cached l b → Cached l' b
  | .inl ⟨w, h⟩ => .inl ⟨w, hl.subset h⟩
  | .inr ⟨c, dbg, h, hb, he⟩ => .inr ⟨c, dbg, h, hb, hl.subset he⟩

theorem ExecSucceeded.mono (hl : List.Sublist l l') {c : Nat} {b : String} :
    ExecSucceeded l c b → ExecSucceeded l' c b
  | .inl h => .inl (hl.subset h)
  | .inr (.inl h) => .inr (.inl (hl.subset h))
  | .inr (.inr (.inl ⟨dbg, h, hb, he⟩)) => .inr (.inr (.inl ⟨dbg, h, hb, hl.subset he⟩))
  | .inr (.inr (.inr ⟨dbg, h, u, st, hb, he⟩)) => .inr (.inr (.inr ⟨dbg, h, u, st, hb, he.trans hl⟩))

theorem EnsureSucceeded.mono (hl : List.Sublist l l') {t : Nat} {b : String} :
    EnsureSucceeded l t b → EnsureSucceeded l' t b
  | .inl (.inl h) => .inl (.inl (hl.subset h))
  | .inl (.inr h) => .inl (.inr (hl.subset h))
  | .inr ⟨dbg, c, h, he⟩ => .inr ⟨dbg, c, hl.subset h, he.mono hl⟩

theorem PcOk.mono (hl : List.Sublist l l') : ∀ {pc : Pc}, PcOk l pc → PcOk l' pc
  | .uploadTransfer .., ⟨h, he⟩ => ⟨h, hl.subset he⟩
  | .uploadMark .., ⟨h, st, he⟩ => ⟨h, st, he.trans hl⟩
  | .ensureGate .., _ | .ensureAsk .., _ | .ensureFind .., _ | .extractElf .., _
  | .extractRun .., _ | .extractWait .., _ | .extractForget .., _ | .uploadAcquire .., _
  | .uploadDo .., _ | .uploadRecheck .., _ | .uploadAsk .., _ | .uploadHash .., _
  | .uploadHashCompute .., _ | .uploadInitiate .., _ | .uploadWait .., _
  | .uploadForget .., _ | .uploadRelease, _ | .done, _ => trivial

end Mono

/-- The build ID a reply puts in `shouldInitiateCache`, if any. -/
def Event.caches : Event → Option String
  | .asked _ b r => if r = .ok false then some b else none
  | .initiated _ dbg _ r => if r = .alreadyExists then some dbg.buildID else none
  | _ => none

theorem Cached.of_caches {l : List Event} {e : Event} (he : e ∈ l) {b : String}
    (hb : e.caches = some b) : Cached l b := by
  unfold Event.caches at hb
  split at hb
  · split at hb <;> cases hb
    subst_vars
    exact .inl ⟨_, he⟩
  · split at hb <;> cases hb
    subst_vars
    exact .inr ⟨_, _, _, rfl, he⟩
  · cases hb

/-- An event the invariant has nothing to learn from: it returns nothing from
`EnsureUploaded`, caches nothing and evicts nothing. -/
def Event.quiet : Event → Bool
  | .ensureReturned _ _ (.ok ()) | .evicted _ => false
  | e => e.caches.isNone

theorem Event.quiet_spec {e : Event} (h : e.quiet = true) :
    e.caches = none ∧ (∀ b, e ≠ .evicted b) ∧ ∀ t f, e ≠ .ensureReturned t f (.ok ()) := by
  unfold Event.quiet at h
  split at h
  · cases h
  · cases h
  · next hne hne' => exact ⟨Option.isNone_iff_eq_none.mp h, fun b he => hne' b (he ▸ rfl),
      fun t f he => hne t f (he ▸ rfl)⟩

/-- A decomposition of a log that grew: the split event is an old one, or a new
one. -/
theorem split_append {l es l₁ l₂ : List Event} {e : Event} (h : l ++ es = l₁ ++ e :: l₂) :
    (∃ l₂', l = l₁ ++ e :: l₂' ∧ l₂ = l₂' ++ es) ∨ e ∈ es := by
  rcases List.append_eq_append_iff.mp h with ⟨a', rfl, rfl⟩ | ⟨c', rfl, hc⟩
  · exact .inr (List.mem_append_right _ (List.mem_cons_self _ _))
  · rcases c' with _ | ⟨x, c'⟩
    · rw [List.nil_append] at hc
      exact .inr (hc ▸ List.mem_cons_self _ _)
    · obtain ⟨rfl, rfl⟩ := List.cons_eq_cons.mp hc
      exact .inl ⟨c', rfl, rfl⟩

/-! ### The invariant -/

/-- **The evidence of every success**, over the fields it reads: the callers'
files, the log, the threads, the cache and the upload group, with the cache on or
off. -/
structure Outcomes (cacheOn : Bool) (sources : List ObjectFile) (log : List Event) (threads : List Pc)
    (cache : Finset String) (g : Group Unit) : Prop where
  cached : ∀ b ∈ cache, Cached log b
  /-- With the cache on, a reply that caches `b` keeps it cached until `b` is
  evicted. -/
  kept : cacheOn = true → ∀ l₁ e l₂ b, log = l₁ ++ e :: l₂ → e.caches = some b →
    .evicted b ∉ l₂ → b ∈ cache
  results : ∀ c call, g.calls[c]? = some call → call.result = some (.ok ()) →
    ExecSucceeded log c call.key
  pcs : ∀ pc ∈ threads, PcOk log pc
  returned : ∀ t src f, sources[src]? = some f → .ensureReturned t src (.ok ()) ∈ log →
    EnsureSucceeded log t f.buildID

/-- The invariant of a state. -/
def OutcomeInv (cfg : Config) (s : State) : Prop :=
  Outcomes (!cfg.cacheDisabled) s.sources s.log s.threads s.shouldInitiateCache s.uploadGroup

section Fields

variable {cacheOn : Bool} {src : List ObjectFile} {log : List Event} {ts : List Pc}
  {cache : Finset String} {g : Group Unit}

theorem Outcomes.append (h : Outcomes cacheOn src log ts cache g) {es : List Event}
    (hq : ∀ e ∈ es, e.caches = none ∧ ∀ b, e ≠ .evicted b)
    (hes : ∀ t f, .ensureReturned t f (.ok ()) ∈ es → ∀ file, src[f]? = some file →
      EnsureSucceeded (log ++ es) t file.buildID) :
    Outcomes cacheOn src (log ++ es) ts cache g where
  cached b hb := (h.cached b hb).mono (List.sublist_append_left _ _)
  kept hon l₁ e l₂ b hlog he hev := (split_append hlog).elim
    (fun ⟨l₂', h₁, h₂⟩ => h.kept hon l₁ e l₂' b h₁ he fun hm => hev (h₂ ▸ List.mem_append_left _ hm))
    (fun hm => absurd he (by rw [(hq e hm).1]; exact Option.noConfusion))
  results c call hc hr := (h.results c call hc hr).mono (List.sublist_append_left _ _)
  pcs pc hpc := (h.pcs pc hpc).mono (List.sublist_append_left _ _)
  returned t f file hf he := (List.mem_append.mp he).elim
    (fun he => (h.returned t f file hf he).mono (List.sublist_append_left _ _))
    (fun he => hes t f he file hf)

/-- Quiet events keep the invariant. -/
theorem Outcomes.append_quiet (h : Outcomes cacheOn src log ts cache g) {es : List Event}
    (hes : ∀ e ∈ es, e.quiet = true) : Outcomes cacheOn src (log ++ es) ts cache g :=
  h.append (fun e he => ⟨(Event.quiet_spec (hes e he)).1, (Event.quiet_spec (hes e he)).2.1⟩)
    fun t f he => absurd rfl ((Event.quiet_spec (hes _ he)).2.2 t f)

/-- A reply that caches `b`, and `b` put in the cache. -/
theorem Outcomes.append_put (h : Outcomes cacheOn src log ts cache g) {e : Event} {b : String}
    (he : e.caches = some b) : Outcomes cacheOn src (log ++ [e]) ts (insert b cache) g where
  cached b' hb' := (Finset.mem_insert.mp hb').elim
    (fun hb => hb ▸ Cached.of_caches (List.mem_append_right _ (List.mem_singleton_self _)) he)
    fun hb => (h.cached b' hb).mono (List.sublist_append_left _ _)
  kept hon l₁ e' l₂ b' hlog he' hev := (split_append hlog).elim
    (fun ⟨l₂', h₁, h₂⟩ => Finset.mem_insert_of_mem
      (h.kept hon l₁ e' l₂' b' h₁ he' fun hm => hev (h₂ ▸ List.mem_append_left _ hm)))
    fun hm => by
      rw [List.mem_singleton.mp hm, he] at he'
      cases he'
      exact Finset.mem_insert_self _ _
  results c call hc hr := (h.results c call hc hr).mono (List.sublist_append_left _ _)
  pcs pc hpc := (h.pcs pc hpc).mono (List.sublist_append_left _ _)
  returned t f file hf hr := (List.mem_append.mp hr).elim
    (fun hr => (h.returned t f file hf hr).mono (List.sublist_append_left _ _))
    fun hr => absurd he (by rw [← List.mem_singleton.mp hr]; simp [Event.caches])

/-- With the cache off, a reply that caches nothing in it. -/
theorem Outcomes.append_off (h : Outcomes false src log ts cache g) {e : Event} {b : String}
    (he : e.caches = some b) : Outcomes false src (log ++ [e]) ts cache g where
  cached b' hb' := (h.cached b' hb').mono (List.sublist_append_left _ _)
  kept hon := nomatch hon
  results c call hc hr := (h.results c call hc hr).mono (List.sublist_append_left _ _)
  pcs pc hpc := (h.pcs pc hpc).mono (List.sublist_append_left _ _)
  returned t f file hf hr := (List.mem_append.mp hr).elim
    (fun hr => (h.returned t f file hf hr).mono (List.sublist_append_left _ _))
    fun hr => absurd he (by rw [← List.mem_singleton.mp hr]; simp [Event.caches])

/-- An eviction removes `b`, and the replies that cached it lapse. -/
theorem Outcomes.evict (h : Outcomes cacheOn src log ts cache g) (b : String) :
    Outcomes cacheOn src (log ++ [.evicted b]) ts (cache.erase b) g where
  cached b' hb' := (h.cached b' (Finset.mem_of_mem_erase hb')).mono (List.sublist_append_left _ _)
  kept hon l₁ e l₂ b' hlog he hev := (split_append hlog).elim
    (fun ⟨l₂', h₁, h₂⟩ => Finset.mem_erase.mpr
      ⟨fun hb => hev (h₂ ▸ hb ▸ List.mem_append_right _ (List.mem_singleton_self _)),
        h.kept hon l₁ e l₂' b' h₁ he fun hm => hev (h₂ ▸ List.mem_append_left _ hm)⟩)
    fun hm => absurd he (by rw [List.mem_singleton.mp hm]; simp [Event.caches])
  results c call hc hr := (h.results c call hc hr).mono (List.sublist_append_left _ _)
  pcs pc hpc := (h.pcs pc hpc).mono (List.sublist_append_left _ _)
  returned t f file hf hr := (List.mem_append.mp hr).elim
    (fun hr => (h.returned t f file hf hr).mono (List.sublist_append_left _ _))
    fun hr => absurd (List.mem_singleton.mp hr) (by simp)

theorem Outcomes.set (h : Outcomes cacheOn src log ts cache g) (t : Nat) {pc : Pc} (hpc : PcOk log pc) :
    Outcomes cacheOn src log (ts.set t pc) cache g :=
  { h with
    pcs := fun pc' hmem => (List.mem_or_eq_of_mem_set hmem).elim (h.pcs pc') (· ▸ hpc) }

/-- A completed call with a result other than success adds no success. -/
theorem Outcomes.complete_error (h : Outcomes cacheOn src log ts cache g) (c : Nat) (e : String) :
    Outcomes cacheOn src log ts cache (g.complete c (.error e)) := by
  refine { h with results := fun c' call hc hr => ?_ }
  unfold Group.complete at hc
  split at hc
  · exact h.results c' call hc hr
  · next call0 h0 =>
    rw [List.getElem?_set] at hc
    split at hc
    · split at hc <;> cases hc
      cases hr
    · exact h.results c' call hc hr

/-- The call of an execution that succeeded, with the evidence in the log. -/
theorem Outcomes.complete_ok (h : Outcomes cacheOn src log ts cache g) {c : Nat} {b : String}
    (hkey : (g.calls[c]?).map (·.key) = some b) (hsucc : ExecSucceeded log c b) :
    Outcomes cacheOn src log ts cache (g.complete c (.ok ())) := by
  refine { h with results := fun c' call hc hr => ?_ }
  unfold Group.complete at hc
  split at hc
  · exact h.results c' call hc hr
  · next call0 h0 =>
    rw [List.getElem?_set] at hc
    split at hc
    · split at hc <;> cases hc
      subst_vars
      rw [h0] at hkey
      cases hkey
      exact hsucc
    · exact h.results c' call hc hr

/-- `Do` adds a call with no result, or joins one and keeps its result. -/
theorem Outcomes.enter (h : Outcomes cacheOn src log ts cache g) (k : String) :
    Outcomes cacheOn src log ts cache (g.enter k).2 := by
  refine { h with results := fun c call hc hr => ?_ }
  unfold Group.enter at hc
  split at hc
  · next c0 call0 hs h0 =>
    have h0 : g.calls[c0]? = some call0 := by simpa [hs] using h0
    rw [List.getElem?_set] at hc
    split at hc
    · split at hc <;> cases hc
      subst_vars
      exact h.results _ call0 h0 hr
    · exact h.results c call hc hr
  · rw [List.getElem?_append] at hc
    split at hc
    · exact h.results c call hc hr
    · rw [List.mem_singleton.mp (List.getElem?_mem hc)] at hr
      cases hr

end Fields

section Operations

variable {cfg : Config} {s : State} (hi : OutcomeInv cfg s)
include hi

theorem OutcomeInv.emit {es : List Event} (hes : ∀ e ∈ es, e.quiet = true) :
    OutcomeInv cfg (s.emit es) :=
  Outcomes.append_quiet hi hes

/-- `emit`, for events that are computed to be quiet. -/
theorem OutcomeInv.emit' {es : List Event} (hes : es.all Event.quiet = true) :
    OutcomeInv cfg (s.emit es) :=
  hi.emit (List.all_eq_true.mp hes)

/-- A request to `ShouldInitiateUpload` answered otherwise than false is quiet. -/
theorem OutcomeInv.emit_asked {w : Asker} {b : String} {r : Outcome Bool} (hr : r ≠ .ok false) :
    OutcomeInv cfg (s.emit [.asked w b r]) :=
  hi.emit fun e he => by
    rw [List.mem_singleton.mp he]
    simp [Event.quiet, Event.caches, hr]

/-- A reply that caches `b`, then `shouldInitiateCache.Put(b)`. -/
theorem OutcomeInv.emit_put {e : Event} {b : String} (he : e.caches = some b) :
    OutcomeInv cfg ((s.emit [e]).putShouldInitiate cfg b) := by
  unfold OutcomeInv at hi ⊢
  simp only [State.putShouldInitiate, State.emit]
  cases hc : cfg.cacheDisabled
  · simp only [hc, Bool.not_false] at hi ⊢
    exact Outcomes.append_put hi he
  · simp only [hc, Bool.not_true] at hi ⊢
    exact Outcomes.append_off hi he

/-- The `ensure_uploaded_requests{shared}` counter is not read. -/
theorem OutcomeInv.withShared (n : Nat) : OutcomeInv cfg { s with ensureShared := n } := hi

/-- The extract group is not read. -/
theorem OutcomeInv.withExtractGroup (g : Group ObjectFile) :
    OutcomeInv cfg { s with extractGroup := g } := hi

theorem OutcomeInv.goto (t : Nat) {pc : Pc} (hpc : PcOk s.log pc) :
    OutcomeInv cfg (s.goto t pc) :=
  Outcomes.set hi t hpc

theorem OutcomeInv.ensureReturn_error (t src : Nat) (e : String) :
    OutcomeInv cfg (s.ensureReturn t src (.error e)) :=
  (hi.emit' (by rfl)).goto t trivial

theorem OutcomeInv.ensureReturn_ok {t src : Nat}
    (h : ∀ f, s.sources[src]? = some f → EnsureSucceeded s.log t f.buildID) :
    OutcomeInv cfg (s.ensureReturn t src (.ok ())) :=
  OutcomeInv.goto (show OutcomeInv cfg (s.emit _) from
    Outcomes.append hi (by simp [Event.caches]) fun t' src' he f hf => by
      obtain ⟨rfl, rfl⟩ : t' = t ∧ src' = src := by simpa using he
      exact (h f hf).mono (List.sublist_append_left _ _)) t trivial

theorem OutcomeInv.extractReturn (t : Nat) (who : Caller) (r : Outcome ObjectFile) :
    OutcomeInv cfg (s.extractReturn t who r) := by
  rcases who with _ | src <;> rcases r with dbg | e
  · exact hi.goto t trivial
  · exact hi.goto t trivial
  · exact OutcomeInv.goto (show OutcomeInv cfg { s with debugFile := _ } from hi) t trivial
  · exact hi.ensureReturn_error t src _

theorem OutcomeInv.uploadReturn_ok {t c : Nat} {who : Caller} {dbg : ObjectFile} (holds : Bool)
    (hsucc : ExecSucceeded s.log c dbg.buildID) :
    OutcomeInv cfg (s.uploadReturn t who dbg (some c) (.ok ()) holds) := by
  refine OutcomeInv.goto (show OutcomeInv cfg (s.emit _) from Outcomes.append hi ?_ ?_) t
    (by cases holds <;> trivial)
  · cases who <;> simp [Caller.returned, Event.caches]
  intro t' src' he f _
  obtain rfl : t' = t := by
    cases who
    · simp [Caller.returned] at he
    · simp [Caller.returned] at he
      exact he.1
  exact .inr ⟨dbg, c, List.mem_append_right _ (List.mem_cons_self _ _),
    hsucc.mono (List.sublist_append_left _ _)⟩

theorem OutcomeInv.uploadReturn_error {t : Nat} {who : Caller} {dbg : ObjectFile}
    (c : Option Nat) (e : String) (holds : Bool) :
    OutcomeInv cfg (s.uploadReturn t who dbg c (.error e) holds) :=
  (hi.emit (by cases who <;> simp [Caller.returned, Event.quiet, Event.caches])).goto t
    (by cases holds <;> trivial)

theorem OutcomeInv.uploadComplete_ok {t c : Nat} {who : Caller} {dbg : ObjectFile}
    (hkey : (s.uploadGroup.calls[c]?).map (·.key) = some dbg.buildID)
    (hsucc : ExecSucceeded s.log c dbg.buildID) :
    OutcomeInv cfg (s.uploadComplete t who dbg c (.ok ())) :=
  OutcomeInv.uploadReturn_ok
    (show OutcomeInv cfg { s with uploadGroup := s.uploadGroup.complete c (.ok ()) } from
      Outcomes.complete_ok hi hkey hsucc) true hsucc

theorem OutcomeInv.uploadComplete_error {t c : Nat} {who : Caller} {dbg : ObjectFile} (e : String) :
    OutcomeInv cfg (s.uploadComplete t who dbg c (.error e)) :=
  OutcomeInv.goto
    (show OutcomeInv cfg { s with uploadGroup := s.uploadGroup.complete c (.error e) } from
      Outcomes.complete_error hi c e) t trivial

theorem OutcomeInv.enter (k : String) :
    OutcomeInv cfg { s with uploadGroup := (s.uploadGroup.enter k).2 } :=
  Outcomes.enter hi k

theorem OutcomeInv.forget (k : String) :
    OutcomeInv cfg { s with uploadGroup := s.uploadGroup.forget k } :=
  ⟨hi.cached, hi.kept, hi.results, hi.pcs, hi.returned⟩

end Operations

variable (cfg : Config)

theorem OutcomeInv.thread {s s' : State} {t : Nat} {pc : Pc} (hi : OutcomeInv cfg s)
    (hf : FlightInv s) (hpc : s.threads[t]? = some pc) (hm : Move cfg s t pc s') :
    OutcomeInv cfg s' := by
  have hkey := hf.keys pc (List.getElem?_mem hpc)
  have hok := hi.pcs pc (List.getElem?_mem hpc)
  /- the last event of the log -/
  have last : ∀ {l : List Event} {e : Event}, e ∈ l ++ [e] :=
    List.mem_append_right _ (List.mem_singleton_self _)
  cases hm with
  | gateHit hfile =>
    refine (hi.emit' (by rfl)).ensureReturn_ok fun f hf => ?_
    obtain rfl := Option.some.inj (hf.symm.trans hfile)
    exact .inl (.inl last)
  | gateNo hfile =>
    refine ((hi.emit_put (by rfl)).withShared _).ensureReturn_ok fun f hf => ?_
    obtain rfl := Option.some.inj (hf.symm.trans hfile)
    exact .inl (.inr last)
  | gateGo _ hr | recheckGo hr => exact (hi.emit_asked hr).goto t trivial
  | elfFailed | elfKept | joinedExtracted => exact hi.extractReturn t _ _
  | extracted | extractFailed | extractForgot => exact (hi.withExtractGroup _).extractReturn t _ _
  | acquireFailed => exact hi.uploadReturn_error _ _ _
  | acquired | released => exact (hi.emit' (by rfl)).goto t trivial
  | @uploadJoin who dbg c g he | @uploadInstall who dbg c g he =>
    have he' := hi.enter dbg.buildID
    rw [he] at he'
    exact he'.goto t trivial
  | @recheckHit who dbg c => exact (hi.emit' (by rfl)).uploadComplete_ok (hkey dbg c rfl) (.inl last)
  | @recheckNo who dbg c =>
    exact (hi.emit_put (by rfl)).uploadComplete_ok (hkey dbg c rfl) (.inr (.inl last))
  | hashReaderFailed | hashFailed | transferReaderFailed | transferRefused =>
    exact hi.uploadComplete_error _
  | initiated => exact (hi.emit' (by rfl)).goto t ⟨_, last⟩
  | @alreadyExists who dbg c =>
    exact (hi.emit_put (by rfl)).uploadComplete_ok
      (hkey dbg c rfl) (.inr (.inr (.inl ⟨dbg, _, rfl, last⟩)))
  | initiateFailed | transferFailed | markFailed => exact (hi.emit' (by rfl)).uploadComplete_error _
  | @transferred who dbg c u st =>
    obtain ⟨h0, hmem⟩ := hok
    exact (hi.emit' (by rfl)).goto t
      ⟨h0, st, (List.singleton_sublist.mpr hmem).append (List.Sublist.refl _)⟩
  | @marked who dbg c u =>
    obtain ⟨h0, st, hsub⟩ := hok
    exact (hi.emit' (by rfl)).uploadComplete_ok (hkey dbg c rfl)
      (.inr (.inr (.inr ⟨dbg, h0, u, st, rfl, hsub.append (List.Sublist.refl _)⟩)))
  | @joinedUploaded who dbg c hres =>
    obtain ⟨call, hc, hr⟩ := Option.bind_eq_some.mp hres
    have hk := hkey dbg c rfl
    simp only [hc, Option.map_some', Option.some.injEq] at hk
    exact hi.uploadReturn_ok true (hk ▸ hi.results c call hc hr)
  | uploadForgot => exact (hi.forget _).uploadReturn_error _ _ _
  | _ => exact hi.goto t trivial

theorem OutcomeInv.step {s s' : State} {a : Action} (hi : OutcomeInv cfg s) (hf : FlightInv s)
    (h : step cfg s a = some s') : OutcomeInv cfg s' := by
  cases a with
  | thread t a =>
    obtain ⟨pc, hpc, h⟩ := Option.bind_eq_some.mp h
    exact hi.thread cfg hf hpc (threadStep_move cfg h)
  | spawn i =>
    obtain ⟨file, -, rfl⟩ := Option.map_eq_some'.mp h
    exact { hi with
      pcs := fun pc hpc => (List.mem_append.mp hpc).elim (hi.pcs pc)
        fun hpc => by cases List.mem_singleton.mp hpc; cases i <;> trivial }
  | evict b =>
    cases h
    exact Outcomes.evict hi b
  | evictHash k =>
    cases h
    exact hi

theorem outcomeInv_init (files : List ObjectFile) : OutcomeInv cfg (init files) where
  cached _ h := absurd h (Finset.not_mem_empty _)
  kept _ _ _ _ _ h := by simp [init] at h
  results _ _ h := absurd h (by simp [init, Group.empty])
  pcs _ h := absurd h (List.not_mem_nil _)
  returned _ _ _ _ h := absurd h (List.not_mem_nil _)

theorem Reachable.outcomeInv {files : List ObjectFile} {s : State} (hs : Reachable cfg files s) :
    OutcomeInv cfg s := by
  induction hs with
  | init => exact outcomeInv_init cfg files
  | step hr h ih => exact ih.step cfg (hr.flightInv cfg) h

/-- **What a nil rests on.** In every reachable state, each build ID in
`shouldInitiateCache` has a reply that put it there, and each `EnsureUploaded(src)`
that returned nil did so because its own check found `src.BuildID` cached or was
answered false, or because the upload execution whose result its `Upload(dbg)`
received succeeded on `dbg.BuildID`. -/
theorem ensureUploaded_nil_justified (files : List ObjectFile) (s : State)
    (hs : Reachable cfg files s) :
    (∀ b ∈ s.shouldInitiateCache, Cached s.log b) ∧
      ∀ t src f, s.sources[src]? = some f → .ensureReturned t src (.ok ()) ∈ s.log →
        EnsureSucceeded s.log t f.buildID :=
  ⟨(hs.outcomeInv cfg).cached, (hs.outcomeInv cfg).returned⟩

/-- The debug file `Find` returns for `probeFile`. -/
def probeDebugFile : ObjectFile := ⟨"b", "/usr/lib/debug/a.debug", ⟨0, 0⟩, 20, "dbg", false⟩

/-- A full upload: the server says yes twice, the body is sent and marked finished,
and a second `EnsureUploaded` of the same file starts. -/
def fullUpload : List Action :=
  [.spawn (.ensureUploaded 0), .thread 0 .none, .thread 0 (.rpc (.ok true)),
    .thread 0 (.find (some (.ok probeDebugFile))), .thread 0 (.acquire (.ok ())), .thread 0 .none,
    .thread 0 .none, .thread 0 (.rpc (.ok true)), .thread 0 .none,
    .thread 0 (.hashed (.ok ()) (.ok ())), .thread 0 (.initiate (.ok "u" .grpc)),
    .thread 0 (.transfer (.ok ()) (.ok ())), .thread 0 (.mark (.ok ())), .thread 0 .none,
    .spawn (.ensureUploaded 0)]

theorem ensureUploaded_nil_justified_fullUpload :
    ∃ s, Reachable sampleConfig [probeFile] s ∧ Event.ensureReturned 0 0 (.ok ()) ∈ s.log ∧
      ((∀ b ∈ s.shouldInitiateCache, Cached s.log b) ∧
        ∀ t src f, s.sources[src]? = some f → .ensureReturned t src (.ok ()) ∈ s.log →
          EnsureSucceeded s.log t f.buildID) := by
  obtain ⟨s, hs, h⟩ := reach_of_run sampleConfig [probeFile] fullUpload
    (p := fun s => decide (Event.ensureReturned 0 0 (.ok ()) ∈ s.log)) (by decide)
  exact ⟨s, hs, of_decide_eq_true h, ensureUploaded_nil_justified sampleConfig [probeFile] s hs⟩

end Debuginfo

end ParcaAgent

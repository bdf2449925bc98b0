import ParcaAgent.Debuginfo.Cache

/-!
# One upload per build ID

Ten `EnsureUploaded` calls for one build ID `b` should cost the server one upload.
Two mechanisms give it: `uploadSingleflight` merges the calls that overlap one
execution of `upload`, and the re-check of `shouldInitiate` inside `upload` stops
an execution that starts after the upload is over. The second relies on the
server: once `MarkUploadFinished(b)` is acknowledged, `ShouldInitiateUpload(b)`
must answer false. The first relies on no execution failing: a failed call is
forgotten, and its `Forget` may drop a newer call (see
`ParcaAgent.Debuginfo.singleflight_forget_overlaps`).

Under those two assumptions on the environment (`ParcaAgent.Debuginfo.Env`), over
every run (`ParcaAgent.Debuginfo.ReachableUnder`), at most one execution of
`upload` for `b` is in progress at a time, and it is the call stored under `b`.
The body of `b` is sent at most once, `MarkUploadFinished(b)` is sent at most once,
and at most one `InitiateUpload(b)` is answered with upload instructions
(`ParcaAgent.Debuginfo.upload_at_most_once`). What is not bounded is the number of
`InitiateUpload(b)` requests: an `AlreadyExists` answer caches `b` but marks
nothing, so each time that cache entry expires, the next `EnsureUploaded` asks
and initiates again (`ParcaAgent.Debuginfo.initiate_again_after_expiry`).

The proof counts, along the run, the requests for `b` in the log against the
position of the one execution in progress (`ParcaAgent.Debuginfo.Pc.stage`).
-/

namespace ParcaAgent

namespace Debuginfo

variable (b : String)

/-! ### Counting the requests for a build ID -/

/-- How far a thread has got in an execution of `upload` for `b`: 0 outside one,
1 before its `shouldInitiate` answered, 2 until `InitiateUpload` answered, 3 at the
body transfer, 4 at `MarkUploadFinished`. -/
def Pc.stage : Pc → Nat
  | .uploadRecheck _ dbg _ | .uploadAsk _ dbg _ => if dbg.buildID = b then 1 else 0
  | .uploadHash _ dbg _ | .uploadHashCompute _ dbg _ | .uploadInitiate _ dbg _ _ =>
    if dbg.buildID = b then 2 else 0
  | .uploadTransfer _ dbg _ _ _ => if dbg.buildID = b then 3 else 0
  | .uploadMark _ dbg _ _ => if dbg.buildID = b then 4 else 0
  | _ => 0

/-- `InitiateUpload` for a file of build ID `b`. -/
def Event.initiates : Event → Bool
  | .initiated _ dbg _ _ => dbg.buildID == b
  | _ => false

/-- `InitiateUpload` for a file of build ID `b`, answered with upload instructions. -/
def Event.instructs : Event → Bool
  | .initiated _ dbg _ (.ok _ _) => dbg.buildID == b
  | _ => false

/-- The body transfer of a file of build ID `b`. -/
def Event.sendsBody : Event → Bool
  | .transferred _ dbg _ _ => dbg.buildID == b
  | _ => false

/-- `MarkUploadFinished(b)`. -/
def Event.marks : Event → Bool
  | .marked _ b' _ _ => b' == b
  | _ => false

/-- A request for `b` that the invariant counts. -/
def Event.counted (e : Event) : Bool := e.instructs b || e.sendsBody b || e.marks b

/-- A goroutine about to `Forget` `b`. -/
def Pc.forgets : Pc → Bool
  | .uploadForget _ dbg _ _ => dbg.buildID == b
  | _ => false

/-- The threads at stage at least `k` of an execution for `b`. -/
def State.atStage (s : State) (k : Nat) : Nat :=
  s.threads.countP fun pc => decide (k ≤ pc.stage b)

/-- The threads at the last stage, `MarkUploadFinished`. -/
def State.marking (s : State) : Nat :=
  s.threads.countP fun pc => decide (pc.stage b = 4)

/-! ### The assumptions on the environment -/

/-- The environment's behaviour for `b` that one upload rests on: no execution of
`upload` for `b` fails, and once `MarkUploadFinished(b)` has been acknowledged,
`ShouldInitiateUpload(b)` is answered false. -/
structure Env (s : State) : Prop where
  noFailure : ∀ (c : Nat) (call : Call Unit), s.uploadGroup.calls[c]? = some call →
    call.key = b → ∀ e, call.result ≠ some (.error e)
  noAfterMark : ∀ l₁ w r l₂, s.log = l₁ ++ .asked w b r :: l₂ →
    (∃ c u, .marked c b u (.ok ()) ∈ l₁) → r = .ok false

variable (cfg : Config)

/-- The states reached by runs every state of which satisfies `P`. -/
inductive ReachableUnder (files : List ObjectFile) (P : State → Prop) : State → Prop
  | init : P (init files) → ReachableUnder files P (init files)
  | step {s s' : State} {a : Action} : ReachableUnder files P s → step cfg s a = some s' → P s' →
    ReachableUnder files P s'

theorem ReachableUnder.reachable {files : List ObjectFile} {P : State → Prop} {s : State}
    (h : ReachableUnder cfg files P s) : Reachable cfg files s := by
  induction h with
  | init => exact .init
  | step _ hs _ ih => exact ih.step hs

theorem ReachableUnder.holds {files : List ObjectFile} {P : State → Prop} {s : State}
    (h : ReachableUnder cfg files P s) : P s := by
  cases h with
  | init h => exact h
  | step _ _ h => exact h

/-! ### The call stored under a build ID -/

section Stored

variable {α : Type} {g g' : Group α} {k : String} {c : Nat}

/-- `Do` installs a call only where none is stored, and stores it. -/
theorem Group.Wf.enter_install (hg : g.Wf) (h : g.enter k = (.install c, g')) :
    g.stored k = none ∧ g'.stored k = some c := by
  unfold Group.enter at h
  split at h
  · cases h
  · next hne =>
    cases h
    refine ⟨?_, by simp⟩
    rcases hs : g.stored k with _ | c'
    · rfl
    · obtain ⟨call, hc, -⟩ := Option.map_eq_some'.mp (hg k c' hs)
      exact (hne c' call hs (by simp [hs, hc])).elim

theorem Group.enter_join (h : g.enter k = (.join c, g')) : g'.stored = g.stored := by
  unfold Group.enter at h
  split at h <;> cases h
  rfl

theorem Group.stored_enter_of_ne {e : Entry} (h : g.enter k = (e, g')) (hne : k ≠ b) :
    g'.stored b = g.stored b := by
  unfold Group.enter at h
  split at h <;> cases h
  · rfl
  · exact Function.update_noteq hne.symm _ _

theorem Group.stored_complete_of_ne {r : Outcome α} (hk : (g.calls[c]?).map (·.key) = some k)
    (hne : k ≠ b) : (g.complete c r).stored b = g.stored b := by
  obtain ⟨call, hc, rfl⟩ := Option.map_eq_some'.mp hk
  simp only [Group.complete, hc]
  split
  · exact Function.update_noteq hne.symm _ _
  · rfl

theorem Group.stored_forget_of_ne (hne : k ≠ b) : (g.forget k).stored b = g.stored b :=
  Function.update_noteq hne.symm _ _

theorem Group.result_complete {call : Call α} (hc : g.calls[c]? = some call) (r : Outcome α) :
    (g.complete c r).result c = some r := by
  simp [Group.complete, Group.result, hc, List.getElem?_set_self (List.getElem?_eq_some_iff.mp hc).1]

end Stored

/-- No caller of an execution for `b` receives an error. -/
theorem Env.result_error {s : State} (he : Env b s) {c : Nat}
    (hk : (s.uploadGroup.calls[c]?).map (·.key) = some b) {e : String}
    (hr : s.uploadGroup.result c = some (.error e)) : False := by
  obtain ⟨call, hc, hkey⟩ := Option.map_eq_some'.mp hk
  simp only [Group.result, hc, Option.some_bind] at hr
  exact he.noFailure c call hc hkey e hr

/-- No execution for `b` completes with an error. -/
theorem Env.complete_error {X : State} {t : Nat} {who : Caller} {dbg : ObjectFile} {c : Nat}
    {e : String} (he : Env b (X.uploadComplete t who dbg c (.error e)))
    (hk : (X.uploadGroup.calls[c]?).map (·.key) = some b) : False := by
  obtain ⟨call, hc, -⟩ := Option.map_eq_some'.mp hk
  exact he.result_error b (X.uploadGroup.extends_complete c _ c b hk)
    (X.uploadGroup.result_complete hc _)

/-! ### The invariant -/

theorem Pc.execution_of_stage_pos {pc : Pc} (h : 0 < pc.stage b) :
    ∃ dbg c, pc.execution = some (dbg, c) ∧ dbg.buildID = b := by
  cases pc <;> simp only [Pc.stage] at h <;> (try split_ifs at h) <;> (try omega)
  all_goals exact ⟨_, _, rfl, ‹_›⟩

/-- Two threads at two places satisfying `p` count twice. -/
theorem two_le_countP (p : Pc → Bool) {l : List Pc} {i j : Nat} {a a' : Pc} (hij : i ≠ j)
    (hi : l[i]? = some a) (hj : l[j]? = some a') (ha : p a = true) (ha' : p a' = true)
    (hdone : p .done = false) : 2 ≤ l.countP p := by
  have h1 := countP_set_add p hi .done
  have h2 : 0 < (l.set i .done).countP p :=
    List.countP_pos_iff.mpr ⟨a', List.getElem?_mem (by rwa [List.getElem?_set_ne hij]), ha'⟩
  simp only [ha, hdone, ite_true, Bool.false_eq_true, ite_false] at h1
  omega

/-- **The executions for `b` and the requests for `b`.** At most one execution for
`b` is in progress, and it is the call stored under `b`; no goroutine is about to
`Forget` `b`. Every `InitiateUpload(b)` answered with instructions is followed by a
`MarkUploadFinished(b)` or belongs to the execution in progress past that point;
so is every body sent; at most one `MarkUploadFinished(b)` was sent, and none before
an execution now past its check; and each one was acknowledged. -/
structure OnceInv (s : State) : Prop where
  running : s.atStage b 1 ≤ 1
  stored : ∀ (i : Nat) (pc : Pc) (dbg : ObjectFile) (c : Nat), s.threads[i]? = some pc →
    pc.execution = some (dbg, c) → dbg.buildID = b → s.uploadGroup.stored b = some c
  noForget : ∀ pc ∈ s.threads, pc.forgets b = false
  instructs : s.log.countP (Event.instructs b) = s.log.countP (Event.marks b) + s.atStage b 3
  sends : s.log.countP (Event.sendsBody b) = s.log.countP (Event.marks b) + s.marking b
  marked : s.log.countP (Event.marks b) ≤ 1
  fresh : 0 < s.atStage b 2 → s.log.countP (Event.marks b) = 0
  acked : ∀ e ∈ s.log, e.marks b = true → ∃ c u, e = .marked c b u (.ok ())

theorem OnceInv.atStage_eq_zero {s : State} (hi : OnceInv b s) (h : s.uploadGroup.stored b = none) :
    s.atStage b 1 = 0 := by
  refine List.countP_eq_zero.mpr fun pc hpc hs => ?_
  obtain ⟨i, hi'⟩ := List.mem_iff_getElem?.mp hpc
  obtain ⟨dbg, c, he, hb⟩ := Pc.execution_of_stage_pos b (by simpa using hs)
  rw [hi.stored i pc dbg c hi' he hb] at h
  cases h

/-- The shares of one thread in the counts of stages, from the last down. -/
theorem ite_stage_chain (n : Nat) :
    (if n = 4 then 1 else 0) ≤ (if 3 ≤ n then 1 else 0) ∧
      (if 3 ≤ n then 1 else 0) ≤ (if 2 ≤ n then 1 else 0) ∧
      (if 2 ≤ n then 1 else 0) ≤ (if 1 ≤ n then 1 else 0) ∧ (if 1 ≤ n then 1 else 0) ≤ 1 := by
  split_ifs <;> omega

theorem State.atStage_mono (s : State) {k l : Nat} (h : k ≤ l) : s.atStage b l ≤ s.atStage b k :=
  List.countP_mono_left fun pc _ hl => by simp only [decide_eq_true_eq] at hl ⊢; omega

theorem State.marking_le (s : State) : s.marking b ≤ s.atStage b 3 :=
  List.countP_mono_left fun pc _ hl => by simp only [decide_eq_true_eq] at hl ⊢; omega

theorem Pc.stage_pos_of_execution {pc : Pc} {dbg : ObjectFile} {c : Nat}
    (he : pc.execution = some (dbg, c)) (hb : dbg.buildID = b) : 0 < pc.stage b := by
  cases pc <;> simp only [Pc.execution, reduceCtorEq, Option.some.injEq, Prod.mk.injEq] at he <;>
    obtain ⟨rfl, rfl⟩ := he <;> simp [Pc.stage, hb]

section Move

variable {s s' : State} {t : Nat} {pc pc' : Pc} (hth : s'.threads = s.threads.set t pc')
  (hpc : s.threads[t]? = some pc)
include hth hpc

theorem State.atStage_move (k : Nat) :
    s'.atStage b k + (if k ≤ pc.stage b then 1 else 0) =
      s.atStage b k + (if k ≤ pc'.stage b then 1 else 0) := by
  have := countP_set_add (fun pc => decide (k ≤ pc.stage b)) hpc pc'
  simp only [decide_eq_true_eq] at this
  rwa [State.atStage, hth]

theorem State.marking_move :
    s'.marking b + (if pc.stage b = 4 then 1 else 0) =
      s.marking b + (if pc'.stage b = 4 then 1 else 0) := by
  have := countP_set_add (fun pc => decide (pc.stage b = 4)) hpc pc'
  simp only [decide_eq_true_eq] at this
  rwa [State.marking, hth]

end Move

/-- **One step of one thread**, described by where it goes, what it logs and what it
does to the call stored under `b`, keeps the invariant. -/
theorem OnceInv.move {s s' : State} (hi : OnceInv b s) {t : Nat} {pc : Pc}
    (hpc : s.threads[t]? = some pc) (pc' : Pc) (es : List Event)
    (hth : s'.threads = s.threads.set t pc') (hlog : s'.log = s.log ++ es)
    (hkeep : 0 < pc.stage b ∨ s.uploadGroup.stored b = none ∨
      s'.uploadGroup.stored b = s.uploadGroup.stored b)
    (hnew : ∀ dbg c, pc'.execution = some (dbg, c) → dbg.buildID = b →
      s'.uploadGroup.stored b = some c)
    (hrun : 0 < pc'.stage b → 0 < pc.stage b ∨ s.uploadGroup.stored b = none)
    (hforget : pc'.forgets b = false)
    (hI : es.countP (Event.instructs b) + (if 3 ≤ pc.stage b then 1 else 0) =
      es.countP (Event.marks b) + (if 3 ≤ pc'.stage b then 1 else 0))
    (hX : es.countP (Event.sendsBody b) + (if pc.stage b = 4 then 1 else 0) =
      es.countP (Event.marks b) + (if pc'.stage b = 4 then 1 else 0))
    (hM : es.countP (Event.marks b) = 0 ∨
      pc.stage b = 4 ∧ pc'.stage b = 0 ∧ es.countP (Event.marks b) = 1)
    (hF : 2 ≤ pc'.stage b → 2 ≤ pc.stage b ∨ s.log.countP (Event.marks b) = 0)
    (hA : ∀ e ∈ es, e.marks b = true → ∃ c u, e = .marked c b u (.ok ())) : OnceInv b s' := by
  have e1 := State.atStage_move b hth hpc 1
  have e2 := State.atStage_move b hth hpc 2
  have e3 := State.atStage_move b hth hpc 3
  have e4 := State.marking_move b hth hpc
  have ch := ite_stage_chain (pc.stage b)
  have ch' := ite_stage_chain (pc'.stage b)
  have h21 := s.atStage_mono b (by omega : 1 ≤ 2)
  have h32 := s.atStage_mono b (by omega : 2 ≤ 3)
  have h43 := s.marking_le b
  have h21' := s'.atStage_mono b (by omega : 1 ≤ 2)
  /- the stages the hypotheses speak of, as the shares above -/
  have hrun' : (if 1 ≤ pc'.stage b then 1 else 0) = 1 →
      (if 1 ≤ pc.stage b then 1 else 0) = 1 ∨ s.atStage b 1 = 0 := fun h =>
    (hrun (by split at h <;> omega)).imp (fun h => by simp only [show 1 ≤ pc.stage b by omega,
      ite_true]) (hi.atStage_eq_zero b)
  have hF' : (if 2 ≤ pc'.stage b then 1 else 0) = 1 →
      (if 2 ≤ pc.stage b then 1 else 0) = 1 ∨ s.log.countP (Event.marks b) = 0 := fun h =>
    (hF (by split at h <;> omega)).imp_left fun h => by simp only [h, ite_true]
  have hM' : es.countP (Event.marks b) = 0 ∨ (if pc.stage b = 4 then 1 else 0) = 1 ∧
      (if 1 ≤ pc'.stage b then 1 else 0) = 0 ∧ es.countP (Event.marks b) = 1 :=
    hM.imp_right fun ⟨h4, h0, h1⟩ => ⟨by simp [h4], by simp [h0], h1⟩
  clear hrun hF hM
  have hR := hi.running
  have hfr := hi.fresh
  have hMk := hi.marked
  refine ⟨by omega, fun i pc'' dbg c hi' he hb => ?_, fun pc'' hm => ?_, ?_, ?_, ?_, ?_, ?_⟩
  · rw [hth] at hi'
    rcases eq_or_ne i t with rfl | hit
    · rw [List.getElem?_set_self (List.getElem?_eq_some_iff.mp hpc).1] at hi'
      cases hi'
      exact hnew dbg c he hb
    · rw [List.getElem?_set_ne hit.symm] at hi'
      rcases hkeep with hk | hk | hk
      · have := two_le_countP (fun pc => decide (1 ≤ pc.stage b)) hit hi' hpc
          (decide_eq_true (Pc.stage_pos_of_execution b he hb)) (decide_eq_true hk) rfl
        exact absurd hR (by unfold State.atStage; omega)
      · cases hk.symm.trans (hi.stored i pc'' dbg c hi' he hb)
      · rw [hk]
        exact hi.stored i pc'' dbg c hi' he hb
  · rw [hth] at hm
    rcases List.mem_or_eq_of_mem_set hm with hm | rfl
    · exact hi.noForget pc'' hm
    · exact hforget
  · rw [hlog, List.countP_append, List.countP_append, hi.instructs]
    omega
  · rw [hlog, List.countP_append, List.countP_append, hi.sends]
    omega
  · rw [hlog, List.countP_append]
    omega
  · rw [hlog, List.countP_append]
    omega
  · intro e he hm
    rw [hlog] at he
    exact (List.mem_append.mp he).elim (hi.acked e · hm) (hA e · hm)

theorem countP_eq_zero_of_not_counted {es : List Event} (h : es.any (Event.counted b) = false) :
    es.countP (Event.instructs b) = 0 ∧ es.countP (Event.sendsBody b) = 0 ∧
      es.countP (Event.marks b) = 0 := by
  simp only [List.any_eq_false, Event.counted, Bool.or_eq_true, not_or] at h
  exact ⟨List.countP_eq_zero.mpr fun e he => (h e he).1.1,
    List.countP_eq_zero.mpr fun e he => (h e he).1.2, List.countP_eq_zero.mpr fun e he => (h e he).2⟩

theorem Caller.counted_returned (who : Caller) (t : Nat) (r : Outcome Unit) :
    (who.returned t r).any (Event.counted b) = false := by
  cases who <;> rfl

section Quiet

variable {s s' : State} (hi : OnceInv b s) {t : Nat} {pc pc' : Pc} {es : List Event}
  (hpc : s.threads[t]? = some pc) (hth : s'.threads = s.threads.set t pc')
  (hlog : s'.log = s.log ++ es) (hes : es.any (Event.counted b) = false)
  (hforget : pc'.forgets b = false)
include hi hpc hth hlog hes hforget

/-- A step that counts nothing, keeps the thread at its stage and in its
execution, and keeps the call stored under `b`. -/
theorem OnceInv.stay (hs : pc'.stage b = pc.stage b)
    (hexec : pc'.stage b = 0 ∨ pc'.execution = pc.execution)
    (hstored : s'.uploadGroup.stored b = s.uploadGroup.stored b) : OnceInv b s' := by
  obtain ⟨hI, hX, hM⟩ := countP_eq_zero_of_not_counted b hes
  refine hi.move b hpc pc' es hth hlog (.inr (.inr hstored)) (fun dbg c he hb => ?_)
    (fun h => .inl (hs ▸ h)) hforget (by rw [hI, hM, hs]) (by rw [hX, hM, hs]) (.inl hM)
    (fun h => .inl (hs ▸ h)) fun e he hm => ?_
  · rw [hstored]
    rcases hexec with h0 | hx
    · exact absurd h0 (Pc.stage_pos_of_execution b he hb).ne'
    · exact hi.stored t pc dbg c hpc (hx ▸ he) hb
  · exact absurd (List.countP_pos_iff.mpr ⟨e, he, hm⟩) (by omega)

/-- A step that counts nothing and ends the thread's execution for `b` before any
`InitiateUpload` of it was answered. -/
theorem OnceInv.finish (hs : 0 < pc.stage b) (hs2 : pc.stage b ≤ 2) (hs' : pc'.stage b = 0) :
    OnceInv b s' := by
  obtain ⟨hI, hX, hM⟩ := countP_eq_zero_of_not_counted b hes
  refine hi.move b hpc pc' es hth hlog (.inl hs)
    (fun dbg c he hb => absurd hs' (Pc.stage_pos_of_execution b he hb).ne')
    (fun h => absurd h (by omega)) hforget ?_ ?_ (.inl hM) (fun h => absurd h (by omega))
    fun e he hm => ?_
  · rw [hI, hM, hs', if_neg (by omega), if_neg (by omega)]
  · rw [hX, hM, hs', if_neg (by omega), if_neg (by omega)]
  · exact absurd (List.countP_pos_iff.mpr ⟨e, he, hm⟩) (by omega)

end Quiet

/-- A step inside the execution for `b` that takes it one stage on and sends one
request, which is no `MarkUploadFinished`. -/
theorem OnceInv.advance {s s' : State} (hi : OnceInv b s) {t : Nat} {pc pc' : Pc} {e : Event}
    (hpc : s.threads[t]? = some pc) (hth : s'.threads = s.threads.set t pc')
    (hlog : s'.log = s.log ++ [e]) (hst : s'.uploadGroup.stored b = s.uploadGroup.stored b)
    (hx : pc'.execution = pc.execution) (hs : 0 < pc.stage b) (hf : pc'.forgets b = false)
    (hm : e.marks b = false)
    (hI : [e].countP (Event.instructs b) + (if 3 ≤ pc.stage b then 1 else 0) =
      if 3 ≤ pc'.stage b then 1 else 0)
    (hX : [e].countP (Event.sendsBody b) + (if pc.stage b = 4 then 1 else 0) =
      if pc'.stage b = 4 then 1 else 0)
    (hF : 2 ≤ pc'.stage b → 2 ≤ pc.stage b ∨ s.log.countP (Event.marks b) = 0) :
    OnceInv b s' := by
  have hM : [e].countP (Event.marks b) = 0 := List.countP_eq_zero.mpr fun e' he' => by
    rw [List.mem_singleton.mp he', hm]
    exact Bool.false_ne_true
  refine hi.move b hpc pc' [e] hth hlog (.inl hs) (fun dbg c he hb => ?_) (fun _ => .inl hs) hf
    (by rw [hM, Nat.zero_add]; exact hI) (by rw [hM, Nat.zero_add]; exact hX) (.inl hM) hF
    fun e' he' hm' => ?_
  · rw [hst]
    exact hi.stored t pc dbg c hpc (hx ▸ he) hb
  · rw [List.mem_singleton.mp he', hm] at hm'
    cases hm'

/-- `Extract` returns in a thread outside every execution. -/
theorem OnceInv.extractReturn {s X : State} (hi : OnceInv b s) {t : Nat} {pc : Pc}
    (hpc : s.threads[t]? = some pc) (hs : pc.stage b = 0) (hth : X.threads = s.threads)
    (hlog : X.log = s.log) (hst : X.uploadGroup = s.uploadGroup) (who : Caller)
    (r : Outcome ObjectFile) : OnceInv b (X.extractReturn t who r) := by
  have hst' : (X.extractReturn t who r).uploadGroup.stored b = s.uploadGroup.stored b := by
    rw [State.extractReturn_uploadGroup, hst]
  rcases X.extractReturn_cases t who r with ⟨hl, ht⟩ | ⟨src, dbg, hl, ht⟩ | ⟨src, e, hl, ht⟩
  all_goals rw [hth] at ht; rw [hlog] at hl
  · exact hi.stay b hpc ht (hl.trans (List.append_nil _).symm) rfl rfl hs.symm (.inl rfl) hst'
  · exact hi.stay b hpc ht (hl.trans (List.append_nil _).symm) rfl rfl hs.symm (.inl rfl) hst'
  · exact hi.stay b hpc ht hl rfl rfl hs.symm (.inl rfl) hst'

/-- A step that moves no thread and counts nothing. -/
theorem OnceInv.frame {s s' : State} (hi : OnceInv b s) {es : List Event}
    (hth : s'.threads = s.threads) (hlog : s'.log = s.log ++ es)
    (hes : es.any (Event.counted b) = false)
    (hst : s'.uploadGroup.stored b = s.uploadGroup.stored b) : OnceInv b s' := by
  obtain ⟨hI, hX, hM⟩ := countP_eq_zero_of_not_counted b hes
  have ha (k : Nat) : s'.atStage b k = s.atStage b k := by simp only [State.atStage, hth]
  have hm : s'.marking b = s.marking b := by simp only [State.marking, hth]
  refine ⟨ha 1 ▸ hi.running, fun i pc dbg c h => hst ▸ hi.stored i pc dbg c (hth ▸ h),
    hth ▸ hi.noForget, ?_, ?_, ?_, fun h => ?_, fun e he hm => ?_⟩
  · rw [hlog, List.countP_append, List.countP_append, hI, hM, ha, hi.instructs, Nat.add_zero,
      Nat.add_zero]
  · rw [hlog, List.countP_append, List.countP_append, hX, hM, hm, hi.sends, Nat.add_zero,
      Nat.add_zero]
  · rw [hlog, List.countP_append, hM]
    exact hi.marked
  · rw [hlog, List.countP_append, hM, hi.fresh (ha 2 ▸ h)]
  · rcases List.mem_append.mp (hlog ▸ he) with he | he
    · exact hi.acked e he hm
    · exact absurd (List.countP_pos_iff.mpr ⟨e, he, hm⟩) (by omega)

/-- A new call into the manager starts outside every execution. -/
theorem OnceInv.spawn {s : State} (hi : OnceInv b s) {p : Pc} (hp : p.stage b = 0)
    (hpe : p.execution = none) (hpf : p.forgets b = false) :
    OnceInv b { s with threads := s.threads ++ [p] } := by
  have ha (k : Nat) (hk : 0 < k) :
      State.atStage b { s with threads := s.threads ++ [p] } k = s.atStage b k := by
    simp [State.atStage, hp, Nat.not_le.mpr hk]
  have hm : State.marking b { s with threads := s.threads ++ [p] } = s.marking b := by
    simp [State.marking, hp]
  refine ⟨(ha 1 Nat.one_pos).symm ▸ hi.running, fun i pc dbg c h he hb => ?_, fun pc hm => ?_,
    by rw [ha 3 (by omega)]; exact hi.instructs, by rw [hm]; exact hi.sends, hi.marked,
    fun h => hi.fresh (ha 2 (by omega) ▸ h), hi.acked⟩
  · rcases lt_or_le i s.threads.length with hl | hl
    · rw [List.getElem?_append_left hl] at h
      exact hi.stored i pc dbg c h he hb
    · rw [List.getElem?_append_right hl] at h
      obtain rfl := List.mem_singleton.mp (List.getElem?_mem h)
      cases hpe.symm.trans he
  · rcases List.mem_append.mp hm with hm | hm
    · exact hi.noForget pc hm
    · rw [List.mem_singleton.mp hm, hpf]

theorem onceInv_init (files : List ObjectFile) : OnceInv b (init files) where
  running := by simp [State.atStage, init]
  stored _ _ _ _ h := by simp [init] at h
  noForget _ h := by simp [init] at h
  instructs := by simp [State.atStage, init]
  sends := by simp [State.marking, init]
  marked := by simp [init]
  fresh _ := by simp [init]
  acked _ h := by simp [init] at h

theorem OnceInv.marks_eq_zero {s : State} (hi : OnceInv b s)
    (h : ¬∃ c u, Event.marked c b u (.ok ()) ∈ s.log) : s.log.countP (Event.marks b) = 0 :=
  List.countP_eq_zero.mpr fun e he hm => h (by
    obtain ⟨c, u, rfl⟩ := hi.acked e he hm
    exact ⟨c, u, he⟩)

theorem Pc.stage_eq_zero_of_ne {pc : Pc} {dbg : ObjectFile} {c : Nat}
    (he : pc.execution = some (dbg, c)) (hb : dbg.buildID ≠ b) : pc.stage b = 0 := by
  by_contra h
  obtain ⟨dbg', c', he', hb'⟩ := Pc.execution_of_stage_pos b (Nat.pos_of_ne_zero h)
  cases he.symm.trans he'
  exact hb hb'

theorem State.uploadComplete_uploadGroup (X : State) (t : Nat) (who : Caller) (dbg : ObjectFile)
    (c : Nat) (r : Outcome Unit) :
    (X.uploadComplete t who dbg c r).uploadGroup = X.uploadGroup.complete c r := by
  cases r <;> rfl

section Complete

variable {s X : State} (hi : OnceInv b s) {t : Nat} {pc : Pc} {who : Caller} {dbg : ObjectFile}
  {c : Nat} {es : List Event} (hpc : s.threads[t]? = some pc) (hx : pc.execution = some (dbg, c))
  (hk : (s.uploadGroup.calls[c]?).map (·.key) = some dbg.buildID)
  (hth : X.threads = s.threads) (hlog : X.log = s.log ++ es) (hst : X.uploadGroup = s.uploadGroup)
include hi hpc hx hk hth hlog hst

/-- An execution for another build ID completes. -/
theorem OnceInv.complete_other (hb : dbg.buildID ≠ b) (hes : es.any (Event.counted b) = false)
    (r : Outcome Unit) : OnceInv b (X.uploadComplete t who dbg c r) := by
  have hs := Pc.stage_eq_zero_of_ne b hx hb
  have hstored : (X.uploadComplete t who dbg c r).uploadGroup.stored b = s.uploadGroup.stored b := by
    rw [State.uploadComplete_uploadGroup, hst]
    exact Group.stored_complete_of_ne b hk hb
  rcases r with ⟨⟩ | e
  · refine hi.stay b hpc (congrArg (List.set · t _) hth)
      ((congrArg (· ++ _) hlog).trans (List.append_assoc _ _ _)) ?_ rfl hs.symm (.inl rfl) hstored
    rw [List.any_append, hes, Bool.false_or]
    exact Caller.counted_returned b who t _
  · exact hi.stay b hpc (congrArg (List.set · t _) hth) hlog hes (by simp [Pc.forgets, hb])
      hs.symm (.inl rfl) hstored

/-- An execution completes with nil before `InitiateUpload` answered it with
instructions. -/
theorem OnceInv.complete_early (hs2 : pc.stage b ≤ 2) (hes : es.any (Event.counted b) = false) :
    OnceInv b (X.uploadComplete t who dbg c (.ok ())) := by
  by_cases hb : dbg.buildID = b
  · refine hi.finish b hpc (congrArg (List.set · t _) hth)
      ((congrArg (· ++ _) hlog).trans (List.append_assoc _ _ _)) ?_ rfl
      (Pc.stage_pos_of_execution b hx hb) hs2 rfl
    rw [List.any_append, hes, Bool.false_or]
    exact Caller.counted_returned b who t _
  · exact hi.complete_other b hpc hx hk hth hlog hst hb hes _

/-- An execution that completes with an error is not one for `b`. -/
theorem OnceInv.complete_error {e : String}
    (hes : dbg.buildID ≠ b → es.any (Event.counted b) = false)
    (he' : Env b (X.uploadComplete t who dbg c (.error e))) :
    OnceInv b (X.uploadComplete t who dbg c (.error e)) := by
  by_cases hb : dbg.buildID = b
  · exact (he'.complete_error b (by rw [hst, ← hb]; exact hk)).elim
  · exact hi.complete_other b hpc hx hk hth hlog hst hb (hes hb) _

end Complete

variable (cfg : Config)

/-- **One step of one thread keeps the invariant**, in a run where the
environment's assumptions hold before and after it. -/
theorem OnceInv.thread {s s' : State} {t : Nat} {pc : Pc} (hi : OnceInv b s)
    (hf : FlightInv s) (he : Env b s) (he' : Env b s') (hpc : s.threads[t]? = some pc)
    (hm : Move cfg s t pc s') : OnceInv b s' := by
  have hkey := hf.keys pc (List.getElem?_mem hpc)
  /- a step that moves nothing `b` counts -/
  have goto : ∀ {pc' : Pc}, pc'.stage b = pc.stage b → pc'.stage b = 0 ∨ pc'.execution = pc.execution →
      pc'.forgets b = false → OnceInv b (s.goto t pc') := fun hs hx hf =>
    hi.stay b hpc rfl (List.append_nil _).symm rfl hf hs hx rfl
  cases hm with
  | gateHit | gateNo => exact hi.stay b hpc rfl (List.append_assoc _ _ _) rfl rfl rfl (.inl rfl) rfl
  | gateGo | acquired | released => exact hi.stay b hpc rfl rfl rfl rfl rfl (.inl rfl) rfl
  | elfFailed | elfKept | extracted | extractFailed | joinedExtracted | extractForgot =>
    refine hi.extractReturn b hpc rfl ?_ ?_ ?_ _ _ <;> rfl
  | @acquireFailed who | @joinedUploaded who =>
    exact hi.stay b hpc rfl rfl (Caller.counted_returned b who t _) rfl rfl (.inl rfl) rfl
  | uploadJoin hj =>
    exact hi.stay b hpc rfl (List.append_nil _).symm rfl rfl rfl (.inl rfl)
      (congrFun (Group.enter_join hj) b)
  | @uploadInstall who dbg c g hj =>
    obtain ⟨hnone, hsome⟩ := hf.wf.enter_install hj
    by_cases hb : dbg.buildID = b
    · subst hb
      refine hi.move _ hpc _ [] rfl (List.append_nil _).symm (.inr (.inl hnone))
        (fun _ _ e _ => ?_) (fun _ => .inr hnone) rfl (by simp [Pc.stage]) (by simp [Pc.stage])
        (.inl rfl) (fun h => absurd h (by simp [Pc.stage])) (fun _ h => absurd h (List.not_mem_nil _))
      cases e
      exact hsome
    · exact hi.stay b hpc rfl (List.append_nil _).symm rfl rfl (by simp [Pc.stage, hb])
        (.inl (by simp [Pc.stage, hb])) (Group.stored_enter_of_ne b hj hb)
  | recheckHit | recheckNo | alreadyExists =>
    exact hi.complete_early b hpc rfl (hkey _ _ rfl) (by rfl) (by rfl) (by rfl)
      (by simp [Pc.stage]; split <;> omega) (by rfl)
  | recheckMiss | hashHit | hashMiss => exact goto rfl (.inr rfl) rfl
  | @recheckGo who dbg c r hr =>
    by_cases hb : dbg.buildID = b
    · subst hb
      exact hi.advance _ hpc rfl rfl rfl rfl (by simp [Pc.stage]) rfl rfl
        (by simp [Pc.stage, Event.instructs]) (by simp [Pc.stage, Event.sendsBody])
        fun _ => .inr (hi.marks_eq_zero _ fun hm => hr (he'.noAfterMark s.log _ r [] rfl hm))
    · exact hi.stay b hpc rfl rfl rfl rfl (by simp [Pc.stage, hb]) (.inr rfl) rfl
  | hashReaderFailed | hashFailed | transferReaderFailed | transferRefused =>
    exact hi.complete_error b hpc rfl (hkey _ _ rfl) rfl (List.append_nil _).symm rfl
      (fun _ => rfl) he'
  | hashed => exact hi.stay b hpc rfl (List.append_nil _).symm rfl rfl rfl (.inr rfl) rfl
  | @initiated who dbg | @transferred who dbg =>
    by_cases hb : dbg.buildID = b
    · subst hb
      exact hi.advance _ hpc rfl rfl rfl rfl (by simp [Pc.stage]) rfl rfl
        (by simp [Pc.stage, Event.instructs]) (by simp [Pc.stage, Event.sendsBody])
        fun _ => .inl (by simp [Pc.stage])
    · exact hi.stay b hpc rfl rfl (by simp [Event.counted, Event.instructs, Event.sendsBody, Event.marks, hb]) rfl (by simp [Pc.stage, hb]) (.inr rfl) rfl
  | initiateFailed | transferFailed | markFailed =>
    exact hi.complete_error b hpc rfl (hkey _ _ rfl) (by rfl) (by rfl) (by rfl)
      (fun hb => by simp [Event.counted, Event.instructs, Event.sendsBody, Event.marks, hb]) he'
  | @marked who dbg c u =>
    by_cases hb : dbg.buildID = b
    · subst hb
      have hr := countP_eq_zero_of_not_counted dbg.buildID
        (Caller.counted_returned dbg.buildID who t (.ok ()))
      refine hi.move _ hpc _ _ rfl (List.append_assoc _ _ _) (.inl (by simp [Pc.stage]))
        (fun _ _ e _ => Option.noConfusion e) (fun h => absurd h (lt_irrefl 0)) rfl ?_ ?_
        (.inr ⟨by simp [Pc.stage], rfl, ?_⟩) (fun h => absurd h (Nat.not_succ_le_zero 1))
        (fun e h hm => ?_)
      · simp [List.countP_cons, hr, Pc.stage, Event.instructs, Event.marks]
      · simp [List.countP_cons, hr, Pc.stage, Event.sendsBody, Event.marks]
      · simp [List.countP_cons, hr, Event.marks]
      · rcases List.mem_append.mp h with h | h
        · exact ⟨c, u, List.mem_singleton.mp h⟩
        · simp only [List.mem_cons] at h
          rcases h with rfl | h
          · cases hm
          · exact absurd (List.countP_pos_iff.mpr ⟨e, h, hm⟩) (by omega)
    · exact hi.complete_other b hpc rfl (hkey dbg c rfl) (by rfl) (by rfl) (by rfl) hb
        (by simp [Event.counted, Event.instructs, Event.sendsBody, Event.marks, hb]) _
  | @joinedUploadFailed who dbg c e hr =>
    by_cases hb : dbg.buildID = b
    · exact (he.result_error b (hb ▸ hkey dbg c rfl) hr).elim
    · exact goto rfl (.inl rfl) (by simp [Pc.forgets, hb])
  | uploadForgot =>
    exact hi.stay b hpc rfl rfl (Caller.counted_returned b _ t _) rfl rfl (.inl rfl)
      (Group.stored_forget_of_ne b (ne_of_beq_false (hi.noForget _ (List.getElem?_mem hpc))))
  | _ => exact hi.stay b hpc rfl (List.append_nil _).symm rfl rfl rfl (.inl rfl) rfl

theorem OnceInv.step {s s' : State} {a : Action} (hi : OnceInv b s) (hf : FlightInv s)
    (he : Env b s) (he' : Env b s') (h : step cfg s a = some s') : OnceInv b s' := by
  cases a with
  | thread t a =>
    obtain ⟨pc, hpc, h⟩ := Option.bind_eq_some.mp h
    exact hi.thread b cfg hf he he' hpc (threadStep_move cfg h)
  | spawn i =>
    obtain ⟨file, -, rfl⟩ := Option.map_eq_some'.mp h
    cases i <;> exact hi.spawn b rfl rfl rfl
  | evict b' =>
    cases h
    exact hi.frame b rfl rfl rfl rfl
  | evictHash k =>
    cases h
    exact hi.frame b rfl (List.append_nil _).symm rfl rfl

theorem ReachableUnder.onceInv {files : List ObjectFile} {s : State}
    (hs : ReachableUnder cfg files (Env b) s) : OnceInv b s := by
  induction hs with
  | init _ => exact onceInv_init b files
  | step hr h he' ih => exact ih.step b cfg ((hr.reachable cfg).flightInv cfg) (hr.holds cfg) he' h

/-- The executions in progress for `b` are the threads past stage 0. -/
theorem State.uploading_eq_atStage (s : State) : s.uploading b = s.atStage b 1 := by
  refine List.countP_congr fun pc _ => ?_
  simp only [beq_iff_eq, Option.map_eq_some', decide_eq_true_eq]
  constructor
  · rintro ⟨⟨dbg, c⟩, he, hb⟩
    exact Pc.stage_pos_of_execution b he hb
  · intro h
    obtain ⟨dbg, c, he, hb⟩ := Pc.execution_of_stage_pos b h
    exact ⟨(dbg, c), he, hb⟩

/-! ### Runs under the assumptions -/

/-- `ParcaAgent.Debuginfo.Env` checked on one state the strong way: no call of `b`
has failed, and no `MarkUploadFinished(b)` has been sent. -/
def envCheck (s : State) : Bool :=
  (s.uploadGroup.calls.all fun call => call.key != b || call.result.all (· == .ok ())) &&
    !(s.log.any (Event.marks b))

theorem Env.of_check {s : State} (h : envCheck b s = true) : Env b s := by
  simp only [envCheck, Bool.and_eq_true, List.all_eq_true, Bool.or_eq_true, bne_iff_ne, ne_eq,
    beq_iff_eq, Bool.not_eq_true', List.any_eq_false] at h
  refine ⟨fun c call hc hk e he => ?_, fun l₁ w r l₂ hl ⟨c, u, hm⟩ => ?_⟩
  · rcases h.1 call (List.getElem?_mem hc) with h | h
    · exact absurd hk h
    · rw [he] at h
      simp at h
  · exact absurd (by simp [Event.marks]) (h.2 _ (hl ▸ List.mem_append_left _ hm))

/-- Run a list of actions while `p` holds of every state reached. -/
def runWhile (p : State → Bool) : State → List Action → Option State
  | s, [] => some s
  | s, a :: as => (step cfg s a).bind fun s' => if p s' then runWhile p s' as else none

theorem ReachableUnder.of_runWhile {files : List ObjectFile} {P : State → Prop}
    {p : State → Bool} (hp : ∀ s, p s = true → P s) :
    ∀ {s s' : State} {as : List Action}, ReachableUnder cfg files P s →
      runWhile cfg p s as = some s' → ReachableUnder cfg files P s'
  | _, _, [], hs, h => by
    obtain rfl := Option.some_inj.mp h
    exact hs
  | _, _, a :: as, hs, h => by
    obtain ⟨s1, hst, h⟩ := Option.bind_eq_some.mp h
    split at h
    · exact ReachableUnder.of_runWhile hp (hs.step hst (hp s1 ‹_›)) h
    · cases h

/-- A run from the start, every state of which passes `p`, that ends in a state
where `q` holds. -/
theorem reachUnder_of_runWhile (files : List ObjectFile) (as : List Action) {P : State → Prop}
    {p q : State → Bool} (hp : ∀ s, p s = true → P s) (h0 : p (init files) = true)
    (h : (runWhile cfg p (init files) as).map q = some true) :
    ∃ s, ReachableUnder cfg files P s ∧ q s = true := by
  cases hr : runWhile cfg p (init files) as with
  | none => simp [hr] at h
  | some s =>
    simp only [hr, Option.map_some', Option.some.injEq] at h
    exact ⟨s, ReachableUnder.of_runWhile cfg hp (.init (hp _ h0)) hr, h⟩

/-- **At most one upload per build ID.** Over every run in which no execution of
`upload` for `b` fails and `ShouldInitiateUpload(b)` is answered false once a
`MarkUploadFinished(b)` has been acknowledged, at every point: at most one
execution of `upload` for `b` is in progress, the body of `b` has been sent at most
once, `MarkUploadFinished(b)` has been sent at most once, and at most one
`InitiateUpload(b)` has been answered with upload instructions. -/
theorem upload_at_most_once (files : List ObjectFile) (s : State)
    (hs : ReachableUnder cfg files (Env b) s) :
    s.uploading b ≤ 1 ∧ s.log.countP (Event.sendsBody b) ≤ 1 ∧
      s.log.countP (Event.marks b) ≤ 1 ∧ s.log.countP (Event.instructs b) ≤ 1 := by
  have hi := hs.onceInv b cfg
  have h1 := hi.running
  have hM := hi.marked
  have hfr := hi.fresh
  have h21 := s.atStage_mono b (by omega : 1 ≤ 2)
  have h32 := s.atStage_mono b (by omega : 2 ≤ 3)
  have h43 := s.marking_le b
  refine ⟨s.uploading_eq_atStage b ▸ h1, ?_, hM, ?_⟩
  · rw [hi.sends]
    by_cases h : 0 < s.atStage b 2 <;> omega
  · rw [hi.instructs]
    by_cases h : 0 < s.atStage b 2 <;> omega

/-! ### Runs -/

/-- An `EnsureUploaded` of `probeFile` that finds its debug file and uploads it; the
server answers `InitiateUpload` with `AlreadyExists`. -/
def initiateAlreadyExists : List Action :=
  [.spawn (.ensureUploaded 0), .thread 0 .none, .thread 0 (.rpc (.ok true)),
    .thread 0 (.find (some (.ok probeDebugFile))), .thread 0 (.acquire (.ok ())), .thread 0 .none,
    .thread 0 .none, .thread 0 (.rpc (.ok true)), .thread 0 .none,
    .thread 0 (.hashed (.ok ()) (.ok ())), .thread 0 (.initiate .alreadyExists), .thread 0 .none]

theorem upload_at_most_once_alreadyExists :
    ∃ s, ReachableUnder sampleConfig [probeFile] (Env probeFile.buildID) s ∧
      Event.initiated 0 probeDebugFile "dbg" .alreadyExists ∈ s.log ∧
      (s.uploading probeFile.buildID ≤ 1 ∧ s.log.countP (Event.sendsBody probeFile.buildID) ≤ 1 ∧
        s.log.countP (Event.marks probeFile.buildID) ≤ 1 ∧
        s.log.countP (Event.instructs probeFile.buildID) ≤ 1) := by
  obtain ⟨s, hs, h⟩ := reachUnder_of_runWhile sampleConfig [probeFile] initiateAlreadyExists
    (p := envCheck probeFile.buildID) (fun _ => Env.of_check probeFile.buildID) (by decide)
    (q := fun s => decide (Event.initiated 0 probeDebugFile "dbg" .alreadyExists ∈ s.log))
    (by decide)
  exact ⟨s, hs, of_decide_eq_true h, upload_at_most_once probeFile.buildID sampleConfig [probeFile] s hs⟩

/-- Two `EnsureUploaded`s of one file, one after the other. The server answers the
first one's `InitiateUpload` with `AlreadyExists`; the cache entry this puts
expires; the second asks the server, is told to upload, and initiates again. -/
def initiateAfterExpiry : List Action :=
  initiateAlreadyExists ++ [.evict probeFile.buildID,
    .spawn (.ensureUploaded 0), .thread 1 .none, .thread 1 (.rpc (.ok true)), .thread 1 .none,
    .thread 1 (.acquire (.ok ())), .thread 1 .none, .thread 1 .none, .thread 1 (.rpc (.ok true)),
    .thread 1 .none, .thread 1 (.initiate .alreadyExists)]

/-- **`InitiateUpload` is not bounded.** Under the same assumptions, two
`InitiateUpload(b)` requests are sent: an `AlreadyExists` answer caches `b` but
marks nothing, and once that cache entry expires the next `EnsureUploaded` of a
file of build ID `b` initiates again. -/
theorem initiate_again_after_expiry :
    ∃ s, ReachableUnder sampleConfig [probeFile] (Env probeFile.buildID) s ∧
      2 ≤ s.log.countP (Event.initiates probeFile.buildID) := by
  obtain ⟨s, hs, h⟩ := reachUnder_of_runWhile sampleConfig [probeFile] initiateAfterExpiry
    (p := envCheck probeFile.buildID) (fun _ => Env.of_check probeFile.buildID) (by decide)
    (q := fun s => decide (2 ≤ s.log.countP (Event.initiates probeFile.buildID))) (by decide)
  exact ⟨s, hs, of_decide_eq_true h⟩

end Debuginfo

end ParcaAgent

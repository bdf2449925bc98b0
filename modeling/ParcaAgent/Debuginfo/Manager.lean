import ParcaAgent.Debuginfo.Model

/-!
# The manager, step by step

`pkg/debuginfo/manager.go` as a step function: `ParcaAgent.Debuginfo.threadStep`
moves one thread over one shared action of the code (a cache access, a request to
the server, a single-flight or semaphore operation), together with the local work
up to the next one, and `ParcaAgent.Debuginfo.step` adds the environment's
actions: a new call into the manager, and the eviction of a cache entry.

| code | points |
|---|---|
| `EnsureUploaded`, `shouldInitiate`, `ExtractOrFind` | `ensureGate`, `ensureAsk`, `ensureFind` |
| `Extract` | `extractElf`, `extractRun`, `extractWait`, `extractForget` |
| `Upload` and its goroutine | `uploadAcquire`, `uploadDo`, `uploadWait`, `uploadForget`, `uploadRelease` |
| `upload`, run by the goroutine that installed the call | `uploadRecheck` to `uploadMark` |

`Upload`'s goroutine sends its result on `errCh` before its deferred `Release`
runs; the caller of `Upload` returns on receiving it. Here the send is the step
that leaves the goroutine at `uploadRelease`, and logs what the caller returns.

## What a step does

`ParcaAgent.Debuginfo.Move` says once what a step can do: one constructor per way
through `threadStep`, with the guard it passed and the state it returns, and
`ParcaAgent.Debuginfo.threadStep_move` is the one place that unfolds `threadStep`.
Every invariant of the later modules is a case analysis over the moves, never an
argument about `threadStep` itself.
-/

namespace ParcaAgent

namespace Debuginfo

variable (cfg : Config)

/-! ### The state's operations -/

/-- Thread `t` goes to `pc`. -/
def State.goto (s : State) (t : Nat) (pc : Pc) : State := { s with threads := s.threads.set t pc }

/-- Append events to the log. -/
def State.emit (s : State) (es : List Event) : State := { s with log := s.log ++ es }

/-- `shouldInitiateCache.Put(buildID)`; a no-op cache keeps nothing. -/
def State.putShouldInitiate (s : State) (b : String) : State :=
  { s with shouldInitiateCache :=
      if cfg.cacheDisabled then s.shouldInitiateCache else insert b s.shouldInitiateCache }

/-- `hashCache.Put(key, h)`; a no-op cache keeps nothing. -/
def State.putHash (s : State) (k : HashCacheKey) (h : String) : State :=
  { s with hashCache := if cfg.cacheDisabled then s.hashCache else Function.update s.hashCache k (some h) }

/-- `EnsureUploaded(src)` returns `r`. -/
def State.ensureReturn (s : State) (t src : Nat) (r : Outcome Unit) : State :=
  (s.emit [.ensureReturned t src r]).goto t .done

/-- `Extract` returns `r` to its caller. `ExtractOrFind` records the debug file in
`src.DebugFile` and uploads it, or `EnsureUploaded` fails. -/
def State.extractReturn (s : State) (t : Nat) (who : Caller) (r : Outcome ObjectFile) : State :=
  match who, r with
  | .top, _ => s.goto t .done
  | .ensure src, .ok dbg =>
    { s with debugFile := Function.update s.debugFile src (some dbg) }.goto t
      (.uploadAcquire (.ensure src) dbg)
  | .ensure src, .error e => s.ensureReturn t src (.error ("failed to strip debuginfo: " ++ e))

/-- What the caller of `Upload` logs when `Upload` returns `r`: `EnsureUploaded`
returns it in turn. -/
def Caller.returned (t : Nat) (r : Outcome Unit) : Caller → List Event
  | .top => []
  | .ensure src => [.ensureReturned t src r]

/-- `Upload`'s goroutine sends `r` on `errCh`, and its caller returns it; the
goroutine then gives its token back if it holds one. -/
def State.uploadReturn (s : State) (t : Nat) (who : Caller) (dbg : ObjectFile) (c : Option Nat)
    (r : Outcome Unit) (holds : Bool) : State :=
  (s.emit (.received t dbg c r :: who.returned t r)).goto t
    (if holds then .uploadRelease else .done)

/-- The upload execution of call `c` returns `r`: the call completes, and `Do`
returns to the goroutine that ran it. -/
def State.uploadComplete (s : State) (t : Nat) (who : Caller) (dbg : ObjectFile) (c : Nat)
    (r : Outcome Unit) : State :=
  let s := { s with uploadGroup := s.uploadGroup.complete c r }
  match r with
  | .error e => s.goto t (.uploadForget who dbg c e)
  | .ok () => s.uploadReturn t who dbg (some c) (.ok ()) true

section Fields

variable (s : State) (t : Nat)

attribute [simp] State.goto State.emit State.putShouldInitiate State.putHash State.ensureReturn
  State.uploadReturn State.uploadComplete

@[simp] theorem State.extractReturn_tokens (who : Caller) (r : Outcome ObjectFile) :
    (s.extractReturn t who r).tokens = s.tokens := by
  cases who <;> cases r <;> rfl

@[simp] theorem State.extractReturn_uploadGroup (who : Caller) (r : Outcome ObjectFile) :
    (s.extractReturn t who r).uploadGroup = s.uploadGroup := by
  cases who <;> cases r <;> rfl

@[simp] theorem State.extractReturn_hashCache (who : Caller) (r : Outcome ObjectFile) :
    (s.extractReturn t who r).hashCache = s.hashCache := by
  cases who <;> cases r <;> rfl

/-- `Extract` returns to a top-level caller, to an upload of the debug file, or
with an error of `EnsureUploaded`. -/
theorem State.extractReturn_cases (who : Caller) (r : Outcome ObjectFile) :
    (s.extractReturn t who r).log = s.log ∧
      (s.extractReturn t who r).threads = s.threads.set t .done ∨
    (∃ src dbg, (s.extractReturn t who r).log = s.log ∧
      (s.extractReturn t who r).threads = s.threads.set t (.uploadAcquire (.ensure src) dbg)) ∨
    ∃ src e, (s.extractReturn t who r).log = s.log ++ [.ensureReturned t src (.error e)] ∧
      (s.extractReturn t who r).threads = s.threads.set t .done := by
  rcases who with _ | src <;> rcases r with dbg | e
  · exact .inl ⟨rfl, rfl⟩
  · exact .inl ⟨rfl, rfl⟩
  · exact .inr (.inl ⟨src, dbg, rfl, rfl⟩)
  · exact .inr (.inr ⟨src, _, rfl, rfl⟩)

@[simp] theorem State.extractReturn_sources (who : Caller) (r : Outcome ObjectFile) :
    (s.extractReturn t who r).sources = s.sources := by
  cases who <;> cases r <;> rfl

/-- `Extract`'s return appends to the log and moves thread `t` only. -/
theorem State.extractReturn_moves (who : Caller) (r : Outcome ObjectFile) :
    (∃ es, (s.extractReturn t who r).log = s.log ++ es) ∧
      ∃ pc', (s.extractReturn t who r).threads = s.threads.set t pc' := by
  rcases s.extractReturn_cases t who r with ⟨hl, ht⟩ | ⟨_, _, hl, ht⟩ | ⟨_, _, hl, ht⟩
  · exact ⟨⟨[], hl.trans (List.append_nil _).symm⟩, _, ht⟩
  · exact ⟨⟨[], hl.trans (List.append_nil _).symm⟩, _, ht⟩
  · exact ⟨⟨_, hl⟩, _, ht⟩

end Fields

/-! ### One step of a thread -/

/-- **One step of thread `t` at `pc`**, reading `a` from outside. `none` when the
step cannot be taken: the thread waits, or `a` is not what the step reads. -/
def threadStep (s : State) (t : Nat) : Pc → Answer → Option State
  | .ensureGate src, a =>
    match a, s.sources[src]? with
    | .none, some file =>
      if file.buildID ∈ s.shouldInitiateCache then
        some (({ s with ensureShared := s.ensureShared + 1 }.emit
          [.cacheHit (.gate t) file.buildID]).ensureReturn t src (.ok ()))
      else some (s.goto t (.ensureAsk src))
    | _, _ => none
  | .ensureAsk src, a =>
    match a, s.sources[src]? with
    | .rpc r, some file =>
      let s1 := s.emit [.asked (.gate t) file.buildID r]
      match r with
      | .ok false =>
        some ({ (s1.putShouldInitiate cfg file.buildID) with
          ensureShared := s.ensureShared + 1 }.ensureReturn t src (.ok ()))
      | _ => some (s1.goto t (.ensureFind src))
    | _, _ => none
  | .ensureFind src, a =>
    match s.debugFile src, a, s.sources[src]? with
    | some dbg, .none, _ => some (s.goto t (.uploadAcquire (.ensure src) dbg))
    | none, .find (some (.ok dbg)), _ =>
      some ({ s with debugFile := Function.update s.debugFile src (some dbg) }.goto t
        (.uploadAcquire (.ensure src) dbg))
    | none, .find _, some file => some (s.goto t (.extractElf (.ensure src) file))
    | _, _, _ => none
  | .extractElf who src, a =>
    match a with
    | .elf (.error e) => some (s.extractReturn t who (.error ("failed to get ELF file: " ++ e)))
    | .elf (.ok ()) =>
      if cfg.stripDebuginfos && src.hasTextSection then
        match s.extractGroup.enter src.buildID with
        | (.join c, g) => some ({ s with extractGroup := g }.goto t (.extractWait who src c))
        | (.install c, g) => some ({ s with extractGroup := g }.goto t (.extractRun who src c))
      else some (s.extractReturn t who (.ok src))
    | _ => none
  | .extractRun who src c, a =>
    match a with
    | .extracted r =>
      let s1 := { s with extractGroup := s.extractGroup.complete c r }
      match r with
      | .ok dbg => some (s1.extractReturn t who (.ok dbg))
      | .error e =>
        if s1.extractGroup.shared c then some (s1.goto t (.extractForget who src e))
        else some (s1.extractReturn t who (.error e))
    | _ => none
  | .extractWait who src c, a =>
    match a, s.extractGroup.result c with
    | .none, some (.ok dbg) => some (s.extractReturn t who (.ok dbg))
    | .none, some (.error e) => some (s.goto t (.extractForget who src e))
    | _, _ => none
  | .extractForget who src e, a =>
    match a with
    | .none =>
      some ({ s with extractGroup := s.extractGroup.forget src.buildID }.extractReturn t who
        (.error e))
    | _ => none
  | .uploadAcquire who dbg, a =>
    match a with
    | .acquire (.error e) =>
      some (s.uploadReturn t who dbg none (.error ("failed to acquire upload task token: " ++ e))
        false)
    | .acquire (.ok ()) =>
      if (s.tokens : Int) + 1 ≤ cfg.uploadMaxParallel then
        some (({ s with tokens := s.tokens + 1 }.emit [.acquired t]).goto t (.uploadDo who dbg))
      else none
    | _ => none
  | .uploadDo who dbg, a =>
    match a, s.uploadGroup.enter dbg.buildID with
    | .none, (.join c, g) => some ({ s with uploadGroup := g }.goto t (.uploadWait who dbg c))
    | .none, (.install c, g) => some ({ s with uploadGroup := g }.goto t (.uploadRecheck who dbg c))
    | _, _ => none
  | .uploadRecheck who dbg c, a =>
    match a with
    | .none =>
      if dbg.buildID ∈ s.shouldInitiateCache then
        some ((s.emit [.cacheHit (.exec c) dbg.buildID]).uploadComplete t who dbg c (.ok ()))
      else some (s.goto t (.uploadAsk who dbg c))
    | _ => none
  | .uploadAsk who dbg c, a =>
    match a with
    | .rpc r =>
      let s1 := s.emit [.asked (.exec c) dbg.buildID r]
      match r with
      | .ok false =>
        some ((s1.putShouldInitiate cfg dbg.buildID).uploadComplete t who dbg c (.ok ()))
      | _ => some (s1.goto t (.uploadHash who dbg c))
    | _ => none
  | .uploadHash who dbg c, a =>
    match a, s.hashCache (hashCacheKey dbg) with
    | .none, some h => some (s.goto t (.uploadInitiate who dbg c h))
    | .none, none => some (s.goto t (.uploadHashCompute who dbg c))
    | _, _ => none
  | .uploadHashCompute who dbg c, a =>
    match a with
    | .hashed (.error e) _ =>
      some (s.uploadComplete t who dbg c (.error ("failed to obtain reader for object file: " ++ e)))
    | .hashed (.ok ()) (.error e) =>
      some (s.uploadComplete t who dbg c (.error ("hash debuginfos: " ++ e)))
    | .hashed (.ok ()) (.ok ()) =>
      some ((s.putHash cfg (hashCacheKey dbg) (cfg.hashReader dbg.content)).goto t
        (.uploadInitiate who dbg c (cfg.hashReader dbg.content)))
    | _ => none
  | .uploadInitiate who dbg c h, a =>
    match a with
    | .initiate r =>
      let s1 := s.emit [.initiated c dbg h r]
      match r with
      | .ok u st => some (s1.goto t (.uploadTransfer who dbg c u st))
      | .alreadyExists =>
        some ((s1.putShouldInitiate cfg dbg.buildID).uploadComplete t who dbg c (.ok ()))
      | .error e => some (s1.uploadComplete t who dbg c (.error ("initiate upload: " ++ e)))
    | _ => none
  | .uploadTransfer who dbg c u st, a =>
    match a, st.refusal with
    | .transfer (.error e) _, _ =>
      some (s.uploadComplete t who dbg c (.error ("failed to obtain reader for object file: " ++ e)))
    | .transfer (.ok ()) _, some msg =>
      some (s.uploadComplete t who dbg c (.error ("upload debuginfo: " ++ msg)))
    | .transfer (.ok ()) sent, none =>
      let s1 := s.emit [.transferred c dbg u sent]
      match sent with
      | .ok () => some (s1.goto t (.uploadMark who dbg c u))
      | .error e => some (s1.uploadComplete t who dbg c (.error ("upload debuginfo: " ++ e)))
    | _, _ => none
  | .uploadMark who dbg c u, a =>
    match a with
    | .mark r =>
      let s1 := s.emit [.marked c dbg.buildID u r]
      match r with
      | .ok () => some (s1.uploadComplete t who dbg c (.ok ()))
      | .error e => some (s1.uploadComplete t who dbg c (.error ("mark upload finished: " ++ e)))
    | _ => none
  | .uploadWait who dbg c, a =>
    match a, s.uploadGroup.result c with
    | .none, some (.ok ()) => some (s.uploadReturn t who dbg (some c) (.ok ()) true)
    | .none, some (.error e) => some (s.goto t (.uploadForget who dbg c e))
    | _, _ => none
  | .uploadForget who dbg c e, a =>
    match a with
    | .none =>
      some ({ s with uploadGroup := s.uploadGroup.forget dbg.buildID }.uploadReturn t who dbg
        (some c) (.error e) true)
    | _ => none
  | .uploadRelease, a =>
    match a with
    | .none => some (({ s with tokens := s.tokens - 1 }.emit [.released t]).goto t .done)
    | _ => none
  | .done, _ => none

/-! ### The calls a thread is in -/

/-- The execution of `upload` a thread is in: the debug file and the call of the
upload group it runs. -/
def Pc.execution : Pc → Option (ObjectFile × Nat)
  | .uploadRecheck _ dbg c | .uploadAsk _ dbg c | .uploadHash _ dbg c
  | .uploadHashCompute _ dbg c | .uploadInitiate _ dbg c _ | .uploadTransfer _ dbg c _ _
  | .uploadMark _ dbg c _ => some (dbg, c)
  | _ => none

/-- The call of the upload group a thread runs or waits for, with its debug file. -/
def Pc.uploadCall : Pc → Option (ObjectFile × Nat)
  | .uploadWait _ dbg c => some (dbg, c)
  | pc => pc.execution

/-- The extraction a thread runs: the object file and the call of the extract
group. -/
def Pc.extraction : Pc → Option (ObjectFile × Nat)
  | .extractRun _ src c => some (src, c)
  | _ => none

/-! ### What a step does -/

/-- **The moves of thread `t` from state `s`**: one constructor per way through
`threadStep`, with the guard that way passed and the state it returns. The answer
read from outside is not kept: what the state records of it is in the returned
state. -/
inductive Move (s : State) (t : Nat) : Pc → State → Prop
  /-- `shouldInitiate` finds the build ID cached: `EnsureUploaded` returns nil. -/
  | gateHit {src : Nat} {file : ObjectFile} (hf : s.sources[src]? = some file)
      (hc : file.buildID ∈ s.shouldInitiateCache) :
      Move s t (.ensureGate src)
        (({ s with ensureShared := s.ensureShared + 1 }.emit
          [.cacheHit (.gate t) file.buildID]).ensureReturn t src (.ok ()))
  | gateMiss {src : Nat} {file : ObjectFile} (hf : s.sources[src]? = some file)
      (hc : file.buildID ∉ s.shouldInitiateCache) :
      Move s t (.ensureGate src) (s.goto t (.ensureAsk src))
  /-- The server answers false: the build ID is cached and `EnsureUploaded` returns
  nil. -/
  | gateNo {src : Nat} {file : ObjectFile} (hf : s.sources[src]? = some file) :
      Move s t (.ensureAsk src)
        ({ ((s.emit [.asked (.gate t) file.buildID (.ok false)]).putShouldInitiate cfg
          file.buildID) with ensureShared := s.ensureShared + 1 }.ensureReturn t src (.ok ()))
  /-- Any other answer, errors included, lets `EnsureUploaded` go on. -/
  | gateGo {src : Nat} {file : ObjectFile} {r : Outcome Bool} (hf : s.sources[src]? = some file)
      (hr : r ≠ .ok false) :
      Move s t (.ensureAsk src) ((s.emit [.asked (.gate t) file.buildID r]).goto t (.ensureFind src))
  | findKnown {src : Nat} {dbg : ObjectFile} (hd : s.debugFile src = some dbg) :
      Move s t (.ensureFind src) (s.goto t (.uploadAcquire (.ensure src) dbg))
  | findFound {src : Nat} {dbg : ObjectFile} (hd : s.debugFile src = none) :
      Move s t (.ensureFind src)
        ({ s with debugFile := Function.update s.debugFile src (some dbg) }.goto t
          (.uploadAcquire (.ensure src) dbg))
  | findExtract {src : Nat} {file : ObjectFile} (hd : s.debugFile src = none)
      (hf : s.sources[src]? = some file) :
      Move s t (.ensureFind src) (s.goto t (.extractElf (.ensure src) file))
  | elfFailed {who : Caller} {src : ObjectFile} {e : String} :
      Move s t (.extractElf who src) (s.extractReturn t who (.error ("failed to get ELF file: " ++ e)))
  | elfJoin {who : Caller} {src : ObjectFile} {c : Nat} {g : Group ObjectFile}
      (hs : (cfg.stripDebuginfos && src.hasTextSection) = true)
      (he : s.extractGroup.enter src.buildID = (.join c, g)) :
      Move s t (.extractElf who src) ({ s with extractGroup := g }.goto t (.extractWait who src c))
  | elfInstall {who : Caller} {src : ObjectFile} {c : Nat} {g : Group ObjectFile}
      (hs : (cfg.stripDebuginfos && src.hasTextSection) = true)
      (he : s.extractGroup.enter src.buildID = (.install c, g)) :
      Move s t (.extractElf who src) ({ s with extractGroup := g }.goto t (.extractRun who src c))
  | elfKept {who : Caller} {src : ObjectFile}
      (hs : (cfg.stripDebuginfos && src.hasTextSection) = false) :
      Move s t (.extractElf who src) (s.extractReturn t who (.ok src))
  | extracted {who : Caller} {src : ObjectFile} {c : Nat} {dbg : ObjectFile} :
      Move s t (.extractRun who src c)
        ({ s with extractGroup := s.extractGroup.complete c (.ok dbg) }.extractReturn t who (.ok dbg))
  | extractFailedShared {who : Caller} {src : ObjectFile} {c : Nat} {e : String}
      (hs : (s.extractGroup.complete c (.error e)).shared c = true) :
      Move s t (.extractRun who src c)
        ({ s with extractGroup := s.extractGroup.complete c (.error e) }.goto t
          (.extractForget who src e))
  | extractFailed {who : Caller} {src : ObjectFile} {c : Nat} {e : String}
      (hs : (s.extractGroup.complete c (.error e)).shared c = false) :
      Move s t (.extractRun who src c)
        ({ s with extractGroup := s.extractGroup.complete c (.error e) }.extractReturn t who
          (.error e))
  | joinedExtracted {who : Caller} {src : ObjectFile} {c : Nat} {dbg : ObjectFile}
      (hr : s.extractGroup.result c = some (.ok dbg)) :
      Move s t (.extractWait who src c) (s.extractReturn t who (.ok dbg))
  | joinedExtractFailed {who : Caller} {src : ObjectFile} {c : Nat} {e : String}
      (hr : s.extractGroup.result c = some (.error e)) :
      Move s t (.extractWait who src c) (s.goto t (.extractForget who src e))
  | extractForgot {who : Caller} {src : ObjectFile} {e : String} :
      Move s t (.extractForget who src e)
        ({ s with extractGroup := s.extractGroup.forget src.buildID }.extractReturn t who (.error e))
  /-- The context is done before a token is free: `Upload` returns its error. -/
  | acquireFailed {who : Caller} {dbg : ObjectFile} {e : String} :
      Move s t (.uploadAcquire who dbg)
        (s.uploadReturn t who dbg none (.error ("failed to acquire upload task token: " ++ e)) false)
  | acquired {who : Caller} {dbg : ObjectFile}
      (hle : (s.tokens : Int) + 1 ≤ cfg.uploadMaxParallel) :
      Move s t (.uploadAcquire who dbg)
        (({ s with tokens := s.tokens + 1 }.emit [.acquired t]).goto t (.uploadDo who dbg))
  | uploadJoin {who : Caller} {dbg : ObjectFile} {c : Nat} {g : Group Unit}
      (he : s.uploadGroup.enter dbg.buildID = (.join c, g)) :
      Move s t (.uploadDo who dbg) ({ s with uploadGroup := g }.goto t (.uploadWait who dbg c))
  | uploadInstall {who : Caller} {dbg : ObjectFile} {c : Nat} {g : Group Unit}
      (he : s.uploadGroup.enter dbg.buildID = (.install c, g)) :
      Move s t (.uploadDo who dbg) ({ s with uploadGroup := g }.goto t (.uploadRecheck who dbg c))
  | recheckHit {who : Caller} {dbg : ObjectFile} {c : Nat}
      (hc : dbg.buildID ∈ s.shouldInitiateCache) :
      Move s t (.uploadRecheck who dbg c)
        ((s.emit [.cacheHit (.exec c) dbg.buildID]).uploadComplete t who dbg c (.ok ()))
  | recheckMiss {who : Caller} {dbg : ObjectFile} {c : Nat}
      (hc : dbg.buildID ∉ s.shouldInitiateCache) :
      Move s t (.uploadRecheck who dbg c) (s.goto t (.uploadAsk who dbg c))
  | recheckNo {who : Caller} {dbg : ObjectFile} {c : Nat} :
      Move s t (.uploadAsk who dbg c)
        (((s.emit [.asked (.exec c) dbg.buildID (.ok false)]).putShouldInitiate cfg
          dbg.buildID).uploadComplete t who dbg c (.ok ()))
  | recheckGo {who : Caller} {dbg : ObjectFile} {c : Nat} {r : Outcome Bool} (hr : r ≠ .ok false) :
      Move s t (.uploadAsk who dbg c)
        ((s.emit [.asked (.exec c) dbg.buildID r]).goto t (.uploadHash who dbg c))
  | hashHit {who : Caller} {dbg : ObjectFile} {c : Nat} {h : String}
      (hh : s.hashCache (hashCacheKey dbg) = some h) :
      Move s t (.uploadHash who dbg c) (s.goto t (.uploadInitiate who dbg c h))
  | hashMiss {who : Caller} {dbg : ObjectFile} {c : Nat}
      (hh : s.hashCache (hashCacheKey dbg) = none) :
      Move s t (.uploadHash who dbg c) (s.goto t (.uploadHashCompute who dbg c))
  | hashReaderFailed {who : Caller} {dbg : ObjectFile} {c : Nat} {e : String} :
      Move s t (.uploadHashCompute who dbg c)
        (s.uploadComplete t who dbg c (.error ("failed to obtain reader for object file: " ++ e)))
  | hashFailed {who : Caller} {dbg : ObjectFile} {c : Nat} {e : String} :
      Move s t (.uploadHashCompute who dbg c)
        (s.uploadComplete t who dbg c (.error ("hash debuginfos: " ++ e)))
  | hashed {who : Caller} {dbg : ObjectFile} {c : Nat} :
      Move s t (.uploadHashCompute who dbg c)
        ((s.putHash cfg (hashCacheKey dbg) (cfg.hashReader dbg.content)).goto t
          (.uploadInitiate who dbg c (cfg.hashReader dbg.content)))
  | initiated {who : Caller} {dbg : ObjectFile} {c : Nat} {h u : String} {st : UploadStrategy} :
      Move s t (.uploadInitiate who dbg c h)
        ((s.emit [.initiated c dbg h (.ok u st)]).goto t (.uploadTransfer who dbg c u st))
  | alreadyExists {who : Caller} {dbg : ObjectFile} {c : Nat} {h : String} :
      Move s t (.uploadInitiate who dbg c h)
        (((s.emit [.initiated c dbg h .alreadyExists]).putShouldInitiate cfg
          dbg.buildID).uploadComplete t who dbg c (.ok ()))
  | initiateFailed {who : Caller} {dbg : ObjectFile} {c : Nat} {h e : String} :
      Move s t (.uploadInitiate who dbg c h)
        ((s.emit [.initiated c dbg h (.error e)]).uploadComplete t who dbg c
          (.error ("initiate upload: " ++ e)))
  | transferReaderFailed {who : Caller} {dbg : ObjectFile} {c : Nat} {u : String}
      {st : UploadStrategy} {e : String} :
      Move s t (.uploadTransfer who dbg c u st)
        (s.uploadComplete t who dbg c (.error ("failed to obtain reader for object file: " ++ e)))
  | transferRefused {who : Caller} {dbg : ObjectFile} {c : Nat} {u : String}
      {st : UploadStrategy} {msg : String} (hr : st.refusal = some msg) :
      Move s t (.uploadTransfer who dbg c u st)
        (s.uploadComplete t who dbg c (.error ("upload debuginfo: " ++ msg)))
  | transferred {who : Caller} {dbg : ObjectFile} {c : Nat} {u : String} {st : UploadStrategy}
      (hr : st.refusal = none) :
      Move s t (.uploadTransfer who dbg c u st)
        ((s.emit [.transferred c dbg u (.ok ())]).goto t (.uploadMark who dbg c u))
  | transferFailed {who : Caller} {dbg : ObjectFile} {c : Nat} {u : String} {st : UploadStrategy}
      {e : String} (hr : st.refusal = none) :
      Move s t (.uploadTransfer who dbg c u st)
        ((s.emit [.transferred c dbg u (.error e)]).uploadComplete t who dbg c
          (.error ("upload debuginfo: " ++ e)))
  | marked {who : Caller} {dbg : ObjectFile} {c : Nat} {u : String} :
      Move s t (.uploadMark who dbg c u)
        ((s.emit [.marked c dbg.buildID u (.ok ())]).uploadComplete t who dbg c (.ok ()))
  | markFailed {who : Caller} {dbg : ObjectFile} {c : Nat} {u e : String} :
      Move s t (.uploadMark who dbg c u)
        ((s.emit [.marked c dbg.buildID u (.error e)]).uploadComplete t who dbg c
          (.error ("mark upload finished: " ++ e)))
  | joinedUploaded {who : Caller} {dbg : ObjectFile} {c : Nat}
      (hr : s.uploadGroup.result c = some (.ok ())) :
      Move s t (.uploadWait who dbg c) (s.uploadReturn t who dbg (some c) (.ok ()) true)
  | joinedUploadFailed {who : Caller} {dbg : ObjectFile} {c : Nat} {e : String}
      (hr : s.uploadGroup.result c = some (.error e)) :
      Move s t (.uploadWait who dbg c) (s.goto t (.uploadForget who dbg c e))
  | uploadForgot {who : Caller} {dbg : ObjectFile} {c : Nat} {e : String} :
      Move s t (.uploadForget who dbg c e)
        ({ s with uploadGroup := s.uploadGroup.forget dbg.buildID }.uploadReturn t who dbg (some c)
          (.error e) true)
  | released :
      Move s t .uploadRelease (({ s with tokens := s.tokens - 1 }.emit [.released t]).goto t .done)

/-- **A step of a thread is one of its moves.** The one unfolding of `threadStep`. -/
theorem threadStep_move {s s' : State} {t : Nat} {pc : Pc} {a : Answer}
    (h : threadStep cfg s t pc a = some s') : Move cfg s t pc s' := by
  cases pc with
  | ensureGate src =>
    simp only [threadStep] at h
    split at h
    · next file hf =>
      split at h <;> cases h
      · exact .gateHit hf ‹_›
      · exact .gateMiss hf ‹_›
    · cases h
  | ensureAsk src =>
    simp only [threadStep] at h
    split at h
    · next r file hf =>
      split at h <;> cases h
      · exact .gateNo hf
      · exact .gateGo hf ‹_›
    · cases h
  | ensureFind src =>
    simp only [threadStep] at h
    split at h <;> cases h
    · exact .findKnown ‹_›
    · exact .findFound ‹_›
    · exact .findExtract ‹_› ‹_›
  | extractElf who src =>
    simp only [threadStep] at h
    split at h
    · cases h
      exact .elfFailed
    · split at h
      · split at h <;> cases h
        · exact .elfJoin ‹_› ‹_›
        · exact .elfInstall ‹_› ‹_›
      · cases h
        exact .elfKept (Bool.eq_false_iff.mpr ‹_›)
    · cases h
  | extractRun who src c =>
    simp only [threadStep] at h
    split at h
    · split at h
      · cases h
        exact .extracted
      · split at h <;> cases h
        · exact .extractFailedShared ‹_›
        · exact .extractFailed (Bool.eq_false_iff.mpr ‹_›)
    · cases h
  | extractWait who src c =>
    simp only [threadStep] at h
    split at h <;> cases h
    · exact .joinedExtracted ‹_›
    · exact .joinedExtractFailed ‹_›
  | extractForget who src e =>
    simp only [threadStep] at h
    split at h <;> cases h
    exact .extractForgot
  | uploadAcquire who dbg =>
    simp only [threadStep] at h
    split at h
    · cases h
      exact .acquireFailed
    · split at h <;> cases h
      exact .acquired ‹_›
    · cases h
  | uploadDo who dbg =>
    simp only [threadStep] at h
    split at h <;> cases h
    · exact .uploadJoin ‹_›
    · exact .uploadInstall ‹_›
  | uploadRecheck who dbg c =>
    simp only [threadStep] at h
    split at h
    · split at h <;> cases h
      · exact .recheckHit ‹_›
      · exact .recheckMiss ‹_›
    · cases h
  | uploadAsk who dbg c =>
    simp only [threadStep] at h
    split at h
    · split at h <;> cases h
      · exact .recheckNo
      · exact .recheckGo ‹_›
    · cases h
  | uploadHash who dbg c =>
    simp only [threadStep] at h
    split at h <;> cases h
    · exact .hashHit ‹_›
    · exact .hashMiss ‹_›
  | uploadHashCompute who dbg c =>
    simp only [threadStep] at h
    split at h <;> cases h
    · exact .hashReaderFailed
    · exact .hashFailed
    · exact .hashed
  | uploadInitiate who dbg c h =>
    simp only [threadStep] at h
    split at h
    · split at h <;> cases h
      · exact .initiated
      · exact .alreadyExists
      · exact .initiateFailed
    · cases h
  | uploadTransfer who dbg c u st =>
    simp only [threadStep] at h
    split at h
    · cases h
      exact .transferReaderFailed
    · cases h
      exact .transferRefused ‹_›
    · split at h <;> cases h
      · exact .transferred ‹_›
      · exact .transferFailed ‹_›
    · cases h
  | uploadMark who dbg c u =>
    simp only [threadStep] at h
    split at h
    · split at h <;> cases h
      · exact .marked
      · exact .markFailed
    · cases h
  | uploadWait who dbg c =>
    simp only [threadStep] at h
    split at h <;> cases h
    · exact .joinedUploaded ‹_›
    · exact .joinedUploadFailed ‹_›
  | uploadForget who dbg c e =>
    simp only [threadStep] at h
    split at h <;> cases h
    exact .uploadForgot
  | uploadRelease =>
    simp only [threadStep] at h
    split at h <;> cases h
    exact .released
  | done => cases h

section Frame

variable {cfg}

/-- **What every move keeps**: the callers' files stay, the log only grows, and
only the moving thread changes its point. -/
theorem Move.frame {s s' : State} {t : Nat} {pc : Pc} (hm : Move cfg s t pc s') :
    s'.sources = s.sources ∧ (∃ es, s'.log = s.log ++ es) ∧
      ∃ pc', s'.threads = s.threads.set t pc' := by
  cases hm with
  | elfFailed | elfKept | extracted | extractFailed | joinedExtracted | extractForgot =>
    exact ⟨State.extractReturn_sources .., State.extractReturn_moves ..⟩
  | gateHit | gateNo | recheckHit | recheckNo | alreadyExists | marked =>
    exact ⟨rfl, ⟨_, List.append_assoc _ _ _⟩, _, rfl⟩
  | gateGo | acquireFailed | acquired | recheckGo | initiated | initiateFailed | transferred
    | transferFailed | markFailed | joinedUploaded | uploadForgot | released =>
    exact ⟨rfl, ⟨_, rfl⟩, _, rfl⟩
  | _ => exact ⟨rfl, ⟨[], (List.append_nil _).symm⟩, _, rfl⟩

end Frame

/-! ### Runs -/

/-- An action: a thread's step, a new call into the manager, or the eviction (or
expiry) of a cache entry. -/
inductive Action
  | thread (t : Nat) (a : Answer)
  | spawn (i : Invocation)
  | evict (buildID : String)
  | evictHash (k : HashCacheKey)
  deriving DecidableEq, Repr

/-- **One step of the manager.** -/
def step (s : State) : Action → Option State
  | .thread t a => (s.threads[t]?).bind fun pc => threadStep cfg s t pc a
  | .spawn i => (s.sources[i.file]?).map fun file => { s with threads := s.threads ++ [i.start file] }
  | .evict b =>
    some ({ s with shouldInitiateCache := s.shouldInitiateCache.erase b }.emit [.evicted b])
  | .evictHash k => some { s with hashCache := Function.update s.hashCache k none }

/-- The states a manager over the object files `files` reaches. -/
inductive Reachable (files : List ObjectFile) : State → Prop
  | init : Reachable files (init files)
  | step {s s' : State} {a : Action} : Reachable files s → step cfg s a = some s' → Reachable files s'

/-- Run a list of actions. -/
def run : State → List Action → Option State
  | s, [] => some s
  | s, a :: as => (step cfg s a).bind fun s' => run s' as

theorem run_reachable {files : List ObjectFile} :
    ∀ {s s' : State} {as : List Action}, Reachable cfg files s → run cfg s as = some s' →
      Reachable cfg files s'
  | _, _, [], hs, h => by
    obtain rfl := Option.some_inj.mp h
    exact hs
  | s, _, a :: as, hs, h => by
    cases hst : step cfg s a with
    | none => simp [run, hst] at h
    | some s1 =>
      simp only [run, hst, Option.bind_some] at h
      exact run_reachable (hs.step hst) h

/-- A run of actions from the start that ends in a state where `p` holds. -/
theorem reach_of_run (files : List ObjectFile) (as : List Action) {p : State → Bool}
    (h : (run cfg (init files) as).map p = some true) : ∃ s, Reachable cfg files s ∧ p s = true := by
  cases hr : run cfg (init files) as with
  | none => simp [hr] at h
  | some s =>
    simp only [hr, Option.map_some', Option.some.injEq] at h
    exact ⟨s, run_reachable cfg Reachable.init hr, h⟩

end Debuginfo

end ParcaAgent

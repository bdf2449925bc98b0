import Mathlib.Data.Finset.Basic
import Mathlib.Logic.Function.Basic

/-!
# The debuginfo manager's world

The data `pkg/debuginfo/manager.go` works on, and the three library objects it
shares between its callers: the `singleflight.Group`s that merge extractions and
uploads of one build ID, the weighted semaphore that bounds uploads, and the two
caches. Every caller of `EnsureUploaded`, `Extract` and `Upload` is a thread whose
program counter, `ParcaAgent.Debuginfo.Pc`, names the point of the code it is at;
the manager's step function is in `ParcaAgent.Debuginfo.Manager`.

The server, the file system and the clock are the environment: each step that
waits for one of them reads an `ParcaAgent.Debuginfo.Answer`, which may be any
reply, error included. A cache entry may expire or be evicted at any time, which
is an action of the environment too.

What the model records of a run is a log of `ParcaAgent.Debuginfo.Event`s: every
request sent to the server, with its reply, tagged with the caller or the upload
execution that sent it; every token taken and given back; and what each call
returned.
-/

namespace ParcaAgent

namespace Debuginfo

/-! ### Outcomes and object files -/

/-- A Go result: a value, or an error. -/
inductive Outcome (α : Type) where
  | ok (a : α)
  | error (e : String)
  deriving DecidableEq, Repr

/-- `time.Time`, split as `Unix()` and `Nanosecond()` split it. -/
structure Modtime where
  unix : Int
  nsec : Nat
  deriving DecidableEq, Repr

/-- `objectfile.ObjectFile`, with the fields the manager reads. `hasTextSection` is
what `hasTextSection` reads from its ELF file; `content` is what its `Reader`
yields. -/
structure ObjectFile where
  buildID : String
  path : String
  modtime : Modtime
  size : Int
  content : String
  hasTextSection : Bool
  deriving DecidableEq, Repr

/-- `hashCacheKey`. -/
structure HashCacheKey where
  buildID : String
  modtime : Int
  deriving DecidableEq, Repr

/-- The key `upload` looks a file's hash up under: its build ID and its
modification time truncated to seconds. -/
def hashCacheKey (dbg : ObjectFile) : HashCacheKey := ⟨dbg.buildID, dbg.modtime.unix⟩

/-! ### The server's replies -/

/-- `debuginfopb.UploadInstructions_UploadStrategy`. -/
inductive UploadStrategy
  | unspecified
  | grpc
  | signedURL
  | unknown (n : Nat)
  deriving DecidableEq, Repr

/-- The error `uploadFile` refuses a strategy with, for the strategies it sends no
body with. -/
def UploadStrategy.refusal : UploadStrategy → Option String
  | .grpc | .signedURL => none
  | .unspecified =>
    some "upload strategy unspecified, must set one of UPLOAD_STRATEGY_GRPC or UPLOAD_STRATEGY_SIGNED_URL"
  | .unknown n => some ("unknown upload strategy: " ++ toString n)

/-- The reply to `InitiateUpload`: upload instructions, the status `AlreadyExists`,
or another error. -/
inductive InitiateReply
  | ok (uploadId : String) (strategy : UploadStrategy)
  | alreadyExists
  | error (e : String)
  deriving DecidableEq, Repr

/-- What a step reads from outside the manager. -/
inductive Answer
  /-- Nothing: the step only reads the manager's state. -/
  | none
  /-- The reply to `ShouldInitiateUpload`. -/
  | rpc (r : Outcome Bool)
  /-- `Finder.Find` then `objFilePool.Open`: nothing found, or the file opened. -/
  | find (r : Option (Outcome ObjectFile))
  /-- `src.ELF()`. -/
  | elf (r : Outcome Unit)
  /-- The end of an extraction: the file `objFilePool.NewFile` opened. -/
  | extracted (r : Outcome ObjectFile)
  /-- `Acquire`: a token, or the error of the context that was done first. -/
  | acquire (r : Outcome Unit)
  /-- `dbg.Reader()`, then `hash.Reader` on it. -/
  | hashed (reader : Outcome Unit) (r : Outcome Unit)
  /-- The reply to `InitiateUpload`. -/
  | initiate (r : InitiateReply)
  /-- `dbg.Reader()`, then the body transfer `uploadFile` makes. -/
  | transfer (reader : Outcome Unit) (sent : Outcome Unit)
  /-- The reply to `MarkUploadFinished`. -/
  | mark (r : Outcome Unit)
  deriving DecidableEq, Repr

/-! ### What a run records -/

/-- Who asked whether to upload: the `EnsureUploaded` of a thread, or an upload
execution re-checking. -/
inductive Asker
  | gate (t : Nat)
  | exec (c : Nat)
  deriving DecidableEq, Repr

/-- An event of a run. Upload executions are named by their call in the upload
group. -/
inductive Event
  /-- `shouldInitiate` found the build ID in the cache. -/
  | cacheHit (who : Asker) (buildID : String)
  /-- `ShouldInitiateUpload(buildID)` and its reply. -/
  | asked (who : Asker) (buildID : String) (reply : Outcome Bool)
  /-- `InitiateUpload` for `dbg`: its build ID, the hash `hash` and its size, and the
  reply. -/
  | initiated (c : Nat) (dbg : ObjectFile) (hash : String) (reply : InitiateReply)
  /-- The body transfer of `uploadFile`, which sends the bytes of `dbg`. -/
  | transferred (c : Nat) (dbg : ObjectFile) (uploadId : String) (r : Outcome Unit)
  /-- `MarkUploadFinished` and its reply. -/
  | marked (c : Nat) (buildID : String) (uploadId : String) (reply : Outcome Unit)
  /-- An upload goroutine took a token. -/
  | acquired (t : Nat)
  /-- An upload goroutine gave its token back. -/
  | released (t : Nat)
  /-- `Upload(dbg)` returned to thread `t`, with the result of call `c` of the
  upload group (none when no token was taken). -/
  | received (t : Nat) (dbg : ObjectFile) (c : Option Nat) (r : Outcome Unit)
  /-- `EnsureUploaded(src)` returned. -/
  | ensureReturned (t : Nat) (src : Nat) (r : Outcome Unit)
  /-- The entry of `buildID` in `shouldInitiateCache` expired or was evicted. -/
  | evicted (buildID : String)
  deriving DecidableEq, Repr

/-! ### A single-flight group -/

/-- One call of a single-flight group: its key, the number of callers that joined
it, and its result once its function has returned. -/
structure Call (α : Type) where
  key : String
  dups : Nat
  result : Option (Outcome α)
  deriving DecidableEq, Repr

/-- Modelled from the spec: a `singleflight.Group`, which is not in the sources.
Calls are numbered in the order they are made; `stored` is the group's map from a
key to the call in flight under it. -/
structure Group (α : Type) where
  calls : List (Call α)
  stored : String → Option Nat

/-- How `Do` went in: joining the stored call, or installing a new one that the
caller then runs. -/
inductive Entry
  | join (c : Nat)
  | install (c : Nat)
  deriving DecidableEq, Repr

section Group

variable {α : Type}

/-- A group with no call. -/
def Group.empty : Group α := ⟨[], fun _ => none⟩

/-- `Do` up to running the function: join the stored call, or install a new one. -/
def Group.enter (g : Group α) (key : String) : Entry × Group α :=
  match g.stored key, (g.stored key).bind fun c => g.calls[c]? with
  | some c, some call =>
    (.join c, { g with calls := g.calls.set c { call with dups := call.dups + 1 } })
  | _, _ =>
    (.install g.calls.length,
      { calls := g.calls ++ [⟨key, 0, none⟩],
        stored := Function.update g.stored key (some g.calls.length) })

/-- The end of `doCall`: record the result, and remove the call from the map if it
is still the one stored under its key. -/
def Group.complete (g : Group α) (c : Nat) (r : Outcome α) : Group α :=
  match g.calls[c]? with
  | none => g
  | some call =>
    { calls := g.calls.set c { call with result := some r },
      stored := if g.stored call.key = some c then Function.update g.stored call.key none
        else g.stored }

/-- `Forget`: remove whatever call is stored under the key. -/
def Group.forget (g : Group α) (key : String) : Group α :=
  { g with stored := Function.update g.stored key none }

/-- The result `Do` hands back for call `c`, once it has one. -/
def Group.result (g : Group α) (c : Nat) : Option (Outcome α) :=
  (g.calls[c]?).bind (·.result)

/-- Whether `Do` tells the caller of call `c` that the result was shared:
`c.dups > 0`. -/
def Group.shared (g : Group α) (c : Nat) : Bool :=
  ((g.calls[c]?).map (·.dups)).getD 0 > 0

end Group

/-! ### The manager -/

/-- The arguments `New` keeps that the modelled functions read. The semaphore has
`uploadMaxParallel` tokens; with `cacheDisabled` both caches are no-op caches. -/
structure Config where
  uploadMaxParallel : Int
  cacheDisabled : Bool
  stripDebuginfos : Bool
  /-- `hash.Reader` on a file's bytes. -/
  hashReader : String → String

/-- Who called `Extract` or `Upload`: a caller of its own, or `EnsureUploaded(src)`. -/
inductive Caller
  | top
  | ensure (src : Nat)
  deriving DecidableEq, Repr

/-- Where a thread is. The object files a caller passes are named by their place
in `State.sources`, the only ones whose `DebugFile` the manager writes; the others
are values. Calls are named by their number in their group. The `upload*` points
from `uploadRecheck` to `uploadMark` are the execution of `upload` by the goroutine
that installed the call. -/
inductive Pc
  /-- `EnsureUploaded`: `shouldInitiate` looks the cache up. -/
  | ensureGate (src : Nat)
  /-- `shouldInitiate` asks the server. -/
  | ensureAsk (src : Nat)
  /-- The debug file: `src.DebugFile`, or `ExtractOrFind`'s `Find`. -/
  | ensureFind (src : Nat)
  /-- `Extract`: the ELF file, then `extractSingleflight.Do`. -/
  | extractElf (who : Caller) (src : ObjectFile)
  /-- The extraction of call `c`, run by the thread that installed it. -/
  | extractRun (who : Caller) (src : ObjectFile) (c : Nat)
  /-- Waiting for the extraction of call `c`, joined. -/
  | extractWait (who : Caller) (src : ObjectFile) (c : Nat)
  /-- A shared extraction failed: `Forget`, then return the error. -/
  | extractForget (who : Caller) (src : ObjectFile) (e : String)
  /-- `Upload`'s goroutine: `Acquire`. -/
  | uploadAcquire (who : Caller) (dbg : ObjectFile)
  /-- `uploadSingleflight.Do`. -/
  | uploadDo (who : Caller) (dbg : ObjectFile)
  /-- `upload`: `shouldInitiate` looks the cache up. -/
  | uploadRecheck (who : Caller) (dbg : ObjectFile) (c : Nat)
  /-- `upload`: `shouldInitiate` asks the server. -/
  | uploadAsk (who : Caller) (dbg : ObjectFile) (c : Nat)
  /-- `upload`: the hash cache. -/
  | uploadHash (who : Caller) (dbg : ObjectFile) (c : Nat)
  /-- `upload`: hashing the file, on a cache miss. -/
  | uploadHashCompute (who : Caller) (dbg : ObjectFile) (c : Nat)
  /-- `upload`: `InitiateUpload` with hash `h`. -/
  | uploadInitiate (who : Caller) (dbg : ObjectFile) (c : Nat) (h : String)
  /-- `upload`: the body, by `uploadFile`. -/
  | uploadTransfer (who : Caller) (dbg : ObjectFile) (c : Nat) (uploadId : String)
      (strategy : UploadStrategy)
  /-- `upload`: `MarkUploadFinished`. -/
  | uploadMark (who : Caller) (dbg : ObjectFile) (c : Nat) (uploadId : String)
  /-- Waiting for the upload of call `c`, joined. -/
  | uploadWait (who : Caller) (dbg : ObjectFile) (c : Nat)
  /-- The upload failed: `Forget`, then send the error. -/
  | uploadForget (who : Caller) (dbg : ObjectFile) (c : Nat) (e : String)
  /-- The deferred `Release` of the goroutine's token. -/
  | uploadRelease
  /-- Returned. -/
  | done
  deriving DecidableEq, Repr

/-- A call a thread makes into the manager, on one of the callers' object files. -/
inductive Invocation
  | ensureUploaded (src : Nat)
  | extract (src : Nat)
  | upload (dbg : Nat)
  deriving DecidableEq, Repr

/-- Where an invocation starts, on the object file `file` of its argument. -/
def Invocation.start (file : ObjectFile) : Invocation → Pc
  | .ensureUploaded src => .ensureGate src
  | .extract _ => .extractElf .top file
  | .upload _ => .uploadAcquire .top file

/-- The argument of an invocation. -/
def Invocation.file : Invocation → Nat
  | .ensureUploaded f | .extract f | .upload f => f

/-- The manager's state: the object files callers pass (with their `DebugFile`
pointers), the threads, the caches, the two single-flight groups, the tokens taken
from the semaphore, the `ensure_uploaded_requests{shared}` counter, and the log. -/
structure State where
  sources : List ObjectFile
  debugFile : Nat → Option ObjectFile
  threads : List Pc
  shouldInitiateCache : Finset String
  hashCache : HashCacheKey → Option String
  extractGroup : Group ObjectFile
  uploadGroup : Group Unit
  tokens : Nat
  ensureShared : Nat
  log : List Event

/-- The manager `New` builds, with callers holding the object files `files`. -/
def init (files : List ObjectFile) : State :=
  { sources := files, debugFile := fun _ => none, threads := [], shouldInitiateCache := ∅,
    hashCache := fun _ => none, extractGroup := .empty, uploadGroup := .empty, tokens := 0,
    ensureShared := 0, log := [] }

end Debuginfo

end ParcaAgent

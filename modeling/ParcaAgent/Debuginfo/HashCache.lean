import ParcaAgent.Debuginfo.AtMostOnce

/-!
# The hash cache

Before `InitiateUpload`, `upload` looks the hash of the file it uploads up in
`hashCache`, under `hashCacheKey`: the build ID and the modification time truncated
to seconds. On a miss it reads the file, hashes it and stores the hash under that
key. Two files can share a key while their bytes differ: an executable and its
separately shipped debug file carry one build ID, and a reproducible build clamps
both modification times. The cache then keeps, for the key, the hash of whichever
of them was hashed first.

So the hash sent with `InitiateUpload` is, over every run, `hash.Reader` on the bytes
of a file with the same key as the file uploaded, one that an execution of `upload`
hashed and sent, or is about to send, `InitiateUpload` for with that hash
(`ParcaAgent.Debuginfo.initiate_hash_of_same_key`); and not always of the file
uploaded: an upload of a debug file after one of its executable that failed sends
the executable's hash beside the debug file's size, and then the debug file's bytes
(`ParcaAgent.Debuginfo.initiate_sends_stale_hash`).
-/

namespace ParcaAgent

namespace Debuginfo

variable (cfg : Config)

/-! ### The invariant -/

/-- An execution of `upload` of `f` sent `InitiateUpload` with hash `h`, or is at the
point of sending it. -/
def Initiating (log : List Event) (threads : List Pc) (f : ObjectFile) (h : String) : Prop :=
  (∃ c r, Event.initiated c f h r ∈ log) ∨ ∃ who c, Pc.uploadInitiate who f c h ∈ threads

/-- A hash `upload` may hold for `dbg`: `hash.Reader` on the bytes of a file with
the same hash-cache key, which an execution of `upload` initiates with that hash. -/
def HashOfKey (log : List Event) (threads : List Pc) (dbg : ObjectFile) (h : String) : Prop :=
  ∃ f : ObjectFile, hashCacheKey f = hashCacheKey dbg ∧ h = cfg.hashReader f.content ∧
    Initiating log threads f h

/-- **Where every hash comes from**, over the fields it reads: each entry of the
cache, each hash a thread is about to send and each hash sent is `hash.Reader` on a
file with the right key, which an execution initiates with it. -/
structure Hashes (threads : List Pc) (log : List Event) (cache : HashCacheKey → Option String) :
    Prop where
  cache : ∀ k h, cache k = some h → ∃ f : ObjectFile, hashCacheKey f = k ∧
    h = cfg.hashReader f.content ∧ Initiating log threads f h
  pcs : ∀ who dbg c h, Pc.uploadInitiate who dbg c h ∈ threads → HashOfKey cfg log threads dbg h
  sent : ∀ c dbg h r, Event.initiated c dbg h r ∈ log → HashOfKey cfg log threads dbg h

/-- The invariant of a state. -/
def HashInv (s : State) : Prop := Hashes cfg s.threads s.log s.hashCache

section Mono

variable {cfg} {log log' : List Event} {ts ts' : List Pc}

theorem Initiating.mono (hl : ∀ e ∈ log, e ∈ log') (ht : ∀ pc ∈ ts, pc ∈ ts') {f : ObjectFile}
    {h : String} : Initiating log ts f h → Initiating log' ts' f h
  | .inl ⟨c, r, he⟩ => .inl ⟨c, r, hl _ he⟩
  | .inr ⟨who, c, hq⟩ => .inr ⟨who, c, ht _ hq⟩

/-- A step that only adds to the log and the threads, sends no `InitiateUpload`,
starts no thread about to send one, and stores no hash. -/
theorem Hashes.mono {cache cache' : HashCacheKey → Option String} (hi : Hashes cfg ts log cache)
    (hl : ∀ e ∈ log, e ∈ log') (ht : ∀ pc ∈ ts, pc ∈ ts')
    (hc : ∀ k h, cache' k = some h → cache k = some h)
    (hq : ∀ who dbg c h, Pc.uploadInitiate who dbg c h ∈ ts' → Pc.uploadInitiate who dbg c h ∈ ts)
    (he : ∀ c dbg h r, Event.initiated c dbg h r ∈ log' → Event.initiated c dbg h r ∈ log) :
    Hashes cfg ts' log' cache' where
  cache k h hk := let ⟨f, hf, hh, hin⟩ := hi.cache k h (hc k h hk); ⟨f, hf, hh, hin.mono hl ht⟩
  pcs who dbg c h hm := let ⟨f, hf, hh, hin⟩ := hi.pcs who dbg c h (hq who dbg c h hm)
    ⟨f, hf, hh, hin.mono hl ht⟩
  sent c dbg h r hm := let ⟨f, hf, hh, hin⟩ := hi.sent c dbg h r (he c dbg h r hm)
    ⟨f, hf, hh, hin.mono hl ht⟩

end Mono

/-! ### Where hashes come from, move by move -/

/-- What `EnsureUploaded` returns is no `InitiateUpload`. -/
@[simp] theorem Caller.initiated_not_mem_returned (who : Caller) (t : Nat) (r : Outcome Unit)
    {c : Nat} {dbg : ObjectFile} {h : String} {r' : InitiateReply} :
    Event.initiated c dbg h r' ∉ who.returned t r := by
  cases who <;> simp [Caller.returned]

/-- What `Extract`'s return logs is no `InitiateUpload`. -/
@[simp] theorem State.initiated_mem_extractReturn (X : State) (t : Nat) (who : Caller)
    (r : Outcome ObjectFile) {c : Nat} {dbg : ObjectFile} {h : String} {r' : InitiateReply} :
    Event.initiated c dbg h r' ∈ (X.extractReturn t who r).log ↔
      Event.initiated c dbg h r' ∈ X.log := by
  cases who <;> cases r <;> simp [State.extractReturn]

/-- `Extract` returns to a point that sends no `InitiateUpload`. -/
theorem State.initiate_not_mem_extractReturn (X : State) (t : Nat) (who : Caller)
    (r : Outcome ObjectFile) {who' : Caller} {dbg : ObjectFile} {c : Nat} {h : String}
    (hq : Pc.uploadInitiate who' dbg c h ∈ (X.extractReturn t who r).threads) :
    Pc.uploadInitiate who' dbg c h ∈ X.threads := by
  rcases X.extractReturn_cases t who r with ⟨-, ht⟩ | ⟨_, _, -, ht⟩ | ⟨_, _, -, ht⟩ <;>
    rw [ht] at hq <;> exact (List.mem_or_eq_of_mem_set hq).resolve_right nofun

section Move

variable {cfg} {s s' : State} {t : Nat} {pc : Pc} (hm : Move cfg s t pc s')
  (hpc : s.threads[t]? = some pc)
include hm

/-- Only a move at `uploadInitiate` sends `InitiateUpload`, for the file and with the
hash of its point. -/
theorem Move.initiated_mem {c : Nat} {dbg : ObjectFile} {h : String} {r : InitiateReply}
    (he : Event.initiated c dbg h r ∈ s'.log) :
    Event.initiated c dbg h r ∈ s.log ∨ ∃ who, pc = .uploadInitiate who dbg c h := by
  cases hm with
  | initiated | alreadyExists | initiateFailed =>
    simp only [State.goto, State.emit, State.putShouldInitiate, State.uploadComplete,
      State.uploadReturn, List.mem_append, List.mem_singleton, List.mem_cons,
      List.not_mem_nil, Caller.initiated_not_mem_returned, Event.initiated.injEq, reduceCtorEq,
      or_false] at he
    rcases he with he | ⟨rfl, rfl, rfl, -⟩
    · exact .inl he
    · exact .inr ⟨_, rfl⟩
  | _ => exact .inl (by simpa using he)

/-- A point about to send `InitiateUpload` is an old one, or comes from the hash
cache at `uploadHash`, or from hashing the file at `uploadHashCompute`. -/
theorem Move.initiate_point {who : Caller} {dbg : ObjectFile} {c : Nat} {h : String}
    (hq : Pc.uploadInitiate who dbg c h ∈ s'.threads) :
    Pc.uploadInitiate who dbg c h ∈ s.threads ∨
      pc = .uploadHash who dbg c ∧ s.hashCache (hashCacheKey dbg) = some h ∨
      pc = .uploadHashCompute who dbg c ∧ h = cfg.hashReader dbg.content := by
  cases hm with
  | hashHit hh =>
    refine (List.mem_or_eq_of_mem_set hq).imp id fun e => ?_
    cases e
    exact .inl ⟨rfl, hh⟩
  | hashed =>
    refine (List.mem_or_eq_of_mem_set hq).imp id fun e => ?_
    cases e
    exact .inr ⟨rfl, rfl⟩
  | elfFailed | elfKept | extracted | extractFailed | joinedExtracted | extractForgot =>
    have hq := State.initiate_not_mem_extractReturn _ t _ _ hq
    exact .inl hq
  | _ => exact .inl ((List.mem_or_eq_of_mem_set hq).resolve_right nofun)

include hpc

/-- A hash in the cache is an old one, or the hash of the file the thread has just
read, which it is now about to send. -/
theorem Move.hashCache_some {k : HashCacheKey} {h : String} (hk : s'.hashCache k = some h) :
    s.hashCache k = some h ∨ ∃ who dbg c, k = hashCacheKey dbg ∧ h = cfg.hashReader dbg.content ∧
      Pc.uploadInitiate who dbg c h ∈ s'.threads := by
  cases hm with
  | @hashed who dbg c =>
    by_cases hd : cfg.cacheDisabled
    · exact .inl (by simpa [hd] using hk)
    by_cases e : k = hashCacheKey dbg
    · subst e
      simp [hd] at hk
      subst hk
      exact .inr ⟨who, dbg, c, rfl, rfl, List.mem_set _ _ (List.getElem?_eq_some_iff.mp hpc).1 _⟩
    · exact .inl (by simpa [hd, e] using hk)
  | _ => exact .inl (by simpa using hk)

/-- A file an execution initiates stays one: the thread at the point of sending
`InitiateUpload` moves on only by sending it. -/
theorem Initiating.move {f : ObjectFile} {h : String} (hi : Initiating s.log s.threads f h) :
    Initiating s'.log s'.threads f h := by
  obtain ⟨-, ⟨es, hlog⟩, pc', hth⟩ := hm.frame
  rcases hi with ⟨c, r, he⟩ | ⟨who, c, hq⟩
  · exact .inl ⟨c, r, hlog ▸ List.mem_append_left _ he⟩
  obtain ⟨j, hj⟩ := List.mem_iff_getElem?.mp hq
  by_cases hjt : j = t
  · subst hjt
    obtain rfl := Option.some.inj (hpc.symm.trans hj)
    cases hm with
    | alreadyExists =>
      exact .inl ⟨c, _, List.mem_append_left _ (List.mem_append_right _ (List.mem_singleton_self _))⟩
    | _ => exact .inl ⟨c, _, List.mem_append_right _ (List.mem_singleton_self _)⟩
  · exact .inr ⟨who, c, List.mem_iff_getElem?.mpr
      ⟨j, by rwa [hth, List.getElem?_set_ne (Ne.symm hjt)]⟩⟩

theorem HashOfKey.move {dbg : ObjectFile} {h : String} (hk : HashOfKey cfg s.log s.threads dbg h) :
    HashOfKey cfg s'.log s'.threads dbg h :=
  let ⟨f, hf, hh, hi⟩ := hk
  ⟨f, hf, hh, hi.move hm hpc⟩

end Move

/-- **One step of one thread keeps the invariant**: a hash in the cache, about to be
sent or sent is an old one, or the one the thread has just read from the cache or
from the file. -/
theorem HashInv.thread {s s' : State} {t : Nat} {pc : Pc} (hi : HashInv cfg s)
    (hpc : s.threads[t]? = some pc) (hm : Move cfg s t pc s') : HashInv cfg s' where
  cache k h hk := by
    rcases hm.hashCache_some hpc hk with hk | ⟨who, dbg, c, rfl, rfl, hq⟩
    · obtain ⟨f, hf, hh, hin⟩ := hi.cache k h hk
      exact ⟨f, hf, hh, hin.move hm hpc⟩
    · exact ⟨dbg, rfl, rfl, .inr ⟨who, c, hq⟩⟩
  pcs who dbg c h hq := by
    rcases hm.initiate_point hq with hq | ⟨rfl, hh⟩ | ⟨rfl, rfl⟩
    · exact (hi.pcs who dbg c h hq).move hm hpc
    · obtain ⟨f, hf, hh', hin⟩ := hi.cache _ h hh
      exact ⟨f, hf, hh', hin.move hm hpc⟩
    · exact ⟨dbg, rfl, rfl, .inr ⟨who, c, hq⟩⟩
  sent c dbg h r he := by
    rcases hm.initiated_mem he with he | ⟨who, rfl⟩
    · exact (hi.sent c dbg h r he).move hm hpc
    · exact (hi.pcs who dbg c h (List.getElem?_mem hpc)).move hm hpc

theorem HashInv.step {s s' : State} {a : Action} (hi : HashInv cfg s)
    (h : step cfg s a = some s') : HashInv cfg s' := by
  cases a with
  | thread t a =>
    obtain ⟨pc, hpc, h⟩ := Option.bind_eq_some.mp h
    exact hi.thread cfg hpc (threadStep_move cfg h)
  | spawn i =>
    obtain ⟨file, -, rfl⟩ := Option.map_eq_some'.mp h
    have hp : ∀ who dbg c h, Pc.uploadInitiate who dbg c h ≠ i.start file := by
      intro who dbg c h e
      cases i <;> cases e
    exact hi.mono (fun _ h => h) (fun _ h => List.mem_append_left _ h) (fun _ _ h => h)
      (fun who dbg c h hq => (List.mem_append.mp hq).resolve_right fun e =>
        hp who dbg c h (List.mem_singleton.mp e)) fun _ _ _ _ h => h
  | evict b =>
    cases h
    exact hi.mono (fun _ h => List.mem_append_left _ h) (fun _ h => h) (fun _ _ h => h)
      (fun _ _ _ _ h => h) fun _ _ _ _ h => (List.mem_append.mp h).resolve_right (by simp)
  | evictHash k =>
    cases h
    refine hi.mono (fun _ h => h) (fun _ h => h) (fun k' h hk => ?_) (fun _ _ _ _ h => h)
      fun _ _ _ _ h => h
    rcases eq_or_ne k' k with rfl | e
    · simp at hk
    · simpa [e] using hk

theorem hashInv_init (files : List ObjectFile) : HashInv cfg (init files) where
  cache _ _ h := by simp [init] at h
  pcs _ _ _ _ h := absurd h (List.not_mem_nil _)
  sent _ _ _ _ h := absurd h (List.not_mem_nil _)

theorem Reachable.hashInv {files : List ObjectFile} {s : State} (hs : Reachable cfg files s) :
    HashInv cfg s := by
  induction hs with
  | init => exact hashInv_init cfg files
  | step _ h ih => exact ih.step cfg h

/-- **The hash sent is that of a file with the same key.** In every reachable state,
each `InitiateUpload` sent for a file `dbg` carried `hash.Reader` on the bytes of a
file `f` whose hash-cache key is `dbg`'s (its build ID and its modification time
truncated to seconds), and `f` is a file an execution of `upload` read and sent, or
is about to send, `InitiateUpload` for with that same hash. -/
theorem initiate_hash_of_same_key (files : List ObjectFile) (s : State)
    (hs : Reachable cfg files s) (c : Nat) (dbg : ObjectFile) (h : String) (r : InitiateReply)
    (he : Event.initiated c dbg h r ∈ s.log) :
    ∃ f : ObjectFile, hashCacheKey f = hashCacheKey dbg ∧ h = cfg.hashReader f.content ∧
      ((∃ c' r', Event.initiated c' f h r' ∈ s.log) ∨
        ∃ who c', Pc.uploadInitiate who f c' h ∈ s.threads) :=
  (hs.hashInv cfg).sent c dbg h r he

/-! ### A stale hash -/

/-- An upload of the executable `probeFile` fails at `InitiateUpload` after hashing
it; an upload of its debug file `probeDebugFile`, of the same build ID and
modification second, follows. -/
def staleHash : List Action :=
  [.spawn (.upload 0), .thread 0 (.acquire (.ok ())), .thread 0 .none, .thread 0 .none,
    .thread 0 (.rpc (.ok true)), .thread 0 .none, .thread 0 (.hashed (.ok ()) (.ok ())),
    .thread 0 (.initiate (.error "unavailable")), .thread 0 .none, .thread 0 .none,
    .spawn (.upload 1), .thread 1 (.acquire (.ok ())), .thread 1 .none, .thread 1 .none,
    .thread 1 (.rpc (.ok true)), .thread 1 .none, .thread 1 (.initiate (.ok "u" .grpc))]

theorem initiate_hash_of_same_key_staleHash :
    ∃ s, Reachable sampleConfig [probeFile, probeDebugFile] s ∧
      Event.initiated 1 probeDebugFile "elf" (.ok "u" .grpc) ∈ s.log ∧
      ∃ f : ObjectFile, hashCacheKey f = hashCacheKey probeDebugFile ∧
        "elf" = sampleConfig.hashReader f.content ∧
        ((∃ c' r', Event.initiated c' f "elf" r' ∈ s.log) ∨
          ∃ who c', Pc.uploadInitiate who f c' "elf" ∈ s.threads) := by
  obtain ⟨s, hs, h⟩ := reach_of_run sampleConfig [probeFile, probeDebugFile] staleHash
    (p := fun s => decide (Event.initiated 1 probeDebugFile "elf" (.ok "u" .grpc) ∈ s.log)) (by decide)
  have he := of_decide_eq_true h
  exact ⟨s, hs, he, initiate_hash_of_same_key sampleConfig _ s hs _ _ _ _ he⟩

/-- **A stale hash.** The executable and its debug file share a hash-cache key but
not their bytes. After an upload of the executable has hashed it, an upload of the
debug file finds the executable's hash in the cache and sends it with the debug
file's `InitiateUpload`. -/
theorem initiate_sends_stale_hash :
    hashCacheKey probeFile = hashCacheKey probeDebugFile ∧
      sampleConfig.hashReader probeFile.content ≠ sampleConfig.hashReader probeDebugFile.content ∧
      ∃ s, Reachable sampleConfig [probeFile, probeDebugFile] s ∧
        Event.initiated 1 probeDebugFile (sampleConfig.hashReader probeFile.content)
          (.ok "u" .grpc) ∈ s.log := by
  refine ⟨rfl, by decide, ?_⟩
  obtain ⟨s, hs, h⟩ := reach_of_run sampleConfig [probeFile, probeDebugFile] staleHash
    (p := fun s => decide (Event.initiated 1 probeDebugFile (sampleConfig.hashReader probeFile.content)
      (.ok "u" .grpc) ∈ s.log)) (by decide)
  exact ⟨s, hs, of_decide_eq_true h⟩

end Debuginfo

end ParcaAgent

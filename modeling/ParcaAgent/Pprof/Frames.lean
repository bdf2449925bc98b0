import Mathlib.Algebra.Order.Ring.Nat
import Mathlib.Data.List.Forall2
import Mathlib.Tactic.SplitIfs
import ParcaAgent.Pprof.Intern

/-!
# Where each frame goes

What the routing half does with the frames of a fresh converter, whose profile
mappings are the converted process mappings followed by the kernel mapping
(`ParcaAgent.Pprof.Setup.Fresh`):

* `ParcaAgent.Pprof.mappingForAddr` finds the first mapping holding an address,
  `ParcaAgent.Pprof.firstHolding`, and never the kernel mapping, whose range
  `[0, 0)` is empty; so a user frame never indexes past the process mappings
  (`ParcaAgent.Pprof.mappingForAddr_first_process_mapping`);
* a user frame lies in no mapping and is counted, or is routed with that first
  mapping and the key its route gives it, `ParcaAgent.Pprof.KeyFor`: what the
  normalizer or the VDSO symbolizer answered on the call made for it, or, for a JIT
  frame, its raw address when JIT symbolization is off and otherwise what the table
  fetched for it, an answer of the perf-map or jitdump cache, gives it
  (`ParcaAgent.Pprof.routeUserStack_spec`); every such answer is one of a call the
  conversion's log records (`ParcaAgent.Pprof.Memo.Answers`);
* no routing step calls the kernel-symbol resolver.
-/

namespace ParcaAgent

namespace Pprof

/-! ### The mapping of an address -/

/-- Whether the half-open range `[Start, Limit)` of a mapping holds the address. -/
def Mapping.holds (m : Mapping) (addr : UInt64) : Bool := m.start ≤ addr ∧ addr < m.limit

/-- The first mapping whose range holds the address. -/
def firstHolding (ms : List Mapping) (addr : UInt64) : Option Mapping :=
  ms.find? fun m => m.holds addr

theorem isSome_firstHolding (ms : List Mapping) (addr : UInt64) :
    (firstHolding ms addr).isSome = ms.any (·.holds addr) := by
  rw [Bool.eq_iff_iff, firstHolding, List.find?_isSome, List.any_eq_true]

theorem find?_eq_getElem?_findIdx {α : Type} (p : α → Bool) :
    ∀ xs : List α, xs.find? p = xs[xs.findIdx p]?
  | [] => rfl
  | x :: xs => by
    cases hx : p x
    · simp [List.find?_cons, List.findIdx_cons, hx, find?_eq_getElem?_findIdx p xs]
    · simp [List.find?_cons, List.findIdx_cons, hx]

theorem mappingForAddr_go (addr : UInt64) :
    ∀ (ms : List Mapping) (i : Nat), mappingForAddr.go addr ms i =
      if ms.any (·.holds addr) then ((i + ms.findIdx (·.holds addr) : Nat) : Int) else -1
  | [], _ => rfl
  | m :: ms, i => by
    rw [mappingForAddr.go, mappingForAddr_go addr ms (i + 1)]
    by_cases hm : m.start ≤ addr ∧ addr < m.limit
    · have : m.holds addr = true := by simp [Mapping.holds, hm]
      simp [hm, this, List.findIdx_cons]
    · have : m.holds addr = false := by simp [Mapping.holds, hm]
      simp only [hm, if_false, List.any_cons, this, Bool.false_or, List.findIdx_cons, cond_false]
      split <;> simp [Nat.add_assoc, Nat.add_comm 1]

/-- **`mappingForAddr` is `-1` exactly when no mapping holds the address, and
otherwise the index of the first one that does.** -/
theorem mappingForAddr_spec (ms : List Mapping) (addr : UInt64) :
    (mappingForAddr ms addr = -1 ↔ firstHolding ms addr = none) ∧
      (mappingForAddr ms addr ≠ -1 →
        ms[(mappingForAddr ms addr).toNat]? = firstHolding ms addr) := by
  rw [mappingForAddr, mappingForAddr_go, firstHolding, find?_eq_getElem?_findIdx]
  split
  · next h =>
    have : ms.findIdx (·.holds addr) < ms.length := List.findIdx_lt_length.mpr (by simpa using h)
    refine ⟨⟨fun h' => by omega, fun h' => by simp [this] at h'⟩, fun _ => by simp⟩
  · next h =>
    have : ms.findIdx (·.holds addr) = ms.length := List.findIdx_eq_length.mpr (by simpa using h)
    simp [this]

theorem mappingForAddr_eq_neg_one_iff (ms : List Mapping) (addr : UInt64) :
    mappingForAddr ms addr = -1 ↔ ∀ m ∈ ms, m.holds addr = false := by
  rw [(mappingForAddr_spec ms addr).1, firstHolding, List.find?_eq_none]
  simp

/-- When `mappingForAddr` is not `-1`, it is an index of the table whose mapping
holds the address, and no mapping before it does. -/
theorem mappingForAddr_least (ms : List Mapping) (addr : UInt64) (h : mappingForAddr ms addr ≠ -1) :
    ∃ i, ∃ hi : i < ms.length, mappingForAddr ms addr = i ∧ ms[i].holds addr = true ∧
      ∀ j (hj : j < i), ms[j].holds addr = false := by
  rw [mappingForAddr, mappingForAddr_go] at h ⊢
  split at h
  · next hany =>
    have hlt : ms.findIdx (·.holds addr) < ms.length :=
      List.findIdx_lt_length.mpr (by simpa using hany)
    exact ⟨_, hlt, by simp [hany], List.findIdx_getElem (p := fun m : Mapping => m.holds addr),
      fun j hj => List.not_of_lt_findIdx hj⟩
  · exact absurd rfl h

/-! ### Fresh converters -/

/-- The setup `NewConverter` builds: the converted process mappings, then the
kernel mapping with the empty range `[0, 0)`. -/
structure Setup.Fresh (S : Setup) : Prop where
  pprofMappings_eq : S.pprofMappings = convertToPprof S.mappings ++ [S.kernelMapping]
  kernel_limit : S.kernelMapping.limit = 0

theorem newConverter_setup_fresh (disable : Bool) (metrics : ConverterMetrics) (pid : Int)
    (mappings : List ProcessMapping) (t d p : Int) :
    (newConverter disable metrics pid mappings t d p).setup.Fresh :=
  ⟨rfl, rfl⟩

/-- The kernel mapping holds no address. -/
theorem Setup.Fresh.kernel_not_holds {S : Setup} (hS : S.Fresh) (addr : UInt64) :
    S.kernelMapping.holds addr = false := by
  have : ¬ addr < 0 := by simp [UInt64.lt_def, BitVec.lt_def]
  simp [Mapping.holds, hS.kernel_limit, this]

theorem Setup.Fresh.firstHolding_eq {S : Setup} (hS : S.Fresh) (addr : UInt64) :
    firstHolding S.pprofMappings addr = firstHolding (convertToPprof S.mappings) addr := by
  rw [hS.pprofMappings_eq, firstHolding, List.find?_append]
  simp [hS.kernel_not_holds addr, firstHolding]

theorem mappingForAddr_append_of_not_holds (ms : List Mapping) (k : Mapping) (addr : UInt64)
    (hk : k.holds addr = false) : mappingForAddr (ms ++ [k]) addr = mappingForAddr ms addr := by
  simp only [mappingForAddr, mappingForAddr_go, List.any_append, List.any_cons, List.any_nil, hk,
    Bool.or_false, List.findIdx_append, List.findIdx_lt_length]
  split
  · next h => simp [List.any_eq_true.mp h]
  · rfl

/-- **A user frame never indexes past the process mappings**: on a fresh setup the
route never panics, drops exactly the frames no mapping holds, and routes the others
with the first mapping holding them. -/
theorem userRoute_spec (env : Env) {S : Setup} (hS : S.Fresh) (addr : UInt64) (M : Memo) :
    ∃ r M', userRoute env S addr M = some (r, M') ∧
      (r = none ↔ firstHolding S.pprofMappings addr = none) ∧ (r = none → M' = M) ∧
      ∀ f, r = some f → ∃ pm, firstHolding S.pprofMappings addr = some f.2 ∧
        S.mappings[f.2.id - 1]? = some pm ∧ (f.1, M') = userKey env S pm f.2 addr M := by
  have hfirst := hS.firstHolding_eq addr
  have hmap : mappingForAddr S.pprofMappings addr = mappingForAddr (convertToPprof S.mappings) addr := by
    rw [hS.pprofMappings_eq]
    exact mappingForAddr_append_of_not_holds _ _ _ (hS.kernel_not_holds addr)
  obtain ⟨h1, h2⟩ := mappingForAddr_spec (convertToPprof S.mappings) addr
  unfold userRoute
  rw [hmap, hfirst]
  by_cases hm : mappingForAddr (convertToPprof S.mappings) addr = -1
  · exact ⟨none, M, by simp [hm], by simpa using h1.mp hm, fun _ => rfl, by simp⟩
  · obtain ⟨m, hmf⟩ := Option.ne_none_iff_exists'.mp (mt h1.mpr hm)
    have hget := (h2 hm).trans hmf
    have hlt : (mappingForAddr (convertToPprof S.mappings) addr).toNat < S.mappings.length := by
      simpa using (List.getElem?_eq_some_iff.mp hget).1
    have hpp : S.pprofMappings[(mappingForAddr (convertToPprof S.mappings) addr).toNat]? = some m := by
      rw [hS.pprofMappings_eq, List.getElem?_append_left (by simpa using hlt), hget]
    have hid : m.id - 1 = (mappingForAddr (convertToPprof S.mappings) addr).toNat := by
      rw [getElem?_convertToPprof _ _ hlt, Option.some_inj] at hget
      simp [← hget]
    simp only [hm, if_false, List.getElem?_eq_getElem hlt, hpp]
    refine ⟨_, _, rfl, by simp [hmf], by simp, fun f hf => ?_⟩
    cases hf
    exact ⟨_, hmf, by rw [hid, List.getElem?_eq_getElem hlt], rfl⟩

/-- **The mapping `Convert` finds for a user frame.** On the table `NewConverter`
builds, `mappingForAddr` is `-1` exactly when no process mapping's `[Start, Limit)`
holds the address; otherwise it is the least index of a process mapping that does,
and the profile mapping there is that process mapping converted. So on every
converter of the conversion (every one with that setup) both lookups of a user
frame are in range, and no user frame is routed to the kernel mapping. -/
theorem mappingForAddr_first_process_mapping (env : Env) (disable : Bool)
    (metrics : ConverterMetrics) (pid : Int) (ms : List ProcessMapping) (t d p : Int)
    (addr : UInt64) :
    let c := newConverter disable metrics pid ms t d p
    (mappingForAddr c.result.mapping addr = -1 ↔ ∀ m ∈ ms, ¬(m.start ≤ addr ∧ addr < m.limit)) ∧
    (mappingForAddr c.result.mapping addr ≠ -1 → ∃ i, ∃ hi : i < ms.length,
      mappingForAddr c.result.mapping addr = i ∧ ms[i].start ≤ addr ∧ addr < ms[i].limit ∧
      (∀ j (hj : j < i), ¬(ms[j].start ≤ addr ∧ addr < ms[j].limit)) ∧
      c.mappings[i]? = some ms[i] ∧
      c.result.mapping[i]? = some ⟨i + 1, ms[i].start, ms[i].limit, ms[i].file⟩) ∧
    ∀ c' : Converter, c'.setup = c.setup → c'.addUserFrame env addr ≠ none ∧
      ∀ M, ∃ r M', userRoute env c'.setup addr M = some (r, M') ∧
        ∀ f, r = some f → f.2 ≠ c'.kernelMapping := by
  intro c
  have hS := newConverter_setup_fresh disable metrics pid ms t d p
  have hmap : mappingForAddr c.result.mapping addr = mappingForAddr (convertToPprof ms) addr :=
    mappingForAddr_append_of_not_holds _ _ _ (hS.kernel_not_holds addr)
  refine ⟨?_, fun h => ?_, fun c' hc' => ?_⟩
  · rw [hmap, mappingForAddr_eq_neg_one_iff, List.forall_mem_iff_getElem,
      List.forall_mem_iff_getElem]
    simp [convertToPprof, Mapping.holds]
  · rw [hmap] at h ⊢
    obtain ⟨i, hi, hidx, hh, hlt⟩ := mappingForAddr_least _ addr h
    have hi' : i < ms.length := by simpa using hi
    simp only [convertToPprof, List.getElem_mapIdx, Mapping.holds, decide_eq_true_eq,
      decide_eq_false_iff_not] at hh hlt
    refine ⟨i, hi', hidx, hh.1, hh.2, hlt, List.getElem?_eq_getElem hi', ?_⟩
    rw [show c.result.mapping = convertToPprof ms ++ [c.kernelMapping] from rfl,
      List.getElem?_append_left hi, getElem?_convertToPprof _ _ hi']
  · have hS' : c'.setup.Fresh := hc' ▸ hS
    refine ⟨?_, fun M => ?_⟩
    · obtain ⟨r, M', h, -⟩ := userRoute_spec env hS' addr c'.memo
      rw [Converter.addUserFrame_eq, h]
      exact Option.some_ne_none _
    · obtain ⟨r, M', h, -, -, hsome⟩ := userRoute_spec env hS' addr M
      refine ⟨r, M', h, fun f hf hk => ?_⟩
      obtain ⟨pm, hfirst, -⟩ := hsome f hf
      have hholds : f.2.holds addr = true :=
        List.find?_some (p := fun m : Mapping => m.holds addr) hfirst
      rw [hk, show c'.kernelMapping = c'.setup.kernelMapping from rfl,
        hS'.kernel_not_holds addr] at hholds
      exact Bool.false_ne_true hholds

/-! ### The key of a user frame -/

/-- Whether a call is the one to the kernel-symbol resolver. -/
def Call.isKsymResolve : Call → Bool
  | .ksymResolve _ => true
  | _ => false

section UserKey

variable (env : Env)

/-- Where a JIT route files the frame at `addr` with the symbol table it fetched:
under the symbol the table gives the address, and under the raw address when there
is no table or the lookup fails. -/
def tableKey (table : Option PerfMap) (key : String → LocKey) (addr : UInt64) : LocKey :=
  match table with
  | none => .addr addr
  | some symbols =>
    match symbols.lookup addr with
    | .error _ => .addr addr
    | .ok symbol => key symbol

/-- The keys `Convert` can give the user frame at `addr` of the process mapping
`pm`, whose profile mapping has the file `file`, in a conversion whose calls to the
collaborators are `L`. A VDSO or native frame is filed under the answer of the call
its route made for it, which `L` records after the calls before it. A JIT frame is
filed under its raw address when JIT symbolization is off, and otherwise under the
key the table fetched for it gives: the answer of a call to that cache which `L`
records. -/
def KeyFor (S : Setup) (L : List Call) (pm : ProcessMapping) (file : String) (addr : UInt64)
    (k : LocKey) : Prop :=
  if file = "[vdso]" then
    ∃ calls, calls ++ [.vdsoResolve addr pm] <+: L ∧
      k = .vdso (match env.vdsoResolve calls addr pm with
        | .ok name => name
        | .error _ => "unknown")
  else if file = "jit" then
    if S.disableJITSymbolization then k = .addr addr
    else ∃ calls, calls ++ [.perfMapForPID S.pid] <+: L ∧
      k = tableKey (env.perfMapForPID calls S.pid).1 .perfmap addr
  else if hasSuffix file ".dump" then
    if S.disableJITSymbolization then k = .addr addr
    else ∃ calls, calls ++ [.jitdumpForPID S.pid file] <+: L ∧
      k = tableKey (env.jitdumpForPID calls S.pid file).1 .jitdump addr
  else
    ∃ calls, calls ++ [.normalize pm addr] <+: L ∧
      k = .addr (match env.normalize calls pm addr with
        | .ok a => a
        | .error _ => addr)

section Keys

variable {env} {S : Setup} {L : List Call} {pm : ProcessMapping} {file : String} {addr : UInt64}
  {k : LocKey}

/-- A key stays one the route can give as the conversion makes more calls. -/
theorem KeyFor.mono (h : KeyFor env S L pm file addr k) {L' : List Call} (hL : L <+: L') :
    KeyFor env S L' pm file addr k := by
  unfold KeyFor at h ⊢
  split_ifs at h ⊢ <;> first
    | exact h
    | exact h.imp fun _ hc => ⟨hc.1.trans hL, hc.2⟩

/-- A user frame is never filed in the kernel index. -/
theorem KeyFor.ne_kernel (h : KeyFor env S L pm file addr k) (s : String) : k ≠ .kernel s := by
  rintro rfl
  unfold KeyFor tableKey at h
  split_ifs at h <;> aesop

end Keys

/-- Every symbol table the memo holds is the answer of a call the memo's log records:
the perf map, once either of its memos is set, and the map of each dump file. -/
structure Memo.Answers (pid : Int) (M : Memo) : Prop where
  perfMap : (M.cachedPerfMap.isSome || M.cachedPerfMapErr.isSome) = true →
    ∃ calls, calls ++ [.perfMapForPID pid] <+: M.calls ∧
      env.perfMapForPID calls pid = (M.cachedPerfMap, M.cachedPerfMapErr)
  jitdump : ∀ path, ((M.cachedJitdump path).isSome || (M.cachedJitdumpErr path).isSome) = true →
    ∃ calls, calls ++ [.jitdumpForPID pid path] <+: M.calls ∧
      env.jitdumpForPID calls pid path =
        ((M.cachedJitdump path).getD none, (M.cachedJitdumpErr path).getD none)

section Fetch

variable {env} {pid : Int} {M : Memo}

/-- A call to a collaborator other than the two caches keeps the memo's answers. -/
theorem Memo.Answers.call (h : M.Answers env pid) (x : Call) :
    { M with calls := M.calls ++ [x] }.Answers env pid :=
  ⟨fun hc => (h.perfMap hc).imp fun _ hp => ⟨hp.1.trans (List.prefix_append _ _), hp.2⟩,
    fun path hc => (h.jitdump path hc).imp fun _ hp => ⟨hp.1.trans (List.prefix_append _ _), hp.2⟩⟩

/-- `Converter.perfMap` returns the answer of a call its log records. -/
theorem Memo.Answers.perfMap_fetch (h : M.Answers env pid) :
    (∃ calls, calls ++ [.perfMapForPID pid] <+: (M.perfMap env pid).2.calls ∧
      env.perfMapForPID calls pid = (M.perfMap env pid).1) ∧
      (M.perfMap env pid).2.Answers env pid := by
  unfold Memo.perfMap
  split
  · next hc => exact ⟨h.perfMap hc, h⟩
  · have hnew : ∃ calls, calls ++ [.perfMapForPID pid] <+: M.calls ++ [.perfMapForPID pid] ∧
        env.perfMapForPID calls pid = env.perfMapForPID M.calls pid := ⟨M.calls, List.prefix_rfl, rfl⟩
    exact ⟨hnew, fun _ => hnew, (h.call (.perfMapForPID pid)).jitdump⟩

/-- `Converter.jitdump` returns the answer of a call its log records. -/
theorem Memo.Answers.jitdump_fetch (h : M.Answers env pid) (path : String) :
    (∃ calls, calls ++ [.jitdumpForPID pid path] <+: (M.jitdump env pid path).2.calls ∧
      env.jitdumpForPID calls pid path = (M.jitdump env pid path).1) ∧
      (M.jitdump env pid path).2.Answers env pid := by
  unfold Memo.jitdump
  split
  · have hc := (h.call (.jitdumpForPID pid path)).jitdump
    refine ⟨⟨M.calls, List.prefix_rfl, rfl⟩, (h.call _).perfMap, fun path' hp => ?_⟩
    by_cases e : path' = path
    · subst e
      simpa using (⟨M.calls, List.prefix_rfl, rfl⟩ :
        ∃ calls, calls ++ [.jitdumpForPID pid path'] <+: M.calls ++ [.jitdumpForPID pid path'] ∧
          env.jitdumpForPID calls pid path' = env.jitdumpForPID M.calls pid path')
    · simp only [Function.update_noteq e] at hp ⊢
      exact hc path' hp
  · next hne =>
    refine ⟨h.jitdump path ?_, h⟩
    cases hj : M.cachedJitdump path
    · simp [Option.ne_none_iff_isSome.mp (hne hj)]
    · rfl

end Fetch

/-- What a JIT route files a frame under: its raw address when JIT symbolization is
off, and otherwise the key the fetched table gives it. -/
theorem jitKey_fst (disable : Bool) (fetch : Memo → (Option PerfMap × Option String) × Memo)
    (key : String → LocKey) (addr : UInt64) (M : Memo) :
    (jitKey disable fetch key addr M).1 =
      if disable then .addr addr else tableKey (fetch M).1.1 key addr := by
  unfold jitKey tableKey
  split
  · rfl
  · cases (fetch M).1.1 with
    | none => rfl
    | some symbols =>
      dsimp only
      cases symbols.lookup addr <;> rfl

theorem jitKey_memo (disable : Bool) (fetch : Memo → (Option PerfMap × Option String) × Memo)
    (key : String → LocKey) (addr : UInt64) (M : Memo) :
    (jitKey disable fetch key addr M).2 = if disable then M else (fetch M).2 := by
  unfold jitKey
  split
  · rfl
  · split
    · rfl
    · split <;> rfl

theorem Memo.perfMap_calls (pid : Int) (M : Memo) :
    ∃ extra, (M.perfMap env pid).2.calls = M.calls ++ extra ∧ ∀ x ∈ extra, x.isKsymResolve = false := by
  unfold Memo.perfMap
  split
  · exact ⟨[], by simp, by simp⟩
  · exact ⟨_, rfl, by simp [Call.isKsymResolve]⟩

theorem Memo.jitdump_calls (pid : Int) (path : String) (M : Memo) :
    ∃ extra, (M.jitdump env pid path).2.calls = M.calls ++ extra ∧
      ∀ x ∈ extra, x.isKsymResolve = false := by
  unfold Memo.jitdump
  split
  · exact ⟨_, rfl, by simp [Call.isKsymResolve]⟩
  · exact ⟨[], by simp, by simp⟩

/-- A JIT route of a frame: the key `KeyFor` gives it, from the table `fetch`
returns, which is the answer of a call `x` the log records; the memo's answers are
kept, and no kernel-symbol resolution is added. -/
theorem jitKey_keyFor {pid : Int} (disable : Bool)
    (fetch : Memo → (Option PerfMap × Option String) × Memo) (key : String → LocKey)
    (answer : List Call → Option PerfMap) (x : Call) (addr : UInt64) {M : Memo}
    (hM : M.Answers env pid)
    (hf : (∃ calls, calls ++ [x] <+: (fetch M).2.calls ∧ answer calls = (fetch M).1.1) ∧
      (fetch M).2.Answers env pid ∧
      ∃ extra, (fetch M).2.calls = M.calls ++ extra ∧ ∀ y ∈ extra, y.isKsymResolve = false) :
    (if disable then (jitKey disable fetch key addr M).1 = .addr addr
      else ∃ calls, calls ++ [x] <+: (jitKey disable fetch key addr M).2.calls ∧
        (jitKey disable fetch key addr M).1 = tableKey (answer calls) key addr) ∧
      (jitKey disable fetch key addr M).2.Answers env pid ∧
      ∃ extra, (jitKey disable fetch key addr M).2.calls = M.calls ++ extra ∧
        ∀ y ∈ extra, y.isKsymResolve = false := by
  rw [jitKey_fst, jitKey_memo]
  cases disable
  · obtain ⟨⟨calls, hp, ha⟩, hA, hx⟩ := hf
    exact ⟨⟨calls, hp, by rw [ha]; rfl⟩, hA, hx⟩
  · exact ⟨rfl, hM, [], by simp, by simp⟩

/-- **What routing a user frame does**: it files the frame under the key its route
gives it over the calls made so far, keeps every cached symbol table an answer of a
call the log records, and adds calls other than the kernel-symbol resolution. -/
theorem userKey_spec (S : Setup) (pm : ProcessMapping) (m : Mapping) (addr : UInt64) (M : Memo)
    (hM : M.Answers env S.pid) :
    KeyFor env S (userKey env S pm m addr M).2.calls pm m.file addr (userKey env S pm m addr M).1 ∧
      (userKey env S pm m addr M).2.Answers env S.pid ∧
      ∃ extra, (userKey env S pm m addr M).2.calls = M.calls ++ extra ∧
        ∀ x ∈ extra, x.isKsymResolve = false := by
  unfold userKey KeyFor
  by_cases h1 : m.file = "[vdso]"
  · simp only [if_pos h1]
    exact ⟨⟨M.calls, List.prefix_rfl, rfl⟩, hM.call _, _, rfl, by simp [Call.isKsymResolve]⟩
  by_cases h2 : m.file = "jit"
  · simp only [if_neg h1, if_pos h2]
    obtain ⟨⟨calls, hp, ha⟩, hA⟩ := hM.perfMap_fetch
    exact jitKey_keyFor env _ _ _ (fun calls => (env.perfMapForPID calls S.pid).1) _ addr hM
      ⟨⟨calls, hp, congrArg Prod.fst ha⟩, hA, Memo.perfMap_calls env _ M⟩
  by_cases h3 : hasSuffix m.file ".dump"
  · simp only [if_neg h1, if_neg h2, if_pos h3]
    obtain ⟨⟨calls, hp, ha⟩, hA⟩ := hM.jitdump_fetch m.file
    exact jitKey_keyFor env _ _ _ (fun calls => (env.jitdumpForPID calls S.pid m.file).1) _ addr hM
      ⟨⟨calls, hp, congrArg Prod.fst ha⟩, hA, Memo.jitdump_calls env _ _ M⟩
  · simp only [if_neg h1, if_neg h2, if_neg h3]
    exact ⟨⟨M.calls, List.prefix_rfl, rfl⟩, hM.call _, _, rfl, by simp [Call.isKsymResolve]⟩

/-- A route of the user frame at `addr`, in a conversion whose calls are `L`: the
first mapping holding the address, and a key the frame's route gives it, from the
process mapping with that mapping's identifier. -/
def UserRouteOk (S : Setup) (L : List Call) (f : LocKey × Mapping) (addr : UInt64) : Prop :=
  firstHolding S.pprofMappings addr = some f.2 ∧
    ∃ pm, S.mappings[f.2.id - 1]? = some pm ∧ KeyFor env S L pm f.2.file addr f.1

variable {env} in
theorem UserRouteOk.mono {S : Setup} {L L' : List Call} {f : LocKey × Mapping} {addr : UInt64}
    (h : UserRouteOk env S L f addr) (hL : L <+: L') : UserRouteOk env S L' f addr :=
  ⟨h.1, h.2.imp fun _ hp => ⟨hp.1, hp.2.mono hL⟩⟩

/-- Whether some profile mapping holds the address. -/
def Setup.held (S : Setup) (addr : UInt64) : Bool := S.pprofMappings.any (·.holds addr)

/-- **A user stack on a fresh setup**: one route per frame some mapping holds, in
order, over the calls made by the end; one drop per other frame; no call to the
kernel-symbol resolver. -/
theorem routeUserStack_spec {S : Setup} (hS : S.Fresh) :
    ∀ (addrs : List UInt64) (M : Memo), M.Answers env S.pid → ∃ fs M' d,
      routeUserStack env S addrs M = some (fs, M', d) ∧
      List.Forall₂ (UserRouteOk env S M'.calls) fs (addrs.filter S.held) ∧
      d = addrs.countP (fun a => !S.held a) ∧ M'.Answers env S.pid ∧
      ∃ extra, M'.calls = M.calls ++ extra ∧ ∀ x ∈ extra, x.isKsymResolve = false
  | [], M, hM => ⟨[], M, 0, rfl, .nil, rfl, hM, [], by simp, by simp⟩
  | addr :: addrs, M, hM => by
    obtain ⟨r, M1, hr, hnone, hM1, hsome⟩ := userRoute_spec env hS addr M
    cases r with
    | none =>
      have hheld : S.held addr = false := by simp [Setup.held, ← isSome_firstHolding, hnone.mp rfl]
      obtain rfl := hM1 rfl
      obtain ⟨fs, M', d, hrs, hfa, hd, hA, extra, hcalls, hx⟩ := routeUserStack_spec hS addrs M1 hM
      refine ⟨fs, M', 1 + d, by simp [routeUserStack, hr, hrs], ?_, ?_, hA, extra, hcalls, hx⟩
      · simpa [List.filter_cons, hheld] using hfa
      · simp [List.countP_cons, hheld, hd]
        omega
    | some f =>
      obtain ⟨pm, hfirst, hpm, hkey⟩ := hsome f rfl
      obtain ⟨hfits, hA1, e1, he1, hx1⟩ := userKey_spec env S pm f.2 addr M hM
      rw [← hkey] at hfits hA1 he1
      obtain ⟨fs, M', d, hrs, hfa, hd, hA, extra, hcalls, hx⟩ := routeUserStack_spec hS addrs M1 hA1
      have hheld : S.held addr = true := by simp [Setup.held, ← isSome_firstHolding, hfirst]
      have hroute : UserRouteOk env S M'.calls f addr :=
        ⟨hfirst, pm, hpm, hfits.mono ⟨extra, hcalls.symm⟩⟩
      refine ⟨f :: fs, M', d, by simp [routeUserStack, hr, hrs], ?_, ?_, hA, e1 ++ extra, ?_, ?_⟩
      · simpa [List.filter_cons, hheld] using List.Forall₂.cons hroute hfa
      · simp [List.countP_cons, hheld, hd]
      · simp only at he1
        simp [hcalls, he1]
      · intro x hx'
        rcases List.mem_append.mp hx' with h | h
        · exact hx1 x h
        · exact hx x h

/-- The routes of a sample on a fresh setup, in a conversion whose calls are `L`: its
kernel frames, then one route per user frame some mapping holds. -/
def SampleRoutesOk (S : Setup) (L : List Call) (kernelSymbols : UInt64 → Option String)
    (fs : List (LocKey × Mapping)) (sample : RawSample) : Prop :=
  ∃ us, fs = sample.kernelStack.map (kernelRoute S kernelSymbols) ++ us ∧
    List.Forall₂ (UserRouteOk env S L) us (sample.userStack.filter S.held)

/-- **The samples on a fresh setup**: routing never panics; each sample gets its
routes, over the calls made by the end; the drops are the user frames no mapping
holds; no routing step calls the kernel-symbol resolver. -/
theorem routeSamples_spec {S : Setup} (hS : S.Fresh) (kernelSymbols : UInt64 → Option String) :
    ∀ (rawData : List RawSample) (M : Memo), M.Answers env S.pid → ∃ fss M' d,
      routeSamples env S kernelSymbols rawData M = some (fss, M', d) ∧
      List.Forall₂ (SampleRoutesOk env S M'.calls kernelSymbols) fss rawData ∧
      d = (rawData.map fun s => s.userStack.countP (fun a => !S.held a)).sum ∧
      ∃ extra, M'.calls = M.calls ++ extra ∧ ∀ x ∈ extra, x.isKsymResolve = false
  | [], M, _ => ⟨[], M, 0, rfl, .nil, rfl, [], by simp, by simp⟩
  | sample :: rawData, M, hM => by
    obtain ⟨us, M1, d1, h1, hfa1, hd1, hA1, e1, he1, hx1⟩ :=
      routeUserStack_spec env hS sample.userStack M hM
    obtain ⟨fss, M', d, h2, hfa2, hd2, e2, he2, hx2⟩ := routeSamples_spec hS kernelSymbols rawData M1 hA1
    have hus : List.Forall₂ (UserRouteOk env S M'.calls) us (sample.userStack.filter S.held) :=
      hfa1.imp fun _ _ h => h.mono ⟨e2, he2.symm⟩
    refine ⟨_ :: fss, M', d1 + d, by simp [routeSamples, routeSample, h1, h2],
      .cons ⟨us, rfl, hus⟩ hfa2, by simp [hd1, hd2], e1 ++ e2, by simp [he1, he2], ?_⟩
    intro x hx
    rcases List.mem_append.mp hx with h | h
    · exact hx1 x h
    · exact hx2 x h

end UserKey

end Pprof

end ParcaAgent

import ParcaAgent.Pprof.Conversion

/-!
# The calls to the perf-map and jitdump caches

`Converter.perfMap` and `Converter.jitdump` wrap the two caches so that one
conversion asks each of them at most once per `(pid, path)` and then reuses the
answer, error included. A reference converter that does exactly that is
`ParcaAgent.Pprof.Converter.refConvert`: the code's conversion, as
`ParcaAgent.Pprof.Converter.convert_eq` writes it, with the perf map fetched by
`ParcaAgent.Pprof.Memo.perfMapOnce`, which keeps the first answer whatever it is.

The two memos are not alike. The jitdump memo records every answer, so the jitdump
cache is asked at most once per path whatever it answers. The perf-map memo is
tested for emptiness, so a nil map with a nil error is not recorded, and the next
perf-map frame asks the cache again: there the code and the reference part. Each
memo is tied to the call log by an invariant, `ParcaAgent.Pprof.Memo.JitdumpKept`
and `ParcaAgent.Pprof.Memo.PerfMapKept`, that every routing step keeps; the second
only while the cache never answers (nil, nil), and while it holds the code is the
reference.

| what | theorem |
|---|---|
| the jitdump cache, once per path | `ParcaAgent.Pprof.convert_jitdump_asked_once` |
| the perf-map cache, asked again after (nil, nil) | `ParcaAgent.Pprof.convert_asks_perfMap_again` |
| otherwise the code is the reference | `ParcaAgent.Pprof.convert_eq_refConvert` |
| with JIT symbolization off, neither is asked | `ParcaAgent.Pprof.convert_jit_disabled` |
-/

namespace ParcaAgent

namespace Pprof

/-! ### The calls to the two caches, and what the memos hold -/

/-- Whether a call asks the perf-map cache. -/
def Call.isPerfMapForPID : Call → Bool
  | .perfMapForPID _ => true
  | _ => false

/-- Whether a call asks the jitdump cache for the dump file `path`. -/
def Call.isJitdumpFor (path : String) : Call → Bool
  | .jitdumpForPID _ p => p == path
  | _ => false

/-- The test of `Converter.perfMap`: the memo holds a map or an error. -/
def Memo.perfMapCached (M : Memo) : Bool := M.cachedPerfMap.isSome || M.cachedPerfMapErr.isSome

/-- The test of `Converter.jitdump`: either memo has the path. -/
def Memo.jitdumpCached (M : Memo) (path : String) : Bool :=
  (M.cachedJitdump path).isSome || (M.cachedJitdumpErr path).isSome

/-- **The jitdump memo against the call log**: for each path, the log holds one call
to the jitdump cache for it, with the converter's pid, when the memo has the path,
and none otherwise. -/
def Memo.JitdumpKept (pid : Int) (M : Memo) : Prop :=
  ∀ path, M.calls.filter (Call.isJitdumpFor path) =
    if M.jitdumpCached path then [.jitdumpForPID pid path] else []

/-- **The perf-map memo against the call log**: the log holds one call to the
perf-map cache when the memo holds an answer, and none otherwise. -/
def Memo.PerfMapKept (pid : Int) (M : Memo) : Prop :=
  M.calls.filter Call.isPerfMapForPID = if M.perfMapCached then [.perfMapForPID pid] else []

/-! ### The reference converter -/

section Reference

variable (env : Env)

/-- Modelled from the spec: the perf map "memoized for the lifetime of the converter:
first call resolves via the perf-map cache, subsequent calls reuse the result
including the error". Whether the cache was asked is read off the call log, so an
answer with neither a map nor an error is kept too. -/
def Memo.perfMapOnce (pid : Int) (M : Memo) : (Option PerfMap × Option String) × Memo :=
  if Call.perfMapForPID pid ∈ M.calls then ((M.cachedPerfMap, M.cachedPerfMapErr), M)
  else
    let r := env.perfMapForPID M.calls pid
    (r, { M with cachedPerfMap := r.1, cachedPerfMapErr := r.2,
                 calls := M.calls ++ [.perfMapForPID pid] })

/-- Modelled from the spec: where the reference converter files a user frame. It
fetches the perf map with `ParcaAgent.Pprof.Memo.perfMapOnce`, and is `userKey`
otherwise: the jitdump memo of the code already keeps every answer. -/
def refUserKey (S : Setup) (pm : ProcessMapping) (m : Mapping) (addr : UInt64) (M : Memo) :
    LocKey × Memo :=
  if m.file = "jit" then jitKey S.disableJITSymbolization (Memo.perfMapOnce env S.pid) .perfmap addr M
  else userKey env S pm m addr M

/-- Modelled from the spec: `userRoute` of the reference converter. -/
def refUserRoute (S : Setup) (addr : UInt64) (M : Memo) :
    Option (Option (LocKey × Mapping) × Memo) :=
  let mappingIndex := mappingForAddr S.pprofMappings addr
  if mappingIndex = -1 then some (none, M)
  else
    match S.mappings[mappingIndex.toNat]?, S.pprofMappings[mappingIndex.toNat]? with
    | some processMapping, some pprofMapping =>
      let r := refUserKey env S processMapping pprofMapping addr M
      some (some (r.1, pprofMapping), r.2)
    | _, _ => none

/-- Modelled from the spec: `routeUserStack` of the reference converter. -/
def refRouteUserStack (S : Setup) :
    List UInt64 → Memo → Option (List (LocKey × Mapping) × Memo × Nat)
  | [], M => some ([], M, 0)
  | addr :: addrs, M => do
    let r ← refUserRoute env S addr M
    let rs ← refRouteUserStack S addrs r.2
    pure (r.1.toList ++ rs.1, rs.2.1, (if r.1.isSome then 0 else 1) + rs.2.2)

/-- Modelled from the spec: `routeSample` of the reference converter. -/
def refRouteSample (S : Setup) (kernelSymbols : UInt64 → Option String) (sample : RawSample)
    (M : Memo) : Option (List (LocKey × Mapping) × Memo × Nat) :=
  (refRouteUserStack env S sample.userStack M).map fun r =>
    (sample.kernelStack.map (kernelRoute S kernelSymbols) ++ r.1, r.2)

/-- Modelled from the spec: `routeSamples` of the reference converter. -/
def refRouteSamples (S : Setup) (kernelSymbols : UInt64 → Option String) :
    List RawSample → Memo → Option (List (List (LocKey × Mapping)) × Memo × Nat)
  | [], M => some ([], M, 0)
  | sample :: rawData, M => do
    let r ← refRouteSample env S kernelSymbols sample M
    let rs ← refRouteSamples S kernelSymbols rawData r.2.1
    pure (r.1 :: rs.1, rs.2.1, r.2.2 + rs.2.2)

/-- Modelled from the spec: `Convert` of a converter that "calls the cache at most
once per `(pid, path)` tuple per conversion": the code's conversion as
`ParcaAgent.Pprof.Converter.convert_eq` writes it, routed by the reference. -/
def Converter.refConvert (rawData : List RawSample) (c : Converter) : Option (Profile × Converter) :=
  let r := c.memo.ksymResolve env (kernelAddresses rawData)
  (refRouteSamples env c.setup (resolvedSymbols r.1) rawData r.2).map fun rs =>
    let c' := { c.internSamples rawData rs.1 with
      memo := rs.2.1, metrics := ⟨c.metrics.frameDropMappingNil + rs.2.2⟩ }
    (c'.result, c')

end Reference

/-! ### Each call keeps the memos tied to the log -/

section Calls

variable (env : Env) {pid : Int} {M : Memo}

theorem Memo.JitdumpKept.frame (h : M.JitdumpKept pid) {M' : Memo} {c : Call}
    (hj : M'.cachedJitdump = M.cachedJitdump) (he : M'.cachedJitdumpErr = M.cachedJitdumpErr)
    (hc : M'.calls = M.calls ++ [c]) (hcall : ∀ path, c.isJitdumpFor path = false) :
    M'.JitdumpKept pid := fun path => by
  simp [hc, List.filter_append, hcall, h path, jitdumpCached, hj, he]

theorem Memo.PerfMapKept.frame (h : M.PerfMapKept pid) {M' : Memo} {c : Call}
    (hp : M'.cachedPerfMap = M.cachedPerfMap) (he : M'.cachedPerfMapErr = M.cachedPerfMapErr)
    (hc : M'.calls = M.calls ++ [c]) (hcall : c.isPerfMapForPID = false) : M'.PerfMapKept pid := by
  simp only [PerfMapKept, perfMapCached] at h ⊢
  simp [hc, List.filter_append, hcall, h, hp, he]

theorem Memo.JitdumpKept.vdsoResolve (h : M.JitdumpKept pid) (addr : UInt64) (m : ProcessMapping) :
    (M.vdsoResolve env addr m).2.JitdumpKept pid :=
  h.frame rfl rfl rfl fun _ => rfl

theorem Memo.JitdumpKept.normalize (h : M.JitdumpKept pid) (m : ProcessMapping) (addr : UInt64) :
    (M.normalize env m addr).2.JitdumpKept pid :=
  h.frame rfl rfl rfl fun _ => rfl

theorem Memo.JitdumpKept.perfMap (h : M.JitdumpKept pid) (pid' : Int) :
    (M.perfMap env pid').2.JitdumpKept pid := by
  unfold Memo.perfMap
  split
  · exact h
  · exact h.frame rfl rfl rfl fun _ => rfl

/-- **The jitdump memo records every answer**: fetching a dump file asks the cache
only when neither memo has the path, and then both get it. -/
theorem Memo.JitdumpKept.jitdump (h : M.JitdumpKept pid) (path : String) :
    (M.jitdump env pid path).2.JitdumpKept pid := fun path' => by
  unfold Memo.jitdump
  split
  · next hj he =>
    by_cases hp : path' = path
    · subst hp
      simp [List.filter_append, h path', jitdumpCached, Call.isJitdumpFor, hj, he]
    · simp [List.filter_append, h path', jitdumpCached, Call.isJitdumpFor, hp,
        Function.update_noteq hp, Ne.symm hp]
  · exact h path'

theorem Memo.PerfMapKept.vdsoResolve (h : M.PerfMapKept pid) (addr : UInt64) (m : ProcessMapping) :
    (M.vdsoResolve env addr m).2.PerfMapKept pid :=
  h.frame rfl rfl rfl rfl

theorem Memo.PerfMapKept.normalize (h : M.PerfMapKept pid) (m : ProcessMapping) (addr : UInt64) :
    (M.normalize env m addr).2.PerfMapKept pid :=
  h.frame rfl rfl rfl rfl

theorem Memo.PerfMapKept.jitdump (h : M.PerfMapKept pid) (pid' : Int) (path : String) :
    (M.jitdump env pid' path).2.PerfMapKept pid := by
  unfold Memo.jitdump
  split
  · exact h.frame rfl rfl rfl rfl
  · exact h

/-- **The perf-map memo records every answer but one**: fetching the perf map asks
the cache only when the memo is empty, and the answer fills it unless it has
neither a map nor an error. -/
theorem Memo.PerfMapKept.perfMap (h : M.PerfMapKept pid)
    (hnil : env.perfMapForPID M.calls pid ≠ (none, none)) : (M.perfMap env pid).2.PerfMapKept pid := by
  unfold Memo.perfMap
  split
  · exact h
  · next hc =>
    have h1 : (env.perfMapForPID M.calls pid).1.isSome || (env.perfMapForPID M.calls pid).2.isSome := by
      rcases hr : env.perfMapForPID M.calls pid with ⟨_ | _, _ | _⟩
      · exact absurd hr hnil
      all_goals rfl
    simp only [PerfMapKept, perfMapCached] at h ⊢
    simp [List.filter_append, h, hc, h1, Call.isPerfMapForPID]

/-- While the perf-map memo is tied to the log, the code's fetch is the reference's. -/
theorem Memo.PerfMapKept.perfMapOnce_eq (h : M.PerfMapKept pid) :
    M.perfMapOnce env pid = M.perfMap env pid := by
  have hmem : Call.perfMapForPID pid ∈ M.calls ↔ M.perfMapCached = true := by
    have hf : Call.perfMapForPID pid ∈ M.calls ↔ Call.perfMapForPID pid ∈ M.calls.filter Call.isPerfMapForPID := by
      simp [Call.isPerfMapForPID]
    rw [hf, h]
    split <;> simp [*]
  unfold Memo.perfMapOnce Memo.perfMap
  simp only [hmem, perfMapCached]

end Calls

/-! ### Routing keeps them -/

section Routing

variable (env : Env) (S : Setup) {P : Memo → Prop}

/-- A property of the memo that each collaborator call of a route keeps is kept by
keying a user frame. -/
theorem userKey_preserves (hv : ∀ M addr m, P M → P (M.vdsoResolve env addr m).2)
    (hn : ∀ M m addr, P M → P (M.normalize env m addr).2) (hp : ∀ M, P M → P (M.perfMap env S.pid).2)
    (hj : ∀ M path, P M → P (M.jitdump env S.pid path).2) (pm : ProcessMapping) (m : Mapping)
    (addr : UInt64) {M : Memo} (hM : P M) : P (userKey env S pm m addr M).2 := by
  unfold userKey
  split_ifs
  · exact hv M addr pm hM
  · rw [jitKey_memo]
    split
    · exact hM
    · exact hp M hM
  · rw [jitKey_memo]
    split
    · exact hM
    · exact hj M _ hM
  · exact hn M pm addr hM

theorem Memo.JitdumpKept.userKey {M : Memo} (hM : M.JitdumpKept S.pid) (pm : ProcessMapping)
    (m : Mapping) (addr : UInt64) : (ParcaAgent.Pprof.userKey env S pm m addr M).2.JitdumpKept S.pid :=
  userKey_preserves env S (fun _ _ _ h => h.vdsoResolve env _ _) (fun _ _ _ h => h.normalize env _ _)
    (fun _ h => h.perfMap env _) (fun _ _ h => h.jitdump env _) pm m addr hM

theorem Memo.PerfMapKept.userKey (hnil : ∀ calls, env.perfMapForPID calls S.pid ≠ (none, none))
    {M : Memo} (hM : M.PerfMapKept S.pid) (pm : ProcessMapping) (m : Mapping) (addr : UInt64) :
    (ParcaAgent.Pprof.userKey env S pm m addr M).2.PerfMapKept S.pid :=
  userKey_preserves env S (fun _ _ _ h => h.vdsoResolve env _ _) (fun _ _ _ h => h.normalize env _ _)
    (fun _ h => h.perfMap env (hnil _)) (fun _ _ h => h.jitdump env _ _) pm m addr hM

theorem userRoute_preserves (hkey : ∀ pm m addr M, P M → P (userKey env S pm m addr M).2)
    {addr : UInt64} {M : Memo} {r : Option (LocKey × Mapping) × Memo} (hM : P M)
    (h : userRoute env S addr M = some r) : P r.2 := by
  dsimp only [userRoute] at h
  split at h
  · cases h
    exact hM
  · split at h
    · cases h
      exact hkey _ _ _ _ hM
    · cases h

theorem routeUserStack_preserves (hkey : ∀ pm m addr M, P M → P (userKey env S pm m addr M).2) :
    ∀ (addrs : List UInt64) (M : Memo)
    (r : List (LocKey × Mapping) × Memo × Nat), P M → routeUserStack env S addrs M = some r → P r.2.1
  | [], M, r, hM, h => by
    cases h
    exact hM
  | addr :: addrs, M, r, hM, h => by
    simp only [routeUserStack, Option.bind_eq_bind, Option.bind_eq_some, Option.pure_def,
      Option.some.injEq] at h
    obtain ⟨r1, hr1, rs, hrs, rfl⟩ := h
    exact routeUserStack_preserves hkey addrs r1.2 rs (userRoute_preserves env S hkey hM hr1) hrs

theorem routeSamples_preserves (hkey : ∀ pm m addr M, P M → P (userKey env S pm m addr M).2)
    (kernelSymbols : UInt64 → Option String) :
    ∀ (rawData : List RawSample) (M : Memo) (r : List (List (LocKey × Mapping)) × Memo × Nat),
      P M → routeSamples env S kernelSymbols rawData M = some r → P r.2.1
  | [], M, r, hM, h => by
    cases h
    exact hM
  | sample :: rawData, M, r, hM, h => by
    simp only [routeSamples, routeSample, Option.bind_eq_bind, Option.bind_eq_some, Option.pure_def,
      Option.some.injEq, Option.map_eq_some'] at h
    obtain ⟨r1, ⟨r0, hr0, rfl⟩, rs, hrs, rfl⟩ := h
    exact routeSamples_preserves hkey kernelSymbols rawData _ rs
      (routeUserStack_preserves env S hkey _ _ _ hM hr0) hrs

end Routing

/-- **An invariant of the memo over a whole conversion**: one that holds once the
kernel symbols are resolved and that keying a user frame keeps holds of the memo
the conversion ends with. -/
theorem Converter.convert_memo (env : Env) {P : Memo → Prop} {c : Converter}
    {rawData : List RawSample} {prof : Profile} {c' : Converter}
    (h : c.convert env rawData = some (prof, c'))
    (h0 : P (c.memo.ksymResolve env (kernelAddresses rawData)).2)
    (hkey : ∀ pm m addr M, P M → P (userKey env c.setup pm m addr M).2) : P c'.memo := by
  rw [Converter.convert_eq] at h
  obtain ⟨rs, hrs, heq⟩ := Option.map_eq_some'.mp h
  obtain ⟨-, rfl⟩ := Prod.mk.inj heq
  exact routeSamples_preserves env c.setup hkey _ _ _ _ h0 hrs

/-! ### The reference routes as the code does while the perf-map memo is kept -/

section Refinement

variable (env : Env) (S : Setup) (hnil : ∀ calls, env.perfMapForPID calls S.pid ≠ (none, none))

theorem refUserKey_eq {M : Memo} (h : M.PerfMapKept S.pid) (pm : ProcessMapping) (m : Mapping)
    (addr : UInt64) : refUserKey env S pm m addr M = userKey env S pm m addr M := by
  unfold refUserKey
  split_ifs with hjit
  · have hvdso : m.file ≠ "[vdso]" := by
      rw [hjit]
      decide
    rw [userKey, if_neg hvdso, if_pos hjit]
    unfold jitKey
    rw [h.perfMapOnce_eq env]
  · rfl

theorem refUserRoute_eq {M : Memo} (h : M.PerfMapKept S.pid) (addr : UInt64) :
    refUserRoute env S addr M = userRoute env S addr M := by
  dsimp only [refUserRoute, userRoute]
  split_ifs
  · rfl
  · cases S.mappings[(mappingForAddr S.pprofMappings addr).toNat]? <;>
      cases S.pprofMappings[(mappingForAddr S.pprofMappings addr).toNat]? <;>
      simp only [refUserKey_eq env S h]

include hnil in
theorem refRouteUserStack_eq : ∀ (addrs : List UInt64) (M : Memo), M.PerfMapKept S.pid →
    refRouteUserStack env S addrs M = routeUserStack env S addrs M
  | [], _, _ => rfl
  | addr :: addrs, M, hM => by
    simp only [refRouteUserStack, routeUserStack, refUserRoute_eq env S hM]
    cases hr : userRoute env S addr M with
    | none => rfl
    | some r =>
      have hK := userRoute_preserves env S
        (fun pm m addr (M : Memo) (h : M.PerfMapKept S.pid) => h.userKey env S hnil pm m addr) hM hr
      simp only [Option.bind_eq_bind, Option.some_bind, refRouteUserStack_eq addrs r.2 hK]

include hnil in
theorem refRouteSamples_eq (kernelSymbols : UInt64 → Option String) :
    ∀ (rawData : List RawSample) (M : Memo), M.PerfMapKept S.pid →
      refRouteSamples env S kernelSymbols rawData M = routeSamples env S kernelSymbols rawData M
  | [], _, _ => rfl
  | sample :: rawData, M, hM => by
    simp only [refRouteSamples, routeSamples, refRouteSample, routeSample,
      refRouteUserStack_eq env S hnil _ M hM]
    cases hr : routeUserStack env S sample.userStack M with
    | none => rfl
    | some r =>
      have hK := routeUserStack_preserves env S
        (fun pm m addr (M : Memo) (h : M.PerfMapKept S.pid) => h.userKey env S hnil pm m addr)
        _ _ _ hM hr
      simp only [Option.map_some', Option.bind_eq_bind, Option.some_bind,
        refRouteSamples_eq kernelSymbols rawData r.2.1 hK]

end Refinement

/-- **The code is the reference while the perf-map memo is kept**: a converter whose
memo, once the kernel symbols are resolved, is tied to the log converts as the
reference converter does, when the perf-map cache never answers a nil map with a
nil error. -/
theorem Converter.refConvert_eq (env : Env) (c : Converter) (rawData : List RawSample)
    (hnil : ∀ calls, env.perfMapForPID calls c.pid ≠ (none, none))
    (h0 : (c.memo.ksymResolve env (kernelAddresses rawData)).2.PerfMapKept c.pid) :
    c.refConvert env rawData = c.convert env rawData := by
  rw [Converter.convert_eq]
  dsimp only [Converter.refConvert]
  rw [refRouteSamples_eq env c.setup hnil _ _ _ h0]

/-! ### One conversion -/

section Conversion

variable (env : Env) (disable : Bool) (metrics : ConverterMetrics) (pid : Int)
  (mappings : List ProcessMapping) (t d p : Int) (rawData : List RawSample)

/-- **The jitdump cache is asked at most once per dump file.** Whatever it answers (a
map, an error, or neither), a conversion on a fresh converter asks it at most once
for each path. -/
theorem convert_jitdump_asked_once :
    ∃ prof c', (newConverter disable metrics pid mappings t d p).convert env rawData = some (prof, c') ∧
      ∀ path, c'.memo.calls.countP (Call.isJitdumpFor path) ≤ 1 := by
  obtain ⟨fss, c', h⟩ := freshRun env disable metrics pid mappings t d p rawData
  have hK : c'.memo.JitdumpKept pid := Converter.convert_memo env h.convert_eq (fun _ => rfl)
    fun pm m addr (M : Memo) (hM : M.JitdumpKept pid) => hM.userKey env _ pm m addr
  refine ⟨_, c', h.convert_eq, fun path => ?_⟩
  rw [List.countP_eq_length_filter, hK path]
  split <;> simp

/-- **Without a nil perf map and a nil error, the code is the reference converter.**
When the perf-map cache never answers (nil, nil), a conversion on a fresh converter
produces the profile and the converter, call log included, that the reference
converter produces, and asks the perf-map cache at most once. -/
theorem convert_eq_refConvert (hnil : ∀ calls, env.perfMapForPID calls pid ≠ (none, none)) :
    ∃ prof c', (newConverter disable metrics pid mappings t d p).convert env rawData = some (prof, c') ∧
      (newConverter disable metrics pid mappings t d p).refConvert env rawData = some (prof, c') ∧
      c'.memo.calls.countP Call.isPerfMapForPID ≤ 1 := by
  obtain ⟨fss, c', h⟩ := freshRun env disable metrics pid mappings t d p rawData
  have h0 : ((newConverter disable metrics pid mappings t d p).memo.ksymResolve env
      (kernelAddresses rawData)).2.PerfMapKept pid := rfl
  have hK : c'.memo.PerfMapKept pid := Converter.convert_memo env h.convert_eq h0
    fun pm m addr (M : Memo) (hM : M.PerfMapKept pid) => hM.userKey env _ hnil pm m addr
  refine ⟨_, c', h.convert_eq, (Converter.refConvert_eq env _ rawData hnil h0).trans h.convert_eq, ?_⟩
  rw [List.countP_eq_length_filter, hK]
  split <;> simp

/-- A process whose only mapping is a `jit` region. -/
def jitProcess : List ProcessMapping := [⟨0x1000, 0x2000, 0, "jit", ""⟩]

/-- One sample with two frames in the `jit` region. -/
def twoJitFrames : List RawSample := [⟨1, [0x1000, 0x1800], []⟩]

/-- Collaborators whose perf-map cache reports that the process has no perf map. -/
def missingPerfMap : Env where
  ksymResolve _ _ := .error "no kernel symbols"
  normalize _ _ addr := .ok addr
  vdsoResolve _ _ _ := .error "no vdso"
  perfMapForPID _ _ := (none, some "no perf map")
  jitdumpForPID _ _ _ := (none, none)

theorem convert_eq_refConvert_missingPerfMap :
    (∀ calls, missingPerfMap.perfMapForPID calls 1 ≠ (none, none)) ∧
      ∃ prof c', (newConverter false ⟨0⟩ 1 jitProcess 0 0 0).convert missingPerfMap twoJitFrames =
          some (prof, c') ∧
        (newConverter false ⟨0⟩ 1 jitProcess 0 0 0).refConvert missingPerfMap twoJitFrames =
          some (prof, c') ∧
        c'.memo.calls.countP Call.isPerfMapForPID ≤ 1 :=
  have hnil : ∀ calls, missingPerfMap.perfMapForPID calls 1 ≠ (none, none) := fun _ => by
    simp [missingPerfMap]
  ⟨hnil, convert_eq_refConvert missingPerfMap false ⟨0⟩ 1 jitProcess 0 0 0 twoJitFrames hnil⟩

/-- Collaborators whose perf-map cache finds neither a map nor an error. -/
def noPerfMap : Env := { missingPerfMap with perfMapForPID := fun _ _ => (none, none) }

/-- Collaborators whose perf-map cache finds neither a map nor an error when first
asked, and a map naming every address `f` when asked again. -/
def latePerfMap : Env :=
  { missingPerfMap with
    perfMapForPID := fun calls _ =>
      if calls.any Call.isPerfMapForPID then (some ⟨fun _ => .ok "f"⟩, none) else (none, none) }

/-- **A nil perf map with a nil error is asked for again.** `Converter.perfMap` tests
its memo for emptiness, so after such an answer the next perf-map frame of the same
conversion asks the cache again, where the reference converter reuses the answer:
two calls against one. When the second answer holds a map, the second frame is
symbolized against it and the first is not, and the profiles differ. -/
theorem convert_asks_perfMap_again :
    ((newConverter false ⟨0⟩ 1 jitProcess 0 0 0).convert noPerfMap twoJitFrames).map
        (·.2.memo.calls.countP Call.isPerfMapForPID) = some 2 ∧
      ((newConverter false ⟨0⟩ 1 jitProcess 0 0 0).refConvert noPerfMap twoJitFrames).map
        (·.2.memo.calls.countP Call.isPerfMapForPID) = some 1 ∧
      ((newConverter false ⟨0⟩ 1 jitProcess 0 0 0).convert latePerfMap twoJitFrames).map
        (fun r => r.1.sample.map fun s => s.location.map fun l => l.line.map (·.function.name)) =
        some [[[], ["f"]]] ∧
      ((newConverter false ⟨0⟩ 1 jitProcess 0 0 0).refConvert latePerfMap twoJitFrames).map
        (fun r => r.1.sample.map fun s => s.location.map fun l => l.line.map (·.function.name)) =
        some [[[], []]] := by
  decide

end Conversion

/-! ### With JIT symbolization off -/

section Disabled

variable (env : Env) {S : Setup}

/-- Whether a call asks one of the two JIT caches. -/
def Call.asksJitCache : Call → Bool
  | .perfMapForPID _ | .jitdumpForPID _ _ => true
  | _ => false

/-- With JIT symbolization off, keying a user frame asks neither JIT cache. -/
theorem userKey_calls_of_disabled (hd : S.disableJITSymbolization = true) (pm : ProcessMapping)
    (m : Mapping) (addr : UInt64) (M : Memo) :
    ∃ extra, (userKey env S pm m addr M).2.calls = M.calls ++ extra ∧
      ∀ x ∈ extra, x.asksJitCache = false := by
  unfold userKey
  split_ifs <;> simp [jitKey_memo, hd, Memo.vdsoResolve, Memo.normalize, Call.asksJitCache]

/-- With JIT symbolization off, a frame of a `jit` or `.dump` mapping is filed under
its raw address. -/
theorem KeyFor.addr_of_disabled {L : List Call} {pm : ProcessMapping} {file : String}
    {addr : UInt64} {k : LocKey} (h : KeyFor env S L pm file addr k)
    (hd : S.disableJITSymbolization = true) (hj : file = "jit" ∨ hasSuffix file ".dump") :
    k = .addr addr := by
  have hv : file ≠ "[vdso]" := by
    rintro rfl
    revert hj
    decide
  unfold KeyFor at h
  rw [if_neg hv] at h
  rcases hj with hj | hj
  · rwa [if_pos hj, if_pos hd] at h
  · have hjit : file ≠ "jit" := by
      rintro rfl
      revert hj
      decide
    rwa [if_neg hjit, if_pos hj, if_pos hd] at h

variable (metrics : ConverterMetrics) (pid : Int) (mappings : List ProcessMapping) (t d p : Int)
  (rawData : List RawSample)

/-- **`disableJITSymbolization` keeps the JIT caches out.** A conversion on a
converter built with JIT symbolization disabled never asks the perf-map or the
jitdump cache, and, sample by sample, gives each user frame of a `jit` or `.dump`
mapping an address-only location at that frame's own raw address, not normalized. -/
theorem convert_jit_disabled :
    ∃ prof c',
      (newConverter true metrics pid mappings t d p).convert env rawData = some (prof, c') ∧
      (∀ x ∈ c'.memo.calls, x.asksJitCache = false) ∧
      List.Forall₂ (fun s r => ∃ kernelLocs userLocs, s.location = kernelLocs ++ userLocs ∧
          List.Forall₂ (fun l a => ∀ m, firstHolding prof.mapping a = some m →
              m.file = "jit" ∨ hasSuffix m.file ".dump" → l.address = a ∧ l.line = [])
            userLocs (r.userStack.filter fun a => prof.mapping.any (·.holds a)))
        prof.sample rawData := by
  obtain ⟨fss, c', h⟩ := freshRun env true metrics pid mappings t d p rawData
  have hcalls : ∀ x ∈ c'.memo.calls, x.asksJitCache = false :=
    Converter.convert_memo env (P := fun M => ∀ x ∈ M.calls, x.asksJitCache = false)
      h.convert_eq (by simp [newConverter, Memo.ksymResolve, Memo.empty, Call.asksJitCache])
      fun pm m addr M hM x hx => by
        obtain ⟨extra, he, hx'⟩ := userKey_calls_of_disabled env
          (S := (newConverter true metrics pid mappings t d p).setup) rfl pm m addr M
        rw [he] at hx
        rcases List.mem_append.mp hx with hx | hx
        · exact hM x hx
        · exact hx' x hx
  refine ⟨c'.result, c', h.convert_eq, hcalls, ?_⟩
  simp only [h.any_holds]
  refine h.samples.imp fun s r ⟨kernelLocs, userLocs, hsplit, _, hu⟩ =>
    ⟨kernelLocs, userLocs, hsplit, hu.imp fun l a ⟨f, hl, hfirst, pm, _, hkey⟩ m hm hj => ?_⟩
  obtain rfl : m = f.2 := Option.some_inj.mp (hm.symm.trans ((h.firstHolding_eq a).trans hfirst))
  rw [hkey.addr_of_disabled env rfl hj] at hl
  exact ⟨h.tracks.address_eq _ _ hl, by simpa [LocKey.symbol] using h.tracks.names_eq _ _ hl⟩

/-- The two frames of the `jit` region keep their raw addresses, and the perf-map
cache is not asked. -/
example :
    ((newConverter true ⟨0⟩ 1 jitProcess 0 0 0).convert latePerfMap twoJitFrames).map
      (fun r => (r.1.sample.map fun s => s.location.map fun l => (l.address, l.line.length),
        r.2.memo.calls.countP Call.isPerfMapForPID)) =
      some ([[(0x1000, 0), (0x1800, 0)]], 0) := by
  decide

end Disabled

end Pprof

end ParcaAgent

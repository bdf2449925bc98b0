import ParcaAgent.Pprof.Profile

/-!
# The converter

`Converter` of `pkg/pprof/pprof.go`, one definition per Go function and under its
name. The Go struct is flat; its fields are grouped here by who touches them:

* what it was built with (`disableJITSymbolization`, `pid`, `mappings`,
  `kernelMapping`), which no step changes;
* the `ParcaAgent.Pprof.Memo`: the perf-map and jitdump memos and the calls made
  to the collaborators, touched only while a frame is symbolized;
* the `ParcaAgent.Pprof.Index`: the six dedup indexes, touched, together with the
  location and function tables of the result, only while a frame is filed.

The five `add*Location` functions share one body, `Converter.addLocation`: look
the key up in the frame's index, and otherwise create the next location, file it
and append it. `ParcaAgent.Pprof.LocKey` says which index and which key. A Go
slice index out of range panics; `Converter.addUserFrame` returns `none` there.
-/

namespace ParcaAgent

namespace Pprof

/-- `ConverterMetrics`, reduced to the counter the converter bumps:
`frame_drop{reason="mapping_nil"}`. -/
structure ConverterMetrics where
  frameDropMappingNil : Nat

/-- The memos of `Converter.perfMap` and `Converter.jitdump`, and the calls made so
far to the collaborators, which stand for the collaborators' state. -/
structure Memo where
  cachedPerfMap : Option PerfMap
  cachedPerfMapErr : Option String
  cachedJitdump : String → Option (Option PerfMap)
  cachedJitdumpErr : String → Option (Option String)
  calls : List Call

/-- The six dedup indexes of the converter. -/
structure Index where
  functionIndex : String → Option Function
  addrLocationIndex : UInt64 → Option Location
  perfmapLocationIndex : String → Option Location
  jitdumpLocationIndex : String → Option Location
  kernelLocationIndex : String → Option Location
  vdsoLocationIndex : String → Option Location

/-- `Converter`. The logger and the collaborators are not fields: the collaborators
are the `ParcaAgent.Pprof.Env` every operation takes. -/
structure Converter where
  disableJITSymbolization : Bool
  pid : Int
  mappings : List ProcessMapping
  kernelMapping : Mapping
  metrics : ConverterMetrics
  memo : Memo
  index : Index
  result : Profile

/-- What a converter was built with, which no step of a conversion changes. -/
structure Setup where
  disableJITSymbolization : Bool
  pid : Int
  mappings : List ProcessMapping
  kernelMapping : Mapping
  pprofMappings : List Mapping

/-- The setup of a converter; the profile mappings are those of its result. -/
def Converter.setup (c : Converter) : Setup :=
  ⟨c.disableJITSymbolization, c.pid, c.mappings, c.kernelMapping, c.result.mapping⟩

/-! ### Construction -/

/-- The memos of a new converter: nothing cached, no call made yet. -/
def Memo.empty : Memo := ⟨none, none, fun _ => none, fun _ => none, []⟩

/-- The indexes of a new converter, all empty. -/
def Index.empty : Index :=
  ⟨fun _ => none, fun _ => none, fun _ => none, fun _ => none, fun _ => none, fun _ => none⟩

/-- `NewConverter`: the process mappings converted, the synthetic kernel mapping
appended with the next identifier, and an empty profile. The capture time and the
time elapsed since it are inputs. -/
def newConverter (disableJITSymbolization : Bool) (metrics : ConverterMetrics) (pid : Int)
    (mappings : List ProcessMapping) (timeNanos durationNanos periodNS : Int) : Converter :=
  let pprofMappings := convertToPprof mappings
  let kernelMapping : Mapping :=
    { id := pprofMappings.length + 1, start := 0, limit := 0, file := "[kernel.kallsyms]" }
  { disableJITSymbolization, pid, mappings, kernelMapping, metrics
    memo := Memo.empty
    index := Index.empty
    result :=
      { timeNanos, durationNanos, period := periodNS
        sampleType := [{ type := "samples", unit := "count" }]
        periodType := { type := "cpu", unit := "nanoseconds" }
        mapping := pprofMappings ++ [kernelMapping]
        location := [], function := [], sample := [] } }

/-! ### Calls to the collaborators -/

section Calls

variable (env : Env)

/-- `ksym.Resolve`, recorded. -/
def Memo.ksymResolve (addrs : Finset UInt64) (M : Memo) :
    Except String (UInt64 → Option String) × Memo :=
  (env.ksymResolve M.calls addrs, { M with calls := M.calls ++ [.ksymResolve addrs] })

/-- `addressNormalizer.Normalize`, recorded. -/
def Memo.normalize (m : ProcessMapping) (addr : UInt64) (M : Memo) : Except String UInt64 × Memo :=
  (env.normalize M.calls m addr, { M with calls := M.calls ++ [.normalize m addr] })

/-- `vdsoSymbolizer.Resolve`, recorded. -/
def Memo.vdsoResolve (addr : UInt64) (m : ProcessMapping) (M : Memo) : Except String String × Memo :=
  (env.vdsoResolve M.calls addr m, { M with calls := M.calls ++ [.vdsoResolve addr m] })

/-- `Converter.perfMap`: the perf map of the process, memoized for the conversion.
The memo is tested for emptiness, so a nil map with a nil error is not kept. -/
def Memo.perfMap (pid : Int) (M : Memo) : (Option PerfMap × Option String) × Memo :=
  if M.cachedPerfMap.isSome || M.cachedPerfMapErr.isSome then
    ((M.cachedPerfMap, M.cachedPerfMapErr), M)
  else
    let r := env.perfMapForPID M.calls pid
    (r, { M with cachedPerfMap := r.1, cachedPerfMapErr := r.2,
                 calls := M.calls ++ [.perfMapForPID pid] })

/-- `Converter.jitdump`: the map of one dump file, memoized per path; a path is
known once either memo has it. -/
def Memo.jitdump (pid : Int) (path : String) (M : Memo) : (Option PerfMap × Option String) × Memo :=
  match M.cachedJitdump path, M.cachedJitdumpErr path with
  | none, none =>
    let r := env.jitdumpForPID M.calls pid path
    (r, { M with cachedJitdump := Function.update M.cachedJitdump path (some r.1)
                 cachedJitdumpErr := Function.update M.cachedJitdumpErr path (some r.2)
                 calls := M.calls ++ [.jitdumpForPID pid path] })
  | j, e => ((j.getD none, e.getD none), M)

end Calls

/-! ### Filing a frame -/

/-- `Converter.addFunction`: the function of that name, or a new one with the next
identifier. -/
def Converter.addFunction (name : String) (c : Converter) : Function × Converter :=
  match c.index.functionIndex name with
  | some f => (f, c)
  | none =>
    let f : Function := { id := c.result.function.length + 1, name }
    (f, { c with
      index := { c.index with functionIndex := Function.update c.index.functionIndex name (some f) }
      result := { c.result with function := c.result.function ++ [f] } })

/-- The index a frame is filed in, and its key there. -/
inductive LocKey
  /-- `kernelLocationIndex`, by symbol or `"not found"`. -/
  | kernel (symbol : String)
  /-- `vdsoLocationIndex`, by function name or `"unknown"`. -/
  | vdso (functionName : String)
  /-- `addrLocationIndex`, by (normalized) address. -/
  | addr (address : UInt64)
  /-- `perfmapLocationIndex`, by symbol. -/
  | perfmap (symbol : String)
  /-- `jitdumpLocationIndex`, by symbol. -/
  | jitdump (symbol : String)
  deriving DecidableEq, Repr

/-- The name a location filed under the key is symbolized with; none for an
address-only location. -/
def LocKey.symbol : LocKey → Option String
  | .addr _ => none
  | .kernel s | .vdso s | .perfmap s | .jitdump s => some s

/-- The address a location filed under the key carries. -/
def LocKey.address : LocKey → UInt64
  | .addr a => a
  | _ => 0

/-- The location filed under a key, read from the key's index. -/
def Index.location (I : Index) : LocKey → Option Location
  | .kernel s => I.kernelLocationIndex s
  | .vdso s => I.vdsoLocationIndex s
  | .addr a => I.addrLocationIndex a
  | .perfmap s => I.perfmapLocationIndex s
  | .jitdump s => I.jitdumpLocationIndex s

/-- File a location under a key, in the key's index. -/
def Index.setLocation (I : Index) (l : Location) : LocKey → Index
  | .kernel s => { I with kernelLocationIndex := Function.update I.kernelLocationIndex s (some l) }
  | .vdso s => { I with vdsoLocationIndex := Function.update I.vdsoLocationIndex s (some l) }
  | .addr a => { I with addrLocationIndex := Function.update I.addrLocationIndex a (some l) }
  | .perfmap s =>
    { I with perfmapLocationIndex := Function.update I.perfmapLocationIndex s (some l) }
  | .jitdump s =>
    { I with jitdumpLocationIndex := Function.update I.jitdumpLocationIndex s (some l) }

@[simp] theorem Index.location_empty (k : LocKey) : Index.empty.location k = none := by
  cases k <;> rfl

@[simp] theorem Index.location_setLocation (I : Index) (l : Location) (k k' : LocKey) :
    (I.setLocation l k).location k' = if k' = k then some l else I.location k' := by
  cases k <;> cases k' <;> simp [setLocation, location, Function.update_apply]

@[simp] theorem Index.functionIndex_setLocation (I : Index) (l : Location) (k : LocKey) :
    (I.setLocation l k).functionIndex = I.functionIndex := by
  cases k <;> rfl

/-- The line of a new location filed under a key: one line whose function is
`Converter.addFunction` of the key's name, none for an address-only key. -/
def Converter.newLines (k : LocKey) (c : Converter) : List Line × Converter :=
  match k.symbol with
  | none => ([], c)
  | some name => ([{ function := (c.addFunction name).1 }], (c.addFunction name).2)

/-- **The body the five `add*Location` functions share**: the location filed under
the key, or a new one with the next identifier, filed under the key and appended
to the table. -/
def Converter.addLocation (k : LocKey) (m : Mapping) (c : Converter) : Location × Converter :=
  match c.index.location k with
  | some l => (l, c)
  | none =>
    let id := c.result.location.length + 1
    let fc := c.newLines k
    let l : Location := { id, mapping := m, address := k.address, line := fc.1 }
    (l, { fc.2 with
      index := fc.2.index.setLocation l k
      result := { fc.2.result with location := fc.2.result.location ++ [l] } })

section Routes

variable (env : Env)

/-- `Converter.addKernelLocation`: filed by the resolved symbol, `"not found"` when
the resolution has none. -/
def Converter.addKernelLocation (m : Mapping) (kernelSymbols : UInt64 → Option String)
    (addr : UInt64) (c : Converter) : Location × Converter :=
  let kernelSymbol := (kernelSymbols addr).getD "not found"
  c.addLocation (.kernel kernelSymbol) m

/-- `Converter.addVDSOLocation`: filed by the symbolizer's name, `"unknown"` when it
fails. -/
def Converter.addVDSOLocation (processMapping : ProcessMapping) (m : Mapping) (addr : UInt64)
    (c : Converter) : Location × Converter :=
  let (r, memo) := c.memo.vdsoResolve env addr processMapping
  let functionName := match r with
    | .ok name => name
    | .error _ => "unknown"
  { c with memo }.addLocation (.vdso functionName) m

/-- `Converter.addAddrLocationNoNormalization`: an address-only location. -/
def Converter.addAddrLocationNoNormalization (m : Mapping) (addr : UInt64) (c : Converter) :
    Location × Converter :=
  c.addLocation (.addr addr) m

/-- `Converter.addAddrLocation`: filed by the normalized address, or by the address
itself when normalization fails. -/
def Converter.addAddrLocation (processMapping : ProcessMapping) (m : Mapping) (addr : UInt64)
    (c : Converter) : Location × Converter :=
  let (r, memo) := c.memo.normalize env processMapping addr
  let normalizedAddress := match r with
    | .ok a => a
    | .error _ => addr
  { c with memo }.addAddrLocationNoNormalization m normalizedAddress

/-- The body `addPerfMapLocation` and `addJITDumpLocation` share: they differ only in
the symbol table they fetch and the index they file under. Disabled JIT
symbolization, a missing table and a failed lookup all fall back to an
address-only location at the raw address. -/
def Converter.addJITLocation (fetch : Memo → (Option PerfMap × Option String) × Memo)
    (key : String → LocKey) (m : Mapping) (addr : UInt64) (c : Converter) :
    Location × Converter :=
  if c.disableJITSymbolization then c.addAddrLocationNoNormalization m addr
  else
    let (r, memo) := fetch c.memo
    let c := { c with memo }
    match r.1 with
    | none => c.addAddrLocationNoNormalization m addr
    | some symbols =>
      match symbols.lookup addr with
      | .error _ => c.addAddrLocationNoNormalization m addr
      | .ok symbol => c.addLocation (key symbol) m

/-- `Converter.addPerfMapLocation`. -/
def Converter.addPerfMapLocation (m : Mapping) (addr : UInt64) (c : Converter) :
    Location × Converter :=
  c.addJITLocation (Memo.perfMap env c.pid) .perfmap m addr

/-- `Converter.addJITDumpLocation`. -/
def Converter.addJITDumpLocation (m : Mapping) (addr : UInt64) (path : String) (c : Converter) :
    Location × Converter :=
  c.addJITLocation (Memo.jitdump env c.pid path) .jitdump m addr

end Routes

/-! ### Converting -/

/-- `mappingForAddr`: the index of the first mapping whose `[Start, Limit)` holds
the address, or `-1`. -/
def mappingForAddr (mappings : List Mapping) (addr : UInt64) : Int :=
  go mappings 0
where
  /-- The loop, at index `i`. -/
  go : List Mapping → Nat → Int
    | [], _ => -1
    | m :: ms, i => if m.start ≤ addr ∧ addr < m.limit then i else go ms (i + 1)

section Convert

variable (env : Env)

/-- One user frame of `Convert`: dropped, and counted, when no mapping holds it;
otherwise routed on the mapping's file. `none` is the panic of an index out of
range of `c.mappings`. -/
def Converter.addUserFrame (addr : UInt64) (c : Converter) : Option (Option Location × Converter) :=
  let mappingIndex := mappingForAddr c.result.mapping addr
  if mappingIndex = -1 then
    some (none, { c with metrics := ⟨c.metrics.frameDropMappingNil + 1⟩ })
  else
    match c.mappings[mappingIndex.toNat]?, c.result.mapping[mappingIndex.toNat]? with
    | some processMapping, some pprofMapping =>
      let r :=
        if pprofMapping.file = "[vdso]" then
          c.addVDSOLocation env processMapping pprofMapping addr
        else if pprofMapping.file = "jit" then
          c.addPerfMapLocation env pprofMapping addr
        else if hasSuffix pprofMapping.file ".dump" then
          c.addJITDumpLocation env pprofMapping addr pprofMapping.file
        else
          c.addAddrLocation env processMapping pprofMapping addr
      some (some r.1, r.2)
    | _, _ => none

/-- The kernel frames of a sample, in order. -/
def Converter.addKernelFrames (kernelSymbols : UInt64 → Option String) :
    List UInt64 → Converter → List Location × Converter
  | [], c => ([], c)
  | addr :: addrs, c =>
    let r := c.addKernelLocation c.kernelMapping kernelSymbols addr
    let rs := r.2.addKernelFrames kernelSymbols addrs
    (r.1 :: rs.1, rs.2)

/-- The user frames of a sample, in order, without the dropped ones. -/
def Converter.addUserFrames : List UInt64 → Converter → Option (List Location × Converter)
  | [], c => some ([], c)
  | addr :: addrs, c => do
    let (l, c) ← c.addUserFrame env addr
    let (ls, c) ← c.addUserFrames addrs
    pure (l.toList ++ ls, c)

/-- One sample of `Convert`: its kernel frames, then its user frames, appended to
the result as a sample of one value. -/
def Converter.convertSample (kernelSymbols : UInt64 → Option String) (sample : RawSample)
    (c : Converter) : Option Converter := do
  let (kernelLocs, c) := c.addKernelFrames kernelSymbols sample.kernelStack
  let (userLocs, c) ← c.addUserFrames env sample.userStack
  pure { c with result := { c.result with sample := c.result.sample ++
    [{ value := [toInt64 sample.value], location := kernelLocs ++ userLocs }] } }

/-- The samples of `Convert`, in order. -/
def Converter.convertSamples (kernelSymbols : UInt64 → Option String) :
    List RawSample → Converter → Option Converter
  | [], c => some c
  | sample :: rawData, c =>
    (c.convertSample env kernelSymbols sample).bind fun c => c.convertSamples kernelSymbols rawData

/-- The set of kernel addresses of a batch of samples, gathered as `Convert` does. -/
def kernelAddresses (rawData : List RawSample) : Finset UInt64 :=
  rawData.foldl (fun s sample => sample.kernelStack.foldl (fun s addr => insert addr s) s) ∅

/-- `Converter.Convert`: resolve every kernel address in one call (an empty
resolution on error), then convert the samples in order. -/
def Converter.convert (rawData : List RawSample) (c : Converter) : Option (Profile × Converter) :=
  let (r, memo) := c.memo.ksymResolve env (kernelAddresses rawData)
  let kernelSymbols : UInt64 → Option String := match r with
    | .ok symbols => symbols
    | .error _ => fun _ => none
  ({ c with memo }.convertSamples env kernelSymbols rawData).map fun c : Converter => (c.result, c)

end Convert

end Pprof

end ParcaAgent

import ParcaAgent.Pprof.Converter

/-!
# Symbolizing, then filing

Every frame the converter keeps goes through two halves. The first decides where
the frame is filed: the symbolization calls and the memos, ending in a
`ParcaAgent.Pprof.LocKey` and the mapping the location will get. The second is
`ParcaAgent.Pprof.Converter.addLocation` on that key. The first half reads only
the setup and the `ParcaAgent.Pprof.Memo`; the second reads and writes only the
indexes and the location and function tables. So the halves of different frames
commute, and a whole conversion is: route every frame, then file the routes in
order (`ParcaAgent.Pprof.Converter.convert_eq`).

| half | definition | what it touches |
|---|---|---|
| routing a user frame | `ParcaAgent.Pprof.userRoute` | the memo, the calls |
| routing a sample | `ParcaAgent.Pprof.routeSample` | the memo, the calls, the drop count |
| filing frames | `ParcaAgent.Pprof.Converter.internFrames` | the indexes and tables |
-/

namespace ParcaAgent

namespace Pprof

/-! ### The filing half touches only the indexes and tables -/

section Filing

variable (c : Converter) (M : Memo) (X : ConverterMetrics)

theorem Converter.addFunction_frame (name : String) :
    ∃ I F, (c.addFunction name).2 = { c with index := I, result := { c.result with function := F } } := by
  unfold addFunction
  split
  · exact ⟨c.index, c.result.function, rfl⟩
  · exact ⟨_, _, rfl⟩

theorem Converter.addLocation_frame (k : LocKey) (m : Mapping) :
    ∃ I L F, (c.addLocation k m).2 =
      { c with index := I, result := { c.result with location := L, function := F } } := by
  unfold addLocation newLines
  split
  · exact ⟨c.index, c.result.location, c.result.function, rfl⟩
  · cases k.symbol with
    | none => exact ⟨_, _, _, rfl⟩
    | some name =>
      obtain ⟨I, F, h⟩ := c.addFunction_frame name
      simp only [h]
      exact ⟨_, _, _, rfl⟩

@[simp] theorem Converter.addLocation_setup (k : LocKey) (m : Mapping) :
    (c.addLocation k m).2.setup = c.setup := by
  obtain ⟨I, L, F, h⟩ := c.addLocation_frame k m
  rw [h]
  rfl

@[simp] theorem Converter.addLocation_memo (k : LocKey) (m : Mapping) :
    (c.addLocation k m).2.memo = c.memo := by
  obtain ⟨I, L, F, h⟩ := c.addLocation_frame k m
  rw [h]

@[simp] theorem Converter.addLocation_metrics (k : LocKey) (m : Mapping) :
    (c.addLocation k m).2.metrics = c.metrics := by
  obtain ⟨I, L, F, h⟩ := c.addLocation_frame k m
  rw [h]

@[simp] theorem Converter.addLocation_kernelMapping (k : LocKey) (m : Mapping) :
    (c.addLocation k m).2.kernelMapping = c.kernelMapping := by
  obtain ⟨I, L, F, h⟩ := c.addLocation_frame k m
  rw [h]

@[simp] theorem Converter.addLocation_sample (k : LocKey) (m : Mapping) :
    (c.addLocation k m).2.result.sample = c.result.sample := by
  obtain ⟨I, L, F, h⟩ := c.addLocation_frame k m
  rw [h]

@[simp] theorem Converter.setup_withMemo : { c with memo := M, metrics := X }.setup = c.setup := rfl

theorem Converter.addFunction_withMemo (name : String) :
    { c with memo := M, metrics := X }.addFunction name =
      ((c.addFunction name).1, { (c.addFunction name).2 with memo := M, metrics := X }) := by
  cases h : c.index.functionIndex name <;> simp [addFunction, h]

/-- **Filing does not look at the memo**: it commutes with replacing the memo and
the metrics. -/
theorem Converter.addLocation_withMemo (k : LocKey) (m : Mapping) :
    { c with memo := M, metrics := X }.addLocation k m =
      ((c.addLocation k m).1, { (c.addLocation k m).2 with memo := M, metrics := X }) := by
  cases h : c.index.location k <;> cases hs : k.symbol <;>
    simp [addLocation, newLines, h, hs, addFunction_withMemo]

end Filing

/-- File a list of routed frames in order, returning the location of each. -/
def Converter.internFrames : List (LocKey × Mapping) → Converter → List Location × Converter
  | [], c => ([], c)
  | f :: fs, c =>
    let r := c.addLocation f.1 f.2
    let rs := r.2.internFrames fs
    (r.1 :: rs.1, rs.2)

section InternFrames

variable (M : Memo) (X : ConverterMetrics)

@[simp] theorem Converter.internFrames_nil (c : Converter) : c.internFrames [] = ([], c) := rfl

theorem Converter.internFrames_cons (c : Converter) (f : LocKey × Mapping) (fs : List (LocKey × Mapping)) :
    c.internFrames (f :: fs) =
      ((c.addLocation f.1 f.2).1 :: ((c.addLocation f.1 f.2).2.internFrames fs).1,
        ((c.addLocation f.1 f.2).2.internFrames fs).2) := rfl

theorem Converter.internFrames_append (fs gs : List (LocKey × Mapping)) (c : Converter) :
    c.internFrames (fs ++ gs) =
      ((c.internFrames fs).1 ++ ((c.internFrames fs).2.internFrames gs).1,
        ((c.internFrames fs).2.internFrames gs).2) := by
  induction fs generalizing c with
  | nil => rfl
  | cons f fs ih => simp [internFrames_cons, ih]

theorem Converter.internFrames_withMemo (fs : List (LocKey × Mapping)) (c : Converter) :
    { c with memo := M, metrics := X }.internFrames fs =
      ((c.internFrames fs).1, { (c.internFrames fs).2 with memo := M, metrics := X }) := by
  induction fs generalizing c with
  | nil => rfl
  | cons f fs ih => simp only [internFrames_cons, addLocation_withMemo, ih]

@[simp] theorem Converter.internFrames_setup (fs : List (LocKey × Mapping)) (c : Converter) :
    (c.internFrames fs).2.setup = c.setup := by
  induction fs generalizing c with
  | nil => rfl
  | cons f fs ih => simp [internFrames_cons, ih]

@[simp] theorem Converter.internFrames_memo (fs : List (LocKey × Mapping)) (c : Converter) :
    (c.internFrames fs).2.memo = c.memo := by
  induction fs generalizing c with
  | nil => rfl
  | cons f fs ih => simp [internFrames_cons, ih]

@[simp] theorem Converter.internFrames_metrics (fs : List (LocKey × Mapping)) (c : Converter) :
    (c.internFrames fs).2.metrics = c.metrics := by
  induction fs generalizing c with
  | nil => rfl
  | cons f fs ih => simp [internFrames_cons, ih]

@[simp] theorem Converter.internFrames_sample (fs : List (LocKey × Mapping)) (c : Converter) :
    (c.internFrames fs).2.result.sample = c.result.sample := by
  induction fs generalizing c with
  | nil => rfl
  | cons f fs ih => simp [internFrames_cons, ih]

theorem Converter.internFrames_frame (fs : List (LocKey × Mapping)) (c : Converter) :
    ∃ I L F, (c.internFrames fs).2 =
      { c with index := I, result := { c.result with location := L, function := F } } := by
  induction fs generalizing c with
  | nil => exact ⟨c.index, c.result.location, c.result.function, rfl⟩
  | cons f fs ih =>
    obtain ⟨I, L, F, h⟩ := c.addLocation_frame f.1 f.2
    obtain ⟨I', L', F', h'⟩ := ih (c.addLocation f.1 f.2).2
    rw [internFrames_cons, h', h]
    exact ⟨I', L', F', rfl⟩

@[simp] theorem Converter.length_internFrames (fs : List (LocKey × Mapping)) (c : Converter) :
    (c.internFrames fs).1.length = fs.length := by
  induction fs generalizing c with
  | nil => rfl
  | cons f fs ih => simp [internFrames_cons, ih]

end InternFrames

/-! ### The routing half -/

section Routing

variable (env : Env)

/-- Where `ParcaAgent.Pprof.Converter.addJITLocation` files a frame, and the memo
after fetching the symbol table. -/
def jitKey (disable : Bool) (fetch : Memo → (Option PerfMap × Option String) × Memo)
    (key : String → LocKey) (addr : UInt64) (M : Memo) : LocKey × Memo :=
  if disable then (.addr addr, M)
  else
    match (fetch M).1.1 with
    | none => (.addr addr, (fetch M).2)
    | some symbols =>
      match symbols.lookup addr with
      | .error _ => (.addr addr, (fetch M).2)
      | .ok symbol => (key symbol, (fetch M).2)

/-- Where a frame of a user mapping is filed, by the mapping's file. -/
def userKey (S : Setup) (processMapping : ProcessMapping) (pprofMapping : Mapping)
    (addr : UInt64) (M : Memo) : LocKey × Memo :=
  if pprofMapping.file = "[vdso]" then
    let r := M.vdsoResolve env addr processMapping
    (.vdso (match r.1 with
      | .ok name => name
      | .error _ => "unknown"), r.2)
  else if pprofMapping.file = "jit" then
    jitKey S.disableJITSymbolization (Memo.perfMap env S.pid) .perfmap addr M
  else if hasSuffix pprofMapping.file ".dump" then
    jitKey S.disableJITSymbolization (Memo.jitdump env S.pid pprofMapping.file) .jitdump addr M
  else
    let r := M.normalize env processMapping addr
    (.addr (match r.1 with
      | .ok a => a
      | .error _ => addr), r.2)

/-- **Where a user frame goes**: nowhere (`some none`) when no mapping holds it,
otherwise under a key, with the mapping its location gets. The outer `none` is the
index out of range of the process mappings. -/
def userRoute (S : Setup) (addr : UInt64) (M : Memo) :
    Option (Option (LocKey × Mapping) × Memo) :=
  let mappingIndex := mappingForAddr S.pprofMappings addr
  if mappingIndex = -1 then some (none, M)
  else
    match S.mappings[mappingIndex.toNat]?, S.pprofMappings[mappingIndex.toNat]? with
    | some processMapping, some pprofMapping =>
      let r := userKey env S processMapping pprofMapping addr M
      some (some (r.1, pprofMapping), r.2)
    | _, _ => none

/-- The route of a kernel frame: by its resolved symbol, in the kernel mapping. -/
def kernelRoute (S : Setup) (kernelSymbols : UInt64 → Option String) (addr : UInt64) :
    LocKey × Mapping :=
  (.kernel ((kernelSymbols addr).getD "not found"), S.kernelMapping)

/-- The routes of a user stack: the frames kept, the memo after, and how many
frames were dropped. -/
def routeUserStack (S : Setup) : List UInt64 → Memo → Option (List (LocKey × Mapping) × Memo × Nat)
  | [], M => some ([], M, 0)
  | addr :: addrs, M => do
    let r ← userRoute env S addr M
    let rs ← routeUserStack S addrs r.2
    pure (r.1.toList ++ rs.1, rs.2.1, (if r.1.isSome then 0 else 1) + rs.2.2)

/-- The routes of a sample: its kernel frames, then the user frames it keeps. -/
def routeSample (S : Setup) (kernelSymbols : UInt64 → Option String) (sample : RawSample)
    (M : Memo) : Option (List (LocKey × Mapping) × Memo × Nat) :=
  (routeUserStack env S sample.userStack M).map fun r =>
    (sample.kernelStack.map (kernelRoute S kernelSymbols) ++ r.1, r.2)

end Routing

/-! ### Each frame is routed, then filed -/

section Frames

variable (env : Env) (c : Converter)

theorem Converter.addJITLocation_eq (fetch : Memo → (Option PerfMap × Option String) × Memo)
    (key : String → LocKey) (m : Mapping) (addr : UInt64) :
    c.addJITLocation fetch key m addr =
      let r := jitKey c.disableJITSymbolization fetch key addr c.memo
      { c with memo := r.2 }.addLocation r.1 m := by
  unfold addJITLocation jitKey addAddrLocationNoNormalization
  split
  · rfl
  · rcases hf : fetch c.memo with ⟨⟨_ | symbols, err⟩, M⟩
    · rfl
    · rcases hl : symbols.lookup addr with e | symbol <;> simp [hl]

/-- **One user frame is its route, then filing the route**. -/
theorem Converter.addUserFrame_eq (addr : UInt64) :
    c.addUserFrame env addr = (userRoute env c.setup addr c.memo).map fun r =>
      match r.1 with
      | none => (none, { c with memo := r.2, metrics := ⟨c.metrics.frameDropMappingNil + 1⟩ })
      | some f => ((({ c with memo := r.2 }).addLocation f.1 f.2).1 |> some,
          ({ c with memo := r.2 }).addLocation f.1 f.2 |>.2) := by
  unfold addUserFrame userRoute
  simp only [setup]
  generalize mappingForAddr c.result.mapping addr = i
  split
  · rfl
  · cases c.mappings[i.toNat]? <;> cases c.result.mapping[i.toNat]?
    · rfl
    · rfl
    · rfl
    · simp only [Option.map_some', userKey]
      split_ifs
      · rfl
      · simp only [addPerfMapLocation, addJITLocation_eq]
      · simp only [addJITDumpLocation, addJITLocation_eq]
      · rfl

theorem Converter.addKernelFrames_eq (kernelSymbols : UInt64 → Option String)
    (addrs : List UInt64) :
    c.addKernelFrames kernelSymbols addrs =
      c.internFrames (addrs.map (kernelRoute c.setup kernelSymbols)) := by
  induction addrs generalizing c with
  | nil => rfl
  | cons addr addrs ih =>
    simp only [addKernelFrames, addKernelLocation, List.map_cons, internFrames_cons, kernelRoute]
    rw [ih, addLocation_setup]
    rfl

/-- **A user stack is its routes, then filing the routes.** -/
theorem Converter.addUserFrames_eq (addrs : List UInt64) :
    c.addUserFrames env addrs = (routeUserStack env c.setup addrs c.memo).map fun r =>
      ((c.internFrames r.1).1, { (c.internFrames r.1).2 with
        memo := r.2.1, metrics := ⟨c.metrics.frameDropMappingNil + r.2.2⟩ }) := by
  induction addrs generalizing c with
  | nil => rfl
  | cons addr addrs ih =>
    simp only [addUserFrames, routeUserStack, addUserFrame_eq]
    rcases userRoute env c.setup addr c.memo with _ | ⟨_ | f, M⟩
    · rfl
    · simp only [Option.map_some', Option.bind_eq_bind, Option.some_bind, ih, setup_withMemo]
      cases routeUserStack env c.setup addrs M <;> simp [internFrames_withMemo, Nat.add_assoc]
    · have h := c.addLocation_withMemo M c.metrics f.1 f.2
      simp only [Option.map_some', Option.bind_eq_bind, Option.some_bind, h, ih, setup_withMemo,
        addLocation_setup]
      cases routeUserStack env c.setup addrs M
      · rfl
      · simp only [Option.map_some', internFrames_withMemo]
        simp [internFrames_cons]

/-- Append a converted sample to the result. -/
def Converter.pushSample (c : Converter) (sample : RawSample) (ls : List Location) : Converter :=
  { c with result := { c.result with sample :=
    c.result.sample ++ [{ value := [toInt64 sample.value], location := ls }] } }

/-- **A sample is its routes, then filing the routes.** -/
theorem Converter.convertSample_eq (kernelSymbols : UInt64 → Option String) (sample : RawSample) :
    c.convertSample env kernelSymbols sample =
      (routeSample env c.setup kernelSymbols sample c.memo).map fun r =>
        { (c.internFrames r.1).2.pushSample sample (c.internFrames r.1).1 with
          memo := r.2.1, metrics := ⟨c.metrics.frameDropMappingNil + r.2.2⟩ } := by
  simp only [convertSample, addKernelFrames_eq, routeSample, Option.map_map]
  rw [addUserFrames_eq, internFrames_setup, internFrames_memo, internFrames_metrics]
  cases routeUserStack env c.setup sample.userStack c.memo
  · rfl
  · simp [internFrames_append, pushSample]

end Frames

/-! ### A whole conversion is its routes, then filing them -/

section Samples

variable (env : Env)

/-- The routes of the samples, in order, with the memo after and the number of
frames dropped. -/
def routeSamples (S : Setup) (kernelSymbols : UInt64 → Option String) :
    List RawSample → Memo → Option (List (List (LocKey × Mapping)) × Memo × Nat)
  | [], M => some ([], M, 0)
  | sample :: rawData, M => do
    let r ← routeSample env S kernelSymbols sample M
    let rs ← routeSamples S kernelSymbols rawData r.2.1
    pure (r.1 :: rs.1, rs.2.1, r.2.2 + rs.2.2)

/-- File the routes of each sample in turn, appending the sample. -/
def Converter.internSamples :
    List RawSample → List (List (LocKey × Mapping)) → Converter → Converter
  | sample :: rawData, fs :: fss, c =>
    ((c.internFrames fs).2.pushSample sample (c.internFrames fs).1).internSamples rawData fss
  | _, _, c => c

variable (M : Memo) (X : ConverterMetrics)

@[simp] theorem Converter.pushSample_setup (c : Converter) (sample : RawSample)
    (ls : List Location) : (c.pushSample sample ls).setup = c.setup := rfl

theorem Converter.pushSample_withMemo (c : Converter) (sample : RawSample) (ls : List Location) :
    { c with memo := M, metrics := X }.pushSample sample ls =
      { c.pushSample sample ls with memo := M, metrics := X } := rfl

theorem Converter.internSamples_withMemo (rawData : List RawSample)
    (fss : List (List (LocKey × Mapping))) (c : Converter) :
    { c with memo := M, metrics := X }.internSamples rawData fss =
      { c.internSamples rawData fss with memo := M, metrics := X } := by
  induction rawData generalizing fss c with
  | nil => rfl
  | cons sample rawData ih =>
    cases fss with
    | nil => rfl
    | cons fs fss => simp only [internSamples, internFrames_withMemo, pushSample_withMemo, ih]

@[simp] theorem Converter.internSamples_setup (rawData : List RawSample)
    (fss : List (List (LocKey × Mapping))) (c : Converter) :
    (c.internSamples rawData fss).setup = c.setup := by
  induction rawData generalizing fss c with
  | nil => rfl
  | cons sample rawData ih =>
    cases fss with
    | nil => rfl
    | cons fs fss => simp [internSamples, ih]

/-- Filing samples changes only the indexes and the location, function and sample
tables. -/
theorem Converter.internSamples_frame (rawData : List RawSample)
    (fss : List (List (LocKey × Mapping))) (c : Converter) :
    ∃ I L F S, c.internSamples rawData fss =
      { c with index := I, result := { c.result with location := L, function := F, sample := S } } := by
  induction rawData generalizing fss c with
  | nil => exact ⟨c.index, c.result.location, c.result.function, c.result.sample, rfl⟩
  | cons sample rawData ih =>
    cases fss with
    | nil => exact ⟨c.index, c.result.location, c.result.function, c.result.sample, rfl⟩
    | cons fs fss =>
      obtain ⟨I, L, F, h⟩ := c.internFrames_frame fs
      obtain ⟨I', L', F', S', h'⟩ := ih fss ((c.internFrames fs).2.pushSample sample (c.internFrames fs).1)
      rw [internSamples, h', pushSample, h]
      exact ⟨I', L', F', S', rfl⟩

theorem Converter.convertSamples_eq (c : Converter) (kernelSymbols : UInt64 → Option String)
    (rawData : List RawSample) :
    c.convertSamples env kernelSymbols rawData =
      (routeSamples env c.setup kernelSymbols rawData c.memo).map fun r =>
        { c.internSamples rawData r.1 with
          memo := r.2.1, metrics := ⟨c.metrics.frameDropMappingNil + r.2.2⟩ } := by
  induction rawData generalizing c with
  | nil => rfl
  | cons sample rawData ih =>
    simp only [convertSamples, routeSamples, convertSample_eq]
    cases routeSample env c.setup kernelSymbols sample c.memo with
    | none => rfl
    | some r =>
      simp only [Option.map_some', Option.some_bind, Option.bind_eq_bind, ih, setup_withMemo,
        pushSample_setup, internFrames_setup]
      cases routeSamples env c.setup kernelSymbols rawData r.2.1
      · rfl
      · simp [internSamples, internSamples_withMemo, Nat.add_assoc]

/-- What `Convert` looks kernel addresses up in: the resolution, or the empty map
when it failed. -/
def resolvedSymbols : Except String (UInt64 → Option String) → UInt64 → Option String
  | .ok symbols => symbols
  | .error _ => fun _ => none

/-- The frames a conversion keeps, sample by sample, each with its key and mapping:
the routing half of `Convert` alone. `none` is a panic. -/
def Converter.frames (rawData : List RawSample) (c : Converter) :
    Option (List (List (LocKey × Mapping))) :=
  let r := c.memo.ksymResolve env (kernelAddresses rawData)
  (routeSamples env c.setup (resolvedSymbols r.1) rawData r.2).map (·.1)

/-- **A conversion is: resolve every kernel address once, route every frame, then
file the routes.** -/
theorem Converter.convert_eq (c : Converter) (rawData : List RawSample) :
    c.convert env rawData =
      let r := c.memo.ksymResolve env (kernelAddresses rawData)
      (routeSamples env c.setup (resolvedSymbols r.1) rawData r.2).map fun rs =>
        let c' := { c.internSamples rawData rs.1 with
          memo := rs.2.1, metrics := ⟨c.metrics.frameDropMappingNil + rs.2.2⟩ }
        (c'.result, c') := by
  have h := internSamples_withMemo (c.memo.ksymResolve env (kernelAddresses rawData)).2 c.metrics
  simp only [convert, convertSamples_eq, setup_withMemo, Option.map_map] at h ⊢
  simp only [Function.comp_def, h]
  rfl

end Samples

end Pprof

end ParcaAgent

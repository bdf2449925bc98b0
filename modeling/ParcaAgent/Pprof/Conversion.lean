import ParcaAgent.Pprof.Frames

/-!
# A conversion on a fresh converter

`Convert` on a converter `NewConverter` has just built, for every list of raw
samples and every behaviour of the collaborators. It never panics, and
`ParcaAgent.Pprof.freshRun` says what it produces by putting the two halves of
`ParcaAgent.Pprof.Converter.convert_eq` together: the frames are routed as
`ParcaAgent.Pprof.routeSamples_spec` says, then filed as `ParcaAgent.Pprof.Tracks`
says. The theorems of the last section read the profile off it.

| what | read off |
|---|---|
| identifiers, membership, distinct objects, one value per sample | `Tracks`, the routes |
| the location of each frame | `Tracks` at the frame's key |
| the samples in order, the drops, one kernel-symbol resolution | the routes, the call log |
| one location per key met, one function per name | `Tracks.length_location`, `Tracks.length_function` |

A location's mapping is the mapping of the *first* frame filed under its key,
which need not be the mapping of every frame that shares it: two frames of
different mappings share a location when their keys coincide.
-/

namespace ParcaAgent

namespace Pprof

/-! ### The kernel addresses -/

theorem mem_foldl_insert (a : UInt64) : ∀ (addrs : List UInt64) (s : Finset UInt64),
    a ∈ addrs.foldl (fun s addr => insert addr s) s ↔ a ∈ s ∨ a ∈ addrs
  | [], s => by simp
  | addr :: addrs, s => by
    rw [List.foldl_cons, mem_foldl_insert a addrs]
    simp only [Finset.mem_insert, List.mem_cons]
    tauto

/-- The set `Convert` resolves holds exactly the addresses of the kernel stacks. -/
theorem mem_kernelAddresses (rawData : List RawSample) (a : UInt64) :
    a ∈ kernelAddresses rawData ↔ ∃ s ∈ rawData, a ∈ s.kernelStack := by
  suffices ∀ t : Finset UInt64, a ∈ rawData.foldl
      (fun s sample => sample.kernelStack.foldl (fun s addr => insert addr s) s) t ↔
      a ∈ t ∨ ∃ s ∈ rawData, a ∈ s.kernelStack by
    simpa [kernelAddresses] using this ∅
  induction rawData with
  | nil => simp
  | cons sample rawData ih =>
    intro t
    rw [List.foldl_cons, ih, mem_foldl_insert]
    simp only [List.mem_cons, exists_eq_or_imp]
    tauto

/-! ### Lists related position by position -/

section Forall₂

variable {α β : Type} {R : α → β → Prop}

theorem exists_of_forall₂_of_mem_left : ∀ {xs : List α} {ys : List β}, List.Forall₂ R xs ys →
    ∀ {x}, x ∈ xs → ∃ y ∈ ys, R x y
  | _, _, .nil, _, h => absurd h (List.not_mem_nil _)
  | _, _, .cons hxy hrest, _, h => by
    rcases List.mem_cons.mp h with rfl | h
    · exact ⟨_, List.mem_cons_self _ _, hxy⟩
    · obtain ⟨y, hy, hr⟩ := exists_of_forall₂_of_mem_left hrest h
      exact ⟨y, List.mem_cons_of_mem _ hy, hr⟩

theorem exists_of_forall₂_of_mem_right {xs : List α} {ys : List β} (h : List.Forall₂ R xs ys)
    {y : β} (hy : y ∈ ys) : ∃ x ∈ xs, R x y :=
  exists_of_forall₂_of_mem_left (R := flip R) (List.Forall₂.flip (by simpa [flip] using h)) hy

/-- A list related to an append splits into the two parts' relatives. -/
theorem exists_append_of_forall₂_append {xs : List α} {ys zs : List β}
    (h : List.Forall₂ R xs (ys ++ zs)) :
    ∃ xs₁ xs₂, xs = xs₁ ++ xs₂ ∧ List.Forall₂ R xs₁ ys ∧ List.Forall₂ R xs₂ zs :=
  ⟨_, _, (List.take_append_drop ys.length xs).symm, List.forall₂_take_append xs ys zs h,
    List.forall₂_drop_append xs ys zs h⟩

/-- Two relations position by position compose. -/
theorem forall₂_comp {γ : Type} {Q : β → γ → Prop} : ∀ {xs : List α} {ys : List β} {zs : List γ},
    List.Forall₂ R xs ys → List.Forall₂ Q ys zs → List.Forall₂ (fun x z => ∃ y, R x y ∧ Q y z) xs zs
  | _, _, _, .nil, .nil => .nil
  | _, _, _, .cons hr hrs, .cons hq hqs => .cons ⟨_, hr, hq⟩ (forall₂_comp hrs hqs)

end Forall₂

/-! ### The mappings of the frames -/

theorem denseIds_convertToPprof (ms : List ProcessMapping) :
    DenseIds Mapping.id (convertToPprof ms) := fun i h => by
  simp [convertToPprof]

theorem exists_of_firstMapping_eq_some {fs : List (LocKey × Mapping)} {k : LocKey} {m : Mapping}
    (h : firstMapping fs k = some m) : ∃ f ∈ fs, f.1 = k ∧ f.2 = m := by
  obtain ⟨f, hf, rfl⟩ := Option.map_eq_some'.mp h
  exact ⟨f, List.mem_of_find?_eq_some hf, by simpa using List.find?_some hf, rfl⟩

section Routes

variable {env : Env} {S : Setup} {L : List Call} {kernelSymbols : UInt64 → Option String}

/-- A routed frame is a kernel frame or a user frame. -/
theorem SampleRoutesOk.mem {fs : List (LocKey × Mapping)} {sample : RawSample}
    (h : SampleRoutesOk env S L kernelSymbols fs sample) {f : LocKey × Mapping} (hf : f ∈ fs) :
    (∃ a ∈ sample.kernelStack, f = kernelRoute S kernelSymbols a) ∨
      ∃ a ∈ sample.userStack, UserRouteOk env S L f a := by
  obtain ⟨us, rfl, hus⟩ := h
  rcases List.mem_append.mp hf with hk | hu
  · obtain ⟨a, ha, rfl⟩ := List.mem_map.mp hk
    exact .inl ⟨a, ha, rfl⟩
  · obtain ⟨a, ha, hr⟩ := exists_of_forall₂_of_mem_left hus hu
    exact .inr ⟨a, (List.mem_filter.mp ha).1, hr⟩

/-- On a fresh setup, every routed frame's mapping is a profile mapping, and the
frames in the kernel index are exactly the kernel frames, all in the kernel
mapping. -/
theorem SampleRoutesOk.mapping (hS : S.Fresh) {fs : List (LocKey × Mapping)} {sample : RawSample}
    (h : SampleRoutesOk env S L kernelSymbols fs sample) {f : LocKey × Mapping} (hf : f ∈ fs) :
    f.2 ∈ S.pprofMappings ∧ ∀ s, f.1 = .kernel s → f.2 = S.kernelMapping := by
  rcases h.mem hf with ⟨a, -, rfl⟩ | ⟨a, -, hfirst, pm, -, hkey⟩
  · exact ⟨by simp [kernelRoute, hS.pprofMappings_eq], fun _ _ => rfl⟩
  · exact ⟨List.mem_of_find?_eq_some hfirst, fun s hs => absurd hs (hkey.ne_kernel s)⟩

end Routes

/-! ### The run -/

/-- What `Convert` on the converter `c` produces from `rawData`: the frames it
routes, `fss`, sample by sample, and the converter after, `c'`. -/
structure FreshRun (env : Env) (c : Converter) (rawData : List RawSample)
    (fss : List (List (LocKey × Mapping))) (c' : Converter) : Prop where
  frames_eq : c.frames env rawData = some fss
  convert_eq : c.convert env rawData = some (c'.result, c')
  routes : List.Forall₂ (SampleRoutesOk env c.setup c'.memo.calls
    (resolvedSymbols (env.ksymResolve [] (kernelAddresses rawData)))) fss rawData
  tracks : Tracks fss.flatten c'
  values : List.Forall₂ (fun s (r : RawSample) => s.value = [toInt64 r.value]) c'.result.sample rawData
  locations : List.Forall₂
    (fun s gs => List.Forall₂ (fun l g => c'.index.location g.1 = some l) s.location gs)
    c'.result.sample fss
  mapping_eq : c'.result.mapping = c.result.mapping
  sampleType_eq : c'.result.sampleType = c.result.sampleType
  drops : c'.metrics.frameDropMappingNil = c.metrics.frameDropMappingNil +
    (rawData.map fun s => s.userStack.countP fun a => !c.setup.held a).sum
  ksym_head : c'.memo.calls.head? = some (.ksymResolve (kernelAddresses rawData))
  ksym_calls : c'.memo.calls.filter Call.isKsymResolve = [.ksymResolve (kernelAddresses rawData)]

/-- **A conversion on a fresh converter never panics**, and produces a run as
`ParcaAgent.Pprof.FreshRun` describes. -/
theorem freshRun (env : Env) (disable : Bool) (metrics : ConverterMetrics) (pid : Int)
    (mappings : List ProcessMapping) (t d p : Int) (rawData : List RawSample) :
    ∃ fss c', FreshRun env (newConverter disable metrics pid mappings t d p) rawData fss c' := by
  set c := newConverter disable metrics pid mappings t d p
  set r := c.memo.ksymResolve env (kernelAddresses rawData)
  have hA : r.2.Answers env c.setup.pid := ⟨fun h => by simp [r, c, newConverter,
    Memo.ksymResolve, Memo.empty] at h, fun _ h => by simp [r, c, newConverter, Memo.ksymResolve,
    Memo.empty] at h⟩
  obtain ⟨fss, M', dr, hr, hfa, hd, extra, hcalls, hx⟩ :=
    routeSamples_spec env (newConverter_setup_fresh disable metrics pid mappings t d p)
      (resolvedSymbols r.1) rawData r.2 hA
  have hlen : rawData.length = fss.length := hfa.length_eq.symm
  obtain ⟨ss, hss, hv, hl⟩ := c.internSamples_sample rawData fss hlen
  obtain ⟨I, L, F, S, hframe⟩ := c.internSamples_frame rawData fss
  have hx' : extra.filter Call.isKsymResolve = [] :=
    List.filter_eq_nil_iff.mpr fun x h => by simp [hx x h]
  have hs0 : c.result.sample = [] := rfl
  rw [hs0, List.nil_append] at hss
  refine ⟨fss, { c.internSamples rawData fss with
    memo := M', metrics := ⟨metrics.frameDropMappingNil + dr⟩ }, ⟨?_, ?_, hfa, ?_, hss ▸ hv, hss ▸ hl,
    ?_, ?_, by rw [hd]; rfl, ?_, ?_⟩⟩
  · simp [Converter.frames, hr, r]
  · rw [Converter.convert_eq]
    simp [hr, r]
    rfl
  · have hT : Tracks fss.flatten (c.internSamples rawData fss) := by
      simpa using (tracks_empty rfl rfl rfl).internSamples rawData fss hlen
    exact hT.congr rfl rfl rfl
  · simp [hframe]
  · simp [hframe]
  · simp [hcalls, r, c, newConverter, Memo.ksymResolve, Memo.empty]
  · simp [hcalls, r, c, newConverter, Memo.ksymResolve, Memo.empty, List.filter_append, hx',
      Call.isKsymResolve]

/-! ### What a run produces -/

section Run

variable {env : Env} {c : Converter} {rawData : List RawSample}
  {fss : List (List (LocKey × Mapping))} {c' : Converter}

/-- Frame by frame, each location of the samples is the one the frame's key holds. -/
theorem FreshRun.frame_locations (h : FreshRun env c rawData fss c') :
    List.Forall₂ (fun l g => c'.index.location g.1 = some l)
      (c'.result.sample.flatMap (·.location)) fss.flatten :=
  List.rel_flatten (List.forall₂_map_left_iff.mpr h.locations)

theorem FreshRun.frame_mapping (hS : c.setup.Fresh) (h : FreshRun env c rawData fss c')
    {f : LocKey × Mapping} (hf : f ∈ fss.flatten) :
    f.2 ∈ c.result.mapping ∧ ∀ s, f.1 = .kernel s → f.2 = c.kernelMapping := by
  obtain ⟨fs, hfs, hf⟩ := List.mem_flatten.mp hf
  obtain ⟨sample, -, hr⟩ := exists_of_forall₂_of_mem_left h.routes hfs
  exact hr.mapping hS hf

/-- A location's mapping is a profile mapping, the kernel mapping in the kernel
index. -/
theorem FreshRun.location_mapping (hS : c.setup.Fresh) (h : FreshRun env c rawData fss c')
    {k : LocKey} {l : Location} (hk : c'.index.location k = some l) :
    l.mapping ∈ c.result.mapping ∧ ∀ s, k = .kernel s → l.mapping = c.kernelMapping := by
  obtain ⟨f, hf, rfl, hm⟩ := exists_of_firstMapping_eq_some (h.tracks.mapping_eq k l hk)
  rw [← hm]
  exact h.frame_mapping hS hf

/-- The locations of the samples are in the table. -/
theorem FreshRun.mem_location (h : FreshRun env c rawData fss c') {l : Location}
    (hl : l ∈ c'.result.sample.flatMap (·.location)) : l ∈ c'.result.location := by
  obtain ⟨g, -, hg⟩ := exists_of_forall₂_of_mem_left h.frame_locations hl
  exact h.tracks.index_mem _ _ hg

/-- Every location of the table is a location of some frame. -/
theorem FreshRun.referenced (h : FreshRun env c rawData fss c') {l : Location}
    (hl : l ∈ c'.result.location) : l ∈ c'.result.sample.flatMap (·.location) := by
  obtain ⟨k, hk⟩ := h.tracks.mem_index l hl
  obtain ⟨f, hf, rfl⟩ := List.mem_map.mp ((h.tracks.isSome_iff k).mp (by simp [hk]))
  obtain ⟨l', hl', hk'⟩ := exists_of_forall₂_of_mem_right h.frame_locations hf
  rwa [Option.some_injective _ (hk.symm.trans hk')]

/-- Two frames get the same location exactly when they are filed under the same
key. -/
theorem FreshRun.share_iff (h : FreshRun env c rawData fss c') :
    ∀ p ∈ (c'.result.sample.flatMap (·.location)).zip fss.flatten,
      ∀ q ∈ (c'.result.sample.flatMap (·.location)).zip fss.flatten, p.1 = q.1 ↔ p.2.1 = q.2.1 :=
  fun _ hp _ hq => h.tracks.location_eq_iff (List.forall₂_zip h.frame_locations hp)
    (List.forall₂_zip h.frame_locations hq)

/-- A run keeps the profile mappings: which mapping holds an address reads the same
on the profile as on the routes. -/
theorem FreshRun.firstHolding_eq (h : FreshRun env c rawData fss c') (a : UInt64) :
    firstHolding c'.result.mapping a = firstHolding c.setup.pprofMappings a := by
  rw [h.mapping_eq]
  rfl

theorem FreshRun.any_holds (h : FreshRun env c rawData fss c') (a : UInt64) :
    c'.result.mapping.any (·.holds a) = c.setup.held a := by
  rw [h.mapping_eq]
  rfl

/-- Sample by sample, the locations of a run: one per kernel frame, then one per
user frame some mapping holds, at that frame's own address, each the location that
the key of the frame's route holds. -/
theorem FreshRun.samples (h : FreshRun env c rawData fss c') :
    List.Forall₂ (fun s r => ∃ kernelLocs userLocs, s.location = kernelLocs ++ userLocs ∧
        List.Forall₂ (fun l a => c'.index.location (kernelRoute c.setup
            (resolvedSymbols (env.ksymResolve [] (kernelAddresses rawData))) a).1 = some l)
          kernelLocs r.kernelStack ∧
        List.Forall₂ (fun l a => ∃ f, c'.index.location f.1 = some l ∧
            UserRouteOk env c.setup c'.memo.calls f a)
          userLocs (r.userStack.filter c.setup.held))
      c'.result.sample rawData := by
  refine (forall₂_comp h.locations h.routes).imp fun s r ⟨fs, hl, us, hfs, hus⟩ => ?_
  rw [hfs] at hl
  obtain ⟨kernelLocs, userLocs, hsplit, hk, hu⟩ := exists_append_of_forall₂_append hl
  exact ⟨kernelLocs, userLocs, hsplit, List.forall₂_map_right_iff.mp hk, forall₂_comp hu hus⟩

end Run

/-! ### The profile of a conversion -/

section Profile

variable (env : Env) (disable : Bool) (metrics : ConverterMetrics) (pid : Int)
  (mappings : List ProcessMapping) (t d p : Int) (rawData : List RawSample)

/-- **The profile of a conversion is well formed**, and the indexes it leaves
point into its tables: identifiers are positions, everything referenced is in its
table, no object or function name occurs twice, and each sample has the one value
the one sample type asks for. -/
theorem convert_wellFormed :
    ∃ prof c', (newConverter disable metrics pid mappings t d p).convert env rawData =
        some (prof, c') ∧
      DenseIds Location.id prof.location ∧ DenseIds Function.id prof.function ∧
      DenseIds Mapping.id prof.mapping ∧
      (∀ s ∈ prof.sample, ∀ l ∈ s.location, l ∈ prof.location) ∧
      (∀ l ∈ prof.location, l.mapping ∈ prof.mapping) ∧
      (∀ l ∈ prof.location, ∀ ln ∈ l.line, ln.function ∈ prof.function) ∧
      (prof.function.map Function.name).Nodup ∧ prof.location.Nodup ∧ prof.function.Nodup ∧
      prof.sampleType.length = 1 ∧ (∀ s ∈ prof.sample, s.value.length = prof.sampleType.length) ∧
      (∀ k l, c'.index.location k = some l → l ∈ prof.location) ∧
      ∀ n f, c'.index.functionIndex n = some f ↔ f ∈ prof.function ∧ f.name = n := by
  obtain ⟨fss, c', h⟩ := freshRun env disable metrics pid mappings t d p rawData
  have hS := newConverter_setup_fresh disable metrics pid mappings t d p
  have hT := h.tracks
  refine ⟨c'.result, c', h.convert_eq, hT.id_eq, hT.functions.id_eq, ?_,
    fun s hs l hl => h.mem_location (List.mem_flatMap.mpr ⟨s, hs, hl⟩), fun l hl => ?_,
    hT.line_mem, hT.functions.nodup_names, hT.id_eq.nodup, hT.functions.id_eq.nodup,
    by rw [h.sampleType_eq]; rfl, fun s hs => ?_, hT.index_mem, hT.functions.index_iff⟩
  · rw [h.mapping_eq]
    exact (denseIds_convertToPprof mappings).append (by simp [newConverter])
  · obtain ⟨k, hk⟩ := hT.mem_index l hl
    rw [h.mapping_eq]
    exact (h.location_mapping hS hk).1
  · obtain ⟨r, -, hr⟩ := exists_of_forall₂_of_mem_left h.values hs
    rw [hr, h.sampleType_eq]
    rfl

/-- Collaborators whose normalizer sends every address to the same offset. -/
def sameOffset : Env where
  ksymResolve _ _ := .error "no kernel symbols"
  normalize _ _ _ := .ok 0x10
  vdsoResolve _ _ _ := .error "no vdso"
  perfMapForPID _ _ := (none, none)
  jitdumpForPID _ _ _ := (none, none)

/-- **The samples of a conversion.** The kernel-symbol resolver is called once,
first, on the addresses of the kernel stacks. Each raw sample gives one sample, in
order, with its value read as a signed 64-bit integer, one location per kernel
frame (in the kernel mapping, naming its resolved symbol or `"not found"`) and then
one per user frame some mapping holds, filed under a key its route gives it. Every
other user frame is counted as dropped. -/
theorem convert_samples_spec :
    ∃ prof c',
      (newConverter disable metrics pid mappings t d p).convert env rawData = some (prof, c') ∧
      ∃ addrs, c'.memo.calls.head? = some (.ksymResolve addrs) ∧
        c'.memo.calls.filter Call.isKsymResolve = [.ksymResolve addrs] ∧
        (∀ a, a ∈ addrs ↔ ∃ s ∈ rawData, a ∈ s.kernelStack) ∧
        List.Forall₂ (fun s r => s.value = [toInt64 r.value] ∧
            ∃ kernelLocs userLocs, s.location = kernelLocs ++ userLocs ∧
              List.Forall₂ (fun l a =>
                  l.mapping = (newConverter disable metrics pid mappings t d p).kernelMapping ∧
                  l.line.map (·.function.name) =
                    [(resolvedSymbols (env.ksymResolve [] addrs) a).getD "not found"])
                kernelLocs r.kernelStack ∧
              List.Forall₂ (fun l a => ∃ f, c'.index.location f.1 = some l ∧
                  UserRouteOk env (newConverter disable metrics pid mappings t d p).setup
                    c'.memo.calls f a)
                userLocs (r.userStack.filter fun a => prof.mapping.any (·.holds a)))
          prof.sample rawData ∧
        c'.metrics.frameDropMappingNil = metrics.frameDropMappingNil +
          (rawData.map fun s => s.userStack.countP fun a => !prof.mapping.any (·.holds a)).sum := by
  obtain ⟨fss, c', h⟩ := freshRun env disable metrics pid mappings t d p rawData
  have hS := newConverter_setup_fresh disable metrics pid mappings t d p
  refine ⟨c'.result, c', h.convert_eq, kernelAddresses rawData, h.ksym_head, h.ksym_calls,
    mem_kernelAddresses rawData, ?_, by simpa only [h.any_holds] using h.drops⟩
  simp only [h.any_holds]
  refine List.Forall₂.mp (fun s r hv ⟨kernelLocs, userLocs, hsplit, hk, hu⟩ =>
    ⟨hv, kernelLocs, userLocs, hsplit, hk.imp fun l a hl => ⟨(h.location_mapping hS hl).2 _ rfl, ?_⟩,
      hu⟩) h.values h.samples
  rw [h.tracks.names_eq _ _ hl]
  rfl

/-- **Deduplication is exact.** Two frames get the same location exactly when they
are filed under the same key; every location is some frame's, every function some
line's. So there are as many locations as keys met, and as many functions as names
on the lines. -/
theorem convert_dedup_exact :
    ∃ prof c' fss,
      (newConverter disable metrics pid mappings t d p).convert env rawData = some (prof, c') ∧
      (newConverter disable metrics pid mappings t d p).frames env rawData = some fss ∧
      (prof.sample.flatMap (·.location)).length = fss.flatten.length ∧
      (∀ p ∈ (prof.sample.flatMap (·.location)).zip fss.flatten,
        ∀ q ∈ (prof.sample.flatMap (·.location)).zip fss.flatten, p.1 = q.1 ↔ p.2.1 = q.2.1) ∧
      (∀ l ∈ prof.location, l ∈ prof.sample.flatMap (·.location)) ∧
      (∀ f ∈ prof.function, ∃ l ∈ prof.location, ∃ ln ∈ l.line, ln.function = f) ∧
      prof.location.length = (fss.flatten.map Prod.fst).toFinset.card ∧
      prof.function.length =
        (prof.location.flatMap fun l => l.line.map (·.function.name)).toFinset.card := by
  obtain ⟨fss, c', h⟩ := freshRun env disable metrics pid mappings t d p rawData
  exact ⟨c'.result, c', fss, h.convert_eq, h.frames_eq, h.frame_locations.length_eq, h.share_iff,
    fun l hl => h.referenced hl, h.tracks.function_used, h.tracks.length_location,
    h.tracks.length_function⟩

end Profile

end Pprof

end ParcaAgent

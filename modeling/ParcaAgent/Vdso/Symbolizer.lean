import ParcaAgent.Pprof.VdsoFrames
import ParcaAgent.Vdso.Cache

/-!
# The vDSO symbolizer in the converter

`NewConverter` takes its `VDSOSymbolizer` as an interface value: a `*Cache` that
`NewCache` built, or `NoopCache`, whose `Resolve` answers the empty name for every
address. Plugged into the converter's collaborators (`ParcaAgent.Vdso.withCache`,
`ParcaAgent.Vdso.withNoopCache`), the two give the VDSO frames of a conversion
different locations:

| symbolizer | a frame of a `[vdso]` mapping is filed under | theorem |
|---|---|---|
| `NoopCache` | the empty name: all of them share one location | `ParcaAgent.Vdso.noopCache_merges_vdso_frames` |
| a `*Cache` from `NewCache` | the vDSO object's symbol at the normalized address, or `"unknown"` | `ParcaAgent.Vdso.vdsoCache_symbolizes_frames` |

The cache is stateful, but `Resolve` changes only its counters and never reads
them, so it answers every call as it did when new
(`ParcaAgent.Vdso.Cache.resolve_resolveAll`). The converter asks the symbolizer once
per VDSO frame and always with a mapping, so after a conversion the cache's lookups
count its VDSO frames, not its VDSO locations, and every error it counts has a
reason.
-/

namespace ParcaAgent

namespace Vdso

open Pprof

/-! ### The two symbolizers as collaborators -/

/-- `NoopCache.Resolve`: the empty name, and no error. -/
def NoopCache.resolve (_ : UInt64) (_ : Option ProcessMapping) : Except String String := .ok ""

section Collaborators

/- `process.Mapping.Normalize`, which the cache calls. -/
variable (normalize : ProcessMapping → UInt64 → Except NormalizeError UInt64)

/-- The converter's collaborators with `NoopCache` as the vDSO symbolizer. -/
def withNoopCache (env : Env) : Env :=
  { env with vdsoResolve := fun _ addr m => NoopCache.resolve addr (some m) }

/-- The converter's collaborators with the cache `cache` as the vDSO symbolizer:
each call is answered by `Resolve` on the cache as the calls before it left it. -/
def withCache (cache : Option Cache) (env : Env) : Env :=
  { env with vdsoResolve := fun calls addr m =>
      (Cache.resolve normalize (Cache.resolveAll normalize cache (vdsoCalls calls)).2 addr
        (some m)).1 }

/-- What `Resolve` answers on a cache and a mapping: the normalization's error, or
the searcher's answer at the normalized address. -/
theorem Cache.resolve_fst (c : Cache) (addr : UInt64) (m : ProcessMapping) :
    (Cache.resolve normalize (some c) addr (some m)).1 =
      match normalize m addr with
      | .error err => .error err.msg
      | .ok a => c.searcher a := by
  simp only [Cache.resolve]
  split <;> (try split) <;> simp_all

/-- `Resolve` keeps the cache's symbols. -/
theorem Cache.resolve_searcher (c : Cache) (addr : UInt64) (m : Option ProcessMapping) :
    (Cache.resolve normalize (some c) addr m).2.map Cache.searcher = some c.searcher := by
  rcases m with _ | m
  · rfl
  · simp only [Cache.resolve]
    split
    · rfl
    · split <;> rfl

theorem Cache.resolveAll_searcher (calls : List (UInt64 × Option ProcessMapping))
    (c : Cache) :
    ∃ c', (Cache.resolveAll normalize (some c) calls).2 = some c' ∧
      c'.searcher = c.searcher := by
  induction calls generalizing c with
  | nil => exact ⟨c, rfl, rfl⟩
  | cons call calls ih =>
    obtain ⟨c₁, h₁, hs₁⟩ :=
      Option.map_eq_some'.mp (Cache.resolve_searcher normalize c call.1 call.2)
    obtain ⟨c₂, h₂, hs₂⟩ := ih c₁
    exact ⟨c₂, by simpa [Cache.resolveAll, h₁] using h₂, hs₂.trans hs₁⟩

/-- **The cache answers as it did when new**: `Resolve` changes only the counters and
never reads them, so after any calls it answers as the cache it started from. -/
theorem Cache.resolve_resolveAll (c : Cache) (calls : List (UInt64 × Option ProcessMapping))
    (addr : UInt64) (m : ProcessMapping) :
    (Cache.resolve normalize (Cache.resolveAll normalize (some c) calls).2 addr (some m)).1 =
      (Cache.resolve normalize (some c) addr (some m)).1 := by
  obtain ⟨c', h, hs⟩ := Cache.resolveAll_searcher normalize calls c
  rw [h, Cache.resolve_fst, Cache.resolve_fst, hs]

/-- The converter always hands `Resolve` a mapping. -/
theorem isSome_of_mem_vdsoCalls {calls : List Call} {x : UInt64 × Option ProcessMapping}
    (hx : x ∈ vdsoCalls calls) : x.2.isSome := by
  obtain ⟨call, -, hc⟩ := List.mem_filterMap.mp hx
  cases call <;> simp [Call.vdsoArgs] at hc
  rw [← hc]
  rfl

/-- **Over the converter's calls, the counters count one lookup per call, and a
reason for each error**: the converter never hands `Resolve` a nil mapping. -/
theorem Accounts.lookups_vdsoCalls {calls : List Call} {rs : List (Except String String)}
    {m : Metrics} (h : Accounts (vdsoCalls calls) rs m) :
    m.lookup lvSuccess + m.lookupErrors lvError = (vdsoCalls calls).length ∧
      m.lookupErrors lvError = m.withReason := by
  have hnone : (vdsoCalls calls).countP (·.2.isNone) = 0 :=
    List.countP_eq_zero.mpr fun x hx => by
      simpa only [Option.isNone_iff_eq_none] using
        Option.ne_none_iff_isSome.mpr (isSome_of_mem_vdsoCalls hx)
  have hsplit := List.length_eq_countP_add_countP (·.isOk) rs
  simp only [decide_not, Bool.decide_eq_true] at hsplit
  refine ⟨?_, by rw [h.reason, hnone, Nat.zero_add]⟩
  rw [h.success, h.error, ← h.length]
  omega

end Collaborators

/-! ### The key of a VDSO frame -/

section Keys

variable {env : Env} {S : Setup} {L : List Call} {pm : ProcessMapping} {addr : UInt64}
  {k : LocKey}

/-- Under `NoopCache`, a frame of a `[vdso]` mapping is filed under the empty name. -/
theorem keyFor_withNoopCache (h : KeyFor (withNoopCache env) S L pm "[vdso]" addr k) :
    k = .vdso "" := by
  rw [KeyFor, if_pos rfl] at h
  obtain ⟨_, -, rfl⟩ := h
  rfl

/-- Under a cache, a frame of a `[vdso]` mapping is filed under the name the cache
gives its address when new, `"unknown"` when it fails. -/
theorem keyFor_withCache (normalize : ProcessMapping → UInt64 → Except NormalizeError UInt64)
    {cache : Cache} (h : KeyFor (withCache normalize (some cache) env) S L pm "[vdso]" addr k) :
    k = .vdso
      ((Cache.resolve normalize (some cache) addr (some pm)).1.toOption.getD "unknown") := by
  rw [KeyFor, if_pos rfl] at h
  obtain ⟨calls, -, rfl⟩ := h
  simp only [withCache, Cache.resolve_resolveAll]
  split <;> simp_all [Except.toOption]

end Keys

/-! ### The VDSO frames of a conversion -/

section Conversion

variable (env : Env) (disable : Bool) (metrics : ConverterMetrics) (pid : Int)
  (mappings : List ProcessMapping) (t d p : Int) (rawData : List RawSample)

theorem newConverter_kernel_file_ne_vdso :
    (newConverter disable metrics pid mappings t d p).kernelMapping.file ≠ "[vdso]" := by
  simp [newConverter]

/-- **`NoopCache` merges the VDSO frames.** With the no-op symbolizer, every frame of
a `[vdso]` mapping gets a location whose one line names the empty function, and all
of them share that one location, which no other frame gets. -/
theorem noopCache_merges_vdso_frames :
    ∃ prof c' fss,
      (newConverter disable metrics pid mappings t d p).convert (withNoopCache env) rawData =
        some (prof, c') ∧
      (newConverter disable metrics pid mappings t d p).frames (withNoopCache env) rawData =
        some fss ∧
      ∀ x ∈ (prof.sample.flatMap (·.location)).zip fss.flatten, x.2.2.file = "[vdso]" →
        x.1.line.map (·.function.name) = [""] ∧
        ∀ y ∈ (prof.sample.flatMap (·.location)).zip fss.flatten,
          x.1 = y.1 ↔ y.2.2.file = "[vdso]" := by
  obtain ⟨fss, c', h⟩ := freshRun (withNoopCache env) disable metrics pid mappings t d p rawData
  have hk := newConverter_kernel_file_ne_vdso disable metrics pid mappings t d p
  have hkey : ∀ f ∈ fss.flatten, f.1 = .vdso "" ↔ f.2.file = "[vdso]" := fun f hf => by
    obtain ⟨hv, hn⟩ := h.vdso_frame hk hf
    refine ⟨fun he => ?_, fun hfile => ?_⟩
    · by_contra hne
      exact hn hne "" he
    · obtain ⟨_, _, _, _, _, _, _, hkf⟩ := hv hfile
      exact keyFor_withNoopCache hkf
  refine ⟨c'.result, c', fss, h.convert_eq, h.frames_eq, fun x hx hvx =>
    ⟨h.names_of_vdso hx ((hkey x.2 (List.of_mem_zip hx).2).mpr hvx), fun y hy => ?_⟩⟩
  rw [h.share_iff x hx y hy, (hkey x.2 (List.of_mem_zip hx).2).mpr hvx, eq_comm,
    hkey y.2 (List.of_mem_zip hy).2]

/-- A process with the vDSO mapped at `0x7fff0000`. -/
def vdsoProcess : List ProcessMapping := [vdsoMapping]

/-- One sample with two frames in the vDSO: in its one function, and past it. -/
def twoVdsoFrames : List RawSample := [⟨1, [0x7fff0710, 0x7fff1000], []⟩]

/-- The two frames share the one location named `""`. -/
example :
    ((newConverter false ⟨0⟩ 1 vdsoProcess 0 0 0).convert (withNoopCache sameOffset)
        twoVdsoFrames).map
      (fun r => r.1.sample.map fun s => s.location.map fun l =>
        (l.id, l.line.map (·.function.name))) =
      some [[(1, [""]), (1, [""])]] := by
  decide

/-- **A `*Cache` from `NewCache` names each VDSO frame, and counts each once.** With
the cache as the symbolizer, sample by sample, the location of each user frame whose
first mapping is a `[vdso]` mapping names the vDSO object's symbol at that frame's
own normalized address, or `"unknown"`. After the conversion the cache has counted
one lookup per VDSO frame, however many share a location, and an error with a reason
for each lookup that failed. -/
theorem vdsoCache_symbolizes_frames {Obj Elf Syms : Type} (sys : System Obj Elf Syms)
    (cache : Cache) (hc : newCache sys = .ok cache)
    (normalize : ProcessMapping → UInt64 → Except NormalizeError UInt64) :
    ∃ prof c' fss,
      (newConverter disable metrics pid mappings t d p).convert
        (withCache normalize (some cache) env) rawData = some (prof, c') ∧
      (newConverter disable metrics pid mappings t d p).frames
        (withCache normalize (some cache) env) rawData = some fss ∧
      List.Forall₂ (fun s r => ∃ kernelLocs userLocs, s.location = kernelLocs ++ userLocs ∧
          List.Forall₂ (fun l a => ∀ m, firstHolding prof.mapping a = some m →
              m.file = "[vdso]" → ∃ pm, mappings[m.id - 1]? = some pm ∧
                l.line.map (·.function.name) =
                  [(Cache.resolve normalize (some cache) a (some pm)).1.toOption.getD "unknown"])
            userLocs (r.userStack.filter fun a => prof.mapping.any (·.holds a)))
        prof.sample rawData ∧
      ∃ cache', (Cache.resolveAll normalize (some cache) (vdsoCalls c'.memo.calls)).2 =
          some cache' ∧
        cache'.metrics.lookup lvSuccess + cache'.metrics.lookupErrors lvError =
          fss.flatten.countP (·.2.file == "[vdso]") ∧
        cache'.metrics.lookupErrors lvError = cache'.metrics.withReason := by
  obtain ⟨fss, c', h⟩ :=
    freshRun (withCache normalize (some cache) env) disable metrics pid mappings t d p rawData
  have hk := newConverter_kernel_file_ne_vdso disable metrics pid mappings t d p
  have h0 : Accounts [] [] cache.metrics := (newCache_ok sys hc).1 ▸ accounts_nil
  obtain ⟨cache', hc', ha⟩ := h0.resolveAll normalize (vdsoCalls c'.memo.calls)
  simp only [List.nil_append] at ha
  refine ⟨c'.result, c', fss, h.convert_eq, h.frames_eq, ?_, cache', hc', ?_,
    ha.lookups_vdsoCalls.2⟩
  · simp only [h.any_holds]
    refine h.samples.imp fun s r ⟨kernelLocs, userLocs, hsplit, _, hu⟩ =>
      ⟨kernelLocs, userLocs, hsplit, hu.imp fun l a ⟨f, hl, hfirst, pm, hpm, hkey⟩ m hm hv => ?_⟩
    obtain rfl : m = f.2 := Option.some_inj.mp (hm.symm.trans ((h.firstHolding_eq a).trans hfirst))
    rw [hv] at hkey
    rw [keyFor_withCache normalize hkey] at hl
    exact ⟨pm, hpm, by simpa [LocKey.symbol] using h.tracks.names_eq _ _ hl⟩
  · rw [ha.lookups_vdsoCalls.1, h.length_vdsoCalls (newConverter_setup_fresh ..) hk]
    exact Nat.zero_add _

/-- The cache `NewCache` builds on `ParcaAgent.Vdso.sampleSystem`. -/
def sampleCache : Cache := ⟨newMetrics, sampleSystem.searcher (), vdsoPath "6.1.0" "vdso.so"⟩

/-- The two frames: one names the symbol the cache finds, the other `"unknown"`,
each in its own location. -/
example :
    ((newConverter false ⟨0⟩ 1 vdsoProcess 0 0 0).convert
        (withCache sampleNormalize (some sampleCache) sameOffset) twoVdsoFrames).map
      (fun r => r.1.sample.map fun s => s.location.map fun l =>
        (l.id, l.line.map (·.function.name))) =
      some [[(1, ["__vdso_clock_gettime"]), (2, ["unknown"])]] := by
  decide

theorem vdsoCache_symbolizes_frames_sampleSystem :
    newCache sampleSystem = .ok sampleCache ∧
      ∃ prof c' fss,
        (newConverter false ⟨0⟩ 1 vdsoProcess 0 0 0).convert
          (withCache sampleNormalize (some sampleCache) sameOffset) twoVdsoFrames =
          some (prof, c') ∧
        (newConverter false ⟨0⟩ 1 vdsoProcess 0 0 0).frames
          (withCache sampleNormalize (some sampleCache) sameOffset) twoVdsoFrames = some fss ∧
        List.Forall₂ (fun s r => ∃ kernelLocs userLocs, s.location = kernelLocs ++ userLocs ∧
            List.Forall₂ (fun l a => ∀ m, firstHolding prof.mapping a = some m →
                m.file = "[vdso]" → ∃ pm, vdsoProcess[m.id - 1]? = some pm ∧
                  l.line.map (·.function.name) =
                    [(Cache.resolve sampleNormalize (some sampleCache) a
                      (some pm)).1.toOption.getD "unknown"])
              userLocs (r.userStack.filter fun a => prof.mapping.any (·.holds a)))
          prof.sample twoVdsoFrames ∧
        ∃ cache', (Cache.resolveAll sampleNormalize (some sampleCache)
            (vdsoCalls c'.memo.calls)).2 = some cache' ∧
          cache'.metrics.lookup lvSuccess + cache'.metrics.lookupErrors lvError =
            fss.flatten.countP (·.2.file == "[vdso]") ∧
          cache'.metrics.lookupErrors lvError = cache'.metrics.withReason :=
  ⟨rfl, vdsoCache_symbolizes_frames sameOffset false ⟨0⟩ 1 vdsoProcess 0 0 0 twoVdsoFrames
    sampleSystem _ rfl sampleNormalize⟩

end Conversion

end Vdso

end ParcaAgent

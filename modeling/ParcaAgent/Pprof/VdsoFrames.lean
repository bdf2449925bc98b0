import ParcaAgent.Pprof.Conversion

/-!
# The VDSO frames of a conversion

What `Convert` does with the frames of a `[vdso]` mapping, whatever the symbolizer
answers. Two facts, both read off the routing half of the conversion:

* a frame is filed in the VDSO index exactly when its mapping is the vDSO's, and
  then under the name the symbolizer gave that frame's address
  (`ParcaAgent.Pprof.FreshRun.vdso_frame`);
* `addVDSOLocation` asks the symbolizer *before* it looks the index up, so the
  symbolizer is called once per VDSO frame, however many frames share a location
  (`ParcaAgent.Pprof.FreshRun.length_vdsoCalls`). A symbolizer that counts its
  calls, as `vdso.Cache` does, counts frames, not locations.
-/

namespace ParcaAgent

namespace Pprof

/-! ### The calls to the symbolizer -/

/-- The arguments of a call to the vDSO symbolizer, as `Resolve` receives them: the
converter always passes a mapping. -/
def Call.vdsoArgs : Call → Option (UInt64 × Option ProcessMapping)
  | .vdsoResolve addr m => some (addr, some m)
  | _ => none

/-- The calls of a log to the vDSO symbolizer, in order. -/
def vdsoCalls (calls : List Call) : List (UInt64 × Option ProcessMapping) :=
  calls.filterMap Call.vdsoArgs

@[simp] theorem vdsoCalls_append (xs ys : List Call) :
    vdsoCalls (xs ++ ys) = vdsoCalls xs ++ vdsoCalls ys :=
  List.filterMap_append _ _ _

section Calls

variable (env : Env) (M : Memo)

@[simp] theorem vdsoCalls_vdsoResolve (addr : UInt64) (m : ProcessMapping) :
    vdsoCalls (M.vdsoResolve env addr m).2.calls = vdsoCalls M.calls ++ [(addr, some m)] := by
  simp [Memo.vdsoResolve, vdsoCalls, Call.vdsoArgs]

@[simp] theorem vdsoCalls_normalize (m : ProcessMapping) (addr : UInt64) :
    vdsoCalls (M.normalize env m addr).2.calls = vdsoCalls M.calls := by
  simp [Memo.normalize, vdsoCalls, Call.vdsoArgs]

@[simp] theorem vdsoCalls_perfMap (pid : Int) :
    vdsoCalls (M.perfMap env pid).2.calls = vdsoCalls M.calls := by
  unfold Memo.perfMap
  split <;> simp [vdsoCalls, Call.vdsoArgs]

@[simp] theorem vdsoCalls_jitdump (pid : Int) (path : String) :
    vdsoCalls (M.jitdump env pid path).2.calls = vdsoCalls M.calls := by
  unfold Memo.jitdump
  split <;> simp [vdsoCalls, Call.vdsoArgs]

/-- **Routing a user frame calls the symbolizer once, on that frame, when its
mapping is the vDSO's**, and otherwise not at all. -/
theorem vdsoCalls_userKey (S : Setup) (pm : ProcessMapping) (m : Mapping) (addr : UInt64) :
    vdsoCalls (userKey env S pm m addr M).2.calls =
      vdsoCalls M.calls ++ if m.file = "[vdso]" then [(addr, some pm)] else [] := by
  unfold userKey
  split_ifs <;> simp only [jitKey_memo] <;> (try split_ifs) <;> simp

end Calls

section Routing

variable (env : Env) {S : Setup}

/-- The symbolizer is called once per kept frame of a user stack whose mapping is the
vDSO's. -/
theorem length_vdsoCalls_routeUserStack (hS : S.Fresh) :
    ∀ (addrs : List UInt64) (M : Memo) {fs : List (LocKey × Mapping)} {M' : Memo} {d : Nat},
      routeUserStack env S addrs M = some (fs, M', d) →
      (vdsoCalls M'.calls).length =
        (vdsoCalls M.calls).length + fs.countP (·.2.file == "[vdso]")
  | [], M, _, _, _, h => by
    cases h
    simp
  | addr :: addrs, M, fs, M', d, h => by
    obtain ⟨r, M1, hr, -, hnone, hsome⟩ := userRoute_spec env hS addr M
    simp only [routeUserStack, hr, Option.bind_eq_bind, Option.some_bind, Option.bind_eq_some,
      Option.pure_def, Option.some.injEq, Prod.mk.injEq] at h
    obtain ⟨⟨fs', M'', d'⟩, hrs, rfl, rfl, -⟩ := h
    rw [length_vdsoCalls_routeUserStack hS addrs M1 hrs, List.countP_append]
    cases r with
    | none => simp [hnone rfl]
    | some f =>
      obtain ⟨pm, -, -, hk⟩ := hsome f rfl
      have hM1 : M1 = (userKey env S pm f.2 addr M).2 := congrArg Prod.snd hk
      rw [hM1, vdsoCalls_userKey]
      split_ifs with hf <;> simp [hf]
      omega

/-- The symbolizer is called once per frame of the samples whose mapping is the
vDSO's, when the kernel mapping is not. -/
theorem length_vdsoCalls_routeSamples (hS : S.Fresh) (hk : S.kernelMapping.file ≠ "[vdso]")
    (kernelSymbols : UInt64 → Option String) :
    ∀ (rawData : List RawSample) (M : Memo) {fss : List (List (LocKey × Mapping))} {M' : Memo}
      {d : Nat}, routeSamples env S kernelSymbols rawData M = some (fss, M', d) →
      (vdsoCalls M'.calls).length =
        (vdsoCalls M.calls).length + fss.flatten.countP (·.2.file == "[vdso]")
  | [], M, _, _, _, h => by
    cases h
    simp
  | sample :: rawData, M, fss, M', d, h => by
    simp only [routeSamples, routeSample, Option.bind_eq_bind, Option.bind_eq_some,
      Option.map_eq_some', Option.pure_def, Option.some.injEq, Prod.mk.injEq] at h
    obtain ⟨_, ⟨⟨us, M1, d1⟩, hus, rfl⟩, ⟨fss', M'', d'⟩, hrs, rfl, rfl, -⟩ := h
    have hkernel : (sample.kernelStack.map (kernelRoute S kernelSymbols)).countP
        (·.2.file == "[vdso]") = 0 :=
      List.countP_eq_zero.mpr fun f hf => by
        obtain ⟨a, -, rfl⟩ := List.mem_map.mp hf
        simpa [kernelRoute] using hk
    rw [length_vdsoCalls_routeSamples hS hk kernelSymbols rawData M1 hrs,
      length_vdsoCalls_routeUserStack env hS _ M hus]
    simp only [List.flatten_cons, List.countP_append, hkernel]
    omega

end Routing

/-! ### The VDSO frames of a run -/

section Run

variable {env : Env} {c : Converter} {rawData : List RawSample}
  {fss : List (List (LocKey × Mapping))} {c' : Converter}

/-- The routes of a run, with the memo it ends with. -/
theorem FreshRun.routeSamples_eq (h : FreshRun env c rawData fss c') :
    ∃ d, routeSamples env c.setup
      (resolvedSymbols (c.memo.ksymResolve env (kernelAddresses rawData)).1) rawData
      (c.memo.ksymResolve env (kernelAddresses rawData)).2 = some (fss, c'.memo, d) := by
  obtain ⟨⟨fss', M', d⟩, hr, rfl⟩ := Option.map_eq_some'.mp h.frames_eq
  have hc := h.convert_eq
  simp only [Converter.convert_eq, hr, Option.map_some', Option.some.injEq, Prod.mk.injEq] at hc
  exact ⟨d, hr.trans (by rw [← hc.2])⟩

/-- **The symbolizer is called once per VDSO frame of a conversion**, however many
of them share a location: the run adds one call per frame filed with a `[vdso]`
mapping. -/
theorem FreshRun.length_vdsoCalls (hS : c.setup.Fresh) (hk : c.kernelMapping.file ≠ "[vdso]")
    (h : FreshRun env c rawData fss c') :
    (vdsoCalls c'.memo.calls).length =
      (vdsoCalls c.memo.calls).length + fss.flatten.countP (·.2.file == "[vdso]") := by
  obtain ⟨d, hr⟩ := h.routeSamples_eq
  rw [length_vdsoCalls_routeSamples env hS hk _ rawData _ hr]
  simp [Memo.ksymResolve, vdsoCalls, Call.vdsoArgs]

/-- The location of a frame filed under a VDSO key has one line, naming the key's
name. -/
theorem FreshRun.names_of_vdso (h : FreshRun env c rawData fss c')
    {x : Location × (LocKey × Mapping)}
    (hx : x ∈ (c'.result.sample.flatMap (·.location)).zip fss.flatten) {n : String}
    (hn : x.2.1 = .vdso n) : x.1.line.map (·.function.name) = [n] := by
  have hl := List.forall₂_zip h.frame_locations hx
  rw [hn] at hl
  simpa [LocKey.symbol] using h.tracks.names_eq _ _ hl

/-- A user frame of a mapping other than the vDSO's is not filed in the VDSO index. -/
theorem KeyFor.ne_vdso {S : Setup} {L : List Call} {pm : ProcessMapping} {file : String}
    {addr : UInt64} {k : LocKey} (h : KeyFor env S L pm file addr k) (hfile : file ≠ "[vdso]")
    (n : String) : k ≠ .vdso n := by
  rintro rfl
  unfold KeyFor tableKey at h
  split_ifs at h <;> aesop

/-- **Which frames go to the VDSO index.** When the kernel mapping is not the
vDSO's, a frame of a `[vdso]` mapping is a user frame of some sample, in the
first mapping holding its address, filed under the key the symbolizer's answer
gives it; a frame of any other mapping is not filed in the VDSO index. -/
theorem FreshRun.vdso_frame (hk : c.kernelMapping.file ≠ "[vdso]")
    (h : FreshRun env c rawData fss c') {f : LocKey × Mapping} (hf : f ∈ fss.flatten) :
    (f.2.file = "[vdso]" → ∃ sample ∈ rawData, ∃ addr ∈ sample.userStack, ∃ pm,
      firstHolding c.result.mapping addr = some f.2 ∧ c.mappings[f.2.id - 1]? = some pm ∧
        KeyFor env c.setup c'.memo.calls pm "[vdso]" addr f.1) ∧
    (f.2.file ≠ "[vdso]" → ∀ n, f.1 ≠ .vdso n) := by
  obtain ⟨fs, hfs, hf⟩ := List.mem_flatten.mp hf
  obtain ⟨sample, hsample, hr⟩ := exists_of_forall₂_of_mem_left h.routes hfs
  rcases hr.mem hf with ⟨a, -, rfl⟩ | ⟨a, ha, hfirst, pm, hpm, hkey⟩
  · exact ⟨fun hv => absurd hv hk, fun _ n => by simp [kernelRoute]⟩
  · exact ⟨fun hv => ⟨sample, hsample, a, ha, pm, hfirst, hpm, hv ▸ hkey⟩, hkey.ne_vdso⟩

end Run

end Pprof

end ParcaAgent

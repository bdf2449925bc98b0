import ParcaAgent.Pprof.Profile

/-!
# The VDSO symbolizer

The `vdso` package's `Cache` names the addresses of the kernel's vDSO, which the
converter of `pkg/pprof` files under function names (`addVDSOLocation`). Two parts
of it:

* `NewCache` opens the first of `vdso.so` and `vdso64.so` under the running
  kernel's modules directory that opens, reads its dynamic symbols and builds a
  searcher over them; a cache it builds starts with new counters
  (`ParcaAgent.Vdso.newCache_ok`).
* `Resolve` normalizes an address in its mapping, searches the symbols, and counts
  the call in two Prometheus counter vectors. Over any sequence of calls, the
  counters account for the results (`ParcaAgent.Vdso.Accounts.resolveAll`): one
  `success` per symbol found, one `error` per failure, and a reason for every
  failure but a nil mapping.

## What the counters do not say

The labels `mapping_nil` and `mapping_empty` are declared next to the others, but
no call ever counts under them: a nil mapping is counted as an `error` with no
reason, so the reasons of the errors add up to fewer than the errors.
-/

namespace ParcaAgent

namespace Vdso

open Pprof

/-! ### The counters -/

/-- The label values of the two counter vectors. -/
def lvError : String := "error"
def lvSuccess : String := "success"
def lvErrNotFound : String := "not_found"
def lvErrMappingNil : String := "mapping_nil"
def lvErrMappingEmpty : String := "mapping_empty"
def lvErrAddrOutOfRange : String := "addr_out_of_range"
def lvErrBaseCalculation : String := "base_calculation"
def lvErrUnknown : String := "unknown"

/-- `metrics`: the counter vector `lookup`, by `result`, and the counter vector
`lookupErrors`, by `type`. -/
structure Metrics where
  lookup : String → Nat
  lookupErrors : String → Nat

/-- `newMetrics`: every counter at zero. -/
def newMetrics : Metrics := ⟨fun _ => 0, fun _ => 0⟩

/-- `WithLabelValues(l).Inc()` on a counter vector. -/
def bump (v : String → Nat) (l : String) : String → Nat := Function.update v l (v l + 1)

/-- `lookup.WithLabelValues(l).Inc()`. -/
def Metrics.incLookup (m : Metrics) (l : String) : Metrics := { m with lookup := bump m.lookup l }

/-- `lookupErrors.WithLabelValues(l).Inc()`. -/
def Metrics.incError (m : Metrics) (l : String) : Metrics :=
  { m with lookupErrors := bump m.lookupErrors l }

@[simp] theorem bump_apply (v : String → Nat) (l l' : String) :
    bump v l l' = v l' + if l' = l then 1 else 0 := by
  unfold bump
  split <;> simp_all [Function.update_apply]

@[simp] theorem Metrics.incLookup_lookup (m : Metrics) (l : String) :
    (m.incLookup l).lookup = bump m.lookup l := rfl

@[simp] theorem Metrics.incLookup_lookupErrors (m : Metrics) (l : String) :
    (m.incLookup l).lookupErrors = m.lookupErrors := rfl

@[simp] theorem Metrics.incError_lookup (m : Metrics) (l : String) :
    (m.incError l).lookup = m.lookup := rfl

@[simp] theorem Metrics.incError_lookupErrors (m : Metrics) (l : String) :
    (m.incError l).lookupErrors = bump m.lookupErrors l := rfl

/-! ### `Resolve` -/

/-- An error of `process.Mapping.Normalize`, by what `Resolve` asks of it: its
text, whether `errors.As` finds a `*process.AddressOutOfRangeError` in its chain,
and whether `errors.Is` finds `process.ErrBaseAddressCannotCalculated`. -/
structure NormalizeError where
  msg : String
  addrOutOfRange : Bool
  baseAddressCannotCalculated : Bool
  deriving DecidableEq, Repr

/-- The label `Resolve`'s `switch` counts a normalization error under: the first
case that matches. -/
def NormalizeError.reason (e : NormalizeError) : String :=
  if e.addrOutOfRange then lvErrAddrOutOfRange
  else if e.baseAddressCannotCalculated then lvErrBaseCalculation
  else lvErrUnknown

/-- `vdso.Cache`: its counters, the `symbolsearcher.Searcher` over the dynamic
symbols of the vDSO object, and the object's path. -/
structure Cache where
  metrics : Metrics
  searcher : UInt64 → Except String String
  f : String

section Resolve

/- `process.Mapping.Normalize`, a collaborator. -/
variable (normalize : ProcessMapping → UInt64 → Except NormalizeError UInt64)

/-- `(*Cache).Resolve(addr, m)`, with the cache after the call (`none` is a nil
`*Cache`, which answers the empty name). -/
def Cache.resolve : Option Cache → UInt64 → Option ProcessMapping →
    Except String String × Option Cache
  | none, _, _ => (.ok "", none)
  | some c, _, none => (.error "mapping is nil", some { c with metrics := c.metrics.incError lvError })
  | some c, addr, some m =>
    match normalize m addr with
    | .error err =>
      (.error err.msg, some { c with metrics := (c.metrics.incError lvError).incError err.reason })
    | .ok addr =>
      match c.searcher addr with
      | .error err =>
        (.error err, some { c with metrics := (c.metrics.incError lvError).incError lvErrNotFound })
      | .ok sym => (.ok sym, some { c with metrics := c.metrics.incLookup lvSuccess })

/-- `Resolve` on each call in turn: the results, and the cache after the last. -/
def Cache.resolveAll : Option Cache → List (UInt64 × Option ProcessMapping) →
    List (Except String String) × Option Cache
  | c, [] => ([], c)
  | c, (addr, m) :: calls =>
    let (r, c) := Cache.resolve normalize c addr m
    let (rs, c) := Cache.resolveAll c calls
    (r :: rs, c)

/-! ### The counters over a run -/

/-- The errors counted with a reason. -/
def Metrics.withReason (m : Metrics) : Nat :=
  m.lookupErrors lvErrAddrOutOfRange + m.lookupErrors lvErrBaseCalculation +
    m.lookupErrors lvErrUnknown + m.lookupErrors lvErrNotFound

/-- **The counters account for the calls**: after the calls `calls` with the
results `rs`, `success` counts the symbols found and nothing else is counted by
result; `error` counts the failures; every failure but a nil mapping has one
reason; and `mapping_nil` and `mapping_empty` count nothing. -/
structure Accounts (calls : List (UInt64 × Option ProcessMapping)) (rs : List (Except String String))
    (m : Metrics) : Prop where
  length : rs.length = calls.length
  success : m.lookup lvSuccess = rs.countP (·.isOk)
  only_success : ∀ l, l ≠ lvSuccess → m.lookup l = 0
  error : m.lookupErrors lvError = rs.countP (!·.isOk)
  reason : m.lookupErrors lvError = calls.countP (·.2.isNone) + m.withReason
  unused : m.lookupErrors lvErrMappingNil = 0 ∧ m.lookupErrors lvErrMappingEmpty = 0

theorem accounts_nil : Accounts [] [] newMetrics :=
  ⟨rfl, rfl, fun _ _ => rfl, rfl, rfl, rfl, rfl⟩

section Step

variable {calls : List (UInt64 × Option ProcessMapping)} {rs : List (Except String String)}
  {mt : Metrics} (h : Accounts calls rs mt) (addr : UInt64)
include h

/-- A call on a nil mapping: an `error`, with no reason. -/
theorem Accounts.nilMapping :
    Accounts (calls ++ [(addr, none)]) (rs ++ [.error "mapping is nil"]) (mt.incError lvError) := by
  obtain ⟨hlen, hs, ho, he, hr, hn, hm⟩ := h
  simp only [Metrics.withReason, lvError, lvSuccess, lvErrNotFound, lvErrMappingNil,
    lvErrMappingEmpty, lvErrAddrOutOfRange, lvErrBaseCalculation, lvErrUnknown] at *
  refine ⟨?_, ?_, fun l hl => by simpa using ho l hl, ?_, ?_, ?_⟩ <;>
    simp [Metrics.withReason, Except.toBool, lvError, lvSuccess, lvErrNotFound, lvErrMappingNil,
      lvErrMappingEmpty, lvErrAddrOutOfRange, lvErrBaseCalculation, lvErrUnknown] <;> omega

/-- A failure with a reason: an `error`, and its reason. -/
theorem Accounts.failed (m : ProcessMapping) (e : String) {r : String}
    (hr : r = lvErrAddrOutOfRange ∨ r = lvErrBaseCalculation ∨ r = lvErrUnknown ∨
      r = lvErrNotFound) :
    Accounts (calls ++ [(addr, some m)]) (rs ++ [.error e]) ((mt.incError lvError).incError r) := by
  obtain ⟨hlen, hs, ho, he, hr', hn, hm⟩ := h
  simp only [Metrics.withReason, lvError, lvSuccess, lvErrNotFound, lvErrMappingNil,
    lvErrMappingEmpty, lvErrAddrOutOfRange, lvErrBaseCalculation, lvErrUnknown] at *
  rcases hr with rfl | rfl | rfl | rfl <;>
    refine ⟨?_, ?_, fun l hl => by simpa using ho l hl, ?_, ?_, ?_⟩ <;>
    simp [Metrics.withReason, Except.toBool, lvError, lvSuccess, lvErrNotFound, lvErrMappingNil,
      lvErrMappingEmpty, lvErrAddrOutOfRange, lvErrBaseCalculation, lvErrUnknown] <;> omega

/-- A symbol found: a `success`. -/
theorem Accounts.found (m : ProcessMapping) (sym : String) :
    Accounts (calls ++ [(addr, some m)]) (rs ++ [.ok sym]) (mt.incLookup lvSuccess) := by
  obtain ⟨hlen, hs, ho, he, hr, hn, hm⟩ := h
  simp only [Metrics.withReason, lvError, lvSuccess, lvErrNotFound, lvErrMappingNil,
    lvErrMappingEmpty, lvErrAddrOutOfRange, lvErrBaseCalculation, lvErrUnknown] at *
  refine ⟨?_, ?_, fun l hl => by
      have hl' : l ≠ "success" := hl
      simpa [hl'] using ho l hl, ?_, ?_, ?_⟩ <;>
    simp [Metrics.withReason, Except.toBool, lvError, lvSuccess, lvErrNotFound, lvErrMappingNil,
      lvErrMappingEmpty, lvErrAddrOutOfRange, lvErrBaseCalculation, lvErrUnknown] <;> omega

end Step

/-- The reasons of a normalization error are among those `Metrics.withReason` adds. -/
theorem NormalizeError.reason_mem (e : NormalizeError) :
    e.reason = lvErrAddrOutOfRange ∨ e.reason = lvErrBaseCalculation ∨ e.reason = lvErrUnknown ∨
      e.reason = lvErrNotFound := by
  unfold NormalizeError.reason
  split_ifs <;> simp

/-- **One call of `Resolve`** on a cache keeps its counters accounting for the calls. -/
theorem Accounts.resolve {calls : List (UInt64 × Option ProcessMapping)}
    {rs : List (Except String String)} {c : Cache} (h : Accounts calls rs c.metrics)
    (addr : UInt64) (m : Option ProcessMapping) :
    ∃ c', (Cache.resolve normalize (some c) addr m).2 = some c' ∧
      Accounts (calls ++ [(addr, m)]) (rs ++ [(Cache.resolve normalize (some c) addr m).1])
        c'.metrics := by
  rcases m with _ | m
  · exact ⟨_, rfl, h.nilMapping addr⟩
  · simp only [Cache.resolve]
    split
    · exact ⟨_, rfl, h.failed addr m _ (NormalizeError.reason_mem _)⟩
    · split
      · exact ⟨_, rfl, h.failed addr m _ (.inr (.inr (.inr rfl)))⟩
      · exact ⟨_, rfl, h.found addr m _⟩

/-- The run: every call keeps the counters accounting for the calls. -/
theorem Accounts.resolveAll {calls : List (UInt64 × Option ProcessMapping)}
    {rs : List (Except String String)} {c : Cache} (h : Accounts calls rs c.metrics)
    (more : List (UInt64 × Option ProcessMapping)) :
    ∃ c', (Cache.resolveAll normalize (some c) more).2 = some c' ∧
      Accounts (calls ++ more) (rs ++ (Cache.resolveAll normalize (some c) more).1) c'.metrics := by
  induction more generalizing calls rs c with
  | nil => exact ⟨c, rfl, by simpa [Cache.resolveAll] using h⟩
  | cons call more ih =>
    obtain ⟨c₁, h₁, ha⟩ := h.resolve normalize call.1 call.2
    obtain ⟨c₂, h₂, hb⟩ := ih ha
    refine ⟨c₂, ?_, ?_⟩
    · simpa [Cache.resolveAll, h₁] using h₂
    · simpa [Cache.resolveAll, h₁] using hb

end Resolve

/-! ### `NewCache` -/

/-- The vDSO objects `NewCache` tries, in order. -/
def vdsoNames : List String := ["vdso.so", "vdso64.so"]

/-- `fmt.Sprintf("/usr/lib/modules/%s/vdso/%s", kernelVersion, vdso)`. -/
def vdsoPath (kernelVersion vdso : String) : String :=
  "/usr/lib/modules/" ++ kernelVersion ++ "/vdso/" ++ vdso

/-- The error `NewCache` adds for a candidate that does not open. -/
def openError (path err : String) : String :=
  "failed to open elf file: " ++ path ++ ", err: " ++ err

/-- The loop of `NewCache` over the candidates `vdsos`: the first object `poolOpen`
opens, with its path, or the errors of every candidate, appended to `merr` in order
as `multierr.Append` does. -/
def openFirst {Obj : Type} (poolOpen : String → Except String Obj) (kernelVersion : String) :
    List String → List String → Except (List String) (String × Obj)
  | merr, [] => .error merr
  | merr, vdso :: vdsos =>
    match poolOpen (vdsoPath kernelVersion vdso) with
    | .error err =>
      openFirst poolOpen kernelVersion (merr ++ [openError (vdsoPath kernelVersion vdso) err]) vdsos
    | .ok obj => .ok (vdsoPath kernelVersion vdso, obj)

/-- What `NewCache` calls: `metadata.KernelRelease`, `objFilePool.Open`, the
object's `ELF`, the ELF file's `DynamicSymbols`, and `symbolsearcher.New` over the
symbols. -/
structure System (Obj Elf Syms : Type) where
  kernelRelease : Except String String
  poolOpen : String → Except String Obj
  elf : Obj → Except String Elf
  dynamicSymbols : Elf → Except String Syms
  searcher : Syms → UInt64 → Except String String

/-- `NewCache`: the cache over the dynamic symbols of the first vDSO object that
opens, with new counters, or the error (the errors `multierr` collects, when no
candidate opens). -/
def newCache {Obj Elf Syms : Type} (sys : System Obj Elf Syms) : Except (List String) Cache :=
  match sys.kernelRelease with
  | .error err => .error [err]
  | .ok kernelVersion =>
    match openFirst sys.poolOpen kernelVersion [] vdsoNames with
    | .error merr => .error merr
    | .ok (path, obj) =>
      match sys.elf obj with
      | .error err => .error ["failed to get elf file: " ++ path ++ ", err: " ++ err]
      | .ok ef =>
        match sys.dynamicSymbols ef with
        | .error err => .error [err]
        | .ok syms => .ok ⟨newMetrics, sys.searcher syms, path⟩

section NewCache

variable {Obj Elf Syms : Type} (sys : System Obj Elf Syms)

/-- A cache `NewCache` builds is over a candidate that opens, with new counters. -/
theorem newCache_ok {c : Cache} (h : newCache sys = .ok c) :
    c.metrics = newMetrics ∧ ∃ kv obj, sys.kernelRelease = .ok kv ∧
      openFirst sys.poolOpen kv [] vdsoNames = .ok (c.f, obj) := by
  unfold newCache at h
  split at h
  · cases h
  · next kv hkv =>
    split at h
    · cases h
    · next path obj hopen =>
      split at h
      · cases h
      · split at h
        · cases h
        · cases h
          exact ⟨rfl, kv, obj, hkv, hopen⟩

end NewCache

/-- A host of kernel release `6.1.0` with a `vdso.so` whose one function starts at
`0x700`. -/
def sampleSystem : System Unit Unit Unit where
  kernelRelease := .ok "6.1.0"
  poolOpen _ := .ok ()
  elf _ := .ok ()
  dynamicSymbols _ := .ok ()
  searcher _ addr := if 0x700 ≤ addr ∧ addr < 0x790 then .ok "__vdso_clock_gettime" else .error "not found"

/-- A normalization that fails below the mapping's start. -/
def sampleNormalize (m : ProcessMapping) (addr : UInt64) : Except NormalizeError UInt64 :=
  if addr < m.start then .error ⟨"address out of range", true, false⟩ else .ok (addr - m.start)

/-- The vDSO mapping at `0x7fff0000`. -/
def vdsoMapping : ProcessMapping := ⟨0x7fff0000, 0x7fff2000, 0, "[vdso]", ""⟩

end Vdso

end ParcaAgent

import Mathlib.Data.Finset.Basic
import Mathlib.Logic.Function.Basic

/-!
# The profile document and the converter's collaborators

The data the converter of `pkg/pprof/pprof.go` reads and writes: the profile
document of the `pprof` schema (mappings, locations, functions, samples), the raw
samples it is fed, and the process mappings it is built from.

A Go `*Location` or `*Function` is a pointer, and the converter hands the same
pointer to every frame that shares a key. Here a location or a function is its
value. Each one the converter creates carries a fresh identifier, so two of them
are equal exactly when they are the same object, and the invariant of
`ParcaAgent.Pprof.Tracks` is what makes that true.

The collaborators (kernel-symbol resolver, address normalizer, VDSO symbolizer,
perf-map and jitdump caches) are outside the repository's core and are arbitrary
here: `ParcaAgent.Pprof.Env` answers each call as any function of the call and of
every call made before it, which covers stateful and failing collaborators alike.
-/

namespace ParcaAgent

namespace Pprof

/-! ### The profile document -/

/-- `pprofprofile.Mapping`, with the fields the converter reads or writes. -/
structure Mapping where
  id : Nat
  start : UInt64
  limit : UInt64
  file : String
  deriving DecidableEq, Repr

/-- `pprofprofile.Function`; the converter sets only its identifier and name. -/
structure Function where
  id : Nat
  name : String
  deriving DecidableEq, Repr

/-- `pprofprofile.Line`; the converter sets only its function. -/
structure Line where
  function : Function
  deriving DecidableEq, Repr

/-- `pprofprofile.Location`: an address-only location has no line, a symbolized
one has a single line and address `0`. -/
structure Location where
  id : Nat
  mapping : Mapping
  address : UInt64
  line : List Line
  deriving DecidableEq, Repr

/-- `pprofprofile.ValueType`. -/
structure ValueType where
  type : String
  unit : String
  deriving DecidableEq, Repr

/-- `pprofprofile.Sample`. -/
structure Sample where
  value : List Int
  location : List Location
  deriving DecidableEq, Repr

/-- `pprofprofile.Profile`, with the fields the converter sets. The duration is
read from the clock when the converter is built, so it is an input here. -/
structure Profile where
  timeNanos : Int
  durationNanos : Int
  period : Int
  sampleType : List ValueType
  periodType : ValueType
  mapping : List Mapping
  location : List Location
  function : List Function
  sample : List Sample
  deriving Repr

/-! ### The converter's inputs -/

/-- `profile.RawSample`: a sample count and two stacks of instruction pointers,
leaf first. -/
structure RawSample where
  value : UInt64
  userStack : List UInt64
  kernelStack : List UInt64
  deriving DecidableEq, Repr

/-- `process.Mapping`: one region of the target process's address space. The
converter only hands it to its collaborators and to `convertToPprof`. -/
structure ProcessMapping where
  start : UInt64
  limit : UInt64
  offset : UInt64
  file : String
  buildID : String
  deriving DecidableEq, Repr

/-- Modelled from the spec: `process.Mappings.ConvertToPprof`, which is not in
the sources. "The sequence of profile mappings mirrors the process mappings",
in order, with 1-based identifiers. -/
def convertToPprof (ms : List ProcessMapping) : List Mapping :=
  ms.mapIdx fun i m => { id := i + 1, start := m.start, limit := m.limit, file := m.file }

@[simp] theorem length_convertToPprof (ms : List ProcessMapping) :
    (convertToPprof ms).length = ms.length := by
  simp [convertToPprof]

theorem getElem?_convertToPprof (ms : List ProcessMapping) (i : Nat) (h : i < ms.length) :
    (convertToPprof ms)[i]? =
      some { id := i + 1, start := ms[i].start, limit := ms[i].limit, file := ms[i].file } := by
  simp [convertToPprof, h]

/-- `int64(v)`: the raw count read as a signed 64-bit integer. -/
def toInt64 (v : UInt64) : Int := v.toBitVec.toInt

/-- `strings.HasSuffix`, on the characters of the two strings. -/
def hasSuffix (s suffix : String) : Bool := suffix.data.isSuffixOf s.data

/-! ### The collaborators -/

/-- A `*perf.Map`: a symbol table answering lookups by address. -/
structure PerfMap where
  lookup : UInt64 → Except String String

/-- A call the converter makes to one of its collaborators. -/
inductive Call
  /-- `ksym.Resolve` on a set of kernel addresses. -/
  | ksymResolve (addrs : Finset UInt64)
  /-- `addressNormalizer.Normalize`. -/
  | normalize (m : ProcessMapping) (addr : UInt64)
  /-- `vdsoSymbolizer.Resolve`. -/
  | vdsoResolve (addr : UInt64) (m : ProcessMapping)
  /-- `perfMapCache.PerfMapForPID`. -/
  | perfMapForPID (pid : Int)
  /-- `jitdumpCache.JitdumpForPID`. -/
  | jitdumpForPID (pid : Int) (path : String)
  deriving DecidableEq

/-- The collaborators' behaviour: each answer may depend on the call and on every
call made before it. A Go `(value, error)` pair whose value is dropped on error is
an `Except`; the caches' pairs are kept whole, since the converter reads both
halves. -/
structure Env where
  ksymResolve : List Call → Finset UInt64 → Except String (UInt64 → Option String)
  normalize : List Call → ProcessMapping → UInt64 → Except String UInt64
  vdsoResolve : List Call → UInt64 → ProcessMapping → Except String String
  perfMapForPID : List Call → Int → Option PerfMap × Option String
  jitdumpForPID : List Call → Int → String → Option PerfMap × Option String

end Pprof

end ParcaAgent

import ParcaAgent.Pprof.Route
import Mathlib.Data.Finset.Card

/-!
# Filing frames

`ParcaAgent.Pprof.Converter.addLocation` keeps a dedup table keyed by
`ParcaAgent.Pprof.LocKey`, and `ParcaAgent.Pprof.Converter.addFunction` one keyed
by name. `ParcaAgent.Pprof.Tracks fs c` says what the indexes and tables of `c`
hold once the frames `fs` are filed: a location exactly for each key met, each
with its position as identifier, the mapping of the first frame filed under its
key and the shape its key gives it; a function exactly for each name, each used by
a line. It holds of an empty converter, `ParcaAgent.Pprof.Tracks.addLocation` is
the step and `ParcaAgent.Pprof.Tracks.internFrames` the run.

The index only grows (`ParcaAgent.Pprof.Converter.location_addLocation_of_eq_some`),
so the location a frame receives is the one its key holds at the end.
-/

namespace ParcaAgent

namespace Pprof

/-! ### Dense identifiers -/

/-- Identifiers `1, 2, …` in table order, as pprof numbers its tables. -/
def DenseIds {α : Type} (id : α → Nat) (xs : List α) : Prop :=
  ∀ i (h : i < xs.length), id xs[i] = i + 1

section DenseIds

variable {α : Type} {id : α → Nat} {xs : List α}

@[simp] theorem denseIds_nil : DenseIds id ([] : List α) := fun _ h => absurd h (by simp)

theorem DenseIds.append (h : DenseIds id xs) {x : α} (hx : id x = xs.length + 1) :
    DenseIds id (xs ++ [x]) := by
  intro i hi
  simp only [List.length_append, List.length_singleton] at hi
  rcases Nat.lt_or_ge i xs.length with hlt | hge
  · rw [List.getElem_append_left hlt]
    exact h i hlt
  · rw [List.getElem_append_right hge]
    simp only [List.getElem_singleton]
    omega

theorem DenseIds.id_le (h : DenseIds id xs) {x : α} (hx : x ∈ xs) : id x ≤ xs.length := by
  obtain ⟨i, hi, rfl⟩ := List.getElem_of_mem hx
  rw [h i hi]
  exact hi

/-- Dense identifiers tell the entries apart: no object occurs twice. -/
theorem DenseIds.nodup (h : DenseIds id xs) : xs.Nodup := by
  refine List.nodup_iff_injective_get.mpr fun i j hij => Fin.ext ?_
  have := congrArg id hij
  simp only [List.get_eq_getElem, h i i.isLt, h j j.isLt] at this
  omega

end DenseIds

/-! ### The function table -/

/-- The function table and its index agree: identifiers are positions, and the
index holds exactly the functions of the table, by name. -/
structure FunctionTable (c : Converter) : Prop where
  id_eq : DenseIds Function.id c.result.function
  index_iff : ∀ n f, c.index.functionIndex n = some f ↔ f ∈ c.result.function ∧ f.name = n

section Functions

variable {c : Converter}

theorem FunctionTable.congr {c' : Converter} (h : FunctionTable c)
    (hf : c'.result.function = c.result.function)
    (hi : c'.index.functionIndex = c.index.functionIndex) : FunctionTable c' :=
  ⟨hf ▸ h.id_eq, fun n f => by rw [hi, hf]; exact h.index_iff n f⟩

/-- No two functions of the table share a name. -/
theorem FunctionTable.eq_of_name_eq (h : FunctionTable c) {f f' : Function}
    (hf : f ∈ c.result.function) (hf' : f' ∈ c.result.function) (hn : f.name = f'.name) :
    f = f' := by
  have h1 := (h.index_iff f.name f).mpr ⟨hf, rfl⟩
  have h2 := (h.index_iff f.name f').mpr ⟨hf', hn.symm⟩
  exact Option.some_injective _ (h1.symm.trans h2)

theorem FunctionTable.nodup_names (h : FunctionTable c) :
    (c.result.function.map Function.name).Nodup :=
  h.id_eq.nodup.map_on fun _ hf _ hf' => h.eq_of_name_eq hf hf'

@[simp] theorem Converter.addFunction_location (name : String) :
    (c.addFunction name).2.result.location = c.result.location := by
  obtain ⟨I, F, h⟩ := c.addFunction_frame name
  rw [h]

@[simp] theorem Converter.addFunction_index_location (name : String) :
    (c.addFunction name).2.index.location = c.index.location := by
  unfold Converter.addFunction
  split
  · rfl
  · funext k
    cases k <;> rfl

/-- **The step of the function table**: `addFunction` returns a function of the
table with the name asked, and adds at most that one. -/
theorem FunctionTable.addFunction (h : FunctionTable c) (name : String) :
    FunctionTable (c.addFunction name).2 ∧
      (c.addFunction name).1 ∈ (c.addFunction name).2.result.function ∧
      (c.addFunction name).1.name = name ∧
      ∀ f, f ∈ (c.addFunction name).2.result.function ↔
        f ∈ c.result.function ∨ f = (c.addFunction name).1 := by
  unfold Converter.addFunction
  split
  · next f hf =>
    obtain ⟨hm, hn⟩ := (h.index_iff name f).mp hf
    exact ⟨h, hm, hn, fun f' => ⟨Or.inl, fun h' => h'.elim id (· ▸ hm)⟩⟩
  · next hf =>
    refine ⟨⟨h.id_eq.append rfl, fun n f => ?_⟩, by simp, rfl, fun f => by simp⟩
    · simp only [Function.update_apply, List.mem_append, List.mem_singleton]
      split
      · next hn =>
        subst hn
        constructor
        · rintro ⟨⟩
          exact ⟨Or.inr rfl, rfl⟩
        · rintro ⟨hm | rfl, hn'⟩
          · exact absurd ((h.index_iff _ f).mpr ⟨hm, hn'⟩) (by simp [hf])
          · rfl
      · next hn =>
        rw [h.index_iff]
        constructor
        · rintro ⟨hm, rfl⟩
          exact ⟨Or.inl hm, rfl⟩
        · rintro ⟨hm | rfl, rfl⟩
          · exact ⟨hm, rfl⟩
          · exact absurd rfl hn

@[simp] theorem Converter.newLines_location (k : LocKey) :
    (c.newLines k).2.result.location = c.result.location := by
  unfold Converter.newLines
  split <;> simp

@[simp] theorem Converter.newLines_index_location (k : LocKey) :
    (c.newLines k).2.index.location = c.index.location := by
  unfold Converter.newLines
  split <;> simp

/-- **The lines of a new location**: they name the key's symbol, their functions
are in the table, and they bring the only functions added. -/
theorem FunctionTable.newLines (h : FunctionTable c) (k : LocKey) :
    FunctionTable (c.newLines k).2 ∧
      (c.newLines k).1.map (·.function.name) = k.symbol.toList ∧
      (∀ ln ∈ (c.newLines k).1, ln.function ∈ (c.newLines k).2.result.function) ∧
      ∀ f, f ∈ (c.newLines k).2.result.function ↔
        f ∈ c.result.function ∨ ∃ ln ∈ (c.newLines k).1, ln.function = f := by
  unfold Converter.newLines
  split
  · next hk => simp [h, hk]
  · next name hk =>
    obtain ⟨h1, h2, h3, h4⟩ := h.addFunction name
    refine ⟨h1, by simp [h3, hk], by simpa using h2, fun f => ?_⟩
    rw [h4]
    simp [eq_comm]

end Functions

/-! ### The location table -/

/-- The mapping of the first frame filed under a key. -/
def firstMapping (fs : List (LocKey × Mapping)) (k : LocKey) : Option Mapping :=
  (fs.find? fun f => f.1 = k).map Prod.snd

theorem firstMapping_append_of_mem {fs : List (LocKey × Mapping)} {k : LocKey}
    (hk : k ∈ fs.map Prod.fst) (gs : List (LocKey × Mapping)) :
    firstMapping (fs ++ gs) k = firstMapping fs k := by
  obtain ⟨f, hf, rfl⟩ := List.mem_map.mp hk
  have : (fs.find? fun g => g.1 = f.1).isSome := List.find?_isSome.mpr ⟨f, hf, by simp⟩
  obtain ⟨g, hg⟩ := Option.isSome_iff_exists.mp this
  simp [firstMapping, List.find?_append, hg]

theorem firstMapping_append_of_not_mem {fs : List (LocKey × Mapping)} {k : LocKey}
    (hk : k ∉ fs.map Prod.fst) (m : Mapping) : firstMapping (fs ++ [(k, m)]) k = some m := by
  have : fs.find? (fun g => g.1 = k) = none := List.find?_eq_none.mpr fun g hg h =>
    hk (List.mem_map.mpr ⟨g, hg, by simpa using h⟩)
  simp [firstMapping, List.find?_append, this]

/-- **What the indexes and tables hold once the frames `fs` are filed**: a
location exactly for each key met, numbered by position, with the mapping of the
first frame filed under its key and the address and line its key gives it; the
function table in order, each function used by a line. -/
structure Tracks (fs : List (LocKey × Mapping)) (c : Converter) : Prop where
  functions : FunctionTable c
  id_eq : DenseIds Location.id c.result.location
  isSome_iff : ∀ k, (c.index.location k).isSome ↔ k ∈ fs.map Prod.fst
  index_mem : ∀ k l, c.index.location k = some l → l ∈ c.result.location
  mem_index : ∀ l ∈ c.result.location, ∃ k, c.index.location k = some l
  index_inj : ∀ k k' l, c.index.location k = some l → c.index.location k' = some l → k = k'
  mapping_eq : ∀ k l, c.index.location k = some l → firstMapping fs k = some l.mapping
  address_eq : ∀ k l, c.index.location k = some l → l.address = k.address
  names_eq : ∀ k l, c.index.location k = some l → l.line.map (·.function.name) = k.symbol.toList
  line_mem : ∀ l ∈ c.result.location, ∀ ln ∈ l.line, ln.function ∈ c.result.function
  function_used : ∀ f ∈ c.result.function, ∃ l ∈ c.result.location, ∃ ln ∈ l.line, ln.function = f

section Step

variable {c : Converter} {fs : List (LocKey × Mapping)}

/-- An empty converter has filed nothing. -/
theorem tracks_empty (h : c.index = Index.empty) (hl : c.result.location = [])
    (hf : c.result.function = []) : Tracks [] c where
  functions := ⟨by simp [hf], by simp [h, hf, Index.empty]⟩
  id_eq := by simp [hl]
  isSome_iff := by simp [h]
  index_mem := by simp [h]
  mem_index := by simp [hl]
  index_inj := by simp [h]
  mapping_eq := by simp [h]
  address_eq := by simp [h]
  names_eq := by simp [h]
  line_mem := by simp [hl]
  function_used := by simp [hf]

/-- The index only grows: a key keeps its location. -/
theorem Converter.location_addLocation_of_eq_some {k k' : LocKey} {l : Location} (m : Mapping)
    (h : c.index.location k' = some l) : (c.addLocation k m).2.index.location k' = some l := by
  unfold Converter.addLocation
  split
  · exact h
  · next hk =>
    simp only [Index.location_setLocation, Converter.newLines_index_location, h]
    split
    · next he => exact absurd (he ▸ h) (by simp [hk])
    · rfl

/-- The location `addLocation` returns is the one its key holds after it. -/
theorem Converter.location_addLocation_self (k : LocKey) (m : Mapping) :
    (c.addLocation k m).2.index.location k = some (c.addLocation k m).1 := by
  unfold Converter.addLocation
  split
  · next l hl => exact hl
  · simp

/-- **The step**: filing one more frame keeps the tables tracking the frames. -/
theorem Tracks.addLocation (h : Tracks fs c) (k : LocKey) (m : Mapping) :
    Tracks (fs ++ [(k, m)]) (c.addLocation k m).2 := by
  cases hk : c.index.location k with
  | some l =>
    have hmem : k ∈ fs.map Prod.fst := (h.isSome_iff k).mp (by simp [hk])
    have he : c.addLocation k m = (l, c) := by simp [Converter.addLocation, hk]
    rw [he]
    refine { h with isSome_iff := fun k' => ?_, mapping_eq := fun k' l' h' => ?_ }
    · rw [h.isSome_iff]
      simp only [List.map_append, List.map_singleton, List.mem_append, List.mem_singleton]
      exact ⟨Or.inl, fun h' => h'.elim id (· ▸ hmem)⟩
    · rw [firstMapping_append_of_mem ((h.isSome_iff k').mp (by simp [h']))]
      exact h.mapping_eq k' l' h'
  | none =>
    have hnot : k ∉ fs.map Prod.fst := fun hm => by simpa [hk] using (h.isSome_iff k).mpr hm
    obtain ⟨hF, hnames, hlines, hfun⟩ := h.functions.newLines k
    set L : Location := ⟨c.result.location.length + 1, m, k.address, (c.newLines k).1⟩
    have hLnew : L ∉ c.result.location := fun hm => by
      have := h.id_eq.id_le hm
      simp only [L] at this
      omega
    have he : (c.addLocation k m).2 = { (c.newLines k).2 with
        index := (c.newLines k).2.index.setLocation L k
        result := { (c.newLines k).2.result with location := c.result.location ++ [L] } } := by
      simp [Converter.addLocation, hk, L]
    have hidx : ∀ k', (c.addLocation k m).2.index.location k' =
        if k' = k then some L else c.index.location k' := by
      simp [he]
    have hold : ∀ k' l', c.index.location k' = some l' → k' ≠ k := by
      rintro k' l' h' rfl
      simp [hk] at h'
    have hloc : (c.addLocation k m).2.result.location = c.result.location ++ [L] := by simp [he]
    have hfn : (c.addLocation k m).2.result.function = (c.newLines k).2.result.function := by
      simp [he]
    constructor
    · exact hF.congr hfn (by simp [he])
    · rw [hloc]
      exact h.id_eq.append rfl
    · intro k'
      rw [hidx]
      by_cases hk' : k' = k
      · simp [hk']
      · simp [hk', h.isSome_iff]
    · intro k' l' h'
      rw [hidx] at h'
      rw [hloc]
      split at h'
      · simp_all
      · exact List.mem_append_left _ (h.index_mem k' l' h')
    · intro l' hl'
      rw [hloc, List.mem_append, List.mem_singleton] at hl'
      rcases hl' with hl' | rfl
      · obtain ⟨k', hk'⟩ := h.mem_index l' hl'
        exact ⟨k', by rw [hidx, if_neg (hold k' l' hk'), hk']⟩
      · exact ⟨k, by simp [hidx]⟩
    · intro k1 k2 l' h1 h2
      rw [hidx] at h1 h2
      split at h1 <;> split at h2
      · simp_all
      · obtain rfl := Option.some.inj h1
        exact absurd (h.index_mem k2 _ h2) hLnew
      · obtain rfl := Option.some.inj h2
        exact absurd (h.index_mem k1 _ h1) hLnew
      · exact h.index_inj k1 k2 l' h1 h2
    · intro k' l' h'
      rw [hidx] at h'
      split at h'
      · next hk' =>
        subst hk'
        obtain rfl := Option.some.inj h'
        exact firstMapping_append_of_not_mem hnot m
      · rw [firstMapping_append_of_mem ((h.isSome_iff k').mp (by simp [h']))]
        exact h.mapping_eq k' l' h'
    · intro k' l' h'
      rw [hidx] at h'
      split at h'
      · next hk' =>
        obtain rfl := Option.some.inj h'
        simp [L, hk']
      · exact h.address_eq k' l' h'
    · intro k' l' h'
      rw [hidx] at h'
      split at h'
      · next hk' =>
        obtain rfl := Option.some.inj h'
        simp [L, hk', hnames]
      · exact h.names_eq k' l' h'
    · intro l' hl' ln hln
      rw [hloc, List.mem_append, List.mem_singleton] at hl'
      rw [hfn]
      rcases hl' with hl' | rfl
      · exact (hfun _).mpr (Or.inl (h.line_mem l' hl' ln hln))
      · exact hlines ln hln
    · intro f hf
      rw [hfn, hfun] at hf
      rw [hloc]
      rcases hf with hf | ⟨ln, hln, rfl⟩
      · obtain ⟨l', hl', ln, hln, rfl⟩ := h.function_used f hf
        exact ⟨l', List.mem_append_left _ hl', ln, hln, rfl⟩
      · exact ⟨L, by simp, ln, hln, rfl⟩

/-- Tracking reads only the indexes and the location and function tables. -/
theorem Tracks.congr {c' : Converter} (h : Tracks fs c) (hi : c'.index = c.index)
    (hl : c'.result.location = c.result.location) (hf : c'.result.function = c.result.function) :
    Tracks fs c' := by
  obtain ⟨⟨h0, h1⟩, h2, h3, h4, h5, h6, h7, h8, h9, h10, h11⟩ := h
  exact ⟨⟨hf ▸ h0, hi ▸ hf ▸ h1⟩, hl ▸ h2, hi ▸ h3, hi ▸ hl ▸ h4, hi ▸ hl ▸ h5, hi ▸ h6,
    hi ▸ h7, hi ▸ h8, hi ▸ h9, hl ▸ hf ▸ h10, hl ▸ hf ▸ h11⟩

end Step

/-! ### Runs of filing -/

section Run

variable {fs : List (LocKey × Mapping)}

/-- **The run**: filing a list of frames keeps the tables tracking all frames. -/
theorem Tracks.internFrames {c : Converter} (h : Tracks fs c) (gs : List (LocKey × Mapping)) :
    Tracks (fs ++ gs) (c.internFrames gs).2 := by
  induction gs generalizing fs c with
  | nil => simpa using h
  | cons g gs ih =>
    have := ih (h.addLocation g.1 g.2)
    simpa [Converter.internFrames_cons] using this

theorem Converter.location_internFrames_of_eq_some {c : Converter} {k : LocKey} {l : Location}
    (gs : List (LocKey × Mapping)) (h : c.index.location k = some l) :
    (c.internFrames gs).2.index.location k = some l := by
  induction gs generalizing c with
  | nil => exact h
  | cons g gs ih => exact ih (location_addLocation_of_eq_some g.2 h)

/-- Each frame receives the location its key holds once all are filed. -/
theorem Converter.internFrames_forall₂ (c : Converter) (gs : List (LocKey × Mapping)) :
    List.Forall₂ (fun l g => (c.internFrames gs).2.index.location g.1 = some l)
      (c.internFrames gs).1 gs := by
  induction gs generalizing c with
  | nil => exact .nil
  | cons g gs ih =>
    exact .cons (location_internFrames_of_eq_some gs (location_addLocation_self g.1 g.2)) (ih _)

@[simp] theorem Converter.pushSample_index (c : Converter) (sample : RawSample)
    (ls : List Location) : (c.pushSample sample ls).index = c.index := rfl

@[simp] theorem Converter.pushSample_result_location (c : Converter) (sample : RawSample)
    (ls : List Location) : (c.pushSample sample ls).result.location = c.result.location := rfl

@[simp] theorem Converter.pushSample_result_function (c : Converter) (sample : RawSample)
    (ls : List Location) : (c.pushSample sample ls).result.function = c.result.function := rfl

theorem Tracks.internSamples {c : Converter} (h : Tracks fs c) (rawData : List RawSample)
    (fss : List (List (LocKey × Mapping))) (hlen : rawData.length = fss.length) :
    Tracks (fs ++ fss.flatten) (c.internSamples rawData fss) := by
  induction rawData generalizing fs fss c with
  | nil =>
    cases fss with
    | nil => simpa [Converter.internSamples] using h
    | cons => simp at hlen
  | cons sample rawData ih =>
    cases fss with
    | nil => simp at hlen
    | cons gs fss =>
      have h1 : Tracks (fs ++ gs) ((c.internFrames gs).2.pushSample sample (c.internFrames gs).1) :=
        (h.internFrames gs).congr rfl rfl rfl
      simpa [Converter.internSamples] using ih h1 fss (by simpa using hlen)

theorem Converter.location_internSamples_of_eq_some {c : Converter} {k : LocKey} {l : Location}
    (rawData : List RawSample) (fss : List (List (LocKey × Mapping)))
    (h : c.index.location k = some l) : (c.internSamples rawData fss).index.location k = some l := by
  induction rawData generalizing fss c with
  | nil => exact h
  | cons sample rawData ih =>
    cases fss with
    | nil => exact h
    | cons gs fss => exact ih fss (location_internFrames_of_eq_some gs h)

/-- **The samples of a run of filing**: one per raw sample, carrying its value and,
frame by frame, the location the frame's key holds at the end. -/
theorem Converter.internSamples_sample (c : Converter) (rawData : List RawSample)
    (fss : List (List (LocKey × Mapping))) (hlen : rawData.length = fss.length) :
    ∃ ss, (c.internSamples rawData fss).result.sample = c.result.sample ++ ss ∧
      List.Forall₂ (fun s (r : RawSample) => s.value = [toInt64 r.value]) ss rawData ∧
      List.Forall₂ (fun s gs => List.Forall₂
          (fun l g => (c.internSamples rawData fss).index.location g.1 = some l) s.location gs)
        ss fss := by
  induction rawData generalizing fss c with
  | nil =>
    obtain rfl := List.length_eq_zero.mp hlen.symm
    exact ⟨[], by simp [internSamples], .nil, .nil⟩
  | cons sample rawData ih =>
    cases fss with
    | nil => simp at hlen
    | cons gs fss =>
      obtain ⟨ss, hss, hv, hl⟩ := ih ((c.internFrames gs).2.pushSample sample (c.internFrames gs).1)
        fss (by simpa using hlen)
      refine ⟨{ value := [toInt64 sample.value], location := (c.internFrames gs).1 } :: ss,
        by simp only [internSamples]; rw [hss]; simp [pushSample], .cons rfl hv, .cons ?_ hl⟩
      exact (c.internFrames_forall₂ gs).imp fun l g hl =>
        location_internSamples_of_eq_some (c := (c.internFrames gs).2.pushSample sample _) rawData
          fss hl

end Run

/-! ### What the tables count -/

section Counting

variable {fs : List (LocKey × Mapping)} {c : Converter}

/-- Two keys hold the same location exactly when they are the same key. -/
theorem Tracks.location_eq_iff (h : Tracks fs c) {k k' : LocKey} {l l' : Location}
    (hk : c.index.location k = some l) (hk' : c.index.location k' = some l') :
    l = l' ↔ k = k' :=
  ⟨fun e => h.index_inj k k' l hk (e ▸ hk'), fun e => Option.some_injective _ (hk.symm.trans (e ▸ hk'))⟩

/-- **One location per key met.** -/
theorem Tracks.length_location (h : Tracks fs c) :
    c.result.location.length = (fs.map Prod.fst).toFinset.card := by
  have hsome : ∀ k ∈ (fs.map Prod.fst).toFinset, ∃ l, c.index.location k = some l := fun k hk =>
    Option.isSome_iff_exists.mp ((h.isSome_iff k).mpr (List.mem_toFinset.mp hk))
  have hinj : Set.InjOn c.index.location (fs.map Prod.fst).toFinset := fun k hk k' _ e => by
    obtain ⟨l, hl⟩ := hsome k hk
    exact h.index_inj k k' l hl (e ▸ hl)
  have himage : (fs.map Prod.fst).toFinset.image c.index.location =
      c.result.location.toFinset.image some := by
    ext o
    simp only [Finset.mem_image, List.mem_toFinset]
    constructor
    · rintro ⟨k, hk, rfl⟩
      obtain ⟨l, hl⟩ := hsome k (List.mem_toFinset.mpr hk)
      exact ⟨l, h.index_mem k l hl, hl.symm⟩
    · rintro ⟨l, hl, rfl⟩
      obtain ⟨k, hk⟩ := h.mem_index l hl
      exact ⟨k, (h.isSome_iff k).mp (by simp [hk]), hk⟩
  rw [← List.toFinset_card_of_nodup h.id_eq.nodup,
    ← Finset.card_image_of_injective _ (Option.some_injective _), ← himage,
    Finset.card_image_of_injOn hinj]

/-- **One function per name the lines carry.** -/
theorem Tracks.length_function (h : Tracks fs c) :
    c.result.function.length =
      (c.result.location.flatMap fun l => l.line.map (·.function.name)).toFinset.card := by
  have hnames : (c.result.function.map Function.name).toFinset =
      (c.result.location.flatMap fun l => l.line.map (·.function.name)).toFinset := by
    ext n
    simp only [List.mem_toFinset, List.mem_map, List.mem_flatMap]
    constructor
    · rintro ⟨f, hf, rfl⟩
      obtain ⟨l, hl, ln, hln, rfl⟩ := h.function_used f hf
      exact ⟨l, hl, ln, hln, rfl⟩
    · rintro ⟨l, hl, ln, hln, rfl⟩
      exact ⟨ln.function, h.line_mem l hl ln hln, rfl⟩
  rw [← hnames, List.toFinset_card_of_nodup h.functions.nodup_names, List.length_map]

end Counting

end Pprof

end ParcaAgent

import ParcaAgent.Debuginfo.Outcomes

/-!
# The should-initiate cache

A reply that tells the manager not to upload `b` puts `b` in
`shouldInitiateCache`: `ShouldInitiateUpload(b)` answered false, or
`InitiateUpload` failed with `AlreadyExists`. With the cache on, `b` stays there
until its entry is evicted or expires (`ParcaAgent.Debuginfo.Outcomes.kept`), and
while it does, `EnsureUploaded` on any file of build ID `b` returns nil in its
first step, counted as shared, with no request, no search for a debug file, no
extraction and no upload (`ParcaAgent.Debuginfo.ensureUploaded_noop_while_cached`).

Nothing else puts a build ID in the cache. A full upload ends with
`MarkUploadFinished` and caches nothing; so does a check that failed open; and a
debug file found under another build ID is cached, if at all, under that one. The
next `EnsureUploaded` then asks the server again
(`ParcaAgent.Debuginfo.second_ensureUploaded_asks_after_upload`).
-/

namespace ParcaAgent

namespace Debuginfo

variable (cfg : Config)

/-- `EnsureUploaded` at its gate, on a file whose build ID is cached: its only step
reads nothing from outside, returns nil, and counts the call as shared. -/
theorem step_ensureGate_cached {s : State} {t src : Nat} {f : ObjectFile}
    (ht : s.threads[t]? = some (.ensureGate src)) (hf : s.sources[src]? = some f)
    (hb : f.buildID ∈ s.shouldInitiateCache) :
    step cfg s (.thread t .none) =
        some { s with
          threads := s.threads.set t .done
          ensureShared := s.ensureShared + 1
          log := s.log ++ [.cacheHit (.gate t) f.buildID, .ensureReturned t src (.ok ())] } ∧
      ∀ a, a ≠ .none → step cfg s (.thread t a) = none := by
  refine ⟨by simp [step, ht, threadStep, hf, hb], fun a ha => ?_⟩
  simp only [step, ht, Option.some_bind, threadStep]
  split
  · exact absurd rfl ha
  · rfl

/-- **A cached build ID makes `EnsureUploaded` a no-op.** With the cache on, once a
reply has put `b` in the cache (`ShouldInitiateUpload(b)` answered false, or
`InitiateUpload` of a file of build ID `b` failed with `AlreadyExists`), and as long
as `b` has not been evicted since, the step of an `EnsureUploaded` at its gate on a
file of build ID `b` returns nil, increments `ensure_uploaded_requests{shared}`, and
logs no request; no other answer lets it move. And every build ID in the cache is
there by one of those two replies, which the log holds. -/
theorem ensureUploaded_noop_while_cached (files : List ObjectFile) (s : State)
    (hs : Reachable cfg files s) (hon : cfg.cacheDisabled = false) (l₁ l₂ : List Event) (e : Event)
    (b : String) (hlog : s.log = l₁ ++ e :: l₂) (he : e.caches = some b) (hev : .evicted b ∉ l₂)
    (t src : Nat) (f : ObjectFile) (ht : s.threads[t]? = some (.ensureGate src))
    (hf : s.sources[src]? = some f) (hfb : f.buildID = b) :
    step cfg s (.thread t .none) =
        some { s with
          threads := s.threads.set t .done
          ensureShared := s.ensureShared + 1
          log := s.log ++ [.cacheHit (.gate t) b, .ensureReturned t src (.ok ())] } ∧
      (∀ a, a ≠ .none → step cfg s (.thread t a) = none) ∧
      ∀ b' ∈ s.shouldInitiateCache, Cached s.log b' := by
  subst hfb
  have hi := hs.outcomeInv cfg
  obtain ⟨hstep, hnone⟩ :=
    step_ensureGate_cached cfg ht hf (hi.kept (by simp [hon]) l₁ e l₂ _ hlog he hev)
  exact ⟨hstep, hnone, hi.cached⟩

/-- The server says no to the first `EnsureUploaded`, and a second one starts. -/
def answeredNo : List Action :=
  [.spawn (.ensureUploaded 0), .thread 0 .none, .thread 0 (.rpc (.ok false)),
    .spawn (.ensureUploaded 0)]

theorem ensureUploaded_noop_while_cached_answeredNo :
    ∃ s, Reachable sampleConfig [probeFile] s ∧
      (step sampleConfig s (.thread 1 .none) =
          some { s with
            threads := s.threads.set 1 .done
            ensureShared := s.ensureShared + 1
            log := s.log ++ [.cacheHit (.gate 1) "b", .ensureReturned 1 0 (.ok ())] } ∧
        (∀ a, a ≠ .none → step sampleConfig s (.thread 1 a) = none) ∧
        ∀ b' ∈ s.shouldInitiateCache, Cached s.log b') := by
  obtain ⟨s, hs, h⟩ := reach_of_run sampleConfig [probeFile] answeredNo
    (p := fun s => decide (s.log = [Event.asked (.gate 0) "b" (.ok false), Event.ensureReturned 0 0 (.ok ())] ∧
      s.sources = [probeFile] ∧ s.threads[1]? = some (Pc.ensureGate 0))) (by decide)
  obtain ⟨hlog, hsrc, ht⟩ := of_decide_eq_true h
  exact ⟨s, hs, ensureUploaded_noop_while_cached sampleConfig [probeFile] s hs rfl [] _
    (.asked (.gate 0) "b" (.ok false)) "b" hlog (by decide) (by decide) 1 0 probeFile ht
    (by rw [hsrc]; rfl) rfl⟩

/-- After a full upload, `EnsureUploaded` of the same file returned nil and nothing
was evicted, yet a second `EnsureUploaded` of it goes on to ask the server. -/
theorem second_ensureUploaded_asks_after_upload :
    ∃ s, Reachable sampleConfig [probeFile] s ∧ .ensureReturned 0 0 (.ok ()) ∈ s.log ∧
      .evicted probeFile.buildID ∉ s.log ∧ s.threads[1]? = some (.ensureGate 0) ∧
      (step sampleConfig s (.thread 1 .none)).map (·.threads[1]?) = some (some (.ensureAsk 0)) := by
  obtain ⟨s, hs, h⟩ := reach_of_run sampleConfig [probeFile] fullUpload
    (p := fun s => decide (Event.ensureReturned 0 0 (.ok ()) ∈ s.log ∧
      Event.evicted probeFile.buildID ∉ s.log ∧ s.threads[1]? = some (Pc.ensureGate 0) ∧
      (step sampleConfig s (.thread 1 .none)).map (·.threads[1]?) = some (some (Pc.ensureAsk 0))))
    (by decide)
  exact ⟨s, hs, of_decide_eq_true h⟩

end Debuginfo

end ParcaAgent

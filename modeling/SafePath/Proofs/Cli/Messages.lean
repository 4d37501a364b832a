import SafePath.Proofs.Cli.Batch
import SafePath.Proofs.Log.Messages
import SafePath.Proofs.Path.Messages

/-!
# A name cannot forge a record

Names reach the messages of a batch by three ways: the records of their blocks and of the functions that
build their paths, the reports of success and failure, and the list of failures at the end.  On each of
them a name and a path are quoted, and an error is told in fixed wording, so no message of a batch holds a
line break or any other control, whatever the names are (`runBatch_messages_shown`).  The one message with
text from elsewhere is about the memory in use, if that cannot be read.
-/

namespace SafePath.Cli

open Log Text

/-- The reason of a failure is safe to show; its name is quoted anyhow. -/
def Failure.IsShown (failure : Failure) : Prop := failure.reason.IsShown

section
variable (settings : BatchSettings)

theorem isShown_of_failureOf? {name : Text} {failure : Failure} (h : failureOf? settings name = some failure) :
    failure.IsShown := by
  unfold failureOf? at h
  split at h
  · next error herror =>
    cases h
    exact (isShown_pathOfRawName settings.limits _ _ (.text name) settings.asciiOnly).error _ herror
  · cases h

theorem adds_buildPath (name : Text) (p : Progress) : p.Adds IsShown (buildPath settings name p).2 :=
  Journal.adds_append (isShown_pathOfRawName settings.limits _ _ (.text name) settings.asciiOnly).record p.journal

/-- The block of a name shows the name quoted. -/
theorem adds_within_buildPath (name : Text) (p : Progress) :
    p.Adds IsShown (p.within Fault.message .name name (buildPath settings name)).2 :=
  Progress.adds_within nofun rfl (adds_buildPath settings name _) nofun

theorem adds_reportPath (name path : Text) (p : Progress) : p.Adds IsShown (reportPath name path p) := by
  have hlog : p.Adds IsShown (p.log .debug ("[SUCCESS] " ++ name.quoted ++ " -> " ++ path.quoted)) := by
    refine Progress.adds_log ?_ .debug p
    simp +decide only [isShown_append_iff, isShown_quoted, and_self]
  exact hlog.trans (Journal.adds_put_line IsShown path _)

theorem adds_reportFailure {failure : Failure} (h : failure.IsShown) (p : Progress) :
    p.Adds IsShown (reportFailure failure p) := by
  refine Progress.adds_log ?_ .error p
  simp +decide only [isShown_append_iff, isShown_quoted, show failure.reason.IsShown from h, and_self]

/-- Every name adds the messages of its block and one report. -/
theorem adds_handleNames (names : List Text) (p : Progress) :
    p.Adds IsShown (handleNames settings p names).2 := by
  induction names generalizing p with
  | nil => exact Journal.Adds.refl IsShown p.journal
  | cons name rest ih =>
    have hblock := adds_within_buildPath settings name p
    obtain ⟨q, hq, -⟩ := exists_within_buildPath settings name p
    rw [handleNames]
    rw [hq] at hblock ⊢
    rcases built_cases settings name with ⟨path, h, -, -, -⟩ | ⟨error, h, -, hfailure⟩
    · rw [h]
      exact (hblock.trans (adds_reportPath name path q)).trans (ih _)
    · rw [h]
      have hreport := adds_reportFailure (isShown_of_failureOf? settings hfailure) q
      exact (hblock.trans hreport).trans (ih _)

theorem adds_listFailures {failures : List Failure} (h : ∀ failure ∈ failures, failure.IsShown)
    (p : Progress) : p.Adds IsShown (listFailures failures p) := by
  unfold listFailures
  split
  · exact Journal.Adds.refl IsShown p.journal
  · refine (Progress.adds_log (by decide) .info p).trans (Progress.adds_foldl_log ?_ .info _)
    intro failure hfailure
    simp +decide only [isShown_append_iff, isShown_quoted, show failure.reason.IsShown from h failure hfailure,
      and_self]

end

/-- **No message of a batch can be forged by its names**: whatever the names, the directory, the extension
and the limits are, every code point of every message is printable, and so is no line feed, no carriage
return and no other control.  Only the reason why the memory in use cannot be read is not the batch's own. -/
theorem runBatch_messages_shown (settings : BatchSettings) (memory : MemoryUse) (names : List Text)
    (j : Journal) :
    ∃ added, (runBatch settings memory names j).2.journal.output = j.output ++ added ∧
      ∀ r, .record r ∈ added →
        (∀ c ∈ r.message, c.isPrintable = true ∧ ¬c.IsControl) ∨
          ∃ reason, memory = .failed reason ∧ r.message = "Could not get memory usage: " ++ reason := by
  let good (message : Text) : Prop :=
    (∀ c ∈ message, c.isPrintable = true ∧ ¬c.IsControl) ∨
      ∃ reason, memory = .failed reason ∧ message = "Could not get memory usage: " ++ reason
  have hgood : ∀ t : Text, t.IsShown → good t :=
    fun t ht => Or.inl fun c hc => ⟨ht c hc, ht.not_isControl c hc⟩
  have hmemory : ∀ t : Text, t.IsShown ∨ Progress.IsMemoryFailure memory.reading t → good t := by
    rintro t (hshown | ⟨reason, hreading, ht⟩)
    · exact hgood t hshown
    · cases memory with
      | failed reason' => exact Or.inr ⟨reason, congrArg _ (MemoryReading.failed.inj hreading), ht⟩
      | bytes n => cases hreading
  let entered := (Progress.start j).enter .operation (.ofText "generate paths")
  obtain ⟨q, hq, -⟩ := handleNames_spec settings names entered
  have hinner : entered.Adds IsShown q := by
    have := adds_handleNames settings names entered
    rwa [hq] at this
  have hloop : (Progress.start j).Adds IsShown
      ((Progress.start j).within Fault.message .operation "generate paths" fun p => handleNames settings p names).2 :=
    Progress.adds_within (fun _ => by decide) hq hinner nofun
  obtain ⟨q', hq', -⟩ := Progress.exists_within Fault.message .operation "generate paths"
    (fun p => handleNames settings p names) hq
  rw [hq'] at hloop
  have hfailures : ∀ failure ∈ names.filterMap (failureOf? settings), failure.IsShown := by
    intro failure hfailure
    obtain ⟨name, -, hname⟩ := List.mem_filterMap.mp hfailure
    exact isShown_of_failureOf? settings hname
  have hreported := (hloop.mono hgood).trans ((Progress.adds_reportMemory memory.reading q').mono hmemory)
  have hsummary := (Progress.adds_summarize (q'.reportMemory memory.reading)).mono hgood
  have hlisted := (adds_listFailures hfailures (q'.reportMemory memory.reading).summarize).mono hgood
  rw [runBatch, hq']
  exact (hreported.trans hsummary).trans hlisted

end SafePath.Cli

import ApiScope.Cli.Options
import ApiScope.Trace.Logs
import ApiScope.TraceSession.Resources

/-!
# The outputs of a session

`RenderEvent` sends every event to the terminal, unless that is quiet, and to the
output file, if there is one, in the format that was asked for.
-/

namespace ApiScope

open Ostream TraceRenderer

namespace TraceSession

/-- Where `RenderEvent` writes to; a file that is not open is none. -/
structure Outputs where
  outputFormat : TraceOutputFormat
  quiet : Bool
  cout : Ostream
  outputFile : Option Ostream

/-- What `OpenOutput` leaves behind; `opened` tells whether the file could be opened. -/
def openOutputs (outputOptions : TraceOutputOptions) (opened : Bool) (cout : Ostream) : Outputs where
  outputFormat := outputOptions.format
  quiet := outputOptions.quiet
  cout := cout
  outputFile := if outputOptions.outputPath ≠ [] ∧ opened = true then some {} else none

section Render

variable (fileTimeToSystemTime : FileTimeToSystemTime)

def RenderEvent (outputs : Outputs) (event : TraceEvent) : Outputs :=
  { outputs with
    cout :=
      if !outputs.quiet then
        ((RenderTraceEventText.streamed fileTimeToSystemTime event).run outputs.cout).2
      else outputs.cout
    outputFile := outputs.outputFile.map fun outputFile =>
      if outputs.outputFormat = .jsonl then
        ((RenderTraceEventJsonl.streamed fileTimeToSystemTime event).run outputFile).2
      else ((RenderTraceEventText.streamed fileTimeToSystemTime event).run outputFile).2 }

/-- The events of a session, in the order in which the writer thread takes them. -/
def renderAll (outputs : Outputs) (events : List TraceEvent) : Outputs :=
  events.foldl (RenderEvent fileTimeToSystemTime) outputs

/-- What the terminal gains. -/
def shownText (quiet : Bool) (events : List TraceEvent) : List Char :=
  if quiet then [] else events.flatMap (RenderTraceEventText fileTimeToSystemTime)

/-- What the file gains. -/
def savedText (outputFormat : TraceOutputFormat) (events : List TraceEvent) : List Char :=
  if outputFormat = .jsonl then events.flatMap (RenderTraceEventJsonl fileTimeToSystemTime)
  else events.flatMap (RenderTraceEventText fileTimeToSystemTime)

theorem cout_renderAll (outputs : Outputs) (events : List TraceEvent) :
    (renderAll fileTimeToSystemTime outputs events).cout =
      if !outputs.quiet then
        events.foldl (fun stream event =>
          ((RenderTraceEventText.streamed fileTimeToSystemTime event).run stream).2) outputs.cout
      else outputs.cout := by
  induction events generalizing outputs with
  | nil => exact (ite_self _).symm
  | cons event events inductionHypothesis =>
      rw [renderAll, List.foldl_cons, ← renderAll, inductionHypothesis]
      dsimp only [RenderEvent]
      split_ifs <;> rfl

theorem outputFile_renderAll (outputs : Outputs) (events : List TraceEvent) :
    (renderAll fileTimeToSystemTime outputs events).outputFile =
      outputs.outputFile.map fun outputFile =>
        if outputs.outputFormat = .jsonl then
          events.foldl (fun stream event =>
            ((RenderTraceEventJsonl.streamed fileTimeToSystemTime event).run stream).2) outputFile
        else
          events.foldl (fun stream event =>
            ((RenderTraceEventText.streamed fileTimeToSystemTime event).run stream).2)
            outputFile := by
  induction events generalizing outputs with
  | nil => simp [renderAll]
  | cons event events inductionHypothesis =>
      rw [renderAll, List.foldl_cons, ← renderAll, inductionHypothesis]
      dsimp only [RenderEvent]
      rw [Option.map_map]
      refine congrArg₂ _ (funext fun outputFile => ?_) rfl
      rw [Function.comp_apply]
      split_ifs <;> rfl

theorem written_cout {outputs : Outputs} (settled : outputs.cout.Settled)
    (events : List TraceEvent) :
    (renderAll fileTimeToSystemTime outputs events).cout.written =
      outputs.cout.written ++ shownText fileTimeToSystemTime outputs.quiet events := by
  rw [cout_renderAll, shownText]
  cases outputs.quiet with
  | true => exact (List.append_nil _).symm
  | false =>
      exact (foldl_writes (fun event => writes_renderTraceEventText fileTimeToSystemTime event)
        events settled).1

theorem written_outputFile {outputs : Outputs} {outputFile : Ostream}
    (isOpen : outputs.outputFile = some outputFile) (settled : outputFile.Settled)
    (events : List TraceEvent) :
    ∃ saved, (renderAll fileTimeToSystemTime outputs events).outputFile = some saved ∧
      saved.written =
        outputFile.written ++ savedText fileTimeToSystemTime outputs.outputFormat events := by
  rw [outputFile_renderAll, isOpen, Option.map_some]
  refine ⟨_, rfl, ?_⟩
  rw [savedText]
  split_ifs
  · exact (foldl_writes (fun event => writes_renderTraceEventJsonl fileTimeToSystemTime event)
      events settled).1
  · exact (foldl_writes (fun event => writes_renderTraceEventText fileTimeToSystemTime event)
      events settled).1

end Render

theorem openOutput_iff (outputOptions : TraceOutputOptions) (opened : Bool) :
    OpenOutput outputOptions opened = true ↔
      if outputOptions.outputPath = [] then
        outputOptions.format = .text ∧ outputOptions.quiet = false
      else opened = true := by
  unfold OpenOutput
  split_ifs
  · cases outputOptions.format <;> simp
  · exact Iff.rfl

/-- The file is open exactly when one was asked for. -/
theorem outputFile_openOutputs {outputOptions : TraceOutputOptions} {opened : Bool}
    (accepts : OpenOutput outputOptions opened = true) (cout : Ostream) :
    (openOutputs outputOptions opened cout).outputFile =
      if outputOptions.outputPath = [] then none else some {} := by
  rw [openOutput_iff] at accepts
  unfold openOutputs
  split_ifs at accepts ⊢ with named noPath noPath
  · exact absurd noPath named.1
  · rfl
  · rfl
  · exact absurd ⟨noPath, accepts⟩ named

/-- The logs of a session that `OpenOutput` has let through.  Whatever the events hold, each log
that is written reads back as the accepted events, in order; a quiet terminal stays as it was;
and somewhere the events are written. -/
theorem session_logs_read_back (fileTimeToSystemTime : FileTimeToSystemTime)
    (outputOptions : TraceOutputOptions) (opened : Bool) (cout : Ostream)
    (accepts : OpenOutput outputOptions opened = true) (settled : cout.Settled)
    (events : List TraceEvent) :
    let records := (accepted events).map fun entry =>
      textRecord fileTimeToSystemTime entry.1 entry.2
    let outputs := renderAll fileTimeToSystemTime (openOutputs outputOptions opened cout) events
    (∃ shown, outputs.cout.written = cout.written ++ shown ∧
      if outputOptions.quiet then shown = [] else readLog shown = records) ∧
    (outputs.outputFile = none ↔ outputOptions.outputPath = []) ∧
    (∀ outputFile, outputs.outputFile = some outputFile →
      (outputOptions.format = .text → readLog outputFile.written = records) ∧
      (outputOptions.format = .jsonl → ∃ objects, readJsonl outputFile.written = some objects ∧
        List.Forall₂ ObjectSays (accepted events) objects)) ∧
    (outputOptions.quiet = true → outputs.outputFile ≠ none) := by
  intro records outputs
  have files := outputFile_openOutputs accepts cout
  have noFile : outputs.outputFile = none ↔ outputOptions.outputPath = [] := by
    rw [outputFile_renderAll, Option.map_eq_none_iff, files]
    split_ifs with noPath <;> simp [noPath]
  refine ⟨⟨_, written_cout fileTimeToSystemTime settled events, ?_⟩, noFile,
    fun outputFile isOpen => ?_, fun quiet => ?_⟩
  · change if outputOptions.quiet then shownText _ outputOptions.quiet events = []
      else readLog (shownText _ outputOptions.quiet events) = records
    cases outputOptions.quiet with
    | true => rfl
    | false => exact readLog_flatMap fileTimeToSystemTime events
  · have path : outputOptions.outputPath ≠ [] := fun noPath => by
      cases (noFile.mpr noPath).symm.trans isOpen
    rw [if_neg path] at files
    obtain ⟨saved, isSaved, written⟩ :=
      written_outputFile fileTimeToSystemTime files settled_new events
    cases isOpen.symm.trans isSaved
    have logged : outputFile.written =
        savedText fileTimeToSystemTime outputOptions.format events := written
    refine ⟨fun format => ?_, fun format => ?_⟩
    · rw [logged, savedText, if_neg (by simp [format])]
      exact readLog_flatMap fileTimeToSystemTime events
    · rw [logged, savedText, if_pos format]
      refine ⟨_, readJsonl_flatMap fileTimeToSystemTime events, ?_⟩
      rw [List.forall₂_map_right_iff, List.forall₂_same]
      exact fun entry member =>
        objectSays_eventObject fileTimeToSystemTime (mem_accepted.mp member).2
  · rw [openOutput_iff] at accepts
    rw [Ne, noFile]
    intro noPath
    rw [if_pos noPath] at accepts
    exact absurd (quiet.symm.trans accepts.2) (by decide)

/-- Two hostile events, and one that is passed over, into a JSONL file and onto a terminal. -/
theorem session_logs_read_back_sample :
    let events := [hostileEvent, .ofBytes [], lineEvent]
    let outputs := renderAll (fun _ => none) (openOutputs ⟨.jsonl, [116], false⟩ true {}) events
    (accepted events).length = 2 ∧
    ∃ shown, outputs.cout.written = shown ∧
      readLog shown =
        (accepted events).map fun entry => textRecord (fun _ => none) entry.1 entry.2 := by
  obtain ⟨⟨shown, written, read⟩, _⟩ := session_logs_read_back (fun _ => none)
    ⟨.jsonl, [116], false⟩ true {} rfl settled_new [hostileEvent, .ofBytes [], lineEvent]
  exact ⟨by decide +kernel, shown, written, read⟩

end TraceSession

end ApiScope

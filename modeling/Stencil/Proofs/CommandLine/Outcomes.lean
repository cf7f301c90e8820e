import Stencil.CommandLine.Run
import Stencil.Proofs.Component.Effect

/-!
# One component after another

A component that is written adds its report to the output, and one that is not ends the run
(`Outcome.component_of_ok`, `Outcome.component_of_error`). So the components of some requests are
written and reported one after another, each completely, up to the first that is not written
(`Outcome.progress_components`).

What is printed already does not matter for what is done next: a run that goes on does what one
from its file tree would do, behind the output that is there (`Outcome.components_followedBy`).
-/

set_option autoImplicit false

namespace Stencil

/-! ## Lines of output -/

/-- Some lines, each with a line feed behind it. -/
def Text.lines (lines : List Text) : Text :=
  lines.flatMap fun line => line ++ ("\n" : Text)

/-- The lines of the log that are shown. -/
def Settings.shown (settings : Settings) (lines : List Text) : Text :=
  if settings.verbose then Text.lines lines else []

theorem Settings.shown_append (settings : Settings) (first second : List Text) :
    settings.shown (first ++ second) = settings.shown first ++ settings.shown second := by
  unfold shown
  split
  · simp [Text.lines]
  · rfl

/-- The lines that report a component with so many fields. -/
def FileTree.reportLines (tree : FileTree) (target : Path) (fieldCount : Nat) : List Text :=
  [("Generated component at: " : Text) ++ tree.shownPath target,
    ("Files: " : Text) ++ documentNames, ("Editable fields: " : Text) ++ natNumeral fieldCount]

/-- The report on a component that is written, as it is printed. -/
def FileTree.reported (tree : FileTree) (report : Report) : Text :=
  Text.lines (tree.reportLines report.target report.fieldCount)

namespace WriteFailure

/-- How a run ends when a component is not written: with exit status 1 if something in the file tree
is in the way, and broken off otherwise. -/
def ending : WriteFailure → Ending
  | tooDeep => .broken (.tooDeep .markup)
  | unencodable fault => .broken (.unencodable fault)
  | storage .nullInPath => .broken (.storage .nullInPath)
  | storage .tooDeep => .broken (.storage .tooDeep)
  | storage (.at _ _) => .exit 1

theorem ending_ne_exit_zero (failure : WriteFailure) : failure.ending ≠ .exit 0 := by
  cases failure with
  | tooDeep => simp [ending]
  | unencodable fault => simp [ending]
  | storage fault => cases fault <;> simp [ending]

/-- What is said when the file tree is in the way of a component; about other failures, nothing. -/
def said (target : Text) : WriteFailure → List Text
  | tooDeep => []
  | unencodable _ => []
  | storage .nullInPath => []
  | storage .tooDeep => []
  | storage (.at trouble path) =>
    [("Unable to write component to '" : Text) ++ target ++ ("': " : Text) ++
      FileFault.message (.at trouble path)]

end WriteFailure

namespace Outcome

variable {host : Host} {settings : Settings} {request : Request} {outcome : Outcome}
  {after : FileTree}

/-- The outcome of a run that goes on after another one: the tree and the ending of the second, and
the output of both. -/
def followedBy (first next : Outcome) : Outcome :=
  { tree := next.tree
    output := first.output ++ next.output
    errors := first.errors ++ next.errors
    ending := next.ending }

theorem followedBy_assoc (first next last : Outcome) :
    (first.followedBy next).followedBy last = first.followedBy (next.followedBy last) := by
  simp [followedBy]

/-- A run may be taken up with a new one from its tree. -/
theorem followedBy_start (outcome : Outcome) :
    outcome.followedBy { tree := outcome.tree, ending := outcome.ending } = outcome := by
  simp [followedBy]

theorem report_eq (report : Report) :
    outcome.report report =
      { outcome with output := outcome.output ++ outcome.tree.reported report } := by
  simp [Outcome.report, print, FileTree.reported, FileTree.reportLines, Text.lines]

theorem logAll_eq (settings : Settings) (lines : List Text) :
    outcome.logAll settings lines =
      { outcome with errors := outcome.errors ++ settings.shown lines } := by
  unfold logAll Settings.shown
  split
  · induction lines generalizing outcome with
    | nil => simp [Text.lines]
    | cons line lines ih => simp [ih, warn, Text.lines]
  · simp

/-! ## One component -/

/-- A component that is written adds its report. -/
theorem component_of_ok {report : Report}
    (hwrite : (Rendering.ofRequest request).write host settings.library outcome.tree =
      (after, .ok report)) :
    outcome.component host settings request = outcome.followedBy
      { tree := after
        output := after.reported report
        errors := settings.shown ((Rendering.ofRequest request).log host ++ [report.log])
        ending := outcome.ending } := by
  simp [component, logAll_eq, hwrite, report_eq, followedBy, Settings.shown_append]

/-- A component that is not written ends the run. -/
theorem component_of_error {failure : WriteFailure}
    (hwrite : (Rendering.ofRequest request).write host settings.library outcome.tree =
      (after, .error failure)) :
    outcome.component host settings request = outcome.followedBy
      { tree := after
        errors := settings.shown ((Rendering.ofRequest request).log host) ++
          Text.lines (failure.said (after.shownPath (request.target settings.library)))
        ending := some failure.ending } := by
  -- The cases are those that the run tells apart: only a fault of the file tree has words.
  cases failure with
  | tooDeep =>
    simp [component, logAll_eq, hwrite, followedBy, breakOff, WriteFailure.said,
      WriteFailure.ending, Text.lines]
  | unencodable fault =>
    simp [component, logAll_eq, hwrite, followedBy, breakOff, WriteFailure.said,
      WriteFailure.ending, Text.lines]
  | storage fault =>
    cases fault with
    | «at» trouble path =>
      simp [component, logAll_eq, hwrite, followedBy, fail, warn, WriteFailure.said,
        WriteFailure.ending, Text.lines]
    | nullInPath =>
      simp [component, logAll_eq, hwrite, followedBy, breakOff, WriteFailure.said,
        WriteFailure.ending, Text.lines]
    | tooDeep =>
      simp [component, logAll_eq, hwrite, followedBy, breakOff, WriteFailure.said,
        WriteFailure.ending, Text.lines]

/-! ## Several components -/

/-- What is printed already does not matter for a component. -/
theorem component_followedBy (first next : Outcome) (host : Host) (settings : Settings)
    (request : Request) :
    (first.followedBy next).component host settings request =
      first.followedBy (next.component host settings request) := by
  obtain ⟨after, result, hwrite⟩ : ∃ after result,
      (Rendering.ofRequest request).write host settings.library next.tree = (after, result) :=
    ⟨_, _, rfl⟩
  cases result with
  | ok report =>
    have hnext : next.component host settings request = _ := component_of_ok hwrite
    rw [hnext, ← followedBy_assoc]
    exact component_of_ok hwrite
  | error failure =>
    have hnext : next.component host settings request = _ := component_of_error hwrite
    rw [hnext, ← followedBy_assoc]
    exact component_of_error hwrite

/-- What is printed already does not matter for what is done next. -/
theorem components_followedBy (host : Host) (settings : Settings) (requests : List Request)
    (first next : Outcome) :
    components host settings requests (first.followedBy next) =
      first.followedBy (components host settings requests next) := by
  induction requests generalizing next with
  | nil => rfl
  | cons request requests ih =>
    rw [components, components, component_followedBy]
    by_cases hended : (next.component host settings request).ending.isSome = true
    · rw [if_pos hended]
      exact if_pos hended
    · rw [if_neg hended, ← ih]
      exact if_neg hended

/-- The outcome of a component that is written. -/
def written (host : Host) (settings : Settings) (request : Request) (report : Report)
    (after : FileTree) : Outcome :=
  { tree := after
    output := after.reported report
    errors := settings.shown ((Rendering.ofRequest request).log host ++ [report.log]) }

/-- The outcome of a component that is not written. -/
def stopped (host : Host) (settings : Settings) (request : Request) (failure : WriteFailure)
    (after : FileTree) : Outcome :=
  { tree := after
    errors := settings.shown ((Rendering.ofRequest request).log host) ++
      Text.lines (failure.said (after.shownPath (request.target settings.library)))
    ending := some failure.ending }

variable {requests : List Request} {before : FileTree}

/-- Nothing is printed in front of a run that starts. -/
theorem start_followedBy (tree : FileTree) (ending : Option Ending) (next : Outcome) :
    followedBy { tree := tree, ending := ending } next = next := by
  simp [followedBy]

theorem components_cons_of_ok {report : Report}
    (hwrite : (Rendering.ofRequest request).write host settings.library before =
      (after, .ok report)) :
    components host settings (request :: requests) { tree := before } =
      (written host settings request report after).followedBy
        (components host settings requests { tree := after }) := by
  have hfirst : ({ tree := before } : Outcome).component host settings request =
      written host settings request report after :=
    (component_of_ok hwrite).trans (start_followedBy before none _)
  rw [components, hfirst, ← components_followedBy]
  exact congrArg (components host settings requests) (followedBy_start _).symm

theorem components_cons_of_error {failure : WriteFailure}
    (hwrite : (Rendering.ofRequest request).write host settings.library before =
      (after, .error failure)) :
    components host settings (request :: requests) { tree := before } =
      stopped host settings request failure after := by
  have hfirst : ({ tree := before } : Outcome).component host settings request =
      stopped host settings request failure after :=
    (component_of_error hwrite).trans (start_followedBy before none _)
  rw [components, hfirst]
  rfl

end Outcome

/-! ## Components in turn -/

/-- Components are written below a library directory one after another, each completely: after its
turn, all its documents can be read back. -/
inductive WrittenInTurn (host : Host) (library : Path) :
    FileTree → List (Request × Report) → FileTree → Prop where
  | nil (tree : FileTree) : WrittenInTurn host library tree [] tree
  | cons {before middle after : FileTree} {request : Request} {report : Report}
      {later : List (Request × Report)}
      (written : (Rendering.ofRequest request).write host library before = (middle, .ok report))
      (stored : ∀ document : Document,
        middle.Holds ((request.target library).append [document.fileName])
          ((Rendering.ofRequest request).content document))
      (next : WrittenInTurn host library middle later after) :
      WrittenInTurn host library before ((request, report) :: later) after

namespace Outcome

/-- How far the components of some requests get: those that are written are written in turn and
reported, and they are all of them, or the next one is not written, which ends the run. -/
structure Progress (host : Host) (settings : Settings) (before : FileTree) (requests : List Request)
    (outcome : Outcome) (written : List (Request × Report)) (middle : FileTree) : Prop where
  turns : WrittenInTurn host settings.library before written middle
  output : outcome.output = written.flatMap fun item => before.reported item.2
  rest : (requests = written.map Prod.fst ∧ outcome.tree = middle ∧
      outcome.ending = some (.exit 0)) ∨
    ∃ request later failure, requests = written.map Prod.fst ++ request :: later ∧
      (Rendering.ofRequest request).write host settings.library middle =
        (outcome.tree, .error failure) ∧
      outcome.ending = some failure.ending

variable {host : Host} {settings : Settings} {request : Request} {requests : List Request}
  {before after : FileTree}

/-- A written component is stored completely, and its report does not depend on when it is made. -/
theorem stored_of_write {report : Report} {library : Path}
    (hwrite : (Rendering.ofRequest request).write host library before = (after, .ok report)) :
    (∀ document : Document, after.Holds ((request.target library).append [document.fileName])
        ((Rendering.ofRequest request).content document)) ∧
      ∀ other, after.reported other = before.reported other := by
  obtain ⟨-, -, -, -, htarget, -⟩ := Rendering.exists_files_of_write hwrite
  obtain ⟨written, heffect, -⟩ := Rendering.effect_of_run hwrite
  constructor
  · intro document
    have hholds := Rendering.holds_of_write hwrite document
    rw [htarget] at hholds
    exact hholds
  · intro other
    rw [FileTree.reported, FileTree.reported, FileTree.reportLines, FileTree.reportLines,
      FileTree.shownPath, FileTree.shownPath, heffect.changes.grows.workingDirectory]

/-- **Components one after another.** They are written and reported in turn, up to the first that is
not written. -/
theorem progress_components (host : Host) (settings : Settings) (requests : List Request)
    (before : FileTree) :
    ∃ written middle, Progress host settings before requests
      (components host settings requests { tree := before }) written middle := by
  induction requests generalizing before with
  | nil => exact ⟨[], before, .nil before, rfl, Or.inl ⟨rfl, rfl, rfl⟩⟩
  | cons request requests ih =>
    obtain ⟨after, result, hwrite⟩ : ∃ after result,
        (Rendering.ofRequest request).write host settings.library before = (after, result) :=
      ⟨_, _, rfl⟩
    cases result with
    | error failure =>
      rw [components_cons_of_error hwrite]
      exact ⟨[], before, .nil before, rfl,
        Or.inr ⟨request, requests, failure, rfl, hwrite, rfl⟩⟩
    | ok report =>
      obtain ⟨hstored, hreported⟩ := stored_of_write hwrite
      obtain ⟨written, middle, hturns, houtput, hrest⟩ := ih after
      rw [components_cons_of_ok hwrite]
      refine ⟨(request, report) :: written, middle, .cons hwrite hstored hturns, ?_, ?_⟩
      · -- All reports name paths as seen from the same working directory.
        rw [List.flatMap_cons]
        simp only [followedBy, Outcome.written, houtput, hreported]
      · rcases hrest with ⟨hall, htree, hending⟩ | ⟨next, later, failure, hall, hfailed, hending⟩
        · exact Or.inl ⟨congrArg (List.cons request) hall, htree, hending⟩
        · exact Or.inr ⟨next, later, failure, congrArg (List.cons request) hall, hfailed, hending⟩

end Outcome

end Stencil

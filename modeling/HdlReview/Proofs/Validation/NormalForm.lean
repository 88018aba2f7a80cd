import HdlReview.Audit.Entry
import HdlReview.Proofs.Lint.RoundTrip
import HdlReview.Proofs.Tools.RoundTrip

/-!
# The normal form of a record

To read a record and hand it out again brings its data into a normal form: numbers that were
written as texts, truth values or integral doubles are numbers, defaults are filled in, and unknown
fields are gone. What the readers check they check of the normal form, so it is accepted, and
nothing in it is left to change. One kind of record is accepted without having a normal form:
descriptions whose parameters have too many levels cannot be handed out.

## Main definitions

* `RecordKind`: the kinds of records
* `RecordKind.normalize k v`: the data of the record of a kind that is read from a value
* `Restores read dump`: what a reader accepts it reads back from its data

## Main results

* `normalize_of_restores`: the data of a record that is read back are their own normal form
* `normalize_idempotent`: for every kind of record, a normal form is its own normal form
* `normalize_deepDescription`: a description without a normal form
-/

namespace HdlReview.Validation

open HdlReview.Json HdlReview.Decimal HdlReview.Lint HdlReview.Advice HdlReview.Tools

/-- The kinds of records. -/
inductive RecordKind where
  | issue
  | report
  | timingStep
  | timingGuidance
  | recommendation
  | crossingGuidance
  | reviewRequest
  | timingRequest
  | crossingRequest
  | descriptor
  | entry
deriving DecidableEq, Repr

/-- **The normal form of the data of a record**: the record is read and handed out again. Only a
description can be accepted and then not be handed out. -/
def RecordKind.normalize : RecordKind → Value → Checked (Except Descriptor.DumpError Value)
  | issue, v => (Issue.read v).map fun i => .ok i.toValue
  | report, v => (Report.read v).map fun r => .ok r.toValue
  | timingStep, v => (TimingStep.read v).map fun s => .ok s.toValue
  | timingGuidance, v => (TimingGuidance.read v).map fun g => .ok g.toValue
  | recommendation, v => (Recommendation.read v).map fun r => .ok r.toValue
  | crossingGuidance, v => (CrossingGuidance.read v).map fun g => .ok g.toValue
  | reviewRequest, v => (ReviewRequest.read v).map fun r => .ok r.toValue
  | timingRequest, v => (TimingRequest.read v).map fun r => .ok r.toValue
  | crossingRequest, v => (CrossingRequest.read v).map fun r => .ok r.toValue
  | descriptor, v => (Descriptor.read v).map Descriptor.dump
  | entry, v => (Audit.Entry.read v).map fun e => .ok e.toValue

/-! ## Records that are read back -/

/-- **A reader restores** what it accepts from the data of it. -/
def Restores {α : Type} (read : Reader α) (dump : α → Value) : Prop :=
  Ensures read fun a => read (dump a) = .ok a

theorem restores_of_forall {α : Type} {read : Reader α} {dump : α → Value}
    (h : ∀ a, read (dump a) = .ok a) : Restores read dump :=
  fun _ a _ => h a

theorem restores_issue : Restores Issue.read Issue.toValue :=
  fun v i h => Issue.read_toValue (Issue.ensures_valid v i h)

theorem restores_report : Restores Report.read Report.toValue :=
  fun v r h => Report.read_toValue (Report.ensures_valid v r h)

theorem restores_entry : Restores Audit.Entry.read Audit.Entry.toValue := by
  apply restores_of_forall
  intro e
  simp only [Audit.Entry.toValue, Audit.Entry.read, record, Audit.Entry.readFields]
  rw [required_of_get? (a := e.requestId) rfl rfl, required_of_get? (a := e.operation) rfl rfl,
    optional_of_get? rfl (nullable_text e.language), optional_of_get? (a := e.totalIssues) rfl rfl,
    optional_of_get? (a := e.durationMs) rfl rfl]
  rfl

/-! ## Normal forms -/

theorem map_eq_ok_iff {α β : Type} {f : α → β} {c : Checked α} {b : β} :
    c.map f = .ok b ↔ ∃ a, c = .ok a ∧ f a = b := by
  cases c <;> simp [Except.map]

/-- The data of what was accepted are handed out, and are their own normal form. -/
theorem normalize_of_restores {α ε : Type} {read : Reader α} {dump : α → Value}
    (hr : Restores read dump) {v : Value} {dumped : Except ε Value}
    (h : (read v).map (fun a => .ok (dump a)) = .ok dumped) :
    ∃ w, dumped = .ok w ∧
      (read w).map (fun a => .ok (dump a)) = .ok (.ok w : Except ε Value) := by
  obtain ⟨a, ha, rfl⟩ := map_eq_ok_iff.1 h
  exact ⟨dump a, rfl, map_eq_ok_iff.2 ⟨a, hr v a ha, rfl⟩⟩

/-- A description is handed out in its normal form, or it has too many levels. -/
theorem normalize_descriptor {v : Value} {dumped : Except Descriptor.DumpError Value}
    (h : RecordKind.descriptor.normalize v = .ok dumped) :
    (∃ w, dumped = .ok w ∧ RecordKind.descriptor.normalize w = .ok (.ok w)) ∨
      dumped = .error .tooDeep ∧
      ∃ d, Descriptor.read v = .ok d ∧ Descriptor.levelLimit < fieldsLevels d.parameters := by
  obtain ⟨d, hd, rfl⟩ := map_eq_ok_iff.1 h
  cases hdump : d.dump with
  | error e => exact .inr ⟨rfl, d, hd, Descriptor.dump_eq_error_iff.1 hdump⟩
  | ok w =>
    -- what comes out is the data of a description of its own, with finite numbers only
    obtain ⟨hlevels, rfl⟩ := Descriptor.dump_eq_ok_iff.1 hdump
    have hread := d.printable.read_toValue
    have hagain := Descriptor.dump_printable hlevels
    exact .inl ⟨_, rfl, (map_eq_ok_iff (f := Descriptor.dump)).2 ⟨d.printable, hread, hagain⟩⟩

/-- **Every normal form is its own normal form.** For every kind of record and every value that is
accepted, the data of the record are accepted in turn and are handed out unchanged. The one
exception are descriptions whose parameters have too many levels: these are accepted and not handed
out. A report that is accepted counts its issues rightly, no line in it is below one, and no message
or suggestion is empty. -/
theorem normalize_idempotent (k : RecordKind) (v : Value) :
    (∀ dumped, k.normalize v = .ok dumped →
      (∃ w, dumped = .ok w ∧ k.normalize w = .ok (.ok w)) ∨
      dumped = .error .tooDeep ∧ k = .descriptor ∧
        ∃ d, Descriptor.read v = .ok d ∧ Descriptor.levelLimit < fieldsLevels d.parameters) ∧
    (∀ r, Report.read v = .ok r →
      r.totalIssues = r.issues.length ∧
      ∀ i ∈ r.issues, (∀ n, i.line = some n → 1 ≤ n) ∧ i.message ≠ "" ∧ i.suggestion ≠ "") := by
  constructor
  · intro dumped h
    -- issues and reports are read back because they were checked, most others whatever they hold
    cases k with
    | issue => exact .inl (normalize_of_restores restores_issue h)
    | report => exact .inl (normalize_of_restores restores_report h)
    | timingStep =>
      exact .inl (normalize_of_restores (restores_of_forall TimingStep.read_toValue) h)
    | timingGuidance =>
      exact .inl (normalize_of_restores (restores_of_forall TimingGuidance.read_toValue) h)
    | recommendation =>
      exact .inl (normalize_of_restores (restores_of_forall Recommendation.read_toValue) h)
    | crossingGuidance =>
      exact .inl (normalize_of_restores (restores_of_forall CrossingGuidance.read_toValue) h)
    | reviewRequest =>
      exact .inl (normalize_of_restores (restores_of_forall ReviewRequest.read_toValue) h)
    | timingRequest =>
      exact .inl (normalize_of_restores (restores_of_forall TimingRequest.read_toValue) h)
    | crossingRequest =>
      exact .inl (normalize_of_restores (restores_of_forall CrossingRequest.read_toValue) h)
    | descriptor =>
      -- the only data that can be refused after they were accepted
      obtain hdone | ⟨hdeep, hd⟩ := normalize_descriptor h
      · exact .inl hdone
      · exact .inr ⟨hdeep, rfl, hd⟩
    | entry => exact .inl (normalize_of_restores restores_entry h)
  · intro r hr
    have hvalid := Report.ensures_valid v r hr
    refine ⟨hvalid.total, fun i hi => ?_⟩
    have hissue := hvalid.issues i hi
    exact ⟨hissue.line, hissue.message, hissue.suggestion⟩

/-- A report with numbers in other forms, an unknown field and most fields missing. -/
def looseReport : Value :=
  .obj [("totalIssues", .bool true),
    ("issues", .list [.obj [("kind", .str "latch_inference"), ("severity", .str "error"),
      ("line", .str " 007 "), ("message", .str "m"), ("suggestion", .str "s"), ("tool", .null)]])]

/-- The report that is read from it. -/
def readReport : Report :=
  ⟨1, [⟨.latchInference, .error, some 7, "m", "s", ""⟩], "", none, []⟩

theorem normalize_idempotent_looseReport :
    RecordKind.report.normalize looseReport = .ok (.ok readReport.toValue) ∧
      RecordKind.report.normalize readReport.toValue = .ok (.ok readReport.toValue) ∧
      readReport.totalIssues = readReport.issues.length := by
  have hread : Report.read looseReport = .ok readReport := rfl
  have hnormal : RecordKind.report.normalize looseReport = .ok (.ok readReport.toValue) := rfl
  obtain ⟨hsettled, hchecked⟩ := normalize_idempotent .report looseReport
  refine ⟨hnormal, ?_, (hchecked _ hread).1⟩
  obtain ⟨w, hw, hagain⟩ | ⟨hdeep, -⟩ := hsettled _ hnormal
  · cases hw
    exact hagain
  · cases hdeep

/-! ## A description without a normal form -/

/-- A number inside as many lists. -/
def nestedLists : Nat → Value
  | 0 => .int 1
  | n + 1 => .list [nestedLists n]

theorem levels_nestedLists (n : Nat) : (nestedLists n).levels = n + 1 := by
  induction n with
  | zero => rfl
  | succ n ih => simp [nestedLists, Value.levels, listLevels, ih]

/-- A description with one parameter, of one level more than can be handed out. -/
def deepDescription : Value :=
  .obj [("name", .str "a"), ("description", .str "b"),
    ("parameters", .obj [("x", nestedLists Descriptor.levelLimit)])]

/-- **Not every accepted record has a normal form.** -/
theorem normalize_deepDescription :
    RecordKind.descriptor.normalize deepDescription = .ok (.error .tooDeep) ∧
      ¬ ∀ dumped, RecordKind.descriptor.normalize deepDescription = .ok dumped →
        ∃ w, dumped = .ok w ∧ RecordKind.descriptor.normalize w = .ok (.ok w) := by
  have hnormal : RecordKind.descriptor.normalize deepDescription = .ok (.error .tooDeep) := by
    have hdeep : Descriptor.levelLimit <
        fieldsLevels [("x", nestedLists Descriptor.levelLimit)] := by
      simp [fieldsLevels, levels_nestedLists]
    exact congrArg Except.ok (if_pos hdeep)
  refine ⟨hnormal, fun hsettled => ?_⟩
  obtain ⟨w, hw, -⟩ := hsettled _ hnormal
  cases hw

end HdlReview.Validation

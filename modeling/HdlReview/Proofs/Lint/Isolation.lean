import HdlReview.Lint.Engine
import Mathlib.Data.List.Basic

/-!
# A run and its single checks

A run of all checks shows, in the order of the table, what each check gives when it is asked for
alone; a check that fails alone is shown as one issue of its own. An ordinary failure therefore
neither takes away what was found before it nor keeps a later check from running, and a check that
is put in the place of another changes only its own stretch of the issues. A fatal failure ends the
run instead, and nothing is shown at all.

## Main definitions

* `Spares s entry`: the entry of a table does not end a run on a source
* `entryIssues s entry`, `entryRecord? s entry`: what an entry adds to a run that it does not end
* `shown id outcome`: the issues that a report shows for the outcome of a single check
* `SparedBy outcome`: the outcome of a single check is no fatal failure

## Main results

* `Progress.check_of_spares`, `Progress.check_of_fatal`: one check of a run
* `Progress.checkAll_of_spares`, `Progress.ended_checkAll`: the checks of a run
* `Engine.issues_run`: the issues of a run are those shown for its single checks
* `Engine.run_standard`: the standard rules come to their end
* `Engine.run_shows_single_checks`: the whole report, and the refusal of unknown languages
-/

namespace HdlReview.Lint

open HdlReview.Json

/-! ## Languages as data values -/

theorem Language.ofValue_name (l : Language) : Language.ofValue (.str l.name) = .ok l := by
  cases l <;> rfl

theorem Language.ofValue_eq_error {v : Value} (h : ∀ l : Language, v ≠ .str l.name) :
    Language.ofValue v = .error (.unknownLanguage v) := by
  cases v with
  | str name =>
    -- a text is refused if it is the name of no language
    have hg : Keyed.get? name Language.members = none := by
      have hv : ∀ l : Language, l.name ≠ name := fun l hl => h l (by rw [hl])
      simp [Language.members, Keyed.get?, hv .verilog, hv .vhdl]
    simp only [Language.ofValue, hg]
  | null => rfl
  | bool b => rfl
  | int n => rfl
  | float x => rfl
  | list items => rfl
  | obj fields => rfl

/-! ## One check of a run -/

/-- **The entry does not end a run** on a source: it has issues, or an ordinary failure. -/
def Spares (s : List Char) (entry : String × Check) : Prop :=
  ∀ f, entry.2 s = .error f → f.fatal = false

/-- The issues that an entry adds to a run. -/
def entryIssues (s : List Char) (entry : String × Check) : List Issue :=
  match entry.2 s with
  | .ok issues => issues
  | .error f => [f.issue entry.1]

/-- The log record that an entry adds to a run. -/
def entryRecord? (s : List Char) (entry : String × Check) : Option Log.Record :=
  match entry.2 s with
  | .ok _ => none
  | .error _ => some (failureRecord entry.1)

namespace Progress

variable {s : List Char} {p : Progress} {entry : String × Check} {f : Failure}

/-- **A check that does not end the run** adds its issues behind those that are there. -/
theorem check_of_spares (h : Spares s entry) :
    p.check s entry = ⟨p.executed ++ [entry.1], p.issues ++ entryIssues s entry,
      p.records ++ (entryRecord? s entry).toList, p.ended⟩ := by
  cases hc : entry.2 s with
  | ok issues => simp [check, entryIssues, entryRecord?, hc]
  | error f => simp [check, entryIssues, entryRecord?, hc, h f hc]

/-- **A fatal failure** ends the run and adds no issue. -/
theorem check_of_fatal (hc : entry.2 s = .error f) (hf : f.fatal = true) :
    p.check s entry = { p with executed := p.executed ++ [entry.1], ended := some f } := by
  simp [check, hc, hf]

/-! ## The checks of a run -/

theorem checkAll_append (front back : List (String × Check)) :
    p.checkAll s (front ++ back) = (p.checkAll s front).checkAll s back :=
  List.foldl_append

theorem checkAll_cons (hp : p.ended = none) (entries : List (String × Check)) :
    p.checkAll s (entry :: entries) = (p.check s entry).checkAll s entries := by
  rw [checkAll, List.foldl_cons, hp]
  rfl

/-- A run that has ended goes no further. -/
theorem checkAll_of_ended (hp : p.ended = some f) (entries : List (String × Check)) :
    p.checkAll s entries = p := by
  induction entries with
  | nil => rfl
  | cons entry entries ih =>
    rw [checkAll, List.foldl_cons, hp]
    exact ih

/-- **The checks of a run** that none of them ends: each adds its issues, in order. -/
theorem checkAll_of_spares {entries : List (String × Check)} (hp : p.ended = none)
    (h : ∀ entry ∈ entries, Spares s entry) :
    p.checkAll s entries =
      ⟨p.executed ++ entries.map (·.1), p.issues ++ entries.flatMap (entryIssues s),
        p.records ++ entries.filterMap (entryRecord? s), none⟩ := by
  induction entries generalizing p with
  | nil => simp [checkAll, ← hp]
  | cons entry entries ih =>
    have hcheck := check_of_spares (p := p) (h entry (List.mem_cons_self ..))
    have hnext : (p.check s entry).ended = none := by rw [hcheck, hp]
    rw [checkAll_cons hp, ih hnext fun other hm => h other (List.mem_cons_of_mem entry hm), hcheck]
    simp only [List.map_cons, List.flatMap_cons, List.filterMap_cons, List.append_assoc,
      List.singleton_append]
    cases entryRecord? s entry <;> simp

/-- **The first fatal failure** is the one that ends the run. -/
theorem ended_checkAll {front back : List (String × Check)} (hp : p.ended = none)
    (h : ∀ other ∈ front, Spares s other) (hc : entry.2 s = .error f) (hf : f.fatal = true) :
    (p.checkAll s (front ++ entry :: back)).ended = some f := by
  have hfront : (p.checkAll s front).ended = none := by rw [checkAll_of_spares hp h]
  have hended : ((p.checkAll s front).check s entry).ended = some f := by rw [check_of_fatal hc hf]
  rw [checkAll_append, checkAll_cons hfront, checkAll_of_ended hended, hended]

end Progress

/-! ## Single checks -/

/-- What a report shows for the outcome of a single check: its issues, and for a failure one issue
that names the check, the cause and what the cause says. -/
def shown (id : String) : Except ReviewError (List Issue) → List Issue
  | .ok issues => issues
  | .error (.failed f) =>
    [{ kind := .internalError
       severity := .info
       line := none
       message := "Rule '" ++ id ++ "' internal error: " ++ f.cause ++ ": " ++ f.text
       suggestion := "Report this input to the HDLGuard maintainers"
       ruleId := id }]
  | .error _ => []

/-- The outcome of a single check is no fatal failure. -/
def SparedBy (outcome : Except ReviewError (List Issue)) : Prop :=
  ∀ f, outcome = .error (.failed f) → f.fatal = false

namespace Engine

variable (e : Engine) (l : Language) (s : List Char)

theorem runSingle_of_mem {id : String} {check : Check} (h : (id, check) ∈ (e.table l).entries) :
    e.runSingle l id s = (check s).mapError .failed := by
  simp only [runSingle, Keyed.get?_of_mem (e.table l).distinct h]
  cases check s <;> rfl

/-- A check of the table can only fail by itself. -/
theorem runSingle_cases {id : String} (h : id ∈ (e.table l).ids) :
    (∃ issues, e.runSingle l id s = .ok issues) ∨ ∃ f, e.runSingle l id s = .error (.failed f) := by
  obtain ⟨⟨_, check⟩, hm, rfl⟩ := List.mem_map.1 h
  -- neither the language nor the id is refused here, so only the check itself is left to fail
  rw [runSingle_of_mem e l s hm]
  cases check s with
  | ok issues => exact .inl ⟨issues, rfl⟩
  | error f => exact .inr ⟨f, rfl⟩

theorem shown_runSingle {id : String} {check : Check} (h : (id, check) ∈ (e.table l).entries) :
    shown id (e.runSingle l id s) = entryIssues s (id, check) := by
  rw [runSingle_of_mem e l s h]
  cases hc : check s <;> simp [shown, entryIssues, Failure.issue, Except.mapError, hc]

theorem runSingle_eq_failed_iff {id : String} {check : Check} {f : Failure}
    (h : (id, check) ∈ (e.table l).entries) :
    e.runSingle l id s = .error (.failed f) ↔ check s = .error f := by
  rw [runSingle_of_mem e l s h]
  cases check s <;> simp [Except.mapError]

/-- An entry ends a run just if its single check fails fatally. -/
theorem spares_iff {entry : String × Check} (h : entry ∈ (e.table l).entries) :
    Spares s entry ↔ SparedBy (e.runSingle l entry.1 s) :=
  forall_congr' fun _ => imp_congr (runSingle_eq_failed_iff e l s h).symm Iff.rfl

/-! ## Runs -/

variable {e l s}

/-- **A run that no check ends** gives a report on the issues of all entries. -/
theorem run_of_spares (h : ∀ entry ∈ (e.table l).entries, Spares s entry) :
    ∃ report records, e.run l s = (.ok report, records) ∧
      report.issues = (e.table l).entries.flatMap (entryIssues s) ∧
      report.rulesExecuted = (e.table l).ids ∧ report.totalIssues = report.issues.length ∧
      report.summary = summarize report.issues := by
  have hall := Progress.checkAll_of_spares (p := .start) rfl h
  have hended : ((e.table l).progress s).ended = none := by rw [Table.progress, hall]
  refine ⟨(((e.table l).progress s).finish l s).1, (((e.table l).progress s).finish l s).2, ?_, ?_,
    ?_, rfl, rfl⟩
  · rw [run, hended]
  · rw [Progress.finish, Progress.report, Table.progress, hall]
    rfl
  · rw [Progress.finish, Progress.report, Table.progress, hall]
    rfl

/-- **A fatal failure** is passed on by the run. -/
theorem run_of_fatal {front back : List (String × Check)} {entry : String × Check} {f : Failure}
    (htable : (e.table l).entries = front ++ entry :: back) (h : ∀ other ∈ front, Spares s other)
    (hc : entry.2 s = .error f) (hf : f.fatal = true) : (e.run l s).1 = .error f := by
  have hended : ((e.table l).progress s).ended = some f := by
    rw [Table.progress, htable]
    exact Progress.ended_checkAll rfl h hc hf
  rw [run, hended]

/-- **The issues of a run** are those shown for the single checks, in the order of the table. -/
theorem issues_run (h : ∀ id ∈ (e.table l).ids, SparedBy (e.runSingle l id s)) :
    ∃ report records, e.run l s = (.ok report, records) ∧
      report.issues = ((e.table l).ids.flatMap fun id => shown id (e.runSingle l id s)) ∧
      report.rulesExecuted = (e.table l).ids ∧ report.totalIssues = report.issues.length ∧
      report.summary = summarize report.issues := by
  obtain ⟨report, records, hrun, hissues, hrest⟩ := run_of_spares (e := e) (l := l) (s := s)
    fun entry hm => (spares_iff e l s hm).2 (h entry.1 (List.mem_map_of_mem hm))
  refine ⟨report, records, hrun, ?_, hrest⟩
  rw [hissues, Table.ids, List.flatMap_map]
  -- entry by entry, since each id finds its own check again
  refine List.flatMap_congr fun entry hm => ?_
  exact (shown_runSingle e l s hm).symm

/-- The check that a run shows at the place of an id, with the stretches around it. -/
theorem issues_run_of_entries {front back : List (String × Check)} {id : String} {check : Check}
    (htable : (e.table l).entries = front ++ (id, check) :: back)
    (hfront : ∀ entry ∈ front, Spares s entry) (hback : ∀ entry ∈ back, Spares s entry)
    (hcheck : Spares s (id, check)) :
    ∃ report records, e.run l s = (.ok report, records) ∧
      report.issues = front.flatMap (entryIssues s) ++ shown id (e.runSingle l id s) ++
        back.flatMap (entryIssues s) ∧
      report.rulesExecuted = (front ++ (id, check) :: back).map (·.1) := by
  have hspares : ∀ entry ∈ (e.table l).entries, Spares s entry := by
    rw [htable]
    intro entry hm
    rcases List.mem_append.1 hm with hm | hm
    · exact hfront entry hm
    · rcases List.mem_cons.1 hm with rfl | hm
      · exact hcheck
      · exact hback entry hm
  obtain ⟨report, records, hrun, hissues, hids, -⟩ := run_of_spares hspares
  refine ⟨report, records, hrun, ?_, ?_⟩
  · have hm : (id, check) ∈ (e.table l).entries := by simp [htable]
    rw [hissues, shown_runSingle e l s hm, htable, List.flatMap_append, List.flatMap_cons,
      List.append_assoc]
  · rw [hids, Table.ids, htable]

/-- **A replaced check** changes its own stretch of the issues and no other, and no id. -/
theorem exists_issues_run_insert {id : String} (h : id ∈ (e.table l).ids)
    (hothers : ∀ i ∈ (e.table l).ids, i ≠ id → SparedBy (e.runSingle l i s)) :
    ∃ front back,
      (SparedBy (e.runSingle l id s) → ∃ report records, e.run l s = (.ok report, records) ∧
        report.issues = front ++ shown id (e.runSingle l id s) ++ back) ∧
      ∀ (check : Check) (e' : Engine), e'.table l = (e.table l).insert id check →
        (∀ f, check s = .error f → f.fatal = false) →
        ∃ report records, e'.run l s = (.ok report, records) ∧
          report.issues = front ++ shown id (e'.runSingle l id s) ++ back ∧
          report.rulesExecuted = (e.table l).ids := by
  obtain ⟨front, own, back, he, -, hi⟩ := Keyed.exists_insert_eq_append h
  have hdistinct := (e.table l).distinct
  rw [he, List.map_append, List.map_cons, List.nodup_append, List.nodup_cons] at hdistinct
  -- the entries on both sides have other ids, so they do not end the run
  have hother : ∀ entry ∈ (e.table l).entries, entry.1 ≠ id → Spares s entry := fun entry hm hne =>
    (spares_iff e l s hm).2 (hothers entry.1 (List.mem_map_of_mem hm) hne)
  have hfront : ∀ entry ∈ front, Spares s entry := fun entry hm =>
    hother entry (by simp [he, hm]) fun hid =>
      hdistinct.2.2 entry.1 (List.mem_map_of_mem hm) id (List.mem_cons_self ..) hid
  have hback : ∀ entry ∈ back, Spares s entry := fun entry hm =>
    hother entry (by simp [he, hm]) fun hid => hdistinct.2.1.1 (List.mem_map.2 ⟨entry, hm, hid⟩)
  refine ⟨front.flatMap (entryIssues s), back.flatMap (entryIssues s), fun hown => ?_,
    fun check e' ht hc => ?_⟩
  · have hm : (id, own) ∈ (e.table l).entries := by simp [he]
    obtain ⟨report, records, hrun, hissues, -⟩ :=
      issues_run_of_entries he hfront hback ((spares_iff e l s hm).2 hown)
    exact ⟨report, records, hrun, hissues⟩
  · -- the new check stands where the old one stood
    have he' : (e'.table l).entries = front ++ (id, check) :: back := by
      rw [ht]
      exact hi check
    obtain ⟨report, records, hrun, hissues, hids⟩ := issues_run_of_entries he' hfront hback hc
    refine ⟨report, records, hrun, hissues, ?_⟩
    rw [hids, Table.ids, he]
    simp

variable (e l s)

theorem runNamed_name :
    e.runNamed (.str l.name) s = ((e.run l s).1.mapError .failed, (e.run l s).2) := by
  simp only [runNamed, Language.ofValue_name]

theorem runNamed_of_run {report : Report} {records : List Log.Record}
    (h : e.run l s = (.ok report, records)) :
    e.runNamed (.str l.name) s = (.ok report, records) := by
  rw [runNamed_name, h]
  rfl

theorem runSingleNamed_name (id : String) :
    e.runSingleNamed (.str l.name) (.str id) s = e.runSingle l id s := by
  simp only [runSingleNamed, Language.ofValue_name]
  rfl

/-- **A run shows its single checks.** In a known language, a run that none of its checks ends by a
fatal failure gives a report: its issues are what the single checks give, with one issue in place of
each that fails, its ids are those of the table, and its total and summary are those of its issues.
Replacing a check changes only what is shown for it. The first fatal failure is passed on by the
run. An unknown language is refused alike by a run and by any single check. -/
theorem run_shows_single_checks (e : Engine) (s : List Char) :
    (∀ l : Language,
      (∀ id ∈ (e.table l).ids, SparedBy (e.runSingleNamed (.str l.name) (.str id) s)) →
      ∃ report records, e.runNamed (.str l.name) s = (.ok report, records) ∧
        report.issues = (e.table l).ids.flatMap (fun id =>
          shown id (e.runSingleNamed (.str l.name) (.str id) s)) ∧
        (∀ id ∈ (e.table l).ids,
          (∃ issues, e.runSingleNamed (.str l.name) (.str id) s = .ok issues) ∨
          ∃ f, e.runSingleNamed (.str l.name) (.str id) s = .error (.failed f)) ∧
        report.rulesExecuted = (e.table l).ids ∧
        report.totalIssues = report.issues.length ∧
        report.summary = summarize report.issues) ∧
    (∀ (l : Language) (id : String), id ∈ (e.table l).ids →
      (∀ i ∈ (e.table l).ids, i ≠ id → SparedBy (e.runSingle l i s)) → ∃ front back,
        (SparedBy (e.runSingle l id s) → ∃ report records, e.run l s = (.ok report, records) ∧
          report.issues = front ++ shown id (e.runSingle l id s) ++ back) ∧
        ∀ (check : Check) (e' : Engine), e'.table l = (e.table l).insert id check →
          (∀ f, check s = .error f → f.fatal = false) →
          ∃ report records, e'.run l s = (.ok report, records) ∧
            report.issues = front ++ shown id (e'.runSingle l id s) ++ back ∧
            report.rulesExecuted = (e.table l).ids) ∧
    (∀ (l : Language) (front back : List String) (id : String) (f : Failure),
      (e.table l).ids = front ++ id :: back →
      (∀ i ∈ front, SparedBy (e.runSingleNamed (.str l.name) (.str i) s)) →
      e.runSingleNamed (.str l.name) (.str id) s = .error (.failed f) → f.fatal = true →
      (e.runNamed (.str l.name) s).1 = .error (.failed f)) ∧
    (∀ v : Value, (∀ l : Language, v ≠ .str l.name) →
      (e.runNamed v s).1 = .error (.unknownLanguage v) ∧
      ∀ id : Value, e.runSingleNamed v id s = .error (.unknownLanguage v)) := by
  simp only [runSingleNamed_name]
  refine ⟨fun l h => ?_, fun l id h hothers => exists_issues_run_insert h hothers,
    fun l front back id f hids hfront hid hf => ?_, fun v hv => ?_⟩
  · obtain ⟨report, records, hrun, hissues, hexecuted, htotal, hsummary⟩ := issues_run h
    exact ⟨report, records, runNamed_of_run e l s hrun, hissues,
      fun id hm => runSingle_cases e l s hm, hexecuted, htotal, hsummary⟩
  · -- the ids are those of the entries, which are cut at the same place
    obtain ⟨before, rest, htable, rfl, hrest⟩ := List.map_eq_append_iff.1 hids
    obtain ⟨⟨i, check⟩, after, rfl, rfl, rfl⟩ := List.map_eq_cons_iff.1 hrest
    have hm : (i, check) ∈ (e.table l).entries := by simp [htable]
    have hspares : ∀ other ∈ before, Spares s other := fun other ho =>
      (spares_iff e l s (by simp [htable, ho])).2 (hfront other.1 (List.mem_map_of_mem ho))
    rw [runNamed_name,
      run_of_fatal htable hspares ((runSingle_eq_failed_iff e l s hm).1 hid) hf]
    rfl
  · have hl := Language.ofValue_eq_error hv
    refine ⟨?_, fun id => ?_⟩
    · simp only [runNamed, hl]
    · simp only [runSingleNamed, hl]
      rfl

/-- A table with a check that fails in the ordinary way before a rule. -/
def failingTable : Table :=
  .ofEntries [("boom", fun _ => .error ⟨"RuntimeError", "bad rule", false⟩),
    (Rule.longLines.id, Rule.longLines.toCheck)]

theorem run_shows_single_checks_failing :
    let e : Engine := ⟨[(.verilog, failingTable)]⟩
    let s := "module m; endmodule".toList
    (∀ id ∈ (e.table .verilog).ids,
      SparedBy (e.runSingleNamed (.str Language.verilog.name) (.str id) s)) ∧
    (∃ report records, e.runNamed (.str Language.verilog.name) s = (.ok report, records) ∧
      report.issues = shown "boom" (e.runSingle .verilog "boom" s)) ∧
    (∀ l : Language, Value.int 5 ≠ .str l.name) ∧
    (e.runNamed (.int 5) s).1 = .error (.unknownLanguage (.int 5)) := by
  intro e s
  have hspared : ∀ id ∈ (e.table .verilog).ids,
      SparedBy (e.runSingleNamed (.str Language.verilog.name) (.str id) s) := by
    rintro id hm f hf
    rcases List.mem_cons.1 hm with rfl | hm
    · cases hf
      rfl
    · obtain rfl := List.mem_singleton.1 hm
      cases hf
  obtain ⟨hr, -, -, hv⟩ := run_shows_single_checks e s
  obtain ⟨report, records, hrun, hissues, -⟩ := hr .verilog hspared
  exact ⟨hspared, ⟨report, records, hrun, hissues⟩, nofun, (hv (.int 5) nofun).1⟩

/-- A table with a check that fails fatally behind a rule. -/
def stoppingTable : Table :=
  .ofEntries [(Rule.longLines.id, Rule.longLines.toCheck),
    ("stop", fun _ => .error ⟨"SystemExit", "stop", true⟩)]

/-- **A fatal failure is not shown as an issue**: the run gives no report, although the other check
of the table has an outcome of its own. -/
theorem no_report_of_fatal :
    let e : Engine := ⟨[(.verilog, stoppingTable)]⟩
    let s := "module m; endmodule".toList
    e.runSingleNamed (.str Language.verilog.name) (.str Rule.longLines.id) s = .ok [] ∧
    e.runSingleNamed (.str Language.verilog.name) (.str "stop") s =
      .error (.failed ⟨"SystemExit", "stop", true⟩) ∧
    ∀ report records, e.runNamed (.str Language.verilog.name) s ≠ (.ok report, records) := by
  intro e s
  refine ⟨rfl, rfl, fun report records hrun => ?_⟩
  have hfatal : (e.runNamed (.str Language.verilog.name) s).1 =
      .error (.failed ⟨"SystemExit", "stop", true⟩) := rfl
  rw [hrun] at hfatal
  cases hfatal

end Engine

end HdlReview.Lint

import HdlReview.Audit.Logger

/-!
# What a logger does to its file

No directory is ever made, so the way to a file is free or not whatever is written. What the system
has against an attempt to open the file is used up by it. A logger may refuse every entry, because
its path is none. Otherwise it loses an entry, because it is not enabled or its file does not open,
and leaves all files as they are; or its file opens, and the entry is added at the end.

## Main definitions

* `Logger.refuses`: a logger that takes no entry at all
* `Logger.Opens l d`: the file opens at the coming attempt
* `Logger.Writes l d`: the file opens at every attempt
* `Logger.Loses l d n`: the next `n` entries are lost
* `Logger.after l now e d`: the directory after an entry

## Main results

* `Logger.text_after`: what is written stands at the end of the file
* `Logger.files_after_of_not_opens`: what is lost changes no file
* `Logger.Writes.after`, `Logger.Loses.after`: both kinds of loggers stay as they are
-/

namespace HdlReview.Audit

open HdlReview.Decimal HdlReview.Text

variable {l : Logger} {d d' : Directory} {p : Path} {now : Int} {e : Entry} {n : Nat}

/-! ## The way to a file -/

namespace Directory

theorem leads_congr (h : d'.folders = d.folders) (p : Path) : d'.leads p = d.leads p := by
  rw [leads, leads, h]

theorem leadingObstacle?_eq_none_iff : d.leadingObstacle? p = none ↔ d.leads p = true := by
  rw [leadingObstacle?]
  split
  · simp_all
  · split <;> simp_all

theorem stepObstacle?_eq_none_iff {step : Path × String} :
    d.stepObstacle? step = none ↔ d.leads step.1 = true ∧ octetCount step.2 ≤ nameLimit := by
  rw [← leadingObstacle?_eq_none_iff, stepObstacle?]
  cases d.leadingObstacle? step.1 with
  | some o => simp
  | none => simp

/-- **The way to a file is free** if its path is short enough, leads through directories by names
that are not too long, and ends in none. -/
theorem obstacle?_eq_none_iff :
    d.obstacle? p = none ↔ octetCount p.text < pathLimit ∧
      (∀ step ∈ p.steps, d.leads step.1 = true ∧ octetCount step.2 ≤ nameLimit) ∧
      d.leads p = false := by
  have hsteps : p.steps.findSome? d.stepObstacle? = none ↔
      ∀ step ∈ p.steps, d.leads step.1 = true ∧ octetCount step.2 ≤ nameLimit := by
    simp only [List.findSome?_eq_none_iff, stepObstacle?_eq_none_iff]
  constructor
  · intro h
    rw [obstacle?] at h
    split at h
    · cases h
    · next hshort =>
      split at h
      · cases h
      · next hnone =>
        split at h
        · cases h
        · next hfile =>
          exact ⟨Nat.lt_of_not_le hshort, hsteps.1 hnone, Bool.eq_false_iff.2 hfile⟩
  · rintro ⟨hshort, hleads, hfile⟩
    rw [obstacle?, if_neg (Nat.not_le_of_lt hshort), hsteps.2 hleads, hfile]
    rfl

/-- The way to a file does not depend on what was written. -/
theorem obstacle?_eq_none_congr (h : d'.folders = d.folders) :
    d'.obstacle? p = none ↔ d.obstacle? p = none := by
  simp only [obstacle?_eq_none_iff, leads_congr h]

/-! ## Opening a file -/

@[simp] theorem folders_openFile (p : Path) (d : Directory) :
    (d.openFile p).1.folders = d.folders := by
  rw [openFile]
  cases d.refusal? p <;> rfl

/-- An attempt uses up what the system has against it. -/
@[simp] theorem denials_openFile (p : Path) (d : Directory) :
    (d.openFile p).1.denials = d.denials.tail := by
  rw [openFile]
  cases d.refusal? p <;> rfl

theorem openFile_of_refusal {o : Obstacle} (h : d.refusal? p = some o) :
    d.openFile p = ({ d with denials := d.denials.tail }, some o) := by
  rw [openFile, h]

theorem openFile_of_none (h : d.refusal? p = none) :
    d.openFile p = (append p [] { d with denials := d.denials.tail }, none) := by
  rw [openFile, h]

end Directory

namespace Logger

/-! ## Kinds of loggers -/

/-- A logger that takes no entry at all: it is enabled, and its path is none. -/
def refuses (l : Logger) : Bool :=
  l.enabled && l.path.hasNull

/-- **The file of a logger opens** at the coming attempt. -/
structure Opens (l : Logger) (d : Directory) : Prop where
  enabled : l.enabled = true
  named : l.path.hasNull = false
  granted : d.refusal? l.path = none

/-- **A logger that writes every entry**: it is enabled, the way to its file is free, and the system
has nothing against any attempt to open it. -/
structure Writes (l : Logger) (d : Directory) : Prop where
  enabled : l.enabled = true
  named : l.path.hasNull = false
  clear : d.obstacle? l.path = none
  granted : ∀ o ∈ d.denials, o = none

/-- **A logger that loses the next `n` entries**: it is not enabled, or the way to its file is not
free, or the system has something against each attempt to open it. -/
def Loses (l : Logger) (d : Directory) (n : Nat) : Prop :=
  l.enabled = false ∨ l.path.hasNull = false ∧
    ((∃ o, d.obstacle? l.path = some o) ∨ ∀ k < n, ∃ o, d.denials[k]? = some (some o))

theorem Writes.opens (h : l.Writes d) : l.Opens d := by
  refine ⟨h.enabled, h.named, ?_⟩
  rw [Directory.refusal?]
  split
  · next o ho => exact absurd (h.granted _ (List.mem_of_mem_head? ho)) (by simp)
  · exact h.clear

theorem Writes.refuses_eq_false (h : l.Writes d) : l.refuses = false := by
  rw [refuses, h.named, Bool.and_false]

/-- The file of a logger that loses entries does not open. -/
theorem Loses.not_opens (h : l.Loses d (n + 1)) : ¬ l.Opens d := by
  intro ho
  have hgranted := ho.granted
  rcases h with h | ⟨-, ⟨o, hway⟩ | hdenied⟩
  · exact absurd (h.symm.trans ho.enabled) (by decide)
  · rw [Directory.refusal?] at hgranted
    split at hgranted
    · cases hgranted
    · rw [hway] at hgranted
      cases hgranted
  · obtain ⟨o, hfirst⟩ := hdenied 0 (Nat.succ_pos n)
    rw [← List.head?_eq_getElem?] at hfirst
    rw [Directory.refusal?, hfirst] at hgranted
    cases hgranted

theorem Loses.of_succ (h : l.Loses d (n + 1)) : l.Loses d n :=
  h.imp_right fun ⟨hnamed, hlost⟩ =>
    ⟨hnamed, hlost.imp_right fun hdenied k hk => hdenied k (Nat.lt_succ_of_lt hk)⟩

/-! ## Recording an entry -/

theorem log_of_refuses (h : l.refuses = true) : l.log now e d = ⟨d, [], some .nullCharacter⟩ := by
  obtain ⟨henabled, hnull⟩ := Bool.and_eq_true_iff.1 h
  rw [log, if_pos henabled, if_pos hnull]

theorem log_of_opens (h : l.Opens d) {line : List Char} (hline : e.line now = .ok line) :
    l.log now e d = ⟨(d.openFile l.path).1.append l.path line, [], none⟩ := by
  have hnull : ¬ l.path.hasNull = true := Bool.eq_false_iff.1 h.named
  rw [log, if_pos h.enabled, if_neg hnull, Directory.openFile_of_none h.granted, hline]

/-- **An entry that is lost** is no error. Only the attempt to open the file was made. -/
theorem log_of_not_opens (hrefuses : l.refuses = false) (h : ¬ l.Opens d) :
    (l.log now e d).error? = none ∧ (l.log now e d).directory.files = d.files := by
  rw [log]
  split
  · next henabled =>
    have hnull : l.path.hasNull = false := by
      rw [refuses, henabled, Bool.true_and] at hrefuses
      exact hrefuses
    rw [if_neg (Bool.eq_false_iff.1 hnull)]
    cases ho : d.refusal? l.path with
    | none => exact absurd ⟨henabled, hnull, ho⟩ h
    | some o =>
      rw [Directory.openFile_of_refusal ho]
      exact ⟨rfl, rfl⟩
  · exact ⟨rfl, rfl⟩

/-- **Entries that can be written** are taken by every logger that does not refuse. -/
theorem error?_log (hrefuses : l.refuses = false) {line : List Char}
    (hline : e.line now = .ok line) : (l.log now e d).error? = none := by
  by_cases h : l.Opens d
  · rw [log_of_opens h hline]
  · exact (log_of_not_opens hrefuses h).1

/-- The directory after an entry was to be recorded. -/
def after (l : Logger) (now : Int) (e : Entry) (d : Directory) : Directory :=
  (l.log now e d).directory

theorem files_after_of_not_opens (h : ¬ l.Opens d) : (l.after now e d).files = d.files := by
  cases hrefuses : l.refuses with
  | true => rw [after, log_of_refuses hrefuses]
  | false => exact (log_of_not_opens hrefuses h).2

/-- **What becomes of the directories and of the attempts to come**: an attempt is used up, unless
the logger makes none. -/
theorem folders_and_denials_after :
    (l.after now e d).folders = d.folders ∧ (l.after now e d).denials =
      if l.enabled && ! l.path.hasNull then d.denials.tail else d.denials := by
  have hfolders := Directory.folders_openFile l.path d
  have hdenials := Directory.denials_openFile l.path d
  rw [after, log]
  cases l.enabled with
  | false => exact ⟨rfl, rfl⟩
  | true =>
    cases l.path.hasNull with
    | true => exact ⟨rfl, rfl⟩
    | false =>
      generalize d.openFile l.path = attempt at hfolders hdenials
      obtain ⟨opened, refusal⟩ := attempt
      cases refusal with
      | some o => exact ⟨hfolders, hdenials⟩
      | none => cases e.line now <;> exact ⟨hfolders, hdenials⟩

/-- **A logger that writes** goes on writing. -/
theorem Writes.after (h : l.Writes d) : l.Writes (l.after now e d) := by
  obtain ⟨hfolders, hdenials⟩ := @folders_and_denials_after l d now e
  refine ⟨h.enabled, h.named, (Directory.obstacle?_eq_none_congr hfolders).2 h.clear, ?_⟩
  rw [hdenials]
  split
  · exact fun o ho => h.granted o (List.mem_of_mem_tail ho)
  · exact h.granted

/-- **Whether a file opens** does not depend on what was written. -/
theorem opens_congr (hfolders : d'.folders = d.folders) (hdenials : d'.denials = d.denials) :
    l.Opens d' ↔ l.Opens d := by
  have hgranted : d'.refusal? l.path = none ↔ d.refusal? l.path = none := by
    rw [Directory.refusal?, Directory.refusal?, hdenials]
    split
    · rfl
    · exact Directory.obstacle?_eq_none_congr hfolders
  constructor
  · exact fun h => ⟨h.enabled, h.named, hgranted.1 h.granted⟩
  · exact fun h => ⟨h.enabled, h.named, hgranted.2 h.granted⟩

/-- **A logger that loses entries** has lost one of them. -/
theorem Loses.after (h : l.Loses d (n + 1)) : l.Loses (l.after now e d) n := by
  obtain ⟨hfolders, hdenials⟩ := @folders_and_denials_after l d now e
  refine h.imp_right fun ⟨hnamed, hlost⟩ => ⟨hnamed, ?_⟩
  rcases hlost with ⟨o, ho⟩ | hdenied
  · -- the way to the file is as it was
    refine .inl (Option.ne_none_iff_exists'.1 fun hnone => ?_)
    rw [(Directory.obstacle?_eq_none_congr hfolders).1 hnone] at ho
    cases ho
  · refine .inr fun k hk => ?_
    rw [hdenials]
    split
    · rw [List.getElem?_tail]
      exact hdenied (k + 1) (Nat.succ_lt_succ hk)
    · exact hdenied k (Nat.lt_succ_of_lt hk)

/-- The text of a logger's file, empty if there is none. -/
def text (l : Logger) (d : Directory) : List Char :=
  (l.contents? d).getD []

theorem text_congr (h : d'.files = d.files) : l.text d' = l.text d := by
  rw [text, text, contents?, contents?, Directory.contents?, Directory.contents?, h]

theorem text_append (s : List Char) : l.text (d.append l.path s) = l.text d ++ s := by
  rw [text, contents?, Directory.contents?_append]
  rfl

/-- **What is written** stands at the end of the file. -/
theorem text_after (h : l.Opens d) {line : List Char} (hline : e.line now = .ok line) :
    l.text (l.after now e d) = l.text d ++ line := by
  rw [after, log_of_opens h hline, text_append, Directory.openFile_of_none h.granted, text_append,
    List.append_nil]
  exact congrArg (· ++ line) (text_congr rfl)

/-- **The same is added to two files** by the same entry, if both open or none does. -/
theorem exists_text_after (hopens : l.Opens d' ↔ l.Opens d) {line : List Char}
    (hline : e.line now = .ok line) :
    ∃ added, l.text (l.after now e d) = l.text d ++ added ∧
      l.text (l.after now e d') = l.text d' ++ added := by
  by_cases h : l.Opens d
  · exact ⟨line, text_after h hline, text_after (hopens.2 h) hline⟩
  · -- where the file does not open, both entries are lost
    refine ⟨[], ?_, ?_⟩
    · rw [List.append_nil]
      exact text_congr (files_after_of_not_opens h)
    · rw [List.append_nil]
      exact text_congr (files_after_of_not_opens (mt hopens.1 h))

end Logger

/-- A logger whose file is in a directory of its own. -/
def folderLogger : Logger :=
  .ofOptions (some "/var/log/hdlguard.jsonl") true

/-- The directories that lead to its file. -/
def folderDirectory : Directory :=
  ⟨[], [.ofText "/var", .ofText "/var/log"], []⟩

theorem writes_folderLogger : folderLogger.Writes folderDirectory :=
  ⟨rfl, by decide +kernel, by decide +kernel, by decide⟩

/-! ## Entries that can be written -/

theorem Entry.line_of_lt (h : e.totalIssues.natAbs < longBound) :
    e.line now = .ok (Json.write (e.record now) ++ ['\n']) := by
  rw [Entry.line, writeInt_of_lt h, Except.map]

theorem Entry.line_of_le (h : longBound ≤ e.totalIssues.natAbs) :
    e.line now = .error .longInteger := by
  rw [Entry.line, writeInt_of_le h, Except.map]

end HdlReview.Audit

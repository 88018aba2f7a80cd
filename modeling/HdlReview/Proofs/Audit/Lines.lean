import HdlReview.Proofs.Audit.Logging
import HdlReview.Proofs.Json.OneLine
import HdlReview.Proofs.Json.ReadBack
import Mathlib.Data.List.Forall2

/-!
# The log is one object a line

A logger that writes appends one line for each entry. The line has no newline in it, whatever the
texts of the entry hold, so the lines of the file stay apart: those that were there before, and then
one for each entry in order. Each line is read back as the data of its entry. The exception is an
entry whose number of issues has more digits than are written: recording it is an error.

## Main definitions

* `WholeLines s`, `endedLines s`: texts of whole lines, and the lines of a text
* `Logger.logAll l calls d`: recording entries one after the other
* `Records now e v`: the data of an entry with the time

## Main results

* `endedLines_append`: lines of texts one behind the other
* `Logger.logAll_of_writes`: the file after some entries
* `exists_read_record`: a recorded entry is read back
* `log_reads_back`: the whole log
* `not_logged_of_every_size`: an entry without a line
-/

namespace HdlReview.Audit

open HdlReview.Decimal HdlReview.Json HdlReview.Text

variable {l : Logger} {d : Directory} {now : Int} {e : Entry} {s t : List Char}

/-! ## Lines of a file -/

/-- **A text of whole lines**: it is empty, or a newline is the last thing in it. -/
def WholeLines (s : List Char) : Prop :=
  s = [] ∨ s.getLast? = some '\n'

/-- **The lines of a text** that have a newline behind them. -/
def endedLines (s : List Char) : List (List Char) :=
  (s.splitOn '\n').dropLast

/-- **Behind whole lines** other lines stay as they are. -/
theorem endedLines_append (hs : WholeLines s) (t : List Char) :
    endedLines (s ++ t) = endedLines s ++ endedLines t := by
  rcases hs with rfl | hlast
  · rfl
  · -- the newline at the end of `s` is a cut, so the lines on both sides are taken apart
    obtain ⟨u, rfl⟩ := List.getLast?_eq_some_iff.1 hlast
    have hended : ∀ v, endedLines (u ++ '\n' :: v) = u.splitOn '\n' ++ endedLines v := by
      intro v
      rw [endedLines, List.splitOn_append_cons_self, endedLines,
        List.dropLast_append_of_ne_nil (List.splitOn_ne_nil '\n' v)]
    rw [List.append_assoc, List.singleton_append, hended, hended, List.append_assoc]
    rfl

/-- A line with its newline is one line. -/
theorem endedLines_line (hs : '\n' ∉ s) : endedLines (s ++ ['\n']) = [s] := by
  rw [endedLines, List.splitOn_append_cons_self_of_not_mem hs, List.splitOn_nil]
  rfl

theorem wholeLines_line (s : List Char) : WholeLines (s ++ ['\n']) :=
  .inr List.getLast?_concat

theorem WholeLines.append (hs : WholeLines s) (ht : WholeLines t) : WholeLines (s ++ t) := by
  rcases ht with rfl | ht
  · rwa [List.append_nil]
  · exact .inr (by rw [List.getLast?_append, ht, Option.some_or])

/-- Lines without newlines inside are kept apart by the newlines behind them. -/
theorem endedLines_flatMap {lines : List (List Char)} (hlines : ∀ line ∈ lines, '\n' ∉ line) :
    endedLines (lines.flatMap (· ++ ['\n'])) = lines ∧
      WholeLines (lines.flatMap (· ++ ['\n'])) := by
  induction lines with
  | nil => exact ⟨rfl, .inl rfl⟩
  | cons line lines ih =>
    have hline : '\n' ∉ line := hlines line (List.mem_cons_self ..)
    obtain ⟨hended, hwhole⟩ := ih fun other h => hlines other (List.mem_cons_of_mem line h)
    rw [List.flatMap_cons, endedLines_append (wholeLines_line line), endedLines_line hline, hended]
    exact ⟨rfl, (wholeLines_line line).append hwhole⟩

/-! ## Recording one entry after the other -/

namespace Logger

/-- **Recording entries** one after the other, each at its time, up to the first error. -/
def logAll (l : Logger) : List (Int × Entry) → Directory → Logged
  | [], d => ⟨d, [], none⟩
  | (now, e) :: calls, d =>
    let first := l.log now e d
    match first.error? with
    | some _ => first
    | none =>
      let rest := logAll l calls first.directory
      { rest with records := first.records ++ rest.records }

/-- **The file after some entries** that can be written has their lines at its end. -/
theorem logAll_of_writes (h : l.Writes d) {calls : List (Int × Entry)}
    (hcalls : ∀ call ∈ calls, call.2.totalIssues.natAbs < longBound) :
    ∃ d', l.logAll calls d = ⟨d', [], none⟩ ∧ l.text d' = l.text d ++
      (calls.map fun call => write (call.2.record call.1)).flatMap (· ++ ['\n']) := by
  induction calls generalizing d with
  | nil => exact ⟨d, rfl, (List.append_nil _).symm⟩
  | cons call calls ih =>
    obtain ⟨now, e⟩ := call
    have hline : e.line now = .ok (write (e.record now) ++ ['\n']) :=
      Entry.line_of_lt (hcalls _ (List.mem_cons_self ..))
    have hlog := log_of_opens h.opens hline
    -- the logger goes on writing, whatever was written before
    obtain ⟨d', hall, htext⟩ :=
      ih (@Writes.after l d now e h) fun call hm => hcalls call (List.mem_cons_of_mem _ hm)
    refine ⟨d', ?_, ?_⟩
    · rw [after, hlog] at hall
      simp only [logAll, hlog, hall, List.nil_append]
    · rw [htext, text_after h.opens hline, List.append_assoc, List.map_cons, List.flatMap_cons]

/-- **An entry with too long a number** is an error, and no line is written. -/
theorem log_of_long (h : l.Writes d) (he : longBound ≤ e.totalIssues.natAbs) :
    (l.log now e d).error? = some (.unwritable .longInteger) ∧
      l.text (l.log now e d).directory = l.text d := by
  have hnull : ¬ l.path.hasNull = true := Bool.eq_false_iff.1 h.named
  rw [log, if_pos h.enabled, if_neg hnull, Directory.openFile_of_none h.opens.granted,
    Entry.line_of_le he]
  refine ⟨rfl, ?_⟩
  -- the file was opened, and nothing was added
  rw [text_append, List.append_nil]
  exact text_congr rfl

end Logger

/-! ## Records -/

/-- **The data of an entry** with the time. There is a language just if the entry has one. -/
inductive Records (now : Int) (e : Entry) : Value → Prop
  | withLanguage (language : String) (duration : Double) (h : e.language = some language) :
    Records now e (.obj [("timestamp", .str (timestamp now)), ("request_id", .str e.requestId),
      ("operation", .str e.operation), ("language", .str language),
      ("total_issues", .int e.totalIssues), ("duration_ms", .float duration)])
  | withoutLanguage (duration : Double) (h : e.language = none) :
    Records now e (.obj [("timestamp", .str (timestamp now)), ("request_id", .str e.requestId),
      ("operation", .str e.operation), ("total_issues", .int e.totalIssues),
      ("duration_ms", .float duration)])

/-- **A recorded entry is read back**, under the usual limit for the digits of an integer. -/
theorem exists_read_record (now : Int) (he : e.totalIssues.natAbs < longBound) :
    ∃ v, (∀ limit, 0 < limit → readWithin limit (write (e.record now)) = .ok v) ∧
      Records now e v := by
  obtain ⟨duration, hduration⟩ := exists_readsAs_float (some digitLimit) e.durationMs
  have htext : ∀ name text,
      FieldReadsAs (some digitLimit) (name, .str text) (name, .str text) :=
    fun name text => ⟨rfl, readsAs_str text⟩
  have hissues : FieldReadsAs (some digitLimit) ("total_issues", .int e.totalIssues)
      ("total_issues", .int e.totalIssues) := ⟨rfl, readsAs_int he⟩
  have htail : FieldReadsAs (some digitLimit) ("duration_ms", .float e.durationMs)
      ("duration_ms", .float duration) := ⟨rfl, hduration⟩
  cases hlanguage : e.language with
  | none =>
    refine ⟨_, fun limit hlimit => ?_, .withoutLanguage duration hlanguage⟩
    rw [Entry.record, hlanguage]
    apply readUnder_write_obj hlimit
    · exact .cons (htext ..) (.cons (htext ..) (.cons (htext ..)
        (.cons hissues (.cons htail .nil))))
    · simp
  | some language =>
    refine ⟨_, fun limit hlimit => ?_, .withLanguage language duration hlanguage⟩
    rw [Entry.record, hlanguage]
    apply readUnder_write_obj hlimit
    · exact .cons (htext ..) (.cons (htext ..) (.cons (htext ..) (.cons (htext ..)
        (.cons hissues (.cons htail .nil)))))
    · simp

/-! ## The log -/

/-- **The log is read back line by line.** Entries that are recorded one after the other by a logger
that writes, in a file of whole lines, leave what was there before and add one line each, in order,
if their numbers of issues can be written. Every added line consists of printable ASCII characters,
and it is read as the data of its entry. Recording an entry with a longer number is an error and
adds nothing. -/
theorem log_reads_back (l : Logger) (d : Directory) (hwrites : l.Writes d)
    (hwhole : WholeLines (l.text d)) :
    (∀ calls : List (Int × Entry), (∀ call ∈ calls, call.2.totalIssues.natAbs < longBound) →
      ∃ d' added, l.logAll calls d = ⟨d', [], none⟩ ∧
        l.text d' = l.text d ++ added.flatMap (· ++ ['\n']) ∧
        endedLines (l.text d') = endedLines (l.text d) ++ added ∧ WholeLines (l.text d') ∧
        List.Forall₂ (fun line call => AsciiPrintable line ∧
          ∃ v, (∀ limit, 0 < limit → readWithin limit line = .ok v) ∧ Records call.1 call.2 v)
          added calls) ∧
    ∀ now e, longBound ≤ e.totalIssues.natAbs →
      (l.log now e d).error? = some (.unwritable .longInteger) ∧
        l.text (l.log now e d).directory = l.text d := by
  refine ⟨fun calls hcalls => ?_, fun now e he => Logger.log_of_long hwrites he⟩
  obtain ⟨d', hall, htext⟩ := Logger.logAll_of_writes hwrites hcalls
  have hlines : ∀ line ∈ calls.map fun call => write (call.2.record call.1), '\n' ∉ line := by
    intro line hline
    obtain ⟨call, -, rfl⟩ := List.mem_map.1 hline
    exact newline_not_mem_write _
  obtain ⟨hended, hrest⟩ := endedLines_flatMap hlines
  refine ⟨d', calls.map fun call => write (call.2.record call.1), hall, htext, ?_, ?_, ?_⟩
  · rw [htext, endedLines_append hwhole, hended]
  · rw [htext]
    exact hwhole.append hrest
  · rw [List.forall₂_map_left_iff, List.forall₂_same]
    exact fun call hm => ⟨asciiPrintable_write _, exists_read_record call.1 (hcalls call hm)⟩

/-- Entries with marks, controls, a line separator and a character of two code units. -/
def unusualCalls : List (Int × Entry) :=
  [(0, ⟨"say \"hi\"\\\n", "review\t\x00", none, -7, .zero true⟩),
    (1, ⟨"\u2028", "𝄞", some "", 10 ^ 40, .nan⟩)]

/-- Such entries are kept apart in the log and read back. -/
theorem log_reads_back_unusualCalls :
    folderLogger.Writes folderDirectory ∧ WholeLines (folderLogger.text folderDirectory) ∧
    (∀ call ∈ unusualCalls, call.2.totalIssues.natAbs < longBound) ∧
    ∃ d' first second, folderLogger.logAll unusualCalls folderDirectory = ⟨d', [], none⟩ ∧
      endedLines (folderLogger.text d') = [first, second] ∧
      List.Forall₂ (fun line call => ∃ v,
          (∀ limit, 0 < limit → readWithin limit line = .ok v) ∧ Records call.1 call.2 v)
        [first, second] unusualCalls := by
  have hempty : folderLogger.text folderDirectory = [] := rfl
  have hcalls : ∀ call ∈ unusualCalls, call.2.totalIssues.natAbs < longBound := by decide +kernel
  obtain ⟨d', added, hall, -, hended, -, hread⟩ :=
    (log_reads_back folderLogger folderDirectory writes_folderLogger (.inl hempty)).1
      unusualCalls hcalls
  obtain ⟨first, second, rfl⟩ := List.length_eq_two.1 hread.length_eq
  rw [hempty] at hended
  exact ⟨writes_folderLogger, .inl hempty, hcalls, d', first, second, hall, hended,
    hread.imp fun _ _ h => h.2⟩

/-- An entry whose number of issues has one digit too many. -/
def longEntry : Entry := ⟨"first", "analyze", some "verilog", longBound, .zero false⟩

/-- **Not every entry has a line**: the file opens, and nothing is added to it. -/
theorem not_logged_of_every_size :
    folderLogger.Writes folderDirectory ∧
      (folderLogger.logAll [(0, longEntry)] folderDirectory).error? =
        some (.unwritable .longInteger) ∧
      folderLogger.text (folderLogger.logAll [(0, longEntry)] folderDirectory).directory = [] := by
  have hlong : longBound ≤ longEntry.totalIssues.natAbs := (Int.natAbs_natCast longBound).ge
  obtain ⟨herror, htext⟩ := @Logger.log_of_long _ _ 0 _ writes_folderLogger hlong
  refine ⟨writes_folderLogger, ?_⟩
  simp only [Logger.logAll, herror]
  exact ⟨trivial, htext⟩

end HdlReview.Audit

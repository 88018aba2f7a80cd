import HdlReview.Proofs.Lint.Review
import HdlReview.Proofs.Lint.Sensitivity
import HdlReview.Proofs.Scan.Layout

/-!
# Lines that rules report

Two rules report the line of what they have found. They search the source as a whole and count line
feeds, while a reader looks at the lines one by one. Both see the same. The latch rule reports the
first line that has the word `if` as a whole word, taken on its own. The rule on sensitivity lists
reports the line on which the letters `always` of the first header stand, even if the header goes on
over several lines.

## Main results

* `firstLine_of_lineOfFirst`: the line of the first match of a word
* `exists_line_of_search`: the line of the first header behind `always`
* `reported_lines_exact`: what stands on the lines that are reported
-/

namespace HdlReview.Scan

variable {n : Nat} {s : List Char} {w : String}

/-- **The line of the first match of a word** is the first line that has the word. -/
theorem firstLine_of_lineOfFirst (hline : lineOfFirst (.wholeWord w) s = some n) :
    WordOnLine s w.toList n ∧ ∀ k, WordOnLine s w.toList k → n ≤ k := by
  obtain ⟨m, hm, rfl⟩ := Option.map_eq_some_iff.1 hline
  obtain ⟨hat, hleast⟩ := search_eq_some_iff.1 hm
  obtain ⟨-, rest, hword⟩ := hitAt_wholeWord_iff.1 hat
  refine ⟨hword.wordOnLine, ?_⟩
  intro k hk
  obtain ⟨j, rest', hword', rfl⟩ := wordOnLine_iff.1 hk
  exact lineOf_mono (hleast j _ (hitAt_wholeWord_iff.2 ⟨rfl, rest', hword'⟩))

/-- The letters `always` of the first header stand on the line of the header. -/
theorem exists_line_of_search {m : Match} (hm : search .alwaysHeader s = some m) :
    ∃ line, (lines s)[lineOf s m.start - 1]? = some line ∧
      lineStart s (lineOf s m.start) ≤ m.start ∧
      "always".toList <+: line.drop (m.start - lineStart s (lineOf s m.start)) := by
  obtain ⟨a, gap, gap', b, hs, hstart, -⟩ := (firstAlways_of_search hm).1
  rw [← hstart, hs]
  exact exists_line_of_text (by decide) a _

end HdlReview.Scan

namespace HdlReview.Lint

open HdlReview.Scan

/-- **Reported lines point at what was found.** The line of an issue of the latch rule is the first
one that, taken on its own, has the whole word `if`. The line of an issue of the rule on sensitivity
lists has the letters `always` at the column of the header that was looked at, which is the place of
the header less the length of the lines before, with their line feeds. -/
theorem reported_lines_exact (s : List Char) :
    (∀ issue ∈ Rule.latchInference.check s, ∃ n, issue.line = some n ∧
      WordOnLine s "if".toList n ∧ ∀ k, WordOnLine s "if".toList k → n ≤ k) ∧
    ∀ issue ∈ Rule.incompleteSensitivity.check s, ∃ n header line, issue.line = some n ∧
      search .alwaysHeader s = some header ∧ 1 ≤ n ∧ (lines s)[n - 1]? = some line ∧
      lineStart s n ≤ header.start ∧
      "always".toList <+: line.drop (header.start - lineStart s n) := by
  constructor
  · intro issue hissue
    obtain ⟨f, hf, rfl⟩ := List.mem_map.1 hissue
    obtain ⟨n, hline, rfl⟩ := exists_of_mem_latchFindings s hf
    exact ⟨n, rfl, firstLine_of_lineOfFirst hline⟩
  · intro issue hissue
    obtain ⟨f, hf, rfl⟩ := List.mem_map.1 hissue
    obtain ⟨header, hsearch, rfl⟩ := exists_of_mem_sensitivityFindings s hf
    obtain ⟨line, hline, hstart, htext⟩ := exists_line_of_search hsearch
    exact ⟨lineOf s header.start, header, line, rfl, hsearch, one_le_lineOf s _, hline, hstart,
      htext⟩

/-- A source whose first header goes on over a line feed, with an `if` behind it. -/
def brokenHeader : List Char :=
  "// elif\nx; always\n@(a)\nif (b) c = a;".toList

/-- The header is reported on its first line, where it starts at a column of its own, and the first
`if` that is a whole word is on the last line. -/
theorem reported_lines_exact_brokenHeader :
    (∃ issue ∈ Rule.latchInference.check brokenHeader, issue.line = some 4 ∧
      WordOnLine brokenHeader "if".toList 4 ∧
      ∀ k, WordOnLine brokenHeader "if".toList k → 4 ≤ k) ∧
    ∃ issue ∈ Rule.incompleteSensitivity.check brokenHeader, issue.line = some 2 ∧
      ∃ header line, search .alwaysHeader brokenHeader = some header ∧
        (lines brokenHeader)[1]? = some line ∧ lineStart brokenHeader 2 ≤ header.start ∧
        "always".toList <+: line.drop (header.start - lineStart brokenHeader 2) := by
  have hlatch : some 4 ∈ (Rule.latchInference.check brokenHeader).map (·.line) := by
    decide +kernel
  have hsensitivity : some 2 ∈ (Rule.incompleteSensitivity.check brokenHeader).map (·.line) := by
    decide +kernel
  obtain ⟨issue, hissue, hline⟩ := List.mem_map.1 hlatch
  obtain ⟨issue', hissue', hline'⟩ := List.mem_map.1 hsensitivity
  obtain ⟨hwords, hheaders⟩ := reported_lines_exact brokenHeader
  obtain ⟨n, hn, hword⟩ := hwords issue hissue
  obtain ⟨n', header, line, hn', hsearch, -, hheader⟩ := hheaders issue' hissue'
  obtain rfl : 4 = n := Option.some.inj (hline.symm.trans hn)
  obtain rfl : 2 = n' := Option.some.inj (hline'.symm.trans hn')
  exact ⟨⟨issue, hissue, hline, hword⟩, issue', hissue', hline', header, line, hsearch, hheader⟩

end HdlReview.Lint

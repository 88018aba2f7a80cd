import HdlReview.Lint.Engine
import HdlReview.Proofs.Scan.Names

/-!
# Rules on corresponding sources

A rule finds the same in corresponding sources, on the same lines, up to the names that it quotes:
the target that is assigned repeatedly, and the signals that a sensitivity list leaves out. The rule
on long lines is the exception, as names and gaps may have any length. The two rules on processes
look for words without regard to case, which a renaming need not keep; they find the same if nothing
is renamed.

## Main definitions

* `Renamed r rule f f'`: the finding `f'` of a rule is `f` with the names in it renamed

## Main results

* `Rule.findings_rel`: the rules for hardware modules on corresponding sources
* `Rule.findings_eq`: all rules, if nothing is renamed
-/

namespace HdlReview.Lint

open HdlReview.Scan HdlReview.Text

variable {r : Renaming} {s t : List Char}

/-- **A finding with its names renamed.** -/
inductive Renamed (r : Renaming) : Rule → Finding → Finding → Prop
  | target (name : List Char) (count : Nat) (h : isIdentifier name = true) :
      Renamed r .multipleAssignments (repeatedTarget name count)
        (repeatedTarget (r.rename name) count)
  | missing (line : Nat) (names : List (List Char)) (h : ∀ n ∈ names, isIdentifier n = true) :
      Renamed r .incompleteSensitivity (missingFinding line names)
        (missingFinding line (names.map r.rename))
  | same {rule : Rule} (f : Finding) (h : rule ≠ .multipleAssignments)
      (h' : rule ≠ .incompleteSensitivity) : Renamed r rule f f

theorem Renamed.eq_of_identity {rule : Rule} {f f' : Finding}
    (h : Renamed .identity rule f f') : f' = f := by
  cases h with
  | target name count h => rfl
  | missing line names h => exact congrArg (missingFinding line) (List.map_id names)
  | same f h h' => rfl

theorem map_onWord_of_isIdentifier {names : List (List Char)}
    (h : ∀ n ∈ names, isIdentifier n = true) : names.map r.onWord = names.map r.rename :=
  List.map_congr_left fun n hn => r.onWord_of_isIdentifier (h n hn)

/-! ## Keywords and marks -/

theorem latchFindings_eq (h : Corresponds r s t) : latchFindings t = latchFindings s := by
  have helse : contains (.wholeWord "else") t = contains (.wholeWord "else") s :=
    (follows_word (keeps_of_reserved (by decide))).contains_eq nofun h
  have hif : lineOfFirst (.wholeWord "if") t = lineOfFirst (.wholeWord "if") s :=
    (follows_word (keeps_of_reserved (by decide))).lineOfFirst_eq nofun h
  rw [latchFindings, latchFindings, helse, hif]

theorem blockingFindings_eq (h : Corresponds r s t) : blockingFindings t = blockingFindings s := by
  rw [blockingFindings, blockingFindings, h.hasEdgeHeader_eq,
    follows_nonBlocking.contains_eq nofun h, follows_blocking.contains_eq nofun h]

theorem caseFindings_eq (h : Corresponds r s t) : caseFindings t = caseFindings s := by
  have hcase : contains .caseWord t = contains .caseWord s :=
    (follows_word (keeps_of_reserved (by decide))).contains_eq nofun h
  have hdefault : contains (.wholeWord "default") t = contains (.wholeWord "default") s :=
    (follows_word (keeps_of_reserved (by decide))).contains_eq nofun h
  rw [caseFindings, caseFindings, hcase, hdefault]

theorem crossingFindings_eq (h : Corresponds r s t) : crossingFindings t = crossingFindings s := by
  rw [crossingFindings, crossingFindings, h.clockSignals_eq, List.length_map]

/-! ## Names -/

theorem assignmentFindings_rel (h : Corresponds r s t) :
    List.Forall₂ (Renamed r .multipleAssignments) (assignmentFindings s)
      (assignmentFindings t) := by
  rw [assignmentFindings, assignmentFindings, h.assignmentCounts_eq, List.filter_map, List.map_map,
    List.forall₂_map_left_iff, List.forall₂_map_right_iff]
  -- renaming leaves the counts alone, so the same targets are kept
  refine List.forall₂_same.2 ?_
  rintro ⟨name, count⟩ hmem
  have hname : isIdentifier name = true := by
    obtain ⟨n, hn, he⟩ := List.mem_map.1 (List.mem_filter.1 hmem).1
    obtain ⟨rfl, -⟩ := Prod.mk.inj he
    exact isIdentifier_of_mem_assignmentTargets (List.mem_eraseDups.1 hn)
  change Renamed r _ (repeatedTarget name count) (repeatedTarget (r.onWord name) count)
  rw [r.onWord_of_isIdentifier hname]
  exact .target name count hname

theorem isIdentifier_of_mem_missingSignals {n list : List Char} (h : n ∈ missingSignals s list) :
    isIdentifier n = true :=
  isIdentifier_of_mem_orderedSignals (List.mem_filter.1 h).1

theorem missingSignals_eq {list list' : List Char} (h : Corresponds r s t)
    (hl : Corresponds r list list') :
    missingSignals t list' = (missingSignals s list).map r.onWord := by
  rw [missingSignals, missingSignals, h.orderedSignals_eq, List.filter_map]
  congr 1
  -- only identifiers are asked for in the lists
  refine List.filter_congr fun n hn => ?_
  exact congrArg not (hl.contains_listedSignals (isIdentifier_of_mem_orderedSignals hn))

theorem sensitivityFindings_rel (h : Corresponds r s t) :
    List.Forall₂ (Renamed r .incompleteSensitivity) (sensitivityFindings s)
      (sensitivityFindings t) := by
  have hrel := (firstMatches_alwaysHeader h).search_rel id
  rw [sensitivityFindings, sensitivityFindings]
  generalize search .alwaysHeader s = o, search .alwaysHeader t = o' at hrel ⊢
  cases hrel with
  | none => exact .nil
  | @some m m' hm =>
    obtain ⟨hline, list, list', hg, hg', hl⟩ := hm
    -- both lists name a clock edge or neither does
    have hedge : contains .edge list' = contains .edge list :=
      (follows_word (keeps_of_reserved (by decide))).contains_eq nofun hl
    dsimp only
    rw [group_eq_of_hit hg, group_eq_of_hit hg', hedge, missingSignals_eq h hl, List.isEmpty_map,
      ← hline]
    split
    · exact .nil
    · split
      · exact .nil
      · rw [map_onWord_of_isIdentifier fun n => isIdentifier_of_mem_missingSignals]
        exact .cons (.missing _ _ fun n => isIdentifier_of_mem_missingSignals) .nil

/-! ## All rules -/

namespace Rule

theorem findings_rel_of_eq {rule : Rule} (h : rule.findings t = rule.findings s)
    (hm : rule ≠ .multipleAssignments) (hs : rule ≠ .incompleteSensitivity) :
    List.Forall₂ (Renamed r rule) (rule.findings s) (rule.findings t) := by
  rw [h, List.forall₂_same]
  exact fun f _ => .same f hm hs

/-- **A rule for hardware modules** finds the same in corresponding sources, with names renamed. -/
theorem findings_rel {rule : Rule} (hr : rule ∈ rulesFor .verilog) (hl : rule ≠ .longLines)
    (h : Corresponds r s t) :
    List.Forall₂ (Renamed r rule) (rule.findings s) (rule.findings t) := by
  cases rule with
  | latchInference => exact findings_rel_of_eq (latchFindings_eq h) nofun nofun
  | blockingInSequential => exact findings_rel_of_eq (blockingFindings_eq h) nofun nofun
  | incompleteSensitivity => exact sensitivityFindings_rel h
  | caseDefault => exact findings_rel_of_eq (caseFindings_eq h) nofun nofun
  | multipleAssignments => exact assignmentFindings_rel h
  | clockDomainCrossing => exact findings_rel_of_eq (crossingFindings_eq h) nofun nofun
  | longLines => exact absurd rfl hl
  | _ => exact absurd hr (by decide)

/-- **Every rule** but the one on long lines finds the same if nothing is renamed. -/
theorem findings_eq {rule : Rule} (hl : rule ≠ .longLines)
    (h : Corresponds .identity s t) : rule.findings t = rule.findings s := by
  have hword : ∀ caseless choices, contains (.word caseless choices) t =
      contains (.word caseless choices) s := fun caseless choices =>
    (follows_word (keeps_identity caseless choices)).contains_eq nofun h
  by_cases hr : rule ∈ rulesFor .verilog
  · have hrel := (findings_rel hr hl h).imp fun f f' hf => hf.eq_of_identity
    rw [eq_map_of_forall₂ (f := fun f => f) hrel, List.map_id']
  · cases rule with
    | vhdlLatchInference =>
      change processFindings t = processFindings s
      rw [processFindings, processFindings, Pattern.caselessWord, hword, Pattern.caselessWord,
        hword]
    | mixedVariableSignal =>
      change mixedFindings t = mixedFindings s
      rw [mixedFindings, mixedFindings, Pattern.caselessWord, hword, Pattern.caselessWord, hword]
    | _ => exact absurd (by decide) hr

end Rule

end HdlReview.Lint

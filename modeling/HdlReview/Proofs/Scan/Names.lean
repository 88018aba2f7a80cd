import HdlReview.Proofs.Scan.FirstAppearance
import HdlReview.Proofs.Scan.Simulation
import HdlReview.Scan.Signals
import Mathlib.Data.List.Count

/-!
# Names in corresponding texts

What the rules ask of a source has the same answer in a corresponding one, up to the renaming:
keywords are found on the same lines, and the identifiers, the clocks and the targets of assignments
are the renamed ones, in the same order and as often. A sensitivity list holds an identifier just if
the corresponding list holds the renamed one. The list may hold other texts as well, of several
words or with marks in them; these need not correspond, but they are no identifiers.

## Main results

* `Follows.contains_eq`, `Follows.lineOfFirst_eq`: patterns and keywords
* `Corresponds.orderedSignals_eq`, `Corresponds.clockSignals_eq`, `Corresponds.assignmentCounts_eq`
* `Corresponds.contains_listedSignals`: names in a sensitivity list
-/

namespace HdlReview.Scan

open HdlReview.Text

variable {r : Renaming} {p : Pattern} {s t : List Char}
  {Q Q' : List Char → List Char → Hit → Hit → Prop}

/-! ## The patterns at corresponding places -/

theorem Follows.mono (hQ : Follows r p Q) (h : ∀ {s t m m'}, Q s t m m' → Q' s t m m') :
    Follows r p Q' := by
  intro before before' s t hc hab
  have hrel := hQ hc hab
  generalize p.hit? before s = o, p.hit? before' t = o' at hrel ⊢
  cases hrel with
  | none => exact .none
  | some hq => exact .some (h hq)

/-- The renaming does not change which words are among the choices. -/
def Keeps (r : Renaming) (caseless : Bool) (choices : List (List Char)) : Prop :=
  ∀ w, isChoice caseless choices (r.onWord w) = isChoice caseless choices w

theorem keeps_of_reserved {choices : List (List Char)} (h : ∀ k ∈ choices, k ∈ reservedWords) :
    Keeps r false choices := by
  intro w
  rw [Bool.eq_iff_iff, isChoice_false_iff, isChoice_false_iff, r.onWord_mem_iff h]

theorem keeps_identity (caseless : Bool) (choices : List (List Char)) :
    Keeps .identity caseless choices := by
  intro w
  rw [Renaming.onWord_identity]

theorem follows_word {caseless : Bool} {choices : List (List Char)}
    (h : Keeps r caseless choices) : Follows r (.word caseless choices) (GoesOn r) := by
  have hword : Follows r (.word caseless choices)
      fun s t m m' => GoesOn r s t m m' ∧ m'.text = r.onWord m.text :=
    fun _ _ _ _ hc hab => hc.wordHit?_rel h hab.inside
  exact hword.mono And.left

theorem follows_identifier :
    Follows r .identifier fun s t m m' => GoesOn r s t m m' ∧ m'.text = r.onWord m.text :=
  fun _ _ _ _ hc hab => hc.wordHit?_rel r.isIdentifier_onWord hab.inside

theorem follows_header : Follows r .header fun s t m m' => GoesOn r s t m m' ∧ SameLists r m m' :=
  fun _ _ _ _ hc _ => hc.listHit?_rel uniform_inHeader

theorem follows_separator : Follows r .separator (GoesOn r) :=
  fun _ _ _ _ hc _ => hc.separatorHit?_rel

theorem follows_blocking : Follows r .blocking (GoesOn r) :=
  fun _ _ _ _ hc hab => hc.blockingHit?_rel hab.equals

theorem follows_nonBlocking : Follows r .nonBlocking (GoesOn r) :=
  fun _ _ _ _ hc _ => hc.nonBlockingHit?_rel

theorem follows_posedge : Follows r .posedge fun _ _ => SameNames r :=
  fun _ _ _ _ hc hab => hc.posedgeHit?_rel hab.inside

theorem follows_assignment :
    Follows r .assignment fun s t m m' => GoesOn r s t m m' ∧ SameNames r m m' :=
  fun _ _ _ _ hc hab => hc.assignmentHit?_rel hab.inside

/-! ## Patterns and keywords -/

/-- **A pattern is found** in both texts or in neither, and first on the same line. -/
theorem Follows.lineOfFirst_eq (hQ : Follows r p (GoesOn r)) (hp : p ≠ .alwaysHeader)
    (h : Corresponds r s t) : lineOfFirst p t = lineOfFirst p s := by
  have hfollows : Follows r p fun _ _ _ _ => True := hQ.mono fun _ => trivial
  have hrel := hfollows.search_rel hp h
  rw [lineOfFirst, lineOfFirst]
  generalize search p s = o, search p t = o' at hrel ⊢
  cases hrel with
  | none => rfl
  | some hm => rw [Option.map_some, Option.map_some, hm.1]

theorem Follows.contains_eq (hQ : Follows r p (GoesOn r)) (hp : p ≠ .alwaysHeader)
    (h : Corresponds r s t) : contains p t = contains p s := by
  have he := congrArg Option.isSome (hQ.lineOfFirst_eq hp h)
  rwa [lineOfFirst, lineOfFirst, Option.isSome_map, Option.isSome_map] at he

/-! ## Names -/

theorem eq_map_of_forall₂ {α β : Type} {f : α → β} {l : List α} {l' : List β}
    (h : List.Forall₂ (fun a b => b = f a) l l') : l' = l.map f := by
  induction h with
  | nil => rfl
  | cons hab h ih => rw [List.map_cons, ← hab, ← ih]

theorem any_eq_of_forall₂ {α β : Type} {R : α → β → Prop} {f : α → Bool} {g : β → Bool}
    {l : List α} {l' : List β} (h : List.Forall₂ R l l') (hfg : ∀ a b, R a b → g b = f a) :
    l'.any g = l.any f := by
  induction h with
  | nil => rfl
  | cons hab h ih => rw [List.any_cons, List.any_cons, hfg _ _ hab, ih]

namespace Corresponds

theorem identifiers_eq (h : Corresponds r s t) : identifiers t = (identifiers s).map r.onWord := by
  have htexts : (findAll .identifier t).map (·.text) =
      ((findAll .identifier s).map (·.text)).map r.onWord := by
    refine eq_map_of_forall₂ (List.forall₂_map_left_iff.2 (List.forall₂_map_right_iff.2 ?_))
    exact follows_identifier.findAll_rel nofun h
  rw [identifiers, identifiers, htexts, eraseDups_map r.onWord_injective]

/-- **The signals** of a source are renamed. -/
theorem orderedSignals_eq (h : Corresponds r s t) :
    orderedSignals t = (orderedSignals s).map r.onWord := by
  have hkeyword : ((fun name => !structuralKeywords.contains name) ∘ r.onWord) =
      fun name => !structuralKeywords.contains name := by
    funext name
    have hc : structuralKeywords.contains (r.onWord name) = structuralKeywords.contains name := by
      rw [Bool.eq_iff_iff, List.contains_iff_mem, List.contains_iff_mem,
        r.onWord_mem_iff (by decide)]
    exact congrArg not hc
  rw [orderedSignals, orderedSignals, h.identifiers_eq, List.filter_map, hkeyword]

theorem headerLists_rel (h : Corresponds r s t) :
    List.Forall₂ (Corresponds r) (headerLists s) (headerLists t) := by
  rw [headerLists, headerLists, List.forall₂_map_left_iff, List.forall₂_map_right_iff]
  refine (follows_header.findAll_rel nofun h).imp ?_
  rintro m m' ⟨list, list', hm, hm', hc⟩
  rwa [group_eq_of_hit hm, group_eq_of_hit hm']

theorem hasEdgeHeader_eq (h : Corresponds r s t) : hasEdgeHeader t = hasEdgeHeader s :=
  any_eq_of_forall₂ h.headerLists_rel fun _ _ hc =>
    (follows_word (keeps_of_reserved (by decide))).contains_eq nofun hc

theorem clockOf?_rel (h : Corresponds r s t) :
    Option.Rel (fun name name' => name' = r.onWord name) (clockOf? s) (clockOf? t) := by
  have hrel := follows_posedge.search_rel nofun h
  rw [clockOf?, clockOf?]
  generalize search .posedge s = o, search .posedge t = o' at hrel ⊢
  cases hrel with
  | none => exact .none
  | @some m m' hm =>
    obtain ⟨-, name, hg, hg'⟩ := hm
    refine .some ?_
    dsimp only
    rw [group_eq_of_hit hg, group_eq_of_hit hg']

/-- **The clocks** of the headers are renamed. -/
theorem clockSignals_eq (h : Corresponds r s t) :
    clockSignals t = (clockSignals s).map r.onWord := by
  have hclocks := List.rel_filterMap (fun _ _ hc => hc.clockOf?_rel) h.headerLists_rel
  rw [clockSignals, clockSignals, eq_map_of_forall₂ hclocks, eraseDups_map r.onWord_injective]

theorem assignmentTargets_eq (h : Corresponds r s t) :
    assignmentTargets t = (assignmentTargets s).map r.onWord := by
  refine eq_map_of_forall₂ (List.forall₂_map_left_iff.2 (List.forall₂_map_right_iff.2 ?_))
  refine (follows_assignment.findAll_rel nofun h).imp ?_
  rintro m m' ⟨name, hg, hg'⟩
  rw [group_eq_of_hit hg, group_eq_of_hit hg']

/-- **The targets of assignments** are renamed, and each is assigned as often. -/
theorem assignmentCounts_eq (h : Corresponds r s t) :
    assignmentCounts t =
      (assignmentCounts s).map fun (name, count) => (r.onWord name, count) := by
  rw [assignmentCounts, assignmentCounts, h.assignmentTargets_eq]
  dsimp only
  -- different targets stay different, so none is counted with another
  rw [eraseDups_map r.onWord_injective, List.map_map, List.map_map]
  refine List.map_congr_left fun name _ => ?_
  exact congrArg (r.onWord name, ·) (List.count_map_of_injective _ _ r.onWord_injective name)

end Corresponds

/-! ## Names in sensitivity lists -/

section Trimming

variable {n v : List Char}

/-- A word with blanks behind it, seen from the front. -/
theorem exists_blanks_iff_leadingWord (hn : IsRun isWord n) :
    (∃ g, v = n ++ g ∧ ∀ c ∈ g, isBlank c = true) ↔
      leadingWord v = n ∧ (v.dropWhile isWord).dropWhile isBlank = [] := by
  constructor
  · rintro ⟨g, rfl, hg⟩
    have hw : leadingWord g = [] := by
      cases g with
      | nil => rfl
      | cons c g => exact leadingWord_cons (isWord_eq_false_of_isBlank (hg c (by simp)))
    have hd : g.dropWhile isWord = g := keyword_append_dropWhile hw
    rw [List.dropWhile_append_of_pos hn.all, hd, List.dropWhile_eq_nil_iff]
    exact ⟨leadingWord_run hn hw, hg⟩
  · rintro ⟨hw, hg⟩
    exact ⟨v.dropWhile isWord, (keyword_append_dropWhile hw).symm, List.dropWhile_eq_nil_iff.1 hg⟩

/-- A word with blanks behind it, seen from the end. -/
theorem reverse_dropWhile_reverse_eq_iff (hn : IsRun isWord n) :
    (v.reverse.dropWhile isBlank).reverse = n ↔ ∃ g, v = n ++ g ∧ ∀ c ∈ g, isBlank c = true := by
  constructor
  · rintro rfl
    refine ⟨(v.reverse.takeWhile isBlank).reverse, ?_, ?_⟩
    · rw [← List.reverse_append, List.takeWhile_append_dropWhile, List.reverse_reverse]
    · intro c hc
      exact List.mem_takeWhile_imp (List.mem_reverse.1 hc)
  · rintro ⟨g, rfl, hg⟩
    have hrun : IsRun isWord n.reverse :=
      ⟨by simpa using hn.ne_nil, fun c hc => hn.all c (List.mem_reverse.1 hc)⟩
    have hd : n.reverse.dropWhile isBlank = n.reverse := by
      simpa using dropWhile_run_of_not (s := []) hrun fun _ => isBlank_eq_false_of_isWord
    rw [List.reverse_append, List.dropWhile_append_of_pos (by simpa using hg), hd,
      List.reverse_reverse]

theorem trimBlanks_eq_iff {u : List Char} (hn : IsRun isWord n) :
    trimBlanks u = n ↔ leadingWord (u.dropWhile isBlank) = n ∧
      ((u.dropWhile isBlank).dropWhile isWord).dropWhile isBlank = [] := by
  rw [trimBlanks, trim, reverse_dropWhile_reverse_eq_iff hn, exists_blanks_iff_leadingWord hn]

end Trimming

/-- A list holds a name if a piece of it between separators is the name between blanks. -/
theorem contains_listedSignals_eq {n : List Char} (hn : n ≠ []) (list : List Char) :
    (listedSignals list).contains n =
      (cut .separator list).any fun piece => trimBlanks piece == n := by
  rw [Bool.eq_iff_iff, List.contains_iff_mem, listedSignals, List.mem_eraseDups]
  simp only [List.mem_filter, List.mem_map, List.any_eq_true, beq_iff_eq, bne_iff_ne]
  exact ⟨fun h => h.1, fun h => ⟨h, hn⟩⟩

theorem isRun_of_isIdentifier {n : List Char} (hn : isIdentifier n = true) : IsRun isWord n := by
  refine ⟨?_, fun c hc => isWord_of_isIdentRest (isIdentRest_of_isIdentifier hn c hc)⟩
  rintro rfl
  exact absurd hn (by decide)

/-- **A sensitivity list** holds an identifier if the corresponding list holds the renamed one. -/
theorem Corresponds.contains_listedSignals {n : List Char} (hn : isIdentifier n = true)
    (h : Corresponds r s t) :
    (listedSignals t).contains (r.onWord n) = (listedSignals s).contains n := by
  have hrun := isRun_of_isIdentifier hn
  have hrun' := r.isRun_onWord hrun
  rw [contains_listedSignals_eq hrun.ne_nil, contains_listedSignals_eq hrun'.ne_nil]
  refine any_eq_of_forall₂ (follows_separator.cut_rel nofun h) fun u u' hu => ?_
  -- a piece is a word between blanks on both sides or on neither
  have hv := hu.dropWhile uniform_isBlank
  have hrest := (hv.dropWhile uniform_isWord).dropWhile uniform_isBlank
  rw [Bool.eq_iff_iff, beq_iff_eq, beq_iff_eq, trimBlanks_eq_iff hrun, trimBlanks_eq_iff hrun',
    hv.leadingWord_eq, r.onWord_injective.eq_iff, hrest.eq_nil_iff]

/-! ## Names that are identifiers -/

/-- Every match of a search was matched at some place. -/
theorem exists_hit?_of_mem_findFrom {m : Match} {skip position : Nat} {before : Option Char}
    (h : m ∈ findFrom p skip before position s) : ∃ b u, p.hit? b u = some m.hit := by
  fun_induction findFrom p skip before position s with
  | case1 => simp at h
  | case2 skip before position c s ih => exact ih h
  | case3 before position c s hit hhit ih =>
    rcases List.mem_cons.1 h with rfl | h
    · exact ⟨before, c :: s, hhit⟩
    · exact ih h
  | case4 before position c s hnone ih => exact ih h

theorem isIdentifier_of_mem_orderedSignals {n : List Char} (h : n ∈ orderedSignals s) :
    isIdentifier n = true := by
  rw [orderedSignals, List.mem_filter, identifiers, List.mem_eraseDups, List.mem_map] at h
  obtain ⟨⟨m, hm, rfl⟩, -⟩ := h
  obtain ⟨b, u, hu⟩ := exists_hit?_of_mem_findFrom hm
  simp only [Pattern.hit?, wordHit?] at hu
  split at hu
  · next hif =>
    rw [Bool.and_eq_true] at hif
    have htext : leadingWord u = m.text := congrArg Hit.text (Option.some.inj hu)
    rw [← htext]
    exact hif.2
  · simp at hu

theorem isIdentifier_of_mem_assignmentTargets {n : List Char} (h : n ∈ assignmentTargets s) :
    isIdentifier n = true := by
  obtain ⟨m, hm, rfl⟩ := List.mem_map.1 h
  obtain ⟨b, u, hu⟩ := exists_hit?_of_mem_findFrom hm
  simp only [Pattern.hit?, assignmentHit?] at hu
  split at hu
  · next hif =>
    obtain ⟨mark, -, he⟩ := Option.map_eq_some_iff.1 hu
    rw [Bool.and_eq_true] at hif
    rw [group_eq_of_hit (congrArg Hit.groups he).symm]
    exact hif.2
  · simp at hu

end HdlReview.Scan

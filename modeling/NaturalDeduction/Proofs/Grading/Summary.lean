import Mathlib.Algebra.Ring.Nat
import Mathlib.Data.List.Forall2
import NaturalDeduction.Grading.Summary
import NaturalDeduction.Proofs.Text.Escapes

/-!
# What the printed summary tells

The summary counts the problems by their results. What it counts is said here by reading it: a
row that ends with the phrase for a result tells the number that stands in it, and if there is no
such row the number is 0. Read in this way, the summary gives for every result the number of
problems that have it.

Color changes nothing in what is seen. In color a row has escape sequences in it, and without them
it is the plain row, unless an id or a diagnostic brings an escape character of its own.

## Main definitions

* `GradingReport.seen`, `GradingReport.told`: what is seen of a row; the number that rows
  tell about a phrase
* `Palette.Strips`: the styles of one palette are those of another with escape sequences in them

## Main results

* `GradingReport.strips_lines`: plain rows are colored rows without their escape sequences
* `GradingReport.render_accounts`: what is printed
-/

namespace NaturalDeduction

open Text

/-! ### Palettes -/

/-- Without escape sequences, the styles of the first palette are those of the second. -/
structure Palette.Strips (palette plain : Palette) : Prop where
  reset : Text.Strips palette.reset plain.reset
  red : Text.Strips palette.red plain.red
  green : Text.Strips palette.green plain.green
  yellow : Text.Strips palette.yellow plain.yellow
  gray : Text.Strips palette.gray plain.gray
  bold : Text.Strips palette.bold plain.bold

theorem Palette.strips_choose (color : Bool) : (Palette.choose color).Strips .plain := by
  cases color with
  | false =>
    have hempty : Text.Strips "" "" := strips_self (by decide)
    exact ⟨hempty, hempty, hempty, hempty, hempty, hempty⟩
  | true =>
    constructor
    · exact strips_sequence ['0'] 'm' (by decide) (by decide) (by decide)
    · exact strips_sequence ['3', '1'] 'm' (by decide) (by decide) (by decide)
    · exact strips_sequence ['3', '2'] 'm' (by decide) (by decide) (by decide)
    · exact strips_sequence ['3', '3'] 'm' (by decide) (by decide) (by decide)
    · exact strips_sequence ['9', '0'] 'm' (by decide) (by decide) (by decide)
    · exact strips_sequence ['1'] 'm' (by decide) (by decide) (by decide)

/-! ### Texts without escape characters -/

theorem escape_notMem_toString (n : Nat) : escape ∉ (toString n).toList := by
  intro hmem
  have hdigit := Nat.isDigit_of_mem_toDigits (by decide) (by decide) (Nat.toList_repr ▸ hmem)
  exact absurd hdigit (by decide)

theorem escape_notMem_percentText (share : Binary64) : escape ∉ (percentText share).toList := by
  have hsign (negative : Bool) : escape ∉ (if negative = true then "-" else "").toList := by
    cases negative <;> decide
  have hpercent : escape ∉ "%".toList := by decide
  have hinf : escape ∉ "inf".toList := by decide
  rw [percentText, String.toList_append, List.mem_append, not_or]
  refine ⟨?_, hpercent⟩
  cases share.timesHundred with
  | infinite negative =>
    rw [Binary64.wholeText, String.toList_append, List.mem_append, not_or]
    exact ⟨hsign negative, hinf⟩
  | finite negative significand exponent =>
    rw [Binary64.wholeText, String.toList_append, List.mem_append, not_or]
    exact ⟨hsign negative, escape_notMem_toString _⟩

theorem escape_notMem_count (n : Nat) (noun : String) (hnoun : escape ∉ noun.toList) :
    escape ∉ (Text.count n noun).toList := by
  have hplural : escape ∉ (if n = 1 then "" else "s").toList := by split <;> decide
  have hspace : escape ∉ " ".toList := by decide
  simp only [Text.count, String.toList_append, List.mem_append, not_or]
  exact ⟨⟨⟨escape_notMem_toString n, hspace⟩, hnoun⟩, hplural⟩

namespace GradingReport

variable {palette plain : Palette} {problem : ProblemReport} {report : GradingReport}

/-! ### Counting -/

/-- The blocks are printed one by one in order, and every result is counted. -/
theorem blocks_eq (palette : Palette) (problems : List ProblemReport) (tallies : Tallies) :
    blocks palette problems tallies = (problems.flatMap (block palette),
      { incorrect := tallies.incorrect +
          problems.countP fun problem => problem.report.outcome matches .incorrectConclusion
        invalid := tallies.invalid +
          problems.countP fun problem => problem.report.outcome matches .invalidProof _
        unreadable := tallies.unreadable +
          problems.countP fun problem => problem.report.outcome matches .unreadable _
        unmatched := tallies.unmatched +
          problems.countP fun problem => problem.report.outcome matches .unmatched }) := by
  induction problems generalizing tallies with
  | nil => rfl
  | cons problem problems ih =>
    rw [blocks, ih, List.flatMap_cons]
    simp only [List.countP_cons]
    cases problem.report.outcome <;> simp [Tallies.count] <;> omega

/-- The numbers of problems with each result other than correct. -/
def tallies (report : GradingReport) : Tallies where
  incorrect := report.countWhere fun outcome => outcome matches .incorrectConclusion
  invalid := report.countWhere fun outcome => outcome matches .invalidProof _
  unreadable := report.countWhere fun outcome => outcome matches .unreadable _
  unmatched := report.countWhere fun outcome => outcome matches .unmatched

theorem lines_eq (report : GradingReport) (color : Bool) :
    report.lines color = report.problems.flatMap (block (.choose color)) ++
      report.summary (.choose color) report.tallies := by
  simp only [lines, blocks_eq, Tallies.none, Nat.zero_add, tallies, countWhere]

/-! ### Deleting escape sequences from printed rows -/

theorem strips_mark (h : palette.Strips plain) (outcome : Outcome) :
    Text.Strips (mark palette outcome).1 (mark plain outcome).1 ∧
      Text.Strips (mark palette outcome).2 (mark plain outcome).2 := by
  have hcheck : Text.Strips "✓" "✓" := strips_self (by decide)
  have hcross : Text.Strips "✗" "✗" := strips_self (by decide)
  have hquestion : Text.Strips "?" "?" := strips_self (by decide)
  cases outcome with
  | correct => exact ⟨hcheck, h.green⟩
  | incorrectConclusion => exact ⟨hcross, h.yellow⟩
  | invalidProof => exact ⟨hcross, h.red⟩
  | unreadable => exact ⟨hcross, h.red⟩
  | unmatched => exact ⟨hquestion, h.gray⟩

theorem strips_outcome (outcome : Outcome) : Text.Strips outcome.text outcome.text := by
  have htexts :
      ∀ text ∈ ["correct", "incorrect conclusion", "invalid proof", "parse error", "unmatched"],
      escape ∉ text.toList := by decide
  refine strips_self (htexts _ ?_)
  cases outcome <;> simp [Outcome.text]

theorem strips_tally (h : palette.Strips plain) {sign tint tint' rest : String} (n : Nat)
    (hsign : escape ∉ sign.toList) (htint : Text.Strips tint tint') (hrest : escape ∉ rest.toList) :
    Text.Strips (tally palette sign tint n rest) (tally plain sign tint' n rest) := by
  have hspace : Text.Strips " " " " := strips_self (by decide)
  exact ((((((((hspace.append htint).append (strips_self hsign)).append h.reset).append
    hspace).append
    h.bold).append (strips_self (escape_notMem_toString n))).append h.reset).append hspace).append
    (strips_self hrest)

theorem strips_heading (h : palette.Strips plain) (hid : escape ∉ problem.id.toList) :
    Text.Strips (heading palette problem) (heading plain problem) := by
  have hspace : Text.Strips " " " " := strips_self (by decide)
  have hproblem : Text.Strips " problem " " problem " := strips_self (by decide)
  have hcolon : Text.Strips ": " ": " := strips_self (by decide)
  have hempty : Text.Strips "" "" := strips_self (by decide)
  obtain ⟨hsign, htint⟩ := strips_mark h problem.report.outcome
  have hmark := (((hspace.append htint).append hsign).append h.reset).append hproblem
  have hname := (((hmark.append h.bold).append (strips_self hid)).append h.reset).append hcolon
  refine (hname.append (strips_outcome problem.report.outcome)).append ?_
  cases problem.report.similarity with
  | none => exact hempty
  | some share =>
    have hopen : Text.Strips "(similarity " "(similarity " := strips_self (by decide)
    have hclose : Text.Strips ")" ")" := strips_self (by decide)
    exact ((((hspace.append h.gray).append hopen).append
      (strips_self (escape_notMem_percentText share))).append hclose).append h.reset

theorem strips_block (h : palette.Strips plain) (hid : escape ∉ problem.id.toList)
    (hdiagnostic : escape ∉ problem.report.diagnostic.toList) :
    List.Forall₂ Text.Strips (block palette problem) (block plain problem) := by
  have hindent : Text.Strips "     " "     " := strips_self (by decide)
  refine .cons (strips_heading h hid) ?_
  rw [List.forall₂_map_left_iff, List.forall₂_map_right_iff, List.forall₂_same]
  intro row hrow
  have hrow' := List.mem_of_mem_filter hrow
  exact ((hindent.append h.gray).append
    (strips_self fun hmem => hdiagnostic (mem_of_mem_rowTexts hrow' hmem))).append h.reset

theorem strips_tallyIfAny (h : palette.Strips plain) {sign tint tint' rest : String} (n : Nat)
    (hsign : escape ∉ sign.toList) (htint : Text.Strips tint tint') (hrest : escape ∉ rest.toList) :
    List.Forall₂ Text.Strips (tallyIfAny palette sign tint n rest)
      (tallyIfAny plain sign tint' n rest) := by
  rw [tallyIfAny, tallyIfAny]
  split
  · exact .nil
  · exact .cons (strips_tally h n hsign htint hrest) .nil

/-- The summary brings no escape characters but those of its palette. -/
theorem strips_summary (h : palette.Strips plain) (report : GradingReport) (tallies : Tallies) :
    List.Forall₂ Text.Strips (report.summary palette tallies) (report.summary plain tallies) := by
  have hcount := escape_notMem_count report.problems.length "problem" (by decide)
  have hgraded : Text.Strips "Graded " "Graded " := strips_self (by decide)
  have hcolon : Text.Strips ":" ":" := strips_self (by decide)
  have hempty : Text.Strips "" "" := strips_self (by decide)
  have hall : Text.Strips "🎉 All problems correct! 🎉" "🎉 All problems correct! 🎉" :=
    strips_self (by decide)
  have hhead := List.Forall₂.cons hempty
      (.cons ((hgraded.append (strips_self hcount)).append hcolon)
    (.cons (strips_tally h report.passed (by decide : escape ∉ "✓".toList) h.green
      (by decide : escape ∉ "correct.".toList)) .nil))
  refine List.rel_append (List.rel_append (List.rel_append (List.rel_append (List.rel_append hhead
    ?_) ?_) ?_) ?_) ?_
  · exact strips_tallyIfAny h _ (by decide) h.yellow (by decide)
  · exact strips_tallyIfAny h _ (by decide) h.red (by decide)
  · exact strips_tallyIfAny h _ (by decide) h.red (by decide)
  · exact strips_tallyIfAny h _ (by decide) h.gray (by decide)
  · split
    · exact .cons hempty (.cons hall .nil)
    · exact .nil

/-- **Colored rows without their escape sequences are the plain rows**, if nothing else brings an
escape character into the report. -/
theorem strips_lines (h : ∀ problem ∈ report.problems,
    escape ∉ problem.id.toList ∧ escape ∉ problem.report.diagnostic.toList) :
    List.Forall₂ Text.Strips (report.lines true) (report.lines false) := by
  have hpalette := Palette.strips_choose true
  rw [lines_eq, lines_eq]
  refine List.rel_append ?_ (strips_summary hpalette report report.tallies)
  revert h
  generalize report.problems = problems
  intro h
  induction problems with
  | nil => exact .nil
  | cons problem problems ih =>
    obtain ⟨⟨hid, hdiagnostic⟩, hothers⟩ := List.forall_mem_cons.mp h
    exact List.rel_append (strips_block hpalette hid hdiagnostic) (ih hothers)

/-! ### Reading the summary -/

/-- What is seen of a row. -/
def seen (row : String) : List Char := withoutEscapes row.toList

/-- The number in a row, which its digits make up. -/
def numberIn (row : List Char) : Nat := Nat.ofDigitChars 10 (row.filter Char.isDigit) 0

/-- The number that rows tell: the one in the row that is about it, or 0 if no row is. Should
several rows be about it, their numbers are added up. -/
def told (isAbout : List Char → Bool) (rows : List (List Char)) : Nat :=
  ((rows.filter isAbout).map numberIn).sum

/-- A row that ends with the phrase. -/
def endsWith (phrase : String) (row : List Char) : Bool := phrase.toList.isSuffixOf row

/-- A row that begins with the phrase. -/
def beginsWith (phrase : String) (row : List Char) : Bool := phrase.toList.isPrefixOf row

theorem map_seen_eq {rows plains : List String} (h : List.Forall₂ Text.Strips rows plains) :
    rows.map seen = plains.map String.toList := by
  induction h with
  | nil => rfl
  | cons hrow _ ih => rw [List.map_cons, List.map_cons, ih, seen, hrow.withoutEscapes_eq]

variable {isAbout : List Char → Bool} {row : List Char} {rows others : List (List Char)}

theorem told_append : told isAbout (rows ++ others) = told isAbout rows + told isAbout others := by
  simp [told]

theorem told_nil : told isAbout [] = 0 := rfl

theorem told_cons : told isAbout (row :: rows) =
    (if isAbout row = true then numberIn row else 0) + told isAbout rows := by
  rw [told, List.filter_cons]
  split
  · simp [told]
  · simp [told]

/-- Digits between texts without digits are the number in a row. -/
theorem numberIn_append {before after : List Char} (n : Nat)
    (hbefore : before.any Char.isDigit = false) (hafter : after.any Char.isDigit = false) :
    numberIn (before ++ (toString n).toList ++ after) = n := by
  have hlist : (toString n).toList = Nat.toDigits 10 n := Nat.toList_repr
  have hdigits : ∀ c ∈ Nat.toDigits 10 n, c.isDigit = true := fun c hc =>
    Nat.isDigit_of_mem_toDigits (by decide) (by decide) hc
  have hfront : before.filter Char.isDigit = [] :=
    List.filter_eq_nil_iff.mpr (List.any_eq_false.mp hbefore)
  have hback : after.filter Char.isDigit = [] :=
    List.filter_eq_nil_iff.mpr (List.any_eq_false.mp hafter)
  rw [numberIn, hlist, List.filter_append, List.filter_append, hfront, hback,
    List.filter_eq_self.mpr hdigits, List.nil_append, List.append_nil,
    Nat.ofDigitChars_ten_toDigits]

/-- A text ends with a phrase only if the phrase is the end of its last part or the
other way round. -/
theorem endsWith_append_eq_false {phrase last : String} (h : ¬phrase.toList <:+ last.toList)
    (h' : ¬last.toList <:+ phrase.toList) (before : List Char) :
    endsWith phrase (before ++ last.toList) = false := by
  rw [endsWith, Bool.eq_false_iff, ne_eq, List.isSuffixOf_iff_suffix]
  intro hsuffix
  exact (List.suffix_or_suffix_of_suffix hsuffix (List.suffix_append before last.toList)).elim h h'

/-- The phrases for the results. -/
def phrases : List String :=
  ["correct.", "with the wrong conclusion.", "with invalid steps.", "that could not be read.",
    "without a counterpart."]

/-- No phrase for a result is the end of another one, or of the noun in the heading
of the summary. -/
theorem phrases_apart :
    ∀ phrase ∈ phrases, ∀ last ∈ "problem:" :: "problems:" :: phrases, phrase ≠ last →
    ¬phrase.toList <:+ last.toList ∧ ¬last.toList <:+ phrase.toList := by
  decide

theorem any_isDigit_phrases :
    ∀ phrase ∈ phrases, (" ".toList ++ phrase.toList).any Char.isDigit = false := by
  decide

theorem toList_tally (sign phrase : String) (n : Nat) : (tally .plain sign "" n phrase).toList =
    (" ".toList ++ sign.toList ++ " ".toList) ++ (toString n).toList ++
      (" ".toList ++ phrase.toList) := by
  have hempty : "".toList = [] := rfl
  have htext (s : String) : toString s = s := rfl
  simp only [tally, Palette.plain, htext, String.toList_append, hempty, List.append_nil,
    List.append_assoc]

/-- The row for a result tells its number about its own phrase and nothing about any other. -/
theorem told_tally {phrase phrase' sign : String} (hphrase : phrase ∈ phrases)
    (hphrase' : phrase' ∈ phrases) (hsign : sign.toList.any Char.isDigit = false) (n : Nat) :
    told (endsWith phrase) [(tally .plain sign "" n phrase').toList] =
      if phrase = phrase' then n else 0 := by
  rw [told_cons, told_nil, Nat.add_zero, toList_tally]
  by_cases heq : phrase = phrase'
  · subst heq
    have hends : endsWith phrase
        ((" ".toList ++ sign.toList ++ " ".toList) ++ (toString n).toList ++
        (" ".toList ++ phrase.toList)) = true := by
      rw [endsWith, List.isSuffixOf_iff_suffix, ← List.append_assoc]
      exact List.suffix_append _ _
    rw [if_pos hends, if_pos rfl]
    have hspace : " ".toList.any Char.isDigit = false := by decide
    have hfront : (" ".toList ++ sign.toList ++ " ".toList).any Char.isDigit = false := by
      rw [List.any_append, List.any_append, hspace, hsign]
      rfl
    exact numberIn_append n hfront (any_isDigit_phrases phrase hphrase)
  · obtain ⟨h, h'⟩ := phrases_apart phrase hphrase phrase' (by simp [hphrase']) heq
    rw [← List.append_assoc, endsWith_append_eq_false h h', if_neg heq]
    rfl

theorem told_tallyIfAny {phrase phrase' sign : String} (hphrase : phrase ∈ phrases)
    (hphrase' : phrase' ∈ phrases) (hsign : sign.toList.any Char.isDigit = false) (n : Nat) :
    told (endsWith phrase) ((tallyIfAny .plain sign "" n phrase').map String.toList) =
      if phrase = phrase' then n else 0 := by
  rw [tallyIfAny]
  split
  · next hzero => simp [told_nil, hzero]
  · exact told_tally hphrase hphrase' hsign n

/-- The number of problems in the heading of the summary. -/
theorem toList_graded (n : Nat) : ("Graded " ++ Text.count n "problem" ++ ":").toList =
    "Graded ".toList ++ (toString n).toList ++
      (" ".toList ++ (if n = 1 then "problem:" else "problems:").toList) := by
  have hone : "problem".toList ++ "".toList ++ ":".toList = "problem:".toList := by decide
  have hmany : "problem".toList ++ "s".toList ++ ":".toList = "problems:".toList := by decide
  simp only [Text.count, String.toList_append, List.append_assoc] at hone hmany ⊢
  split
  · rw [hone]
  · rw [hmany]

theorem told_graded {phrase : String} (hphrase : phrase ∈ phrases) (n : Nat) :
    told (endsWith phrase) [("Graded " ++ Text.count n "problem" ++ ":").toList] = 0 := by
  have hnoun : ∀ noun ∈ ["problem:", "problems:"], endsWith phrase
      ("Graded ".toList ++ (toString n).toList ++ " ".toList ++ noun.toList) = false := by
    intro noun hmem
    have hne : phrase ≠ noun := by
      rintro rfl
      exact (by decide : ∀ noun ∈ ["problem:", "problems:"], noun ∉ phrases) phrase hmem hphrase
    obtain ⟨h, h'⟩ := phrases_apart phrase hphrase noun (List.mem_append_left phrases hmem) hne
    exact endsWith_append_eq_false h h' _
  have hmem : (if n = 1 then "problem:" else "problems:") ∈ ["problem:", "problems:"] := by
    split <;> decide
  rw [told_cons, told_nil, toList_graded, ← List.append_assoc, hnoun _ hmem]
  rfl

/-- What the summary tells about the results. -/
theorem told_summary {phrase : String} (hphrase : phrase ∈ phrases) (report : GradingReport)
    (tallies : Tallies) :
    told (endsWith phrase) ((report.summary .plain tallies).map String.toList) =
      (if phrase = "correct." then report.passed else 0) +
      (if phrase = "with the wrong conclusion." then tallies.incorrect else 0) +
      (if phrase = "with invalid steps." then tallies.invalid else 0) +
      (if phrase = "that could not be read." then tallies.unreadable else 0) +
      (if phrase = "without a counterpart." then tallies.unmatched else 0) := by
  have hcheck : "✓".toList.any Char.isDigit = false := by decide
  have hcross : "✗".toList.any Char.isDigit = false := by decide
  have hquestion : "?".toList.any Char.isDigit = false := by decide
  have hhead : told (endsWith phrase) ["".toList] = 0 :=
    (by decide : ∀ phrase ∈ phrases, told (endsWith phrase) ["".toList] = 0) phrase hphrase
  have hall : told (endsWith phrase) ["".toList, "🎉 All problems correct! 🎉".toList] = 0 :=
    (by decide : ∀ phrase ∈ phrases,
      told (endsWith phrase) ["".toList, "🎉 All problems correct! 🎉".toList] = 0) phrase hphrase
  have hlast : told (endsWith phrase) ((if report.problems.length ≠ 0 ∧
      report.passed = report.problems.length then ["", "🎉 All problems correct! 🎉"] else []).map
        String.toList) = 0 := by
    split
    · exact hall
    · rfl
  have hcorrect := told_tally hphrase (by decide : "correct." ∈ phrases) hcheck report.passed
  have hrows : told (endsWith phrase)
      (["", "Graded " ++ Text.count report.problems.length "problem" ++ ":",
        tally .plain "✓" "" report.passed "correct."].map String.toList) =
        if phrase = "correct." then report.passed else 0 := by
    rw [← hcorrect, ← Nat.zero_add (told _ [_]), ← told_graded hphrase report.problems.length,
      ← told_append, ← Nat.zero_add (told _ (_ ++ _)), ← hhead, ← told_append]
    rfl
  simp only [summary, List.map_append, told_append, hlast, Nat.add_zero]
  refine congrArg₂ _ (congrArg₂ _ (congrArg₂ _ (congrArg₂ _ hrows ?_) ?_) ?_) ?_
  · exact told_tallyIfAny hphrase (by decide) hcross _
  · exact told_tallyIfAny hphrase (by decide) hcross _
  · exact told_tallyIfAny hphrase (by decide) hcross _
  · exact told_tallyIfAny hphrase (by decide) hquestion _

/-- What the summary tells about the number of all problems. -/
theorem told_total (report : GradingReport) (tallies : Tallies) :
    told (beginsWith "Graded ") ((report.summary .plain tallies).map String.toList) =
      report.problems.length := by
  have htally (sign phrase : String) (n : Nat) :
      beginsWith "Graded " (tally .plain sign "" n phrase).toList = false := by
    rw [toList_tally]
    rfl
  have hany (sign phrase : String) (n : Nat) : told (beginsWith "Graded ")
      ((tallyIfAny .plain sign "" n phrase).map String.toList) = 0 := by
    rw [tallyIfAny]
    split
    · rfl
    · rw [List.map_singleton, told_cons, htally]
      rfl
  have hlast : told (beginsWith "Graded ") ((if report.problems.length ≠ 0 ∧
      report.passed = report.problems.length then ["", "🎉 All problems correct! 🎉"] else []).map
        String.toList) = 0 := by
    split
    · decide
    · rfl
  have hgraded : told (beginsWith "Graded ")
      (["", "Graded " ++ Text.count report.problems.length "problem" ++ ":",
      tally .plain "✓" "" report.passed "correct."].map String.toList) =
        report.problems.length := by
    have hnumber :
        numberIn ("Graded " ++ Text.count report.problems.length "problem" ++ ":").toList =
        report.problems.length := by
      rw [toList_graded]
      refine numberIn_append _ (by decide) ?_
      split <;> decide
    have hbegins : beginsWith "Graded "
        ("Graded " ++ Text.count report.problems.length "problem" ++ ":").toList =
        true := by
      rw [toList_graded]
      rfl
    have hhead : beginsWith "Graded " "".toList = false := by decide
    rw [List.map_cons, List.map_cons, List.map_cons, List.map_nil, told_cons, told_cons, told_cons,
      told_nil, hhead, hbegins, htally, hnumber]
    simp
  rw [summary, List.map_append, List.map_append, List.map_append, List.map_append, List.map_append]
  simp only [told_append]
  calc
    _ = report.problems.length + 0 + 0 + 0 + 0 + 0 :=
      congrArg₂ _
        (congrArg₂ _ (congrArg₂ _ (congrArg₂ _ (congrArg₂ _ hgraded (hany _ _ _)) (hany _ _ _))
        (hany _ _ _)) (hany _ _ _)) hlast
    _ = report.problems.length := rfl

/-- Every problem has one result. -/
theorem sum_counts (report : GradingReport) :
    report.passed + report.tallies.incorrect + report.tallies.invalid + report.tallies.unreadable +
      report.tallies.unmatched = report.problems.length := by
  simp only [passed, tallies, countWhere]
  induction report.problems with
  | nil => rfl
  | cons problem problems ih =>
    simp only [List.countP_cons, List.length_cons, ← ih]
    cases problem.report.outcome <;> simp <;> omega

/-- The last row is there exactly if all problems have been solved, and there are any. -/
theorem allCorrect_mem_summary_iff (report : GradingReport) (tallies : Tallies) :
    "🎉 All problems correct! 🎉".toList ∈ (report.summary .plain tallies).map String.toList ↔
      report.problems ≠ [] ∧ ∀ problem ∈ report.problems, problem.report.outcome = .correct := by
  have hsolved : report.passed = report.problems.length ↔
      ∀ problem ∈ report.problems, problem.report.outcome = .correct := by
    rw [passed, countWhere, List.countP_eq_length]
    simp
  rw [← hsolved, ← List.length_pos_iff, Nat.pos_iff_ne_zero]
  -- every other row begins with a blank or a letter, or is empty
  have hhead {row : List Char} (h : row.head? ≠ some '🎉') :
      "🎉 All problems correct! 🎉".toList ≠ row := by
    rintro rfl
    exact h (by decide)
  have htally (sign phrase : String) (n : Nat) :
      "🎉 All problems correct! 🎉".toList ≠ (tally .plain sign "" n phrase).toList :=
    hhead (by rw [toList_tally]; simp)
  have hany (sign phrase : String) (n : Nat) : "🎉 All problems correct! 🎉".toList ∉
      (tallyIfAny .plain sign "" n phrase).map String.toList := by
    rw [tallyIfAny]
    split
    · exact List.not_mem_nil
    · rw [List.map_singleton, List.mem_singleton]
      exact htally _ _ _
  have hrows : "🎉 All problems correct! 🎉".toList ∉ (["",
      "Graded " ++ Text.count report.problems.length "problem" ++ ":",
      tally .plain "✓" "" report.passed "correct."].map String.toList) := by
    simp only [List.map_cons, List.map_nil, List.mem_cons, List.not_mem_nil, or_false, not_or]
    exact ⟨hhead (by decide), hhead (by rw [toList_graded]; simp), htally _ _ _⟩
  rw [summary, List.map_append, List.map_append, List.map_append, List.map_append, List.map_append]
  simp only [List.mem_append]
  constructor
  · rintro (((((h | h) | h) | h) | h) | h)
    · exact absurd h hrows
    · exact absurd h (hany _ _ _)
    · exact absurd h (hany _ _ _)
    · exact absurd h (hany _ _ _)
    · exact absurd h (hany _ _ _)
    · split at h
      · assumption
      · exact absurd h List.not_mem_nil
  · intro hall
    rw [if_pos hall]
    exact .inr (by decide)

/-- What a block shows of the diagnostic. -/
theorem block_eq (palette : Palette) (problem : ProblemReport) :
    block palette problem = heading palette problem ::
      (if problem.report.outcome = .correct then
        (rowTexts problem.report.diagnostic).filter fun row => beginsWith "warning" row.toList
      else rowTexts problem.report.diagnostic).map fun row =>
        "     " ++ palette.gray ++ row ++ palette.reset := by
  rw [block]
  split
  · next hcorrect =>
    have hshown : isShown problem.report.outcome = fun row => beginsWith "warning" row.toList := by
      funext row
      rw [isShown, hcorrect, beginsWith, Bool.eq_iff_iff, List.isPrefixOf_iff_prefix,
        ← String.startsWith_string_iff]
      simp
    rw [hshown]
    rfl
  · next hcorrect =>
    have hshown (row : String) : isShown problem.report.outcome row = true := by
      simp [isShown, hcorrect]
    rw [List.filter_eq_self.mpr fun row _ => hshown row]
    rfl

/-- **The printed report accounts for every problem, and color adds only escape sequences.**

The problems are printed one by one in order, and of the diagnostic of a solved problem only the
rows that begin with a warning are printed. Read in the summary, the numbers of problems with each
result are right; they add up to the number of all problems, which is printed above them. -/
theorem render_accounts (report : GradingReport) (color : Bool) :
    ∃ summary : List String,
      report.lines color = report.problems.flatMap (block (.choose color)) ++ summary ∧
      report.render color = String.join ((report.lines color).map (· ++ "\n")) ∧
      (∀ problem ∈ report.problems,
        block (.choose color) problem = heading (.choose color) problem ::
        (if problem.report.outcome = .correct then
          (rowTexts problem.report.diagnostic).filter fun row => beginsWith "warning" row.toList
        else rowTexts problem.report.diagnostic).map fun row =>
          "     " ++ (Palette.choose color).gray ++ row ++ (Palette.choose color).reset) ∧
      told (endsWith "correct.") (summary.map seen) =
        report.countWhere (fun outcome => outcome matches .correct) ∧
      told (endsWith "with the wrong conclusion.") (summary.map seen) =
        report.countWhere (fun outcome => outcome matches .incorrectConclusion) ∧
      told (endsWith "with invalid steps.") (summary.map seen) =
        report.countWhere (fun outcome => outcome matches .invalidProof _) ∧
      told (endsWith "that could not be read.") (summary.map seen) =
        report.countWhere (fun outcome => outcome matches .unreadable _) ∧
      told (endsWith "without a counterpart.") (summary.map seen) =
        report.countWhere (fun outcome => outcome matches .unmatched) ∧
      (phrases.map fun phrase => told (endsWith phrase) (summary.map seen)).sum =
        told (beginsWith "Graded ") (summary.map seen) ∧
      told (beginsWith "Graded ") (summary.map seen) = report.problems.length ∧
      ("🎉 All problems correct! 🎉".toList ∈ summary.map seen ↔
        report.problems ≠ [] ∧ ∀ problem ∈ report.problems, problem.report.outcome = .correct) ∧
      ((∀ problem ∈ report.problems,
          escape ∉ problem.id.toList ∧ escape ∉ problem.report.diagnostic.toList) →
        withoutEscapes (report.render true).toList = (report.render false).toList) := by
  have hpassed : report.passed = report.countWhere fun outcome => outcome matches .correct := by
    rw [passed]
    congr 1
    funext outcome
    cases outcome <;> rfl
  have hseen := map_seen_eq (strips_summary (Palette.strips_choose color) report report.tallies)
  refine ⟨report.summary (.choose color) report.tallies, lines_eq report color, rfl,
    fun problem _ => block_eq _ problem, ?_⟩
  rw [hseen, told_total, allCorrect_mem_summary_iff, ← hpassed]
  have htold {phrase : String} (h : phrase ∈ phrases) := told_summary h report report.tallies
  have hcorrect := htold (by decide : "correct." ∈ phrases)
  have hincorrect := htold (by decide : "with the wrong conclusion." ∈ phrases)
  have hinvalid := htold (by decide : "with invalid steps." ∈ phrases)
  have hunreadable := htold (by decide : "that could not be read." ∈ phrases)
  have hunmatched := htold (by decide : "without a counterpart." ∈ phrases)
  -- every sum has one summand with its own phrase
  simp only [String.reduceEq, reduceIte, Nat.add_zero, Nat.zero_add]
    at hcorrect hincorrect hinvalid hunreadable hunmatched
  refine ⟨hcorrect, hincorrect, hinvalid, hunreadable, hunmatched, ?_, rfl, Iff.rfl, ?_⟩
  · rw [← sum_counts report]
    simp only [phrases, List.map_cons, List.map_nil, List.sum_cons, List.sum_nil, hcorrect,
      hincorrect, hinvalid, hunreadable, hunmatched]
    omega
  · intro hescape
    exact (Strips.joinLines (strips_lines hescape)).withoutEscapes_eq

/-- One problem solved, with a warning, and one not handed in. -/
def halfDone : GradingReport where
  problems :=
    [⟨"1", .matched, ⟨.correct, none, "warning: line 2 is not used"⟩⟩,
     ⟨"2", .instructorOnly, ⟨.unmatched, none, "no such problem"⟩⟩]

theorem halfDone_render_colored :
    (∀ problem ∈ halfDone.problems,
      escape ∉ problem.id.toList ∧ escape ∉ problem.report.diagnostic.toList) ∧
    withoutEscapes (halfDone.render true).toList = (halfDone.render false).toList := by
  have hescape : ∀ problem ∈ halfDone.problems,
      escape ∉ problem.id.toList ∧ escape ∉ problem.report.diagnostic.toList := by decide
  obtain ⟨_, _, _, _, _, _, _, _, _, _, _, _, hcolored⟩ := render_accounts halfDone true
  exact ⟨hescape, hcolored hescape⟩

end GradingReport

end NaturalDeduction

import Mathlib.Tactic.Positivity
import NaturalDeduction.Proofs.Grading.SelfGrading
import NaturalDeduction.Proofs.Number.Rounding
import NaturalDeduction.Proofs.Verification.Continuation

/-!
# Similarity of proofs that go on

A student who writes on never loses similarity. The lines that stood still stand, so whatever they
reproduced of the reference is still reproduced, and of the lines behind them nothing is asked.

## What is measured

Similarity is the share of the lines of the reference that are reproduced, so it is bounded by 0 and
1. It is passed on as a machine number, and rounding keeps all this: the order of two shares and
both bounds are numbers that the format can show.

## Main results

* `VerifiedProof.validLines_append`: the valid lines of a proof that goes on
* `VerifiedProof.similarity_mono`: similarity depends on the valid lines, and grows with them
* `VerifiedProof.similarity_append`: a proof that goes on is no less similar to any reference
-/

namespace NaturalDeduction

namespace VerifiedProof

variable {calculus : Calculus} {statement statement' : Statement Formula}
  {document : Document Formula}
  {reference proof longer : VerifiedProof Formula}

/-! ### Shares -/

theorem matchedLines_mono (h : ∀ line ∈ proof.validLines, line ∈ longer.validLines) :
    matchedLines reference proof ≤ matchedLines reference longer := by
  refine List.countP_mono_left fun wanted _ hwanted => ?_
  obtain ⟨line, hline, hreproduces⟩ := List.any_eq_true.mp hwanted
  exact List.any_eq_true.mpr ⟨line, h line hline, hreproduces⟩

theorem matchedLines_le_length (reference proof : VerifiedProof Formula) :
    matchedLines reference proof ≤ reference.document.lines.length :=
  List.countP_le_length

theorem similarity_eq (reference proof : VerifiedProof Formula) : similarity reference proof =
    if reference.document.lines = [] then 1
    else (matchedLines reference proof / reference.document.lines.length : ℚ) := by
  simp only [similarity, List.isEmpty_iff, Rat.mkRat_eq_div, Int.cast_natCast]

theorem similarity_mono (h : ∀ line ∈ proof.validLines, line ∈ longer.validLines) :
    similarity reference proof ≤ similarity reference longer := by
  have hmatched : matchedLines reference proof ≤ matchedLines reference longer :=
    matchedLines_mono h
  rw [similarity_eq, similarity_eq]
  split_ifs
  · exact le_rfl
  · gcongr

theorem similarity_nonneg (reference proof : VerifiedProof Formula) :
    0 ≤ similarity reference proof := by
  rw [similarity_eq]
  split_ifs <;> positivity

theorem similarity_le_one (reference proof : VerifiedProof Formula) :
    similarity reference proof ≤ 1 := by
  rw [similarity_eq]
  split_ifs
  · exact le_rfl
  · exact div_le_one_of_le₀ (by exact_mod_cast matchedLines_le_length reference proof)
      (Nat.cast_nonneg _)

/-! ### Proofs that go on -/

/-- The valid lines of a proof that goes on are those that were valid before, and
some behind them. -/
theorem validLines_append {lines others : List (Line Formula)}
    (h : LaidOut 1 .root (lines ++ others)) (hpremises : statement'.premises = statement.premises) :
    (of calculus statement ⟨lines⟩).validLines <+:
      (of calculus statement' ⟨lines ++ others⟩).validLines := by
  have hstands (verification : Verification) (n : Nat) :
      (verification.verdict? n).any Verdict.isValid = true ↔
        verification.verdict? n = some .valid := by
    cases verification.verdict? n <;> simp [Verdict.isValid_iff]
  have hsame : lines.filter (fun line =>
        ((verify calculus statement' ⟨lines ++ others⟩).verdict? line.number).any Verdict.isValid) =
      (of calculus statement ⟨lines⟩).validLines := by
    refine List.filter_congr fun line hline => Bool.eq_iff_iff.mpr ?_
    rw [hstands, hstands]
    exact verdict?_append_eq_valid_iff calculus h hpremises hline
  rw [← hsame, validLines]
  exact ⟨_, (List.filter_append ..).symm⟩

/-- **A student who writes on never loses similarity.** If lines are written behind a proof and both
can be laid out, at least as many lines of the reference are reproduced as before, and never more
than it has. Similarity is their share, or 1 if the reference has no lines. It does not fall, and
neither does the machine number that it is rounded to. -/
theorem similarity_append (calculus : Calculus) (reference : VerifiedProof Formula)
    (hpremises : statement'.premises = statement.premises) {drafts others : List (Draft Formula)}
    {document extended : Document Formula} (hbuild : Document.build drafts = .ok document)
    (hextended : Document.build (drafts ++ others) = .ok extended) :
    let proof := of calculus statement document
    let longer := of calculus statement' extended
    matchedLines reference proof ≤ matchedLines reference longer ∧
      matchedLines reference longer ≤ reference.document.lines.length ∧
      (∀ answer : VerifiedProof Formula, similarity reference answer =
        if reference.document.lines = [] then 1
        else (matchedLines reference answer / reference.document.lines.length : ℚ)) ∧
      (0 ≤ similarity reference proof ∧ similarity reference proof ≤ similarity reference longer ∧
        similarity reference longer ≤ 1) ∧
      ∃ score score' : ℚ, (Binary64.ofRat (similarity reference proof)).value? = some score ∧
        (Binary64.ofRat (similarity reference longer)).value? = some score' ∧
        0 ≤ score ∧ score ≤ score' ∧ score' ≤ 1 := by
  intro proof longer
  have hvalid : ∀ line ∈ proof.validLines, line ∈ longer.validLines := by
    obtain ⟨lines, rfl⟩ := Document.exists_append_of_build hbuild hextended
    exact fun _ => (validLines_append (Document.build_eq_ok_iff.mp hextended).1 hpremises).mem
  have hsimilarity : similarity reference proof ≤ similarity reference longer :=
    similarity_mono hvalid
  have hnonneg := similarity_nonneg reference proof
  have hone := similarity_le_one reference longer
  obtain ⟨score', hscore', -, hle⟩ :=
    Binary64.value?_ofRat_mono (hnonneg.trans hsimilarity) hone value?_ofRat_one
  obtain ⟨score, hscore, hpos, hmono⟩ := Binary64.value?_ofRat_mono hnonneg hsimilarity hscore'
  exact ⟨matchedLines_mono hvalid, matchedLines_le_length reference longer, similarity_eq reference,
    ⟨hnonneg, hsimilarity, hone⟩, score, score', hscore, hscore', hpos, hmono, hle⟩

/-- A proof that breaks off in a subproof gets a third of the lines, and all of them once
it is finished. -/
theorem similarity_finished :
    let p : Formula := .atom "P" []
    let drafts : List (Draft Formula) := [⟨p, .assumption, [], 1⟩]
    let others : List (Draft Formula) :=
      [⟨p, .reiteration, [.line 1], 1⟩, ⟨.implies p p, .impliesIntro, [.subproof 1 2], 0⟩]
    ∃ document extended, Document.build drafts = .ok document ∧
      Document.build (drafts ++ others) = .ok extended ∧
      let reference := of .propositional ⟨none, some (.implies p p)⟩ extended
      let proof := of .propositional ⟨none, none⟩ document
      let longer := of .propositional ⟨none, none⟩ extended
      matchedLines reference proof = 1 ∧ matchedLines reference longer = 3 ∧
        similarity reference proof = 1 / 3 ∧ similarity reference longer = 1 ∧
        similarity reference proof ≤ similarity reference longer := by
  intro p drafts others
  have hbuild : Document.build drafts = .ok _ := rfl
  have hextended : Document.build (drafts ++ others) = .ok _ := rfl
  refine ⟨_, _, hbuild, hextended, ?_⟩
  intro reference proof longer
  have hmatched : matchedLines reference proof = 1 := by decide +kernel
  have hmatched' : matchedLines reference longer = 3 := by decide +kernel
  have hpremises : longer.statement.premises = proof.statement.premises := rfl
  obtain ⟨-, -, hshare, ⟨-, hle, -⟩, -⟩ :=
    similarity_append .propositional reference hpremises hbuild hextended
  have hlength : reference.document.lines.length = 3 := rfl
  refine ⟨hmatched, hmatched', ?_, ?_, hle⟩
  · rw [hshare, if_neg (List.ne_nil_of_length_eq_add_one hlength), hmatched, hlength]
    norm_num
  · rw [hshare, if_neg (List.ne_nil_of_length_eq_add_one hlength), hmatched', hlength]
    norm_num

end VerifiedProof

end NaturalDeduction

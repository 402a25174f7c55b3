import NaturalDeduction.Proofs.Verification.Resolution

/-!
# Proofs that go on

When lines are written behind a proof, the verdicts on the lines that were there can change. A
citation of a line that did not exist may now name one, and a subproof that was cited by its last
line may turn out to go on. But such a line was invalid before and is invalid after: what changes is
at most the reason.

## Why nothing becomes valid

A valid line cites lines before it, and subproofs that were closed before it. `refers_append_iff`
says that lines further down neither add to these nor take from them; and the reading has come
equally far in both proofs when it arrives at the line.

## Main results

* `verdict?_append_eq_valid_iff`: for lines that are laid out
* `verify_append_eq_valid_iff`: for drafts that are built
-/

namespace NaturalDeduction

/-- A line is valid in a proof that goes on exactly if it is valid in the proof that
it comes from. -/
theorem verdict?_append_eq_valid_iff (calculus : Calculus)
    {statement statement' : Statement Formula} {lines others : List (Line Formula)}
    {line : Line Formula} (h : LaidOut 1 .root (lines ++ others))
    (hpremises : statement'.premises = statement.premises) (hline : line ∈ lines) :
    (verify calculus statement' ⟨lines ++ others⟩).verdict? line.number = some .valid ↔
      (verify calculus statement ⟨lines⟩).verdict? line.number = some .valid := by
  obtain ⟨before, rest, hl⟩ := List.append_of_mem hline
  have hlines : LaidOut 1 .root lines := (laidOut_append.mp h).1
  have hall : lines ++ others = before ++ line :: (rest ++ others) := by simp [hl]
  have hvisible : ∀ s, ((Progress.after statement.premises before).enter line).isVisible s = true ↔
      s <:+ line.scope := fun s => (Progress.mirrors_enter hlines hl).isVisible_iff
  have hverdict : (verify calculus statement ⟨lines⟩).verdict? line.number = some _ :=
    verdict?_verify hlines hl
  have hverdict' : (verify calculus statement' ⟨lines ++ others⟩).verdict? line.number = some _ :=
    verdict?_verify h hall
  rw [hverdict, hverdict', hpremises, Option.some_inj, Option.some_inj]
  exact judge_append_eq_valid_iff h hline hvisible

/-- **Validity is settled by the lines up to a line**, whatever is written behind it. -/
theorem verify_append_eq_valid_iff (calculus : Calculus) (statement statement' : Statement Formula)
    (hpremises : statement'.premises = statement.premises) {drafts others : List (Draft Formula)}
    {document extended : Document Formula} (hbuild : Document.build drafts = .ok document)
    (hextended : Document.build (drafts ++ others) = .ok extended) {i : Nat} (hpos : 1 ≤ i)
    (hle : i ≤ drafts.length) :
    ∃ verdict verdict', (verify calculus statement document).verdict? i = some verdict ∧
      (verify calculus statement' extended).verdict? i = some verdict' ∧
      (verdict = .valid ↔ verdict' = .valid) := by
  obtain ⟨lines, rfl⟩ := Document.exists_append_of_build hbuild hextended
  obtain ⟨hlaid, rfl⟩ := Document.build_eq_ok_iff.mp hbuild
  obtain ⟨hlaid', -⟩ := Document.build_eq_ok_iff.mp hextended
  have hlt : i < 1 + document.lines.length := by
    rw [List.length_map] at hle
    omega
  obtain ⟨line, hline, rfl⟩ := hlaid.exists_number_eq hpos hlt
  have hline' : line ∈ document.lines ++ lines := List.mem_append_left lines hline
  obtain ⟨verdict, hverdict⟩ : ∃ verdict,
      (verify calculus statement document).verdict? line.number = some verdict :=
    exists_verdict?_verify hlaid hline
  obtain ⟨verdict', hverdict'⟩ : ∃ verdict',
      (verify calculus statement' ⟨document.lines ++ lines⟩).verdict? line.number = some verdict' :=
    exists_verdict?_verify hlaid' hline'
  have hvalid := verdict?_append_eq_valid_iff calculus hlaid' hpremises hline
  rw [hverdict, hverdict', Option.some_inj, Option.some_inj] at hvalid
  exact ⟨verdict, verdict', hverdict, hverdict', hvalid.symm⟩

/-- An assumption, and a line that cites the line behind it. -/
def hastyDrafts : List (Draft Formula) :=
  [⟨.atom "P" [], .assumption, [], 1⟩, ⟨.atom "P" [], .reiteration, [.line 3], 1⟩]

/-- Once the cited line is written, it exists, but the line that cites it is as wrong as before. -/
theorem hastyDrafts_settled :
    ∃ document extended,
      Document.build hastyDrafts = .ok document ∧
      Document.build (hastyDrafts ++ [⟨.atom "P" [], .reiteration, [.line 1], 1⟩]) = .ok extended ∧
      (verify .propositional ⟨none, none⟩ document).verdict? 2 =
        some (.unresolvedCitation (.line 3)) ∧
      ∃ verdict, (verify .propositional ⟨none, some .bottom⟩ extended).verdict? 2 = some verdict ∧
        verdict ≠ .valid := by
  have hbuild : Document.build hastyDrafts = .ok _ := rfl
  have hextended : Document.build
      (hastyDrafts ++ [⟨.atom "P" [], .reiteration, [.line 1], 1⟩]) = .ok _ := rfl
  obtain ⟨verdict, verdict', hverdict, hverdict', hvalid⟩ :=
    verify_append_eq_valid_iff .propositional ⟨none, none⟩ ⟨none, some .bottom⟩ rfl hbuild hextended
      (by decide : 1 ≤ 2) (by decide)
  have hunresolved : verdict = .unresolvedCitation (.line 3) :=
    Option.some.inj (hverdict.symm.trans (by decide))
  subst hunresolved
  exact ⟨_, _, hbuild, hextended, hverdict, verdict', hverdict', fun h => nomatch hvalid.mpr h⟩

end NaturalDeduction

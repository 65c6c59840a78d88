import PlotFormula.Proofs.Grammar.ForeignCharacters
import PlotFormula.Proofs.Text.FinalSigma

/-! # Spaces in formulas

A formula is brought into lower case before its spaces are dropped, so a space beside a capital sigma may decide
whether it becomes a final one. No other space matters, and where no variable is a sigma, such a space only changes
how a text that is refused is spelled in the error.
-/
namespace PlotFormula.Grammar
open Text
variable {vars : List Char}

theorem compact_dropSpaces (text : List Char) : compact (dropSpaces text) = lowerCase (dropSpaces text) := by
  have hspaces : ∀ c ∈ lowerCase (dropSpaces text), c ≠ ' ' := fun c =>
    ne_space_of_mem_lowerCaseFrom fun d => ne_space_of_mem_dropSpaces
  exact dropSpaces_eq_self hspaces

theorem compact_dropSpaces_eq_iff (text : List Char) :
    compact (dropSpaces text) = compact text ↔ KeepsFinals text := by
  rw [compact_dropSpaces, ← lowerCase_dropSpaces_iff]
  rfl

theorem map_plainSigma_compact (text : List Char) :
    (compact (dropSpaces text)).map plainSigma = (compact text).map plainSigma := by
  rw [compact_dropSpaces]
  exact map_plainSigma_lowerCaseFrom [] text

theorem replacesForeign_plainSigma (hsmall : 'σ' ∉ vars) (hfinal : 'ς' ∉ vars) :
    ReplacesForeign vars plainSigma := by
  intro c
  by_cases hc : c = 'ς'
  · subst hc
    exact .inr ⟨⟨by decide, hfinal⟩, ⟨by decide, hsmall⟩⟩
  · exact .inl (if_neg hc)

/-- Without its spaces a text is read as before, if its capital sigmas end words as before. Over a table without
the small sigmas it is in any case read as the same tree or refused with the same error, up to which small sigma
the error writes. For a table with a star see the note at `isVariable`. -/
theorem tryParse_dropSpaces (vars text : List Char) :
    (compact (dropSpaces text) = compact text ↔ KeepsFinals text) ∧
    (KeepsFinals text → (tryParse vars (dropSpaces text)).result = (tryParse vars text).result) ∧
    ('σ' ∉ vars → 'ς' ∉ vars →
      (tryParse vars (dropSpaces text)).result.mapError (ParseError.mapText plainSigma) =
        (tryParse vars text).result.mapError (ParseError.mapText plainSigma)) := by
  refine ⟨compact_dropSpaces_eq_iff text, ?_, ?_⟩
  · intro h
    rw [result_tryParse, result_tryParse, (compact_dropSpaces_eq_iff text).mpr h]
  · intro hsmall hfinal
    have hread := (replacesForeign_plainSigma hsmall hfinal).parsePart_map
    have hplain : (parsePart vars (compact (dropSpaces text))).mapTexts plainSigma =
        (parsePart vars (compact text)).mapTexts plainSigma := by
      rw [← hread, ← hread, map_plainSigma_compact]
    exact congrArg Logged.result hplain

theorem tryParse_dropSpaces_final :
    dropSpaces "( XΣ ) 2".toList = "(XΣ)2".toList ∧ KeepsFinals "( XΣ ) 2".toList ∧
      (tryParse ['x', 'ς'] "(XΣ)2".toList).result = (tryParse ['x', 'ς'] "( XΣ ) 2".toList).result ∧
      (tryParse ['x', 'ς'] "(XΣ)2".toList).result =
        .ok (.binary .multiply (.binary .multiply (.var 0) (.var 1)) (.const 2)) ∧
      'σ' ∉ ['x'] ∧ 'ς' ∉ ['x'] ∧
      (tryParse ['x'] "XΣ X".toList).result = .error (.unrecognizedToken "xςx".toList) ∧
      (tryParse ['x'] "XΣX".toList).result.mapError (ParseError.mapText plainSigma) =
        .error (.unrecognizedToken "xσx".toList) := by
  have hdrop : dropSpaces "( XΣ ) 2".toList = "(XΣ)2".toList := by decide
  have hdrop' : dropSpaces "XΣ X".toList = "XΣX".toList := by decide
  have herror : (tryParse ['x'] "XΣ X".toList).result = .error (.unrecognizedToken "xςx".toList) := by
    decide +kernel
  obtain ⟨hkeeps, hread, -⟩ := tryParse_dropSpaces ['x', 'ς'] "( XΣ ) 2".toList
  have hfinals : KeepsFinals "( XΣ ) 2".toList := hkeeps.mp (by decide +kernel)
  have hplain := (tryParse_dropSpaces ['x'] "XΣ X".toList).2.2 (by decide) (by decide)
  rw [hdrop', herror] at hplain
  have hsame := hread hfinals
  rw [hdrop] at hsame
  exact ⟨hdrop, hfinals, hsame, by decide +kernel, by decide, by decide, herror, hplain⟩

/-- The space after the sigma makes it a final one, which is no variable of the table. -/
theorem tryParse_space_after_sigma :
    '*' ∉ ['x', 'σ'] ∧ dropSpaces "xΣ x".toList = "xΣx".toList ∧
      (tryParse ['x', 'σ'] "xΣ x".toList).result = .error (.unrecognizedToken "xςx".toList) ∧
      (tryParse ['x', 'σ'] "xΣx".toList).result =
        .ok (.binary .multiply (.binary .multiply (.var 0) (.var 1)) (.var 0)) := by
  refine ⟨by decide, by decide, ?_, ?_⟩ <;> decide +kernel

end PlotFormula.Grammar

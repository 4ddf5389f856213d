/-
What sanitizing leaves of a text, and the name of a wrapper.

Every character of a text leaves its own part, so that the parts of two texts stand behind each
other (`parts_append`); only the guard before a leading digit looks at the whole. Hence the texts
that sanitizing leaves as they are can be told (`sanitize_eq_self_iff`), and the underscore between
the two halves of a wrapper's name is kept, whatever they are (`isIdentifier_wrapperName`).
-/

import Scriptorium.Proofs.Command.Signature
import Scriptorium.Proofs.Identifier.Form

namespace Scriptorium.Identifier

/-! ### The parts of a name -/

/-- What a name leaves of itself in an identifier: small letters, underscores for spaces, nothing
else. -/
def parts (s : List Char) : List Char :=
  ((s.flatMap Text.lower).map fun c => if c = ' ' then '_' else c).filter isPart

theorem sanitizeChars_eq (s : List Char) : sanitizeChars s = guardDigit (parts s) := rfl

theorem parts_append (s t : List Char) : parts (s ++ t) = parts s ++ parts t := by
  rw [parts, List.flatMap_append, List.map_append, List.filter_append]
  rfl

theorem parts_of_isIdentifier {s : List Char} (h : IsIdentifier s) : parts s = s :=
  filter_lower_of_continues h.continues

theorem parts_underscore (s : List Char) : parts ('_' :: s) = '_' :: parts s :=
  parts_append ['_'] s

theorem guardDigit_append {s : List Char} (h : IsIdentifier s) (t : List Char) :
    guardDigit (s ++ t) = s ++ t := by
  cases h with
  | mk hc _ =>
    rw [List.cons_append, guardDigit, if_neg (Bool.eq_false_iff.mp (isDigit_eq_false_of_begins hc))]

/-- The guard before a leading digit takes nothing away. -/
theorem subset_guardDigit (s : List Char) : s ⊆ guardDigit s := by
  cases s with
  | nil => exact List.nil_subset _
  | cons c s =>
    rw [guardDigit]
    split
    · exact List.subset_cons_self _ _
    · exact List.Subset.refl _

/-! ### Texts that are left as they are -/

theorem sanitize_eq_empty_or_isIdentifier (s : String) :
    sanitize s = "" ∨ IsIdentifier (sanitize s).toList := by
  rw [← String.toList_eq_nil_iff, sanitize, String.toList_ofList]
  exact or_iff_not_imp_left.mpr isIdentifier_sanitizeChars

theorem sanitize_eq_self_iff (s : String) :
    sanitize s = s ↔ s = "" ∨ IsIdentifier s.toList := by
  constructor
  · intro h
    have hform := sanitize_eq_empty_or_isIdentifier s
    rwa [h] at hform
  · rintro (rfl | h)
    · rfl
    · exact sanitize_of_isIdentifier h

theorem sanitize_sanitize (s : String) : sanitize (sanitize s) = sanitize s :=
  (sanitize_eq_self_iff (sanitize s)).mpr (sanitize_eq_empty_or_isIdentifier s)

/-! ### Names of wrappers -/

theorem toList_wrapperName_eq (script function : String) :
    (wrapperName script function).toList =
      sanitizeChars (script.toList ++ '_' :: function.toList) := by
  simp [wrapperName, sanitize]

/-- The underscore between the halves is kept. -/
theorem underscore_mem_wrapperName (script function : String) :
    '_' ∈ (wrapperName script function).toList := by
  rw [toList_wrapperName_eq, sanitizeChars_eq, parts_append, parts_underscore]
  exact subset_guardDigit _ (List.mem_append_right _ List.mem_cons_self)

theorem isIdentifier_wrapperName (script function : String) :
    IsIdentifier (wrapperName script function).toList := by
  have hunderscore := underscore_mem_wrapperName script function
  rw [toList_wrapperName_eq] at hunderscore ⊢
  exact isIdentifier_sanitizeChars (List.ne_nil_of_mem hunderscore)

/-! ### Names in a script -/

/-- The words of scripts that cannot be names. -/
def keywords : List String :=
  ["False", "None", "True", "and", "as", "assert", "async", "await", "break", "class", "continue",
    "def", "del", "elif", "else", "except", "finally", "for", "from", "global", "if", "import",
    "in", "is", "lambda", "nonlocal", "not", "or", "pass", "raise", "return", "try", "while",
    "with", "yield"]

/-- No keyword is made of two words. -/
theorem underscore_not_mem_keyword : ∀ word ∈ keywords, '_' ∉ word.toList := by
  decide +kernel

theorem isNamePart_of_continues {c : Char} (h : continues c = true) : Text.isNamePart c = true := by
  rw [Text.isNamePart, if_pos (toNat_lt_of_continues h)]
  exact isPart_of_continues h

theorem isNameStart_of_begins {c : Char} (h : begins c = true) : Text.isNameStart c = true := by
  rw [Text.isNameStart, if_pos (toNat_lt_of_continues (continues_of_begins h)), Char.isAlpha,
    Bool.or_assoc, ← begins, h, Bool.or_true]

/-- An identifier is a name in a script. -/
theorem IsIdentifier.isName {s : List Char} (h : IsIdentifier s) : Signature.IsName s := by
  cases h with
  | mk hc hs => exact .mk (isNameStart_of_begins hc) fun d hd => isNamePart_of_continues (hs d hd)

/-- **Sanitizing.** What is left of a text is empty or an identifier, and the texts of that form are
exactly those that are left as they are; so a second sanitizing changes nothing. The name of a
wrapper, whatever it is made for, is an identifier with an underscore in it, and therefore a name in
a script and no keyword. -/
theorem sanitize_leaves (s : String) :
    (sanitize s = "" ∨ IsIdentifier (sanitize s).toList) ∧
      (sanitize s = s ↔ s = "" ∨ IsIdentifier s.toList) ∧
      sanitize (sanitize s) = sanitize s ∧
      ∀ function, IsIdentifier (wrapperName s function).toList ∧
        '_' ∈ (wrapperName s function).toList ∧
        Signature.IsName (wrapperName s function).toList ∧ wrapperName s function ∉ keywords := by
  refine ⟨sanitize_eq_empty_or_isIdentifier s, sanitize_eq_self_iff s, sanitize_sanitize s, ?_⟩
  intro function
  have hunderscore := underscore_mem_wrapperName s function
  have hidentifier := isIdentifier_wrapperName s function
  refine ⟨hidentifier, hunderscore, hidentifier.isName, ?_⟩
  intro hkeyword
  exact underscore_not_mem_keyword _ hkeyword hunderscore

end Scriptorium.Identifier

/-
JoosStatics.Proofs.DottedNames — names and their dotted spelling.

`toDotted` joins the identifiers of a name by dots, and `ofDotted` cuts a
text at its dots. The two are inverse on the names that a dotted text can
spell: `ofDotted` drops empty pieces and the blanks around the others, so
an identifier must not be empty, hold a dot, or begin or end with a blank
(`IsWritable`). Nothing else is asked of it; blanks inside stay.

* §1 trimming takes the blanks off both ends, and nothing off a text without
  any there.
* §2 cutting at the dots undoes joining by dots.
* `dotted_inverse` — the two directions, for every name and for every text.
-/
import JoosStatics.QualifiedName
import Mathlib.Data.List.DropRight

namespace JoosStatics

/-! ## §1 Blanks at the ends -/

namespace Text

/-- Neither the first nor the last character is a blank. -/
structure HasSolidEnds (cs : List Char) : Prop where
  first : ∀ c ∈ cs.head?, isBlank c = false
  last : ∀ c ∈ cs.getLast?, isBlank c = false

-- Over the two characters, not over all that there are.
instance (cs : List Char) : Decidable (HasSolidEnds cs) :=
  decidable_of_iff (cs.head?.all (fun c => !isBlank c) ∧ cs.getLast?.all (fun c => !isBlank c))
    ⟨fun h => ⟨by simpa [Option.all_eq_true] using h.1, by simpa [Option.all_eq_true] using h.2⟩,
      fun h => ⟨by simpa [Option.all_eq_true] using h.first,
        by simpa [Option.all_eq_true] using h.last⟩⟩

theorem trimRight_eq_rdropWhile (cs : List Char) : trimRight cs = cs.rdropWhile isBlank := rfl

/-- What is trimmed is a part of the text. -/
theorem trim_subset (cs : List Char) : trim cs ⊆ cs := by
  intro c hc
  have hleft : c ∈ trimLeft cs := (List.rdropWhile_prefix _ _).subset hc
  exact (List.dropWhile_sublist _).subset hleft

theorem trim_hasSolidEnds (cs : List Char) : HasSolidEnds (trim cs) where
  first := by
    intro c hc
    -- Taking characters off the end leaves the first one, if there is still one.
    obtain ⟨rest, hrest⟩ := List.rdropWhile_prefix isBlank (trimLeft cs)
    rw [← trimRight_eq_rdropWhile] at hrest
    have hhead : (trimLeft cs).head? = some c := by
      rw [← hrest, List.head?_append, show (trimRight (trimLeft cs)).head? = some c from hc]
      rfl
    have hnot := List.head?_dropWhile_not isBlank cs
    rw [← trimLeft, hhead] at hnot
    exact hnot
  last := by
    intro c hc
    obtain ⟨hne, rfl⟩ := List.mem_getLast?_eq_getLast hc
    exact eq_false_of_ne_true (List.rdropWhile_last_not isBlank (trimLeft cs) hne)

/-- A text without blanks at its ends is left as it is. -/
theorem trim_eq_self {cs : List Char} (h : HasSolidEnds cs) : trim cs = cs := by
  have hleft : trimLeft cs = cs := by
    cases cs with
    | nil => rfl
    | cons c cs => simp [trimLeft, h.first c rfl]
  unfold trim
  rw [hleft, trimRight_eq_rdropWhile, List.rdropWhile_eq_self_iff]
  intro hne
  simp [h.last _ (List.getLast?_eq_some_getLast hne)]

end Text

/-! ## §2 Pieces between dots -/

namespace QualifiedName

theorem pieces_ne_nil (cs : List Char) : pieces cs ≠ [] := by
  cases cs with
  | nil => simp [pieces]
  | cons c cs =>
    unfold pieces
    split
    · simp
    · split <;> simp

theorem pieces_of_no_dot {piece : List Char} (h : '.' ∉ piece) : pieces piece = [piece] := by
  induction piece with
  | nil => rfl
  | cons c piece ih =>
    simp only [List.mem_cons, not_or] at h
    simp [pieces, Ne.symm h.1, ih h.2]

/-- The first dot ends the first piece. -/
theorem pieces_append_dot {piece : List Char} (h : '.' ∉ piece) (rest : List Char) :
    pieces (piece ++ '.' :: rest) = piece :: pieces rest := by
  induction piece with
  | nil => simp [pieces]
  | cons c piece ih =>
    simp only [List.mem_cons, not_or] at h
    simp [pieces, Ne.symm h.1, ih h.2]

/-- Cutting at the dots undoes joining by dots. -/
theorem pieces_intercalate {parts : List (List Char)} (hne : parts ≠ [])
    (h : ∀ part ∈ parts, '.' ∉ part) : pieces (['.'].intercalate parts) = parts := by
  induction parts with
  | nil => exact absurd rfl hne
  | cons part parts ih =>
    have hpart := h part List.mem_cons_self
    cases parts with
    | nil => simpa using pieces_of_no_dot hpart
    | cons next parts =>
      have hrest := ih (by simp) (fun p hp => h p (List.mem_cons_of_mem _ hp))
      rw [List.intercalate_cons_cons, List.append_assoc, List.singleton_append,
        pieces_append_dot hpart, hrest]

/-- No piece holds a dot. -/
theorem no_dot_of_mem_pieces {piece cs : List Char} (h : piece ∈ pieces cs) : '.' ∉ piece := by
  induction cs generalizing piece with
  | nil => simp_all [pieces]
  | cons c cs ih =>
    unfold pieces at h
    split at h
    · rcases List.mem_cons.mp h with rfl | h
      · simp
      · exact ih h
    · rename_i hc
      cases hcs : pieces cs with
      | nil => exact absurd hcs (pieces_ne_nil cs)
      | cons first others =>
        simp only [hcs, List.mem_cons] at h
        rcases h with rfl | h
        · have hfirst := ih (hcs ▸ List.mem_cons_self)
          simp [Ne.symm hc, hfirst]
        · exact ih (hcs ▸ List.mem_cons_of_mem _ h)

/-! ## §3 Names -/

/-- An identifier that a dotted text can spell: it is not empty, has no dot, and neither
begins nor ends with a blank. -/
structure IsWritable (identifier : Name) : Prop where
  ne_empty : identifier ≠ ""
  no_dot : '.' ∉ identifier.toList
  ends : Text.HasSolidEnds identifier.toList

instance (identifier : Name) : Decidable (IsWritable identifier) :=
  decidable_of_iff (identifier ≠ "" ∧ '.' ∉ identifier.toList ∧
      Text.HasSolidEnds identifier.toList)
    ⟨fun h => ⟨h.1, h.2.1, h.2.2⟩, fun h => ⟨h.ne_empty, h.no_dot, h.ends⟩⟩

/-- A name that a dotted text can spell. -/
def IsDottable (n : QualifiedName) : Prop := ∀ identifier ∈ n.segments, IsWritable identifier

instance (n : QualifiedName) : Decidable n.IsDottable :=
  inferInstanceAs (Decidable (∀ identifier ∈ n.segments, IsWritable identifier))

/-- Joining the identifiers and cutting at the dots gives them back. -/
theorem ofDotted_toDotted {n : QualifiedName} (h : n.IsDottable) : ofDotted n.toDotted = n := by
  obtain ⟨segments⟩ := n
  cases segments with
  | nil => rfl
  | cons segment segments =>
    have hpieces : pieces (toDotted ⟨segment :: segments⟩).toList =
        (segment :: segments).map String.toList := by
      rw [toDotted, String.toList_intercalate]
      refine pieces_intercalate (by simp) ?_
      intro part hpart
      obtain ⟨identifier, hidentifier, rfl⟩ := List.mem_map.mp hpart
      exact (h identifier hidentifier).no_dot
    have htrim : ((segment :: segments).map String.toList).map Text.trim =
        (segment :: segments).map String.toList := by
      rw [List.map_map]
      refine List.map_congr_left (fun identifier hidentifier => ?_)
      exact Text.trim_eq_self (h identifier hidentifier).ends
    have hfilter : ((segment :: segments).map String.toList).filter (fun piece => piece ≠ []) =
        (segment :: segments).map String.toList := by
      rw [List.filter_eq_self]
      intro piece hpiece
      obtain ⟨identifier, hidentifier, rfl⟩ := List.mem_map.mp hpiece
      simpa using (h identifier hidentifier).ne_empty
    unfold ofDotted
    rw [hpieces, htrim, hfilter, List.map_map]
    simp [Function.comp_def]

/-- Every identifier that is read off a text can be written in one. -/
theorem isDottable_ofDotted (text : String) : (ofDotted text).IsDottable := by
  intro identifier hidentifier
  obtain ⟨piece, hpiece, rfl⟩ := List.mem_map.mp hidentifier
  obtain ⟨hpiece, hne⟩ := List.mem_filter.mp hpiece
  obtain ⟨part, hpart, rfl⟩ := List.mem_map.mp hpiece
  refine ⟨?_, ?_, ?_⟩
  · simpa using hne
  · rw [String.toList_ofList]
    intro hdot
    exact no_dot_of_mem_pieces hpart (Text.trim_subset part hdot)
  · rw [String.toList_ofList]
    exact Text.trim_hasSolidEnds part

/-- Rendering and reading dotted names are inverse: a name that a dotted text can spell is
read back from its spelling, every text gives such a name, and so no two such names share a
spelling. -/
theorem dotted_inverse :
    (∀ n : QualifiedName, n.IsDottable → ofDotted n.toDotted = n) ∧
    (∀ text : String, (ofDotted text).IsDottable ∧
      ofDotted (ofDotted text).toDotted = ofDotted text) ∧
    ∀ m n : QualifiedName, m.IsDottable → n.IsDottable → m.toDotted = n.toDotted → m = n := by
  refine ⟨fun n hn => ofDotted_toDotted hn, fun text => ?_, fun m n hm hn hsame => ?_⟩
  · have hdottable := isDottable_ofDotted text
    exact ⟨hdottable, ofDotted_toDotted hdottable⟩
  · calc m = ofDotted m.toDotted := (ofDotted_toDotted hm).symm
      _ = ofDotted n.toDotted := by rw [hsame]
      _ = n := ofDotted_toDotted hn

/-- A blank inside an identifier is part of the spelling, and no other name shares it. -/
theorem mapEntry_dotted_inverse :
    IsDottable ⟨["java", "util", "Map Entry"]⟩ ∧
    ofDotted (toDotted ⟨["java", "util", "Map Entry"]⟩) = ⟨["java", "util", "Map Entry"]⟩ ∧
    ∀ m : QualifiedName, m.IsDottable →
      m.toDotted = toDotted ⟨["java", "util", "Map Entry"]⟩ →
      m = ⟨["java", "util", "Map Entry"]⟩ := by
  have hentry : IsDottable ⟨["java", "util", "Map Entry"]⟩ := by decide +kernel
  obtain ⟨hforth, _, hinjective⟩ := dotted_inverse
  exact ⟨hentry, hforth _ hentry, fun m hm hsame => hinjective m _ hm hentry hsame⟩

/-- An empty identifier is lost, so the condition on names is needed. -/
example : ofDotted (toDotted ⟨["java", "", "Map"]⟩) = ⟨["java", "Map"]⟩ := by decide +kernel

end QualifiedName

end JoosStatics

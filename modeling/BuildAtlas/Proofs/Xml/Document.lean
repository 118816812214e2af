import BuildAtlas.Proofs.Text
import BuildAtlas.Xml.Document
import Mathlib.Logic.Relation

/-!
# BuildAtlas.Proofs.Xml.Document

What readers of a document rely on: that its characters are read, and the order of the elements
with one name.

Elements with different names may stand in any order as far as a reader is concerned that looks at
one name at a time (`filter_name_eq_of_eqvGen`).
-/

namespace BuildAtlas.Xml

/-- A document with these characters has the element at its top that is read from them. -/
theorem parse_of_read {text : String} {cs : List Char} {root : Element}
    (htext : text = .ofList cs) (hhead : cs.head? ≠ some '\uFEFF')
    (hread : (read cs).toOption = some root) : parse (Text.withoutMarks text) = .ok root := by
  have hmarks : Text.withoutMarks text = .ofList cs := by
    rw [htext]
    exact Text.withoutMarks_ofList (n := 0) hhead
  rw [hmarks, parse, String.toList_ofList]
  cases hresult : read cs with
  | error stop =>
      rw [hresult] at hread
      exact nomatch hread
  | ok found =>
      rw [hresult] at hread
      rw [Option.some.inj hread]
      rfl

/-! ### Order -/

/-- Two neighbours with different names change places. -/
inductive Exchange : List Element → List Element → Prop
  | swap {before after : List Element} {one other : Element} (h : one.name ≠ other.name) :
      Exchange (before ++ one :: other :: after) (before ++ other :: one :: after)

theorem Exchange.filter_name_eq {elements elements' : List Element}
    (h : Exchange elements elements') (name : String) :
    elements.filter (·.name == name) = elements'.filter (·.name == name) := by
  cases h with
  | @swap before after one other h =>
      rw [List.filter_append, List.filter_append]
      congr 1
      by_cases hone : one.name = name
      · have hother : other.name ≠ name := fun hother => h (hone.trans hother.symm)
        simp [hone, hother]
      · simp [hone, List.filter_cons]

/-- However often neighbours with different names change places, those with one name keep their
order. -/
theorem filter_name_eq_of_eqvGen {elements elements' : List Element}
    (h : Relation.EqvGen Exchange elements elements') (name : String) :
    elements.filter (·.name == name) = elements'.filter (·.name == name) := by
  induction h with
  | rel elements elements' h => exact h.filter_name_eq name
  | refl elements => rfl
  | symm elements elements' _ ih => exact ih.symm
  | trans first second third _ _ ih ih' => exact ih.trans ih'

end BuildAtlas.Xml

import PhpScaffold.Print.File

namespace PhpScaffold

variable (ns : Namespace) (es : Roster Element)

namespace Namespace

theorem shortName_elements : { ns with elements := es : Namespace }.shortName = ns.shortName := rfl

theorem useStatements_elements : { ns with elements := es : Namespace }.useStatements = ns.useStatements := rfl

theorem shortPieces_elements (between : List Char) (ts : List Name.Token) :
    { ns with elements := es : Namespace }.shortPieces between ts = ns.shortPieces between ts := by
  induction ts generalizing between with
  | nil => rfl
  | cons t r ih =>
    cases t with
    | other c => exact ih (between ++ [c])
    | name n =>
      rw [shortPieces, shortPieces, ih, shortName_elements]

end Namespace

namespace Print

open Namespace (shortName_elements shortPieces_elements)

mutual

theorem value_elements : ∀ v, value { ns with elements := es } v = value ns v
  | .null => rfl
  | .bool b => rfl
  | .int n => rfl
  | .float x => rfl
  | .text s => rfl
  | .literal code => rfl
  | .classReference name => rfl
  | .list vs => by rw [value, value, values_elements vs]
  | .tuple vs => by rw [value, value, values_elements vs]
  | .dict es => by rw [value, value, entries_elements es]
  | .bytes _ => rfl
  | .set _ => rfl
  | .date _ => rfl
  | .moment _ => rfl
  | .again _ => rfl
  | .foreign _ => rfl

theorem values_elements : ∀ vs, values { ns with elements := es } vs = values ns vs
  | [] => rfl
  | v :: r => by rw [values, values, value_elements v, values_elements r]

theorem entries_elements : ∀ fs, entries { ns with elements := es } fs = entries ns fs
  | [] => rfl
  | (k, v) :: r => by rw [entries, entries, value_elements k, value_elements v, entries_elements r]

end

theorem writeType?_elements (type nullable : Value) :
    writeType? { ns with elements := es } type nullable = writeType? ns type nullable := by
  simp only [writeType?, typeText, shortPieces_elements]
  rfl

theorem attr_elements : attr { ns with elements := es } = attr ns := by
  funext a
  have each : argument { ns with elements := es } = argument ns := by
    funext e
    rw [argument, argument, value_elements]
  simp only [attr, shortName_elements, each, values_elements]

theorem annotated_elements : annotated { ns with elements := es } = annotated ns := by
  funext a
  simp only [annotated, header, attr_elements]

theorem enumCase_elements : enumCase { ns with elements := es } = enumCase ns := by
  funext c
  simp only [enumCase, annotated_elements, value_elements]

theorem constant_elements : constant { ns with elements := es } = constant ns := by
  funext c
  simp only [constant, annotated_elements, value_elements]

theorem property_elements : property { ns with elements := es } = property ns := by
  funext p
  simp only [property, header, attr_elements, writeType?_elements, value_elements]

theorem parameter_elements : parameter { ns with elements := es } = parameter ns := by
  funext p
  simp only [parameter, attr_elements, writeType?_elements, value_elements]

theorem method_elements : method { ns with elements := es } = method ns := by
  funext bodyless m
  simp only [method, header, attr_elements, writeType?_elements, parameter_elements]

theorem element_elements (layout : Except Fault Layout) :
    element layout { ns with elements := es } = element layout ns := by
  funext e
  simp only [element, sections, elementHeader, attr_elements, enumCase_elements, constant_elements, property_elements,
    method_elements, shortName_elements]

end Print

end PhpScaffold
